import Rebalance.Proofs.Schedule.Links

/-!
What the graphs of a sample's two schedules look like from their links. Every node is on one
chain, the chains are walked from head to tail and back, and a walk reads the schedule from the
graph again.
-/

namespace Rebalance

theorem NodeKind.eq_serial {kind : NodeKind} {group : GroupId} (told : kind.group? = some group) :
    kind = .serial group := by
  cases kind with
  | serial own => exact congrArg NodeKind.serial (Option.some.inj told)
  | concurrent chains => cases told

theorem filterMap_of_forall₂ {α β : Type} {f : α → Option β} {as : List α} {bs : List β}
    (told : List.Forall₂ (fun a b => f a = some b) as bs) : as.filterMap f = bs := by
  induction told with
  | nil => rfl
  | cons here _ ih => rw [List.filterMap_cons, here, ih]

namespace Graph

/-- A walk along links, which ends where there is none. -/
inductive Path (nodes : Array Node) (link : Node → Option Nat) : Option Nat → List Nat → Prop
  | ended : Path nodes link none []
  | step {id : Nat} {node : Node} {ids : List Nat} (found : nodes[id]? = some node)
      (rest : Path nodes link (link node) ids) : Path nodes link (some id) (id :: ids)

theorem path_of_linked {nodes : Array Node} {link : Node → Option Nat} {ids : List Nat}
    (inside : ∀ id ∈ ids, id < nodes.size)
    (linked : Linked (fun id => (nodes[id]?).bind link) ids) : Path nodes link ids.head? ids := by
  induction ids with
  | nil => exact .ended
  | cons id rest ih =>
    rw [List.forall_mem_cons] at inside
    have found := Array.getElem?_eq_getElem inside.1
    obtain ⟨here, later⟩ := linked
    refine .step found ?_
    simp only [found, Option.bind_some] at here
    rw [here]
    exact ih inside.2 later

theorem walkFrom_eq {graph : Graph} {start : Option Nat} {ids : List Nat}
    (path : Path graph.nodes (·.next) start ids) {fuel : Nat} (enough : ids.length ≤ fuel) :
    graph.walkFrom fuel start = ids.filterMap fun id => (graph.nodes[id]?).map (id, ·) := by
  induction path generalizing fuel with
  | ended =>
    cases fuel with
    | zero | succ => rfl
  | step found _ ih =>
    cases fuel with
    | zero => cases enough
    | succ fuel =>
      rw [walkFrom, found, List.filterMap_cons, found]
      exact congrArg _ (ih (Nat.le_of_succ_le_succ enough))

def chainAt (graph : Graph) : Place → Option Chain
  | .blocks => some graph.chain
  | .within block partition => within? graph.nodes block partition

/-- The chains are linked both ways and share no node, and partitions have serial nodes only. -/
structure WellFormed (graph : Graph) : Prop where
  walked : ∀ place, ∀ chain ∈ graph.chainAt place, ∃ ids,
    Path graph.nodes (·.next) chain.head ids ∧
      Path graph.nodes (·.previous) chain.tail ids.reverse ∧
        ids.length = chain.length ∧ ids.getLast? = chain.tail ∧ ids.Nodup ∧
          (graph.walk chain).map (·.1) = ids
  inverse : ∀ a b, next? graph.nodes a = some b ↔ previous? graph.nodes b = some a
  placed : ∀ id < graph.nodes.size, ∃! place, ∃ chain ∈ graph.chainAt place,
    id ∈ (graph.walk chain).map (·.1)
  serial : ∀ block partition, ∀ chain ∈ within? graph.nodes block partition,
    chain.isEmpty = false ∧ ∀ entry ∈ graph.walk chain, ∃ group, entry.2.kind = .serial group

def blockOf (graph : Graph) : NodeKind → Block
  | .serial group => .serial group
  | .concurrent chains => .concurrent (chains.mapValues fun _ chain =>
      (graph.walk chain).filterMap (·.2.kind.group?))

def blocks (graph : Graph) : Schedule :=
  (graph.walk graph.chain).map fun entry => graph.blockOf entry.2.kind

/-- Every group of the sample has one serial node, and there are no others. -/
structure HoldsOnce (graph : Graph) (sample : Sample) : Prop where
  every : ∀ group < sample.size, ∃! id, kind? graph.nodes id = some (.serial group)
  only : ∀ id group, kind? graph.nodes id = some (.serial group) → group < sample.size

namespace Lays

variable {graph : Graph} {laid : Place → List Nat} {schedule : Schedule} {place : Place}

theorem chainAt_eq (lays : Lays graph laid schedule) (place : Place) :
    graph.chainAt place = some (Chain.ofIds (laid place)) ∨
      graph.chainAt place = none ∧ laid place = [] := by
  cases place with
  | blocks => exact .inl (congrArg some lays.chain)
  | within block partition =>
    have held := lays.held block partition
    by_cases empty : laid (.within block partition) = []
    · exact .inr ⟨held.trans (if_pos empty), empty⟩
    · exact .inl (held.trans (if_neg empty))

theorem eq_ofIds (lays : Lays graph laid schedule) {chain : Chain}
    (found : chain ∈ graph.chainAt place) : chain = Chain.ofIds (laid place) := by
  rcases lays.chainAt_eq place with known | ⟨none, _⟩
  · exact Option.some.inj (Option.mem_def.1 found ▸ known)
  · rw [none] at found
    cases found

theorem length_le (lays : Lays graph laid schedule) (place : Place) :
    (laid place).length ≤ graph.nodes.size := by
  have among : (laid place).Subperm (List.range graph.nodes.size) :=
    List.subperm_of_subset (lays.lines.distinct place) fun id member =>
      List.mem_range.2 (lays.lines.lt_size member)
  simpa using among.length_le

theorem path (lays : Lays graph laid schedule) (place : Place) :
    Path graph.nodes (·.next) (laid place).head? (laid place) :=
  path_of_linked (fun _ => lays.lines.lt_size) (lays.lines.forth place)

theorem pathBack (lays : Lays graph laid schedule) (place : Place) :
    Path graph.nodes (·.previous) (laid place).getLast? (laid place).reverse := by
  rw [← List.head?_reverse]
  exact path_of_linked (fun _ member => lays.lines.lt_size (List.mem_reverse.1 member))
    (lays.lines.back place)

theorem walk_eq (lays : Lays graph laid schedule) (place : Place) :
    graph.walk (Chain.ofIds (laid place)) =
      (laid place).filterMap fun id => (graph.nodes[id]?).map (id, ·) :=
  walkFrom_eq (lays.path place) (lays.length_le place)

theorem map_walk (lays : Lays graph laid schedule) (place : Place) :
    (graph.walk (Chain.ofIds (laid place))).map (·.1) = laid place := by
  rw [lays.walk_eq, List.map_filterMap]
  refine (List.filterMap_congr fun id member => ?_).trans List.filterMap_some
  rw [Array.getElem?_eq_getElem (lays.lines.lt_size member)]
  rfl

theorem groups_walk (lays : Lays graph laid schedule) (place : Place) :
    (graph.walk (Chain.ofIds (laid place))).filterMap (·.2.kind.group?) =
      (laid place).filterMap (group? graph.nodes) := by
  rw [lays.walk_eq, List.filterMap_filterMap]
  refine List.filterMap_congr fun id _ => ?_
  rw [group?, kind?, Option.bind_map, Option.bind_map]
  rfl

theorem kind_of_mem_walk (lays : Lays graph laid schedule) {entry : Nat × Node}
    (member : entry ∈ graph.walk (Chain.ofIds (laid place))) :
    entry.1 ∈ laid place ∧ kind? graph.nodes entry.1 = some entry.2.kind := by
  rw [lays.walk_eq] at member
  obtain ⟨id, listed, found⟩ := List.mem_filterMap.1 member
  obtain ⟨node, here, rfl⟩ := Option.map_eq_some_iff.1 found
  exact ⟨listed, congrArg (Option.map _) here⟩

theorem blockOf_eq (lays : Lays graph laid schedule) {block : Nat} {shown : Block}
    (shows : Shows graph.nodes laid block shown) :
    (kind? graph.nodes block).map graph.blockOf = some shown := by
  cases shown with
  | serial group => exact congrArg (Option.map _) shows
  | concurrent chains =>
    obtain ⟨⟨held, found⟩, filled⟩ := shows
    rw [found, Option.map_some, blockOf]
    refine congrArg (fun chains => some (Block.concurrent chains)) (IdMap.ext fun partition => ?_)
    obtain ⟨nonempty, groups⟩ := filled partition
    have listed : (laid (.within block partition)).filterMap (group? graph.nodes) =
        (chains.get? partition).getD [] := by
      have read := congrArg (List.filterMap id) groups
      rwa [List.filterMap_map, List.filterMap_map, Function.id_comp, Function.id_comp,
        List.filterMap_some] at read
    rw [IdMap.get?_mapValues, ← within?_eq found, lays.held]
    by_cases empty : laid (.within block partition) = []
    · rw [empty, List.filterMap_nil] at listed
      rw [if_pos empty]
      cases known : chains.get? partition with
      | none => rfl
      | some groups =>
        rw [known] at nonempty listed
        exact absurd (congrArg some listed.symm) nonempty
    · rw [if_neg empty, Option.map_some, lays.groups_walk, listed]
      cases known : chains.get? partition with
      | none =>
        rw [known] at groups
        exact absurd (List.map_eq_nil_iff.1 groups) empty
      | some groups => rfl

theorem blocks_eq (lays : Lays graph laid schedule) : graph.blocks = schedule := by
  have read : graph.blocks =
      (laid .blocks).filterMap fun id => (kind? graph.nodes id).map graph.blockOf := by
    rw [blocks, lays.chain, lays.walk_eq, List.map_filterMap]
    refine List.filterMap_congr fun id _ => ?_
    rw [kind?, Option.map_map, Option.map_map]
    rfl
  have shown : List.Forall₂ (fun id shown =>
      (kind? graph.nodes id).map graph.blockOf = some shown) (laid .blocks) schedule :=
    lays.shown.imp fun _ _ => lays.blockOf_eq
  rw [read]
  exact filterMap_of_forall₂ shown

theorem wellFormed (lays : Lays graph laid schedule) : graph.WellFormed where
  walked place chain found := by
    refine ⟨laid place, ?_⟩
    rw [lays.eq_ofIds found]
    exact ⟨lays.path place, lays.pathBack place, rfl, rfl, lays.lines.distinct place,
      lays.map_walk place⟩
  inverse a b := by
    constructor
    · intro leads
      obtain ⟨node, found, _⟩ := Option.bind_eq_some_iff.1 leads
      obtain ⟨place, member⟩ := (lays.lines.covers a).1 (Array.getElem?_eq_some_iff.1 found).1
      exact (lays.lines.forth place).inverse (lays.lines.back place) member leads
    · intro leads
      obtain ⟨node, found, _⟩ := Option.bind_eq_some_iff.1 leads
      obtain ⟨place, member⟩ := (lays.lines.covers b).1 (Array.getElem?_eq_some_iff.1 found).1
      have forth := lays.lines.forth place
      rw [← (laid place).reverse_reverse] at forth
      exact (lays.lines.back place).inverse forth (List.mem_reverse.2 member) leads
  placed id inside := by
    obtain ⟨place, member⟩ := (lays.lines.covers id).1 inside
    refine ⟨place, ?_, fun other found => ?_⟩
    · rcases lays.chainAt_eq place with known | ⟨_, empty⟩
      · exact ⟨_, known, (lays.map_walk place).symm ▸ member⟩
      · rw [empty] at member
        exact absurd member List.not_mem_nil
    · obtain ⟨chain, known, listed⟩ := found
      rw [lays.eq_ofIds known, lays.map_walk] at listed
      exact lays.lines.apart id other place listed member
  serial block partition chain found := by
    have here : chain ∈ graph.chainAt (.within block partition) := found
    have known := lays.eq_ofIds here
    have filled : laid (.within block partition) ≠ [] := by
      intro empty
      have held := lays.held block partition
      rw [if_pos empty] at held
      cases held.symm.trans found
    subst known
    refine ⟨?_, fun entry member => ?_⟩
    · simp [Chain.isEmpty, Chain.ofIds, filled]
    · obtain ⟨listed, kind⟩ := lays.kind_of_mem_walk member
      obtain ⟨group, here⟩ := lays.serial block partition _ listed
      rw [group?, kind, Option.bind_some] at here
      exact ⟨group, NodeKind.eq_serial here⟩

end Lays

section Runs

variable {graph : Graph} {laid : Place → List Nat} {schedule : Schedule}

def relisted : Block → Block
  | .serial group => .serial group
  | .concurrent chains => .concurrent (Schedule.chainsOf (members chains))

def groupsOf : Block → List GroupId
  | .serial group => [group]
  | .concurrent chains => (members chains).map (·.1)

theorem Lays.pushMembers {block : Nat} {chains : IdMap (List GroupId)}
    (lays : Lays graph laid (schedule ++ [.concurrent chains]))
    (last : (laid .blocks).getLast? = some block) (members : List (GroupId × PartitionId)) :
    ∃ after, Lays (members.foldl (Graph.pushInto block) graph) after (schedule ++ [.concurrent
        (members.foldl (fun chains member =>
          chains.upsert member.2 fun chain => chain.getD [] ++ [member.1]) chains)]) ∧
      (members.foldl (Graph.pushInto block) graph).groups = graph.groups ++ members.map (·.1) := by
  induction members generalizing graph laid chains with
  | nil => exact ⟨laid, lays, (List.append_nil _).symm⟩
  | cons member members ih =>
    have same : laidWith laid (.within block member.2) graph.nodes.size .blocks = laid .blocks :=
      laidWith_of_ne Place.noConfusion
    obtain ⟨after, more, groups⟩ := ih (lays.pushInto last member) (same ▸ last)
    refine ⟨after, more, groups.trans ?_⟩
    rw [lays.groups_pushInto last, List.append_assoc]
    rfl

theorem Lays.pushBlock (lays : Lays graph laid schedule) (block : Block) :
    ∃ after, Lays (graph.pushBlock block) after (schedule ++ [relisted block]) ∧
      (graph.pushBlock block).groups = graph.groups ++ groupsOf block := by
  cases block with
  | serial group => exact ⟨_, lays.push (.serial group), lays.groups_push _⟩
  | concurrent chains =>
    have opened := lays.push .concurrent
    have last : (laidWith laid .blocks graph.nodes.size .blocks).getLast? =
        some graph.nodes.size := by
      rw [laidWith_self, List.getLast?_concat]
    obtain ⟨after, more, groups⟩ := opened.pushMembers last (members chains)
    refine ⟨after, more, groups.trans ?_⟩
    rw [lays.groups_push]
    exact congrArg (· ++ _) (List.append_nil _)

theorem lays_ofSchedule (schedule : Schedule) :
    ∃ laid, Lays (ofSchedule schedule) laid (schedule.map relisted) ∧
      (ofSchedule schedule).groups = schedule.flatMap groupsOf := by
  induction schedule using List.reverseRecOn with
  | nil => exact ⟨_, lays_empty, rfl⟩
  | append_singleton schedule block ih =>
    obtain ⟨laid, lays, groups⟩ := ih
    obtain ⟨after, more, pushed⟩ := lays.pushBlock block
    refine ⟨after, ?_, ?_⟩
    · rw [ofSchedule, List.foldl_append, List.map_append]
      exact more
    · rw [ofSchedule, List.foldl_append, List.flatMap_append, List.flatMap_singleton, ← groups]
      exact pushed

end Runs

end Graph

namespace Schedule

open Rebalance.Graph

def inChains (entries : List (PartitionId × List GroupId)) : List (GroupId × PartitionId) :=
  entries.flatMap fun entry => entry.2.map fun group => (group, entry.1)

theorem inChains_upsert_perm (group : GroupId) (partition : PartitionId)
    (entries : List (PartitionId × List GroupId)) :
    (inChains (upsertAscending partition (fun chain => chain.getD [] ++ [group]) entries)).Perm
      (inChains entries ++ [(group, partition)]) := by
  have split (other : PartitionId) (chain : List GroupId)
      (rest : List (PartitionId × List GroupId)) :
      inChains ((other, chain) :: rest) = chain.map (·, other) ++ inChains rest :=
    List.flatMap_cons
  induction entries with
  | nil => exact .refl _
  | cons entry rest ih =>
    obtain ⟨other, chain⟩ := entry
    unfold upsertAscending
    split
    · rw [split partition]
      exact List.perm_append_comm
    · split
      · next same =>
        rw [split, split, same, Option.getD_some, List.map_append, List.append_assoc,
          List.append_assoc]
        exact List.perm_append_comm.append_left _
      · rw [split, split, List.append_assoc]
        exact ih.append_left _

theorem members_chainsOf_perm (listed : List (GroupId × PartitionId)) :
    (members (chainsOf listed)).Perm listed := by
  refine (List.mergeSort_perm _ _).trans ?_
  induction listed using List.reverseRecOn with
  | nil => exact .refl _
  | append_singleton listed member ih =>
    rw [chainsOf_concat]
    exact (inChains_upsert_perm member.1 member.2 _).trans (ih.append_right _)

/-- Members that are pushed in the order of their groups are read in the order of their groups. -/
theorem members_chainsOf {listed : List (GroupId × PartitionId)}
    (ascending : listed.Pairwise (·.1 < ·.1)) : members (chainsOf listed) = listed := by
  have perm := members_chainsOf_perm listed
  have sorted : (members (chainsOf listed)).Pairwise (·.1 ≤ ·.1) :=
    (List.pairwise_mergeSort (fun a b c => by simpa using Nat.le_trans)
      (fun a b => by simpa using Nat.le_total a.1 b.1) _).imp of_decide_eq_true
  refine perm.eq_of_pairwise (fun a b here there le ge => ?_) sorted (ascending.imp Nat.le_of_lt)
  exact eq_of_same_key ascending (perm.mem_iff.1 here) there (Nat.le_antisymm le ge)

variable (sample : Sample)

theorem map_fst_singles : (singles sample).map (·.1) = sample.singleIds := by
  rw [singles, List.map_filterMap]
  refine (List.filterMap_congr fun id listed => ?_).trans List.filterMap_some
  obtain ⟨group, found, single⟩ := Sample.mem_singleIds.1 listed
  obtain ⟨partition, touched⟩ := GroupKey.isSingle_iff.1 single
  rw [found, Option.bind_some, touched]
  rfl

theorem pairwise_singles : (singles sample).Pairwise (·.1 < ·.1) := by
  have ascending := sample.isListed.singles
  rwa [← map_fst_singles, List.pairwise_map] at ascending

theorem relisted_chainsOf {listed : List (GroupId × PartitionId)}
    (ascending : listed.Pairwise (·.1 < ·.1)) :
    relisted (.concurrent (chainsOf listed)) = .concurrent (chainsOf listed) := by
  rw [relisted, members_chainsOf ascending]

theorem relisted_serial (ids : List GroupId) :
    (ids.map Block.serial).map relisted = ids.map Block.serial := List.map_map

theorem groupsOf_serial (ids : List GroupId) : (ids.map Block.serial).flatMap groupsOf = ids := by
  rw [List.flatMap_map]
  exact List.flatMap_singleton' ids

theorem relisted_best : (best sample).map relisted = best sample := by
  unfold best
  rw [List.map_append, relisted_serial]
  refine congrArg (· ++ _) ?_
  split
  · rfl
  · exact congrArg ([·]) (relisted_chainsOf (pairwise_singles sample))

theorem groupsOf_best : (best sample).flatMap groupsOf = sample.singleIds ++ sample.multiIds := by
  unfold best
  rw [List.flatMap_append, groupsOf_serial, ← map_fst_singles]
  refine congrArg (· ++ _) ?_
  split
  · next empty =>
    rw [List.isEmpty_iff.1 empty]
    rfl
  · rw [List.flatMap_singleton, groupsOf, members_chainsOf (pairwise_singles sample)]

theorem lone_eq {id : GroupId} (listed : id ∈ sample.singleIds) :
    ∃ partition, (sample.group? id).bind (·.key.partition?) = some partition ∧
      lone sample id = .concurrent (chainsOf [(id, partition)]) := by
  obtain ⟨group, found, single⟩ := Sample.mem_singleIds.1 listed
  obtain ⟨partition, touched⟩ := GroupKey.isSingle_iff.1 single
  have known : (sample.group? id).bind (·.key.partition?) = some partition := by
    rw [found]
    exact touched
  refine ⟨partition, known, ?_⟩
  unfold lone
  rw [known]

theorem relisted_lone (id : GroupId) : relisted (lone sample id) = lone sample id := by
  unfold lone
  split
  · exact relisted_chainsOf (List.pairwise_singleton _ _)
  · exact relisted_chainsOf .nil

theorem groupsOf_lone {id : GroupId} (listed : id ∈ sample.singleIds) :
    groupsOf (lone sample id) = [id] := by
  obtain ⟨partition, _, alone⟩ := lone_eq sample listed
  rw [alone, groupsOf, members_chainsOf (List.pairwise_singleton _ _)]
  rfl

theorem interleave_eq (singles multis : List GroupId) : interleave sample singles multis =
    (singles.zip multis).flatMap (fun pair => [.serial pair.1, .serial pair.2]) ++
      (singles.drop multis.length).map (lone sample) ++
      (multis.drop singles.length).map .serial := by
  fun_induction interleave sample singles multis with
  | case1 single singles multi multis ih =>
    rw [ih]
    rfl
  | case2 multis => simp
  | case3 singles => simp

theorem relisted_interleave (singles multis : List GroupId) :
    (interleave sample singles multis).map relisted = interleave sample singles multis := by
  fun_induction interleave sample singles multis with
  | case1 single singles multi multis ih =>
    rw [List.map_cons, List.map_cons, ih]
    rfl
  | case2 multis => exact relisted_serial multis
  | case3 singles =>
    rw [List.map_map]
    exact List.map_congr_left fun id _ => relisted_lone sample id

theorem groupsOf_interleave_perm {singles : List GroupId} (multis : List GroupId)
    (listed : ∀ id ∈ singles, id ∈ sample.singleIds) :
    ((interleave sample singles multis).flatMap groupsOf).Perm (singles ++ multis) := by
  fun_induction interleave sample singles multis with
  | case1 single singles multi multis ih =>
    have rest := ih fun id member => listed id (List.mem_cons_of_mem single member)
    exact ((rest.cons multi).trans List.perm_middle.symm).cons single
  | case2 multis => exact .of_eq (groupsOf_serial multis)
  | case3 singles =>
    rw [List.flatMap_map, List.append_nil]
    have alone : singles.flatMap (fun id => groupsOf (lone sample id)) =
        singles.flatMap fun id => [id] :=
      List.flatMap_congr fun id member => groupsOf_lone sample (listed id member)
    rw [alone]
    exact .of_eq (List.flatMap_singleton' singles)

/-- Groups by descending median, and of the same median by ascending index. -/
structure IsRanked (ids ranked : List GroupId) : Prop where
  perm : ranked.Perm ids
  sorted : ranked.Pairwise fun a b => observedMedian sample b < observedMedian sample a ∨
    observedMedian sample a = observedMedian sample b ∧ a < b

theorem isRanked_slowestFirst {ids : List GroupId} (ascending : ids.Pairwise (· < ·)) :
    IsRanked sample ids (slowestFirst sample ids) := by
  have perm := slowestFirst_perm sample ids
  refine ⟨perm, List.pairwise_iff_forall_sublist.2 fun {a b} pair => ?_⟩
  have trans (a b c : GroupId) :
      decide (observedMedian sample b ≤ observedMedian sample a) = true →
        decide (observedMedian sample c ≤ observedMedian sample b) = true →
          decide (observedMedian sample c ≤ observedMedian sample a) = true := by
    simpa using fun first second => Nat.le_trans second first
  have total (a b : GroupId) : (decide (observedMedian sample b ≤ observedMedian sample a) ||
      decide (observedMedian sample a ≤ observedMedian sample b)) = true := by
    simpa using Nat.le_total _ _
  have descending := List.pairwise_iff_forall_sublist.1
    (List.pairwise_mergeSort trans total ids) pair
  rcases Nat.lt_or_eq_of_le (of_decide_eq_true descending) with slower | same
  · exact .inl slower
  · refine .inr ⟨same.symm, ?_⟩
    -- The groups of one median are in the order that they have in the list.
    let tied (id : GroupId) : Bool := observedMedian sample id = observedMedian sample a
    have alike : (ids.filter tied).Pairwise fun a b =>
        decide (observedMedian sample b ≤ observedMedian sample a) = true := by
      refine List.pairwise_of_forall_mem_list fun c first d second => ?_
      have one : observedMedian sample c = observedMedian sample a :=
        of_decide_eq_true (List.mem_filter.1 first).2
      have two : observedMedian sample d = observedMedian sample a :=
        of_decide_eq_true (List.mem_filter.1 second).2
      exact decide_eq_true (Nat.le_of_eq (two.trans one.symm))
    have kept : (ids.filter tied).Sublist ((slowestFirst sample ids).filter tied) := by
      have sub := (List.sublist_mergeSort trans total alike List.filter_sublist).filter tied
      rwa [List.filter_filter, List.filter_congr fun _ _ => Bool.and_self _] at sub
    have equal : ids.filter tied = (slowestFirst sample ids).filter tied :=
      kept.eq_of_length (perm.filter tied).length_eq.symm
    have within : [a, b].Sublist ids := by
      have both : [a, b].filter tied = [a, b] := by simp [tied, same]
      have sub := pair.filter tied
      rw [both, ← equal] at sub
      exact sub.trans List.filter_sublist
    exact List.pairwise_iff_forall_sublist.1 ascending within

end Schedule

namespace Graph

theorem kind?_eq_serial_iff {nodes : Array Node} {id : Nat} {group : GroupId} :
    kind? nodes id = some (.serial group) ↔ group? nodes id = some group := by
  unfold group?
  rw [Option.bind_eq_some_iff]
  constructor
  · exact fun found => ⟨_, found, rfl⟩
  · rintro ⟨kind, found, told⟩
    rw [found, NodeKind.eq_serial told]

theorem lt_size_of_kind? {nodes : Array Node} {id : Nat} {kind : NodeKind}
    (found : kind? nodes id = some kind) : id < nodes.size := by
  obtain ⟨node, here, _⟩ := Option.map_eq_some_iff.1 found
  exact (Array.getElem?_eq_some_iff.1 here).1

theorem holdsOnce_of_perm {graph : Graph} {sample : Sample}
    (perm : graph.groups.Perm (List.range sample.size)) : graph.HoldsOnce sample where
  every group inside := by
    -- The groups are listed without repetition, so no two nodes have one group.
    have distinct {a b : Nat} (below : a < b) (inside : b < graph.nodes.size)
        (first : group? graph.nodes a = some group) (second : group? graph.nodes b = some group) :
        False := by
      have apart := List.pairwise_filterMap.1 (perm.nodup_iff.2 List.nodup_range)
      have differ := List.pairwise_iff_getElem.1 apart a b
        (by simpa using Nat.lt_trans below inside) (by simpa using inside) below
      simp only [List.getElem_range] at differ
      exact differ group first group second rfl
    obtain ⟨id, _, found⟩ := List.mem_filterMap.1 (perm.mem_iff.2 (List.mem_range.2 inside))
    refine ⟨id, kind?_eq_serial_iff.2 found, fun other again => ?_⟩
    rcases Nat.lt_trichotomy other id with below | same | above
    · exact (distinct below (lt_size_of_kind? (kind?_eq_serial_iff.2 found))
        (kind?_eq_serial_iff.1 again) found).elim
    · exact same
    · exact (distinct above (lt_size_of_kind? again) found (kind?_eq_serial_iff.1 again)).elim
  only id group found := by
    have listed : group ∈ graph.groups := List.mem_filterMap.2
      ⟨id, List.mem_range.2 (lt_size_of_kind? found), kind?_eq_serial_iff.1 found⟩
    exact List.mem_range.1 (perm.mem_iff.1 listed)

theorem singleIds_append_multiIds_perm (sample : Sample) :
    (sample.singleIds ++ sample.multiIds).Perm (List.range sample.size) := by
  have listed := sample.isListed
  have distinct : (sample.singleIds ++ sample.multiIds).Nodup :=
    List.Nodup.append (listed.singles.imp Nat.ne_of_lt) (listed.multis.imp Nat.ne_of_lt)
      listed.apart
  refine (List.perm_ext_iff_of_nodup distinct List.nodup_range).2 fun id => ?_
  rw [List.mem_append, List.mem_range]
  exact listed.together id

/-- The graph of a schedule whose blocks are listed as they are pushed. -/
theorem wellFormed_ofSchedule {schedule : Schedule}
    (same : schedule.map relisted = schedule) :
    (ofSchedule schedule).WellFormed ∧ (ofSchedule schedule).blocks = schedule := by
  obtain ⟨laid, lays, _⟩ := lays_ofSchedule schedule
  rw [same] at lays
  exact ⟨lays.wellFormed, lays.blocks_eq⟩

theorem holdsOnce_ofSchedule {sample : Sample} {schedule : Schedule}
    (perm : (schedule.flatMap groupsOf).Perm (sample.singleIds ++ sample.multiIds)) :
    (ofSchedule schedule).HoldsOnce sample := by
  obtain ⟨_, _, groups⟩ := lays_ofSchedule schedule
  refine holdsOnce_of_perm ?_
  rw [groups]
  exact perm.trans (singleIds_append_multiIds_perm sample)

/-- The graphs of the two schedules of a sample are linked properly and hold every group once. The
fastest one is read as one block of all single-partition groups and then the other groups, the
slowest as the groups of both kinds in turn, slowest first, and then the rest one by one. -/
theorem bounds_of_sample (sample : Sample) :
    let best := ofSchedule (.best sample)
    let worst := ofSchedule (.worst sample)
    let singles := idsWhere sample.groups (·.key.isSingle)
    let multis := idsWhere sample.groups (!·.key.isSingle)
    (best.WellFormed ∧ best.HoldsOnce sample) ∧ (worst.WellFormed ∧ worst.HoldsOnce sample) ∧
      (∃ chains, best.blocks =
          (if singles = [] then [] else [.concurrent chains]) ++ multis.map .serial ∧
        ∀ partition, chains.get? partition =
          let on := idsWhere sample.groups (·.key.partition? = some partition)
          if on = [] then none else some on) ∧
      ∃ slowSingles slowMultis,
        Schedule.IsRanked sample singles slowSingles ∧ Schedule.IsRanked sample multis slowMultis ∧
          worst.blocks =
            (slowSingles.zip slowMultis).flatMap (fun pair => [.serial pair.1, .serial pair.2]) ++
              (slowSingles.drop slowMultis.length).map (Schedule.lone sample) ++
              (slowMultis.drop slowSingles.length).map .serial ∧
          ∀ id ∈ singles, ∃ partition,
            (sample.group? id).bind (·.key.partition?) = some partition ∧
              Schedule.lone sample id = .concurrent (IdMap.empty.insert partition [id]) := by
  intro best worst singles multis
  have ones : sample.singleIds = singles := sample.listed_single
  have others : sample.multiIds = multis := sample.listed_multi
  have bestGroups := Schedule.groupsOf_best sample
  have slowOnes := Schedule.slowestFirst_perm sample sample.singleIds
  have slowOthers := Schedule.slowestFirst_perm sample sample.multiIds
  have worstGroups := (Schedule.groupsOf_interleave_perm sample
    (Schedule.slowestFirst sample sample.multiIds) fun id => slowOnes.mem_iff.1).trans
      (slowOnes.append slowOthers)
  obtain ⟨bestFormed, bestRead⟩ := wellFormed_ofSchedule (Schedule.relisted_best sample)
  obtain ⟨worstFormed, worstRead⟩ := wellFormed_ofSchedule (Schedule.relisted_interleave sample
    (Schedule.slowestFirst sample sample.singleIds) (Schedule.slowestFirst sample sample.multiIds))
  refine ⟨⟨bestFormed, holdsOnce_ofSchedule (.of_eq bestGroups)⟩,
    ⟨worstFormed, holdsOnce_ofSchedule worstGroups⟩,
    ⟨Schedule.chainsOf (Schedule.singles sample), ?_, fun partition => ?_⟩,
    Schedule.slowestFirst sample singles, Schedule.slowestFirst sample multis, ?_, ?_, ?_,
    fun id listed => ?_⟩
  · refine bestRead.trans ?_
    have none : (Schedule.singles sample).isEmpty ↔ singles = [] := by
      rw [List.isEmpty_iff, ← ones, ← Schedule.map_fst_singles, List.map_eq_nil_iff]
    unfold Schedule.best
    simp only [none, others]
  · rw [Schedule.get?_chainsOf, Schedule.chainOf_singles]
  · exact Schedule.isRanked_slowestFirst sample (pairwise_idsWhere _ _)
  · exact Schedule.isRanked_slowestFirst sample (pairwise_idsWhere _ _)
  · rw [← ones, ← others]
    exact worstRead.trans (Schedule.interleave_eq ..)
  · rw [← ones] at listed
    exact Schedule.lone_eq sample listed

end Graph

end Rebalance
