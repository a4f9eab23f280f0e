import Mathlib.Logic.Function.Basic
import Rebalance.Proofs.Sample.Subgroups
import Rebalance.Schedule.Graph

/-!
How a graph grows. Nodes are laid at places, which are the chain of the blocks and the chains of
the partitions within a block. A node that is pushed is laid behind the others of its place, and
its links and those of the node before it are the only ones that are set.
-/

namespace Rebalance

def Linked (step : Nat → Option Nat) : List Nat → Prop
  | [] => True
  | id :: rest => step id = rest.head? ∧ Linked step rest

namespace Linked

variable {step later : Nat → Option Nat} {ids : List Nat} {id : Nat}

theorem congr (linked : Linked step ids) (same : ∀ id ∈ ids, later id = step id) :
    Linked later ids := by
  induction ids with
  | nil => trivial
  | cons first rest ih =>
    rw [List.forall_mem_cons] at same
    exact ⟨same.1.trans linked.1, ih linked.2 same.2⟩

theorem concat (linked : Linked step ids) (distinct : ids.Nodup)
    (ends : ∀ last ∈ ids.getLast?, later last = some id) (unlinked : later id = none)
    (same : ∀ other ∈ ids, ids.getLast? ≠ some other → later other = step other) :
    Linked later (ids ++ [id]) := by
  induction ids with
  | nil => exact ⟨unlinked, trivial⟩
  | cons first rest ih =>
    cases rest with
    | nil => exact ⟨ends first rfl, unlinked, trivial⟩
    | cons second rest =>
      rw [List.nodup_cons] at distinct
      have further : (first :: second :: rest).getLast? ≠ some first := fun last =>
        distinct.1 (List.mem_of_getLast? (by rwa [List.getLast?_cons_cons] at last))
      refine ⟨(same first List.mem_cons_self further).trans linked.1,
        ih linked.2 distinct.2 ?_ fun other member => same other (List.mem_cons_of_mem _ member)⟩
      rwa [List.getLast?_cons_cons] at ends

theorem cons (linked : Linked step ids) (leads : later id = ids.head?)
    (same : ∀ other ∈ ids, later other = step other) : Linked later (id :: ids) :=
  ⟨leads, linked.congr same⟩

theorem step_eq {before after : List Nat} (linked : Linked step (before ++ id :: after)) :
    step id = after.head? := by
  induction before with
  | nil => exact linked.1
  | cons first before ih => exact ih linked.2

theorem inverse {back : Nat → Option Nat} (forth : Linked step ids)
    (linked : Linked back ids.reverse) {other : Nat} (member : id ∈ ids)
    (leads : step id = some other) : back other = some id := by
  obtain ⟨before, after, rfl⟩ := List.append_of_mem member
  rw [forth.step_eq] at leads
  obtain ⟨after, rfl⟩ := List.head?_eq_some_iff.1 leads
  have turned : (before ++ id :: other :: after).reverse =
      after.reverse ++ other :: id :: before.reverse := by simp
  rw [turned] at linked
  exact linked.step_eq

end Linked

def Chain.ofIds (ids : List Nat) : Chain :=
  { head := ids.head?, tail := ids.getLast?, length := ids.length }

theorem Chain.push_ofIds (ids : List Nat) (id : Nat) :
    (Chain.ofIds ids).push id = Chain.ofIds (ids ++ [id]) := by
  unfold push ofIds
  rw [List.getLast?_concat, List.length_append, List.length_singleton, List.head?_append]
  cases ids with
  | nil => rfl
  | cons first rest =>
    rw [List.getLast?_cons]
    rfl

namespace Graph

/-- Where a node is linked: among the blocks, or in the chain of a partition in a block. -/
inductive Place
  | blocks
  | within (block : Nat) (partition : PartitionId)
deriving DecidableEq

def next? (nodes : Array Node) (id : Nat) : Option Nat := (nodes[id]?).bind (·.next)

def previous? (nodes : Array Node) (id : Nat) : Option Nat := (nodes[id]?).bind (·.previous)

def group? (nodes : Array Node) (id : Nat) : Option GroupId :=
  (kind? nodes id).bind NodeKind.group?

section Append

variable {nodes : Array Node} {chain : Chain} {kind : NodeKind} {id : Nat}

theorem size_append (nodes : Array Node) (chain : Chain) (kind : NodeKind) :
    (append nodes chain kind).size = nodes.size + 1 := by
  unfold append link
  cases chain.tail with
  | none => exact Array.size_push ..
  | some tail => simp

theorem getElem?_append (inside : ∀ tail ∈ chain.tail, tail < nodes.size) (kind : NodeKind)
    (id : Nat) : (append nodes chain kind)[id]? =
      if id = nodes.size then some { kind, previous := chain.tail }
      else (nodes[id]?).map fun node =>
        if chain.tail = some id then { node with next := some nodes.size } else node := by
  unfold append link
  cases found : chain.tail with
  | none =>
    simp only [Array.getElem?_push, reduceCtorEq, if_false, Option.map_id']
  | some tail =>
    have before := inside tail found
    simp only [Array.getElem?_modify, Array.getElem?_push, Option.some.injEq]
    by_cases new : id = nodes.size
    · simp [new, Nat.ne_of_lt before]
    · by_cases last : tail = id
      · simp [new, Ne.symm new, last]
      · simp [new, Ne.symm new, last]

theorem kind?_append (inside : ∀ tail ∈ chain.tail, tail < nodes.size) (kind : NodeKind)
    (id : Nat) : kind? (append nodes chain kind) id =
      if id = nodes.size then some kind else kind? nodes id := by
  unfold kind?
  rw [getElem?_append inside]
  split
  · rfl
  · rw [Option.map_map]
    refine congrArg (Option.map · _) (funext fun node => ?_)
    rw [Function.comp_apply]
    split
    · rfl
    · rfl

theorem next?_append (inside : ∀ tail ∈ chain.tail, tail < nodes.size) (kind : NodeKind)
    (id : Nat) : next? (append nodes chain kind) id =
      if chain.tail = some id then some nodes.size else next? nodes id := by
  unfold next?
  rw [getElem?_append inside]
  by_cases last : chain.tail = some id
  · have before := inside id last
    simp only [if_neg (Nat.ne_of_lt before), Array.getElem?_eq_getElem before, if_pos last]
    rfl
  · simp only [if_neg last, Option.map_id']
    split
    · next new =>
      rw [new, Array.getElem?_eq_none (Nat.le_refl _)]
      rfl
    · rfl

theorem previous?_append (inside : ∀ tail ∈ chain.tail, tail < nodes.size) (kind : NodeKind)
    (id : Nat) : previous? (append nodes chain kind) id =
      if id = nodes.size then chain.tail else previous? nodes id := by
  unfold previous?
  rw [getElem?_append inside]
  split
  · rfl
  · rw [Option.bind_map]
    refine congrArg (Option.bind _ ·) (funext fun node => ?_)
    rw [Function.comp_apply]
    split
    · rfl
    · rfl

end Append

def laidWith (laid : Place → List Nat) (place : Place) (id : Nat) : Place → List Nat :=
  Function.update laid place (laid place ++ [id])

section
variable {laid : Place → List Nat} {place other : Place} {id : Nat}

theorem laidWith_self : laidWith laid place id place = laid place ++ [id] :=
  Function.update_self ..

theorem laidWith_of_ne (differs : other ≠ place) : laidWith laid place id other = laid other :=
  Function.update_of_ne differs ..

theorem mem_laidWith {member : Nat} :
    member ∈ laidWith laid place id other ↔ member ∈ laid other ∨ member = id ∧ other = place := by
  by_cases same : other = place
  · rw [same, laidWith_self]
    simp
  · rw [laidWith_of_ne same]
    simp [same]

end

/-- The nodes of an arena, in the order in which they are linked at each place. -/
structure Lines (nodes : Array Node) (laid : Place → List Nat) : Prop where
  covers : ∀ id, id < nodes.size ↔ ∃ place, id ∈ laid place
  apart : ∀ id place other, id ∈ laid place → id ∈ laid other → place = other
  distinct : ∀ place, (laid place).Nodup
  forth : ∀ place, Linked (next? nodes) (laid place)
  back : ∀ place, Linked (previous? nodes) (laid place).reverse

namespace Lines

variable {nodes later : Array Node} {laid : Place → List Nat} {place : Place} {id : Nat}

theorem lt_size (lines : Lines nodes laid) (member : id ∈ laid place) : id < nodes.size :=
  (lines.covers id).2 ⟨place, member⟩

theorem ne_size (lines : Lines nodes laid) (member : id ∈ laid place) : id ≠ nodes.size :=
  Nat.ne_of_lt (lines.lt_size member)

theorem congr (lines : Lines nodes laid) (size : later.size = nodes.size)
    (next : ∀ id, next? later id = next? nodes id)
    (previous : ∀ id, previous? later id = previous? nodes id) : Lines later laid where
  covers id := by rw [size, lines.covers]
  apart := lines.apart
  distinct := lines.distinct
  forth place := (lines.forth place).congr fun id _ => next id
  back place := (lines.back place).congr fun id _ => previous id

theorem new : Lines (#[] : Array Node) fun _ => [] where
  covers id := by simp
  apart _ _ _ member := absurd member List.not_mem_nil
  distinct _ := .nil
  forth _ := trivial
  back _ := trivial

theorem inside {chain : Chain} (lines : Lines nodes laid)
    (tail : chain.tail = (laid place).getLast?) : ∀ last ∈ chain.tail, last < nodes.size :=
  fun _ ends => lines.lt_size (List.mem_of_getLast? (tail.symm.trans ends))

/-- A node that is appended to the chain of a place goes to the end of that place. -/
theorem append {chain : Chain} (lines : Lines nodes laid)
    (tail : chain.tail = (laid place).getLast?) (kind : NodeKind) :
    Lines (Graph.append nodes chain kind) (laidWith laid place nodes.size) where
  covers id := by
    simp only [size_append, Nat.lt_succ_iff_lt_or_eq, lines.covers, mem_laidWith, exists_or,
      exists_and_left, exists_eq, and_true]
  apart id one other here there := by
    rcases mem_laidWith.1 here with old | ⟨new, first⟩
    · rcases mem_laidWith.1 there with older | ⟨new, _⟩
      · exact lines.apart id one other old older
      · exact absurd new (lines.ne_size old)
    · rcases mem_laidWith.1 there with old | ⟨_, second⟩
      · exact absurd new (lines.ne_size old)
      · exact first.trans second.symm
  distinct other := by
    by_cases same : other = place
    · rw [same, laidWith_self, ← List.concat_eq_append]
      exact (lines.distinct place).concat fun member => lines.ne_size member rfl
    · rw [laidWith_of_ne same]
      exact lines.distinct other
  forth other := by
    have next (id : Nat) := next?_append (lines.inside tail) kind id
    by_cases same : other = place
    · rw [same, laidWith_self]
      refine (lines.forth place).concat (lines.distinct place) ?_ ?_ fun id _ further => ?_
      · intro last ends
        rw [next, tail, if_pos (Option.mem_def.1 ends)]
      · have further : chain.tail ≠ some nodes.size := fun last =>
          Nat.lt_irrefl _ (lines.inside tail _ last)
        rw [next, if_neg further]
        exact congrArg (Option.bind · _) (Array.getElem?_eq_none (Nat.le_refl _))
      · rw [next, tail, if_neg further]
    · rw [laidWith_of_ne same]
      refine (lines.forth other).congr fun id member => ?_
      have elsewhere : chain.tail ≠ some id := fun last =>
        same (lines.apart id other place member (List.mem_of_getLast? (tail.symm.trans last)))
      rw [next, if_neg elsewhere]
  back other := by
    have previous (id : Nat) := previous?_append (lines.inside tail) kind id
    have old (place : Place) : ∀ id ∈ (laid place).reverse,
        previous? (Graph.append nodes chain kind) id = previous? nodes id := fun id member =>
      (previous id).trans (if_neg (lines.ne_size (List.mem_reverse.1 member)))
    by_cases same : other = place
    · rw [same, laidWith_self, List.reverse_concat]
      refine (lines.back place).cons ?_ (old place)
      rw [previous, if_pos rfl, tail, List.head?_reverse]
    · rw [laidWith_of_ne same]
      exact (lines.back other).congr (old other)

end Lines

section Modify

variable (nodes : Array Node) (block id : Nat) (kind : NodeKind)

theorem next?_modify :
    next? (nodes.modify block ({ · with kind })) id = next? nodes id := by
  unfold next?
  rw [Array.getElem?_modify]
  split
  · rw [Option.bind_map]
    rfl
  · rfl

theorem previous?_modify :
    previous? (nodes.modify block ({ · with kind })) id = previous? nodes id := by
  unfold previous?
  rw [Array.getElem?_modify]
  split
  · rw [Option.bind_map]
    rfl
  · rfl

theorem kind?_modify : kind? (nodes.modify block ({ · with kind })) id =
    if block = id then (kind? nodes id).map fun _ => kind else kind? nodes id := by
  unfold kind?
  rw [Array.getElem?_modify]
  split
  · rw [Option.map_map, Option.map_map]
    rfl
  · rfl

end Modify

theorem kind?_size (nodes : Array Node) : kind? nodes nodes.size = none :=
  congrArg (Option.map _) (Array.getElem?_eq_none (Nat.le_refl _))

def within? (nodes : Array Node) (block : Nat) (partition : PartitionId) : Option Chain :=
  match kind? nodes block with
  | some (.concurrent chains) => chains.get? partition
  | _ => none

theorem within?_eq {nodes : Array Node} {block : Nat} {chains : IdMap Chain}
    (kind : kind? nodes block = some (.concurrent chains)) (partition : PartitionId) :
    within? nodes block partition = chains.get? partition := by
  unfold within?
  rw [kind]

theorem within?_congr {nodes later : Array Node} {block : Nat}
    (same : kind? later block = kind? nodes block) (partition : PartitionId) :
    within? later block partition = within? nodes block partition := by
  unfold within?
  rw [same]

/-- A node shows a block: a serial one its group, and a concurrent one its chains, by the groups
of the nodes that are laid within it. -/
def Shows (nodes : Array Node) (laid : Place → List Nat) (id : Nat) : Block → Prop
  | .serial group => kind? nodes id = some (.serial group)
  | .concurrent chains => (∃ held, kind? nodes id = some (.concurrent held)) ∧
      ∀ partition, chains.get? partition ≠ some [] ∧
        (laid (.within id partition)).map (group? nodes) =
          ((chains.get? partition).getD []).map some

structure Lays (graph : Graph) (laid : Place → List Nat) (schedule : Schedule) : Prop where
  lines : Lines graph.nodes laid
  chain : graph.chain = Chain.ofIds (laid .blocks)
  held : ∀ block partition, within? graph.nodes block partition =
    if laid (.within block partition) = [] then none
    else some (Chain.ofIds (laid (.within block partition)))
  serial : ∀ block partition, ∀ id ∈ laid (.within block partition),
    ∃ group, group? graph.nodes id = some group
  shown : List.Forall₂ (Shows graph.nodes laid) (laid .blocks) schedule

inductive Opens : NodeKind → Block → Prop
  | serial (group : GroupId) : Opens (.serial group) (.serial group)
  | concurrent : Opens (.concurrent .empty) (.concurrent .empty)

section Steps

variable {nodes later : Array Node} {graph : Graph} {laid after : Place → List Nat}
  {schedule : Schedule} {block : Nat}

theorem Shows.congr {shown : Block} (shows : Shows nodes laid block shown)
    (kind : kind? later block = kind? nodes block)
    (same : ∀ partition, after (.within block partition) = laid (.within block partition))
    (groups : ∀ partition, ∀ id ∈ laid (.within block partition),
      group? later id = group? nodes id) : Shows later after block shown := by
  cases shown with
  | serial group => exact kind.trans shows
  | concurrent chains =>
    obtain ⟨⟨held, found⟩, filled⟩ := shows
    refine ⟨⟨held, kind.trans found⟩, fun partition => ⟨(filled partition).1, ?_⟩⟩
    rw [same, List.map_congr_left (groups partition), (filled partition).2]

theorem Shows.ne_size {shown : Block} (shows : Shows nodes laid block shown) :
    block ≠ nodes.size := by
  rintro rfl
  cases shown with
  | serial group => cases (kind?_size nodes).symm.trans shows
  | concurrent chains =>
    obtain ⟨held, found⟩ := shows.1
    cases (kind?_size nodes).symm.trans found

theorem Opens.within? {kind : NodeKind} {shown : Block} (opens : Opens kind shown)
    (found : kind? nodes block = some kind) (partition : PartitionId) :
    Graph.within? nodes block partition = none := by
  cases opens with
  | serial group =>
    unfold Graph.within?
    rw [found]
  | concurrent => exact within?_eq found partition

theorem Opens.shows {kind : NodeKind} {shown : Block} (opens : Opens kind shown)
    (found : kind? nodes block = some kind)
    (empty : ∀ partition, laid (.within block partition) = []) : Shows nodes laid block shown := by
  cases opens with
  | serial group => exact found
  | concurrent =>
    refine ⟨⟨.empty, found⟩, fun partition => ⟨nofun, ?_⟩⟩
    rw [empty]
    rfl

theorem lays_empty : Lays {} (fun _ => []) [] where
  lines := .new
  chain := rfl
  held _ _ := rfl
  serial _ _ _ member := absurd member List.not_mem_nil
  shown := .nil

namespace Lays

theorem laid_size (lays : Lays graph laid schedule) (partition : PartitionId) :
    laid (.within graph.nodes.size partition) = [] := by
  have held := lays.held graph.nodes.size partition
  unfold within? at held
  rw [kind?_size] at held
  by_contra filled
  rw [if_neg filled] at held
  cases held

theorem push (lays : Lays graph laid schedule) {kind : NodeKind} {shown : Block}
    (opens : Opens kind shown) : Lays (graph.push kind)
      (laidWith laid .blocks graph.nodes.size) (schedule ++ [shown]) := by
  have tail : graph.chain.tail = (laid .blocks).getLast? := congrArg Chain.tail lays.chain
  have kinds (id : Nat) := kind?_append (lays.lines.inside tail) kind id
  have others (block : Nat) (partition : PartitionId) :
      laidWith laid .blocks graph.nodes.size (.within block partition) =
        laid (.within block partition) := laidWith_of_ne nofun
  have groups (partition : PartitionId) (block id : Nat)
      (member : id ∈ laid (.within block partition)) :
      group? (graph.push kind).nodes id = group? graph.nodes id :=
    congrArg (Option.bind · _) ((kinds id).trans (if_neg (lays.lines.ne_size member)))
  have found := (kinds graph.nodes.size).trans (if_pos rfl)
  refine
    { lines := lays.lines.append tail kind
      chain := ?chain
      held := ?held
      serial := ?serial
      shown := ?shown }
  case chain =>
    rw [laidWith_self, ← Chain.push_ofIds, ← lays.chain]
    rfl
  case held =>
    intro block partition
    rw [others]
    by_cases new : block = graph.nodes.size
    · rw [new, lays.laid_size, if_pos rfl]
      exact opens.within? found partition
    · rw [← lays.held]
      exact within?_congr ((kinds block).trans (if_neg new)) partition
  case serial =>
    intro block partition id member
    rw [others] at member
    rw [groups partition block id member]
    exact lays.serial block partition id member
  case shown =>
    rw [laidWith_self, forall₂_concat_iff]
    constructor
    · exact lays.shown.imp fun id shown shows =>
        shows.congr ((kinds id).trans (if_neg shows.ne_size)) (others id)
          fun partition member => groups partition id member
    · exact opens.shows found fun partition => (others _ partition).trans (lays.laid_size partition)

end Lays

section PushInto

variable {held : IdMap Chain} {member : GroupId × PartitionId}

theorem pushInto_eq (found : kind? graph.nodes block = some (.concurrent held)) :
    let chain := (held.get? member.2).getD {}
    let chains := held.insert member.2 (chain.push graph.nodes.size)
    graph.pushInto block member = { graph with
      nodes := (append graph.nodes chain (.serial member.1)).modify block
        ({ · with kind := .concurrent chains }) } := by
  unfold Graph.pushInto
  rw [found]

variable (inside : ∀ tail ∈ ((held.get? member.2).getD {}).tail, tail < graph.nodes.size)
include inside

theorem kind?_pushInto (found : kind? graph.nodes block = some (.concurrent held)) (id : Nat) :
    kind? (graph.pushInto block member).nodes id =
      if id = block then some (.concurrent
        (held.insert member.2 (((held.get? member.2).getD {}).push graph.nodes.size)))
      else if id = graph.nodes.size then some (.serial member.1)
      else kind? graph.nodes id := by
  rw [pushInto_eq found, kind?_modify, kind?_append inside]
  by_cases same : id = block
  · have old : block ≠ graph.nodes.size := by
      rintro rfl
      cases (kind?_size graph.nodes).symm.trans found
    rw [same, if_pos rfl, if_pos rfl, if_neg old, found]
    rfl
  · rw [if_neg same, if_neg (Ne.symm same)]

theorem group?_pushInto (found : kind? graph.nodes block = some (.concurrent held)) (id : Nat) :
    group? (graph.pushInto block member).nodes id =
      if id = graph.nodes.size then some member.1 else group? graph.nodes id := by
  unfold group?
  rw [kind?_pushInto inside found]
  by_cases same : id = block
  · have old : id ≠ graph.nodes.size := by
      rintro rfl
      cases (kind?_size graph.nodes).symm.trans (same ▸ found)
    rw [if_pos same, if_neg old, same, found]
    rfl
  · rw [if_neg same]
    split
    · rfl
    · rfl

end PushInto

namespace Lays

variable {chains : IdMap (List GroupId)}

/-- The chain that is taken out of the last block is that of the nodes laid for its partition. -/
theorem taken (lays : Lays graph laid (schedule ++ [.concurrent chains]))
    (last : (laid .blocks).getLast? = some block) (partition : PartitionId) :
    ∃ held, kind? graph.nodes block = some (.concurrent held) ∧
      (held.get? partition).getD {} = Chain.ofIds (laid (.within block partition)) := by
  obtain ⟨earlier, split⟩ := List.getLast?_eq_some_iff.1 last
  have shown := lays.shown
  rw [split, forall₂_concat_iff] at shown
  obtain ⟨_, ⟨held, found⟩, _⟩ := shown
  refine ⟨held, found, ?_⟩
  rw [← within?_eq found, lays.held]
  split
  · next empty =>
    rw [empty]
    rfl
  · rfl

/-- The member's chain is put back into the block's map, and no other chain is touched. -/
theorem held_pushInto (lays : Lays graph laid schedule) {held : IdMap Chain}
    (found : kind? graph.nodes block = some (.concurrent held)) {member : GroupId × PartitionId}
    (chain : (held.get? member.2).getD {} = Chain.ofIds (laid (.within block member.2)))
    (other : Nat) (partition : PartitionId) :
    let after := laidWith laid (.within block member.2) graph.nodes.size (.within other partition)
    within? (graph.pushInto block member).nodes other partition =
      if after = [] then none else some (Chain.ofIds after) := by
  intro after
  have kinds := kind?_pushInto (lays.lines.inside (congrArg Chain.tail chain)) found other
  by_cases same : other = block
  · rw [if_pos same] at kinds
    rw [within?_eq kinds, IdMap.get?_insert]
    by_cases here : partition = member.2
    · have laid : after = laid (.within block member.2) ++ [graph.nodes.size] := by
        unfold after
        rw [same, here, laidWith_self]
      rw [if_pos here, laid, if_neg (by simp), chain, Chain.push_ofIds]
    · have elsewhere : after = laid (.within block partition) := by
        unfold after
        rw [same, laidWith_of_ne (by simp [here])]
      rw [if_neg here, elsewhere, ← within?_eq found, lays.held]
  · have elsewhere : after = laid (.within other partition) := laidWith_of_ne (by simp [same])
    rw [elsewhere]
    rw [if_neg same] at kinds
    by_cases new : other = graph.nodes.size
    · rw [if_pos new] at kinds
      rw [new, lays.laid_size, if_pos rfl]
      unfold within?
      rw [← new, kinds]
    · rw [if_neg new] at kinds
      rw [← lays.held]
      exact within?_congr kinds partition

/-- A member that is pushed into the last block stands behind the others of its partition. -/
theorem pushInto (lays : Lays graph laid (schedule ++ [.concurrent chains]))
    (last : (laid .blocks).getLast? = some block) (member : GroupId × PartitionId) :
    Lays (graph.pushInto block member)
      (laidWith laid (.within block member.2) graph.nodes.size)
      (schedule ++ [.concurrent
        (chains.upsert member.2 fun chain => chain.getD [] ++ [member.1])]) := by
  obtain ⟨held, found, chain⟩ := lays.taken last member.2
  obtain ⟨earlier, split⟩ := List.getLast?_eq_some_iff.1 last
  have kinds := kind?_pushInto (lays.lines.inside (congrArg Chain.tail chain)) found
  have groups := group?_pushInto (lays.lines.inside (congrArg Chain.tail chain)) found
  have old (block : Nat) (partition : PartitionId) : ∀ id ∈ laid (.within block partition),
      group? (graph.pushInto _ member).nodes id = group? graph.nodes id :=
    fun id laid => (groups id).trans (if_neg (lays.lines.ne_size laid))
  have blocks : laidWith laid (.within block member.2) graph.nodes.size .blocks = laid .blocks :=
    laidWith_of_ne Place.noConfusion
  refine
    { lines := ?lines
      chain := ?chain
      held := lays.held_pushInto found chain
      serial := ?serial
      shown := ?shown }
  case lines =>
    have appended := lays.lines.append (congrArg Chain.tail chain) (.serial member.1)
    rw [pushInto_eq found]
    exact appended.congr (Array.size_modify ..) (fun id => next?_modify ..)
      fun id => previous?_modify ..
  case chain =>
    rw [pushInto_eq found, blocks]
    exact lays.chain
  case serial =>
    intro other partition id listed
    rcases mem_laidWith.1 listed with before | ⟨new, _⟩
    · rw [old other partition id before]
      exact lays.serial other partition id before
    · exact ⟨member.1, (groups id).trans (if_pos new)⟩
  case shown =>
    have distinct := lays.lines.distinct .blocks
    have shown := lays.shown
    rw [split, forall₂_concat_iff] at shown
    rw [split, List.nodup_append] at distinct
    obtain ⟨before, _, filled⟩ := shown
    rw [blocks, split, forall₂_concat_iff]
    constructor
    · -- The earlier blocks are others than the last.
      have others : ∀ id ∈ earlier, id ≠ block := fun id among =>
        distinct.2.2 id among block List.mem_cons_self
      refine ((List.forall₂_and_left _ _).2 ⟨others, before⟩).imp fun id shown both => ?_
      obtain ⟨differs, shows⟩ := both
      refine shows.congr ((kinds id).trans ?_) (fun partition => laidWith_of_ne ?_) (old id)
      · rw [if_neg differs, if_neg shows.ne_size]
      · simp [differs]
    · refine ⟨⟨_, (kinds block).trans (if_pos rfl)⟩, fun partition => ?_⟩
      rw [IdMap.get?_upsert]
      by_cases here : partition = member.2
      · rw [if_pos here, here, laidWith_self, List.map_append, List.map_congr_left (old block _),
          (filled member.2).2, List.map_singleton, groups, if_pos rfl, Option.getD_some,
          List.map_append]
        exact ⟨by simp, rfl⟩
      · rw [if_neg here, laidWith_of_ne (by simp [here]), List.map_congr_left (old block _)]
        exact filled partition

end Lays

def groups (graph : Graph) : List GroupId :=
  (List.range graph.nodes.size).filterMap (group? graph.nodes)

theorem groups_of_new {first second : Graph} (kind : NodeKind)
    (size : second.nodes.size = first.nodes.size + 1)
    (told : ∀ id, group? second.nodes id =
      if id = first.nodes.size then kind.group? else group? first.nodes id) :
    second.groups = first.groups ++ kind.group?.toList := by
  have old : (List.range first.nodes.size).filterMap (group? second.nodes) = first.groups :=
    List.filterMap_congr fun id inside => by
      rw [told, if_neg (Nat.ne_of_lt (List.mem_range.1 inside))]
  rw [groups, size, List.range_succ, List.filterMap_append, old]
  refine congrArg _ ?_
  rw [List.filterMap_cons, List.filterMap_nil, told, if_pos rfl]
  cases kind.group? with
  | none | some => rfl

namespace Lays

theorem groups_push (lays : Lays graph laid schedule) (kind : NodeKind) :
    (graph.push kind).groups = graph.groups ++ kind.group?.toList := by
  refine groups_of_new kind (size_append ..) fun id => ?_
  have kinds := kind?_append (lays.lines.inside (congrArg Chain.tail lays.chain)) kind id
  unfold group? Graph.push
  rw [kinds]
  split
  · rfl
  · rfl

theorem groups_pushInto {chains : IdMap (List GroupId)}
    (lays : Lays graph laid (schedule ++ [.concurrent chains]))
    (last : (laid .blocks).getLast? = some block) (member : GroupId × PartitionId) :
    (graph.pushInto block member).groups = graph.groups ++ [member.1] := by
  obtain ⟨held, found, chain⟩ := lays.taken last member.2
  have told := group?_pushInto (lays.lines.inside (congrArg Chain.tail chain)) found
  refine groups_of_new (.serial member.1) ?_ told
  rw [pushInto_eq found]
  exact (Array.size_modify ..).trans (size_append ..)

end Lays

end Steps

end Graph

end Rebalance
