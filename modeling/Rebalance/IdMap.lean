import Rebalance.IdSet

/-!
Finite maps on identifiers, kept as lists of entries with strictly ascending keys, so that
a map has one list of entries only.
-/

namespace Rebalance

variable {β γ : Type}

def upsertAscending (n : Nat) (f : Option β → β) : List (Nat × β) → List (Nat × β)
  | [] => [(n, f none)]
  | (m, b) :: rest =>
    if n < m then (n, f none) :: (m, b) :: rest
    else if n = m then (m, f (some b)) :: rest
    else (m, b) :: upsertAscending n f rest

theorem fst_mem_upsertAscending {n : Nat} {f : Option β → β} {entries : List (Nat × β)}
    {entry : Nat × β} (member : entry ∈ upsertAscending n f entries) :
    entry.1 = n ∨ ∃ old ∈ entries, old.1 = entry.1 := by
  induction entries with
  | nil => simp [upsertAscending] at member; simp [member]
  | cons head rest ih =>
    obtain ⟨m, b⟩ := head
    unfold upsertAscending at member
    split at member
    · rcases List.mem_cons.1 member with rfl | old
      · exact .inl rfl
      · exact .inr ⟨entry, old, rfl⟩
    · split at member
      · rcases List.mem_cons.1 member with rfl | old
        · exact .inr ⟨(m, b), List.mem_cons_self, rfl⟩
        · exact .inr ⟨entry, List.mem_cons_of_mem _ old, rfl⟩
      · rcases List.mem_cons.1 member with rfl | old
        · exact .inr ⟨(m, b), List.mem_cons_self, rfl⟩
        · rcases ih old with found | ⟨before, present, same⟩
          · exact .inl found
          · exact .inr ⟨before, List.mem_cons_of_mem _ present, same⟩

theorem pairwise_upsertAscending {n : Nat} {f : Option β → β} {entries : List (Nat × β)}
    (sorted : entries.Pairwise (fun a b => a.1 < b.1)) :
    (upsertAscending n f entries).Pairwise (fun a b => a.1 < b.1) := by
  induction entries with
  | nil => simp [upsertAscending]
  | cons head rest ih =>
    obtain ⟨m, b⟩ := head
    rw [List.pairwise_cons] at sorted
    unfold upsertAscending
    split
    · next below =>
      refine List.pairwise_cons.2 ⟨?_, List.pairwise_cons.2 sorted⟩
      intro entry member
      rcases List.mem_cons.1 member with rfl | old
      · exact below
      · exact Nat.lt_trans below (sorted.1 entry old)
    · next notBelow =>
      split
      · exact List.pairwise_cons.2 ⟨sorted.1, sorted.2⟩
      · next differs =>
        refine List.pairwise_cons.2 ⟨?_, ih sorted.2⟩
        intro entry member
        rcases fst_mem_upsertAscending member with new | ⟨old, present, same⟩
        · show m < entry.1
          omega
        · exact same ▸ sorted.1 old present

def entryOf (k : Nat) (entries : List (Nat × β)) : Option (Nat × β) :=
  entries.find? (fun entry => entry.1 == k)

theorem entryOf_cons (k m : Nat) (b : β) (rest : List (Nat × β)) :
    entryOf k ((m, b) :: rest) = if k = m then some (m, b) else entryOf k rest := by
  by_cases same : m = k
  · simp [entryOf, same]
  · simp [entryOf, same, Ne.symm same]

theorem entryOf_eq_none {k : Nat} {entries : List (Nat × β)}
    (above : ∀ entry ∈ entries, k < entry.1) : entryOf k entries = none := by
  refine List.find?_eq_none.2 fun entry member => ?_
  have := above entry member
  simp only [beq_iff_eq]
  omega

theorem eq_of_same_key {entries : List (Nat × β)} {entry other : Nat × β}
    (sorted : entries.Pairwise (fun a b => a.1 < b.1)) (here : entry ∈ entries)
    (there : other ∈ entries) (same : entry.1 = other.1) : entry = other := by
  induction entries with
  | nil => exact absurd here List.not_mem_nil
  | cons head rest ih =>
    rw [List.pairwise_cons] at sorted
    rcases List.mem_cons.1 here with rfl | later
    · rcases List.mem_cons.1 there with rfl | further
      · rfl
      · exact absurd same (Nat.ne_of_lt (sorted.1 other further))
    · rcases List.mem_cons.1 there with rfl | further
      · exact absurd same (Nat.ne_of_gt (sorted.1 entry later))
      · exact ih sorted.2 later further

theorem entryOf_upsertAscending {n k : Nat} {f : Option β → β} {entries : List (Nat × β)}
    (sorted : entries.Pairwise (fun a b => a.1 < b.1)) :
    entryOf k (upsertAscending n f entries) =
      if k = n then some (n, f ((entryOf n entries).map (·.2))) else entryOf k entries := by
  induction entries with
  | nil => rw [upsertAscending, entryOf_cons]; rfl
  | cons head rest ih =>
    obtain ⟨m, b⟩ := head
    rw [List.pairwise_cons] at sorted
    unfold upsertAscending
    split
    · next below =>
      have absent : entryOf n ((m, b) :: rest) = none := by
        refine entryOf_eq_none fun entry member => ?_
        rcases List.mem_cons.1 member with rfl | old
        · exact below
        · exact Nat.lt_trans below (sorted.1 entry old)
      rw [entryOf_cons, absent]
      rfl
    · next notBelow =>
      split
      · next here =>
        subst here
        rw [entryOf_cons, entryOf_cons, entryOf_cons, if_pos rfl]
        split <;> rfl
      · next differs =>
        rw [entryOf_cons, ih sorted.2, entryOf_cons, entryOf_cons, if_neg differs]
        by_cases first : k = m
        · rw [if_pos first, if_pos first, if_neg (first ▸ Ne.symm differs)]
        · rw [if_neg first, if_neg first]

structure IdMap (β : Type) where
  entries : List (Nat × β)
  ascending : entries.Pairwise (fun a b => a.1 < b.1)
deriving DecidableEq

namespace IdMap

def empty : IdMap β := ⟨[], .nil⟩

instance : Inhabited (IdMap β) := ⟨empty⟩
instance : EmptyCollection (IdMap β) := ⟨empty⟩

def get? (map : IdMap β) (n : Nat) : Option β :=
  (entryOf n map.entries).map (·.2)

def contains (map : IdMap β) (n : Nat) : Bool := (map.get? n).isSome

def size (map : IdMap β) : Nat := map.entries.length

def isEmpty (map : IdMap β) : Bool := map.entries.isEmpty

def values (map : IdMap β) : List β := map.entries.map (·.2)

def upsert (map : IdMap β) (n : Nat) (f : Option β → β) : IdMap β :=
  ⟨upsertAscending n f map.entries, pairwise_upsertAscending map.ascending⟩

def insert (map : IdMap β) (n : Nat) (b : β) : IdMap β := map.upsert n (fun _ => b)

def erase (map : IdMap β) (n : Nat) : IdMap β :=
  ⟨map.entries.filter (fun entry => entry.1 != n), map.ascending.filter _⟩

def mapValues (map : IdMap β) (f : Nat → β → γ) : IdMap γ :=
  ⟨map.entries.map (fun entry => (entry.1, f entry.1 entry.2)),
    map.ascending.map _ (fun _ _ below => below)⟩

/-- The entries in order of arrival; of one key the last counts. Starts at the end, so that
ascending entries are put together from their heads. -/
def ofList (entries : List (Nat × β)) : IdMap β :=
  entries.foldr (fun entry map => map.upsert entry.1 (·.getD entry.2)) empty

def keys (map : IdMap β) : IdSet :=
  ⟨map.entries.map (·.1), map.ascending.map _ (fun _ _ below => below)⟩

@[simp] theorem get?_empty (n : Nat) : (empty : IdMap β).get? n = none := rfl

theorem get?_upsert (map : IdMap β) (n k : Nat) (f : Option β → β) :
    (map.upsert n f).get? k = if k = n then some (f (map.get? n)) else map.get? k := by
  unfold get? upsert
  rw [entryOf_upsertAscending map.ascending]
  split <;> rfl

@[simp] theorem get?_insert (map : IdMap β) (n k : Nat) (b : β) :
    (map.insert n b).get? k = if k = n then some b else map.get? k :=
  map.get?_upsert n k _

theorem get?_ofList_cons (entry : Nat × β) (entries : List (Nat × β)) (k : Nat) :
    (ofList (entry :: entries)).get? k =
      if k = entry.1 then some (((ofList entries).get? k).getD entry.2)
      else (ofList entries).get? k := by
  refine (get?_upsert (ofList entries) entry.1 k _).trans ?_
  split
  · next same => rw [same]
  · rfl

@[simp] theorem get?_erase (map : IdMap β) (n k : Nat) :
    (map.erase n).get? k = if k = n then none else map.get? k := by
  unfold get? erase entryOf
  rw [List.find?_filter]
  split
  · next same =>
    subst same
    simp
  · next differs =>
    congr 2
    funext entry
    by_cases here : entry.1 = k <;> simp [here, differs]

@[simp] theorem get?_mapValues (map : IdMap β) (f : Nat → β → γ) (k : Nat) :
    (map.mapValues f).get? k = (map.get? k).map (f k) := by
  unfold get? mapValues entryOf
  rw [List.find?_map]
  simp only [Function.comp_def, Option.map_map]
  cases found : map.entries.find? (fun entry => entry.1 == k) with
  | none => rfl
  | some entry =>
    have key : entry.1 = k := by simpa using List.find?_some found
    simp [key]

theorem get?_eq_some_iff {map : IdMap β} {k : Nat} {b : β} :
    map.get? k = some b ↔ (k, b) ∈ map.entries := by
  unfold get? entryOf
  constructor
  · intro found
    obtain ⟨entry, first, rfl⟩ := Option.map_eq_some_iff.1 found
    have key : entry.1 = k := by simpa using List.find?_some first
    exact key ▸ List.mem_of_find?_eq_some first
  · intro member
    cases first : map.entries.find? (fun entry => entry.1 == k) with
    | none => simpa using List.find?_eq_none.1 first (k, b) member
    | some entry =>
      have same : entry.1 = k := by simpa using List.find?_some first
      simp [eq_of_same_key map.ascending (List.mem_of_find?_eq_some first) member same]

theorem nodup_entries (map : IdMap β) : map.entries.Nodup :=
  map.ascending.imp fun below equal => absurd (equal ▸ below) (Nat.lt_irrefl _)

theorem ext {first second : IdMap β} (same : ∀ k, first.get? k = second.get? k) :
    first = second := by
  have listed : first.entries = second.entries := by
    have members : ∀ entry, entry ∈ first.entries ↔ entry ∈ second.entries := by
      intro entry
      rw [← get?_eq_some_iff, same, get?_eq_some_iff]
    refine List.Perm.eq_of_pairwise ?_ first.ascending second.ascending
      ((List.perm_ext_iff_of_nodup first.nodup_entries second.nodup_entries).2 members)
    intro a b _ _ below above
    exact absurd (Nat.lt_trans below above) (Nat.lt_irrefl _)
  cases first
  cases second
  cases listed
  rfl

theorem length_values (map : IdMap β) : map.values.length = map.size := List.length_map _

theorem mem_values {map : IdMap β} {b : β} : b ∈ map.values ↔ ∃ n, map.get? n = some b := by
  rw [values, List.mem_map]
  constructor
  · rintro ⟨entry, member, rfl⟩
    exact ⟨entry.1, get?_eq_some_iff.2 member⟩
  · rintro ⟨n, found⟩
    exact ⟨(n, b), get?_eq_some_iff.1 found, rfl⟩

theorem values_erase_perm {map : IdMap β} {n : Nat} {b : β} (found : map.get? n = some b) :
    (b :: (map.erase n).values).Perm map.values := by
  have fresh : (n, b) ∉ (map.erase n).entries := by
    rw [← get?_eq_some_iff, get?_erase, if_pos rfl]
    exact nofun
  have parts : ((n, b) :: (map.erase n).entries).Perm map.entries := by
    refine (List.perm_ext_iff_of_nodup (List.nodup_cons.2 ⟨fresh, nodup_entries _⟩)
      map.nodup_entries).2 fun entry => ?_
    rw [List.mem_cons, ← get?_eq_some_iff, get?_erase, ← get?_eq_some_iff]
    by_cases here : entry.1 = n
    · rw [if_pos here, here, found, Option.some.injEq]
      constructor
      · rintro (rfl | lost)
        · rfl
        · cases lost
      · intro same
        exact .inl (Prod.ext here same.symm)
    · rw [if_neg here]
      exact or_iff_right fun same => here (congrArg Prod.fst same)
  exact parts.map Prod.snd

theorem mem_of_get?_ofList {entries : List (Nat × β)} {k : Nat} {b : β}
    (found : (ofList entries).get? k = some b) : (k, b) ∈ entries := by
  induction entries with
  | nil => simp [ofList] at found
  | cons entry entries ih =>
    rw [get?_ofList_cons] at found
    split at found
    · next here =>
      cases later : (ofList entries).get? k with
      | none =>
        rw [later, Option.getD_none, Option.some.injEq] at found
        rw [here, ← found]
        exact List.mem_cons_self
      | some value =>
        rw [later, Option.getD_some] at found
        exact List.mem_cons_of_mem _ (ih (later.trans found))
    · exact List.mem_cons_of_mem _ (ih found)

theorem isSome_get?_ofList {entries : List (Nat × β)} {k : Nat} :
    ((ofList entries).get? k).isSome ↔ ∃ entry ∈ entries, entry.1 = k := by
  induction entries with
  | nil => simp [ofList]
  | cons entry entries ih =>
    simp only [get?_ofList_cons, List.mem_cons, exists_eq_or_imp, ← ih]
    by_cases here : k = entry.1
    · simp [here]
    · simp [here, Ne.symm here]

theorem ofList_entries (map : IdMap β) : ofList map.entries = map := by
  apply ext
  intro k
  cases answer : (ofList map.entries).get? k with
  | some b => exact (get?_eq_some_iff.2 (mem_of_get?_ofList answer)).symm
  | none =>
    cases found : map.get? k with
    | none => rfl
    | some b =>
      have listed : ∃ entry ∈ map.entries, entry.1 = k := ⟨(k, b), get?_eq_some_iff.1 found, rfl⟩
      have answered := isSome_get?_ofList.2 listed
      rw [answer] at answered
      cases answered

theorem mem_keys {map : IdMap β} {k : Nat} : k ∈ map.keys ↔ map.contains k = true := by
  simp [keys, contains, get?, entryOf, IdSet.mem_def]

end IdMap

end Rebalance
