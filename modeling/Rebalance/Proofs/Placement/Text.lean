import Rebalance.Placement.Text
import Rebalance.Proofs.Json.Grammar
import Rebalance.Proofs.Trace.Reading

/-!
The JSON text of a placement reads back as the placement. It names each host once and lists each
of its partitions once. Other texts may repeat both; what is read from them fits its words, so
that writing it and reading it again changes nothing more.
-/

namespace Rebalance

namespace Placement

open Json Trace

def Fits (placement : Placement) : Prop :=
  ∀ entry ∈ placement.hosts.entries, IsWord entry.1 ∧ ∀ partition ∈ entry.2, IsWord partition

theorem escapeChar_digit {c : Char} (digit : Decimal.isDigit c = true) : escapeChar c = [c] := by
  have bounds := Bool.and_eq_true_iff.1 digit
  have printed : 48 ≤ c.toNat := of_decide_eq_true bounds.1
  unfold escapeChar
  split
  case h_8 => rw [if_neg (by omega)]
  all_goals exact absurd digit (by decide)

theorem escape_digits (n : Nat) : escape (Decimal.digits n) = Decimal.digits n := by
  have each : ∀ c ∈ Decimal.digits n, escapeChar c = [c] :=
    fun _ member => escapeChar_digit (Decimal.isDigit_of_mem_digits member)
  calc escape (Decimal.digits n)
      = (Decimal.digits n).flatMap fun c => [c] := List.flatMap_congr each
    _ = Decimal.digits n := List.flatMap_singleton' _

def hostName (host : HostId) : String := String.ofList (Decimal.digits host)

theorem isPlain_hostName (host : HostId) : IsPlain (hostName host) := by
  rw [IsPlain, hostName, String.toList_ofList, escape_digits]

def partitionsValue (partitions : IdSet) : Value := .array (partitions.toList.map wordValue)

def hostField (entry : HostId × IdSet) : String × Value :=
  (hostName entry.1, partitionsValue entry.2)

def value (placement : Placement) : Value :=
  .object (rawFields (placement.hosts.entries.map hostField))

theorem spells_partitions (partitions : IdSet) :
    Spells ('[' :: separated (partitions.toList.map Decimal.digits) ++ [']'])
      (partitionsValue partitions).tokens := by
  apply spells_inBrackets
  rw [List.forall₂_map_left_iff, List.forall₂_map_right_iff, List.forall₂_same]
  intro partition _
  rw [wordValue, Value.tokens]
  exact spells_digits partition

theorem spellsField_hostJson (entry : HostId × IdSet) :
    SpellsField (hostJson entry) (hostField entry) := by
  have written := spellsField (isPlain_hostName entry.1) (spells_partitions entry.2)
  simpa [fieldName, hostField, hostName, hostJson] using written

theorem spells_json (placement : Placement) : Spells placement.json placement.value.tokens := by
  apply spells_inBraces
  rw [List.forall₂_map_left_iff, List.forall₂_map_right_iff, List.forall₂_same]
  exact fun entry _ => spellsField_hostJson entry

theorem hostOfName_digits {host : HostId} (fits : IsWord host) :
    hostOfName (Decimal.digits host) = some host := by
  rw [hostOfName, Decimal.read?_digits, Option.bind_some]
  exact if_pos fits

theorem partitionsOfValue_partitionsValue {partitions : IdSet}
    (fits : ∀ partition ∈ partitions, IsWord partition) :
    partitionsOfValue (partitionsValue partitions) = some partitions := by
  have read : (partitions.toList.map wordValue).mapM Value.word? = some partitions.toList := by
    rw [mapM_eq_some_iff, List.forall₂_map_left_iff, List.forall₂_same]
    exact fun partition listed => word?_wordValue (fits partition listed)
  rw [partitionsOfValue, partitionsValue, Value.items?, Option.bind_some, read, Option.map_some,
    IdSet.ofList_toList]

theorem ofValue_value {placement : Placement} (fits : placement.Fits) :
    ofValue placement.value = some placement := by
  have read : (rawFields (placement.hosts.entries.map hostField)).mapM hostOfField =
      some placement.hosts.entries := by
    rw [mapM_eq_some_iff, rawFields, List.map_map, List.forall₂_map_left_iff, List.forall₂_same]
    intro entry listed
    obtain ⟨host, partitions⟩ := fits entry listed
    simp only [Function.comp_apply, hostField, hostName, hostOfField, String.toList_ofList,
      hostOfName_digits host, partitionsOfValue_partitionsValue partitions]
  rw [value, ofValue, read, Option.map_some, IdMap.ofList_entries]

theorem parse_json {placement : Placement} (fits : placement.Fits) :
    parse placement.json = some placement := by
  rw [parse, (spells_json placement).parse_eq, Option.bind_some, ofValue_value fits]

section Read
variable {name : List Char} {host : HostId} {read : Value} {partitions : IdSet}

theorem isWord_of_word? {n : Nat} (found : read.word? = some n) : IsWord n := by
  unfold Value.word? at found
  split at found
  · split at found
    · next inside =>
      cases found
      have below := of_decide_eq_true (Bool.and_eq_true_iff.1 inside).2
      have room : Int.pow 2 64 = (wordMax : Int) + 1 := by decide
      rw [IsWord]
      omega
    · cases found
  · cases found

theorem isWord_of_hostOfName (found : hostOfName name = some host) : IsWord host := by
  obtain ⟨number, _, kept⟩ := Option.bind_eq_some_iff.1 found
  split at kept
  · next small =>
    cases kept
    exact small
  · cases kept

theorem isWord_of_partitionsOfValue (found : partitionsOfValue read = some partitions) :
    ∀ partition ∈ partitions, IsWord partition := by
  obtain ⟨numbers, listed, rfl⟩ := Option.map_eq_some_iff.1 found
  obtain ⟨items, _, each⟩ := Option.bind_eq_some_iff.1 listed
  intro partition member
  obtain ⟨item, _, here⟩ := exists_of_forall₂ (mapM_eq_some_iff.1 each).flip
    (IdSet.mem_ofList.1 member)
  exact isWord_of_word? here

theorem fits_of_ofValue {placement : Placement} (found : ofValue read = some placement) :
    placement.Fits := by
  unfold ofValue at found
  split at found
  · next fields =>
    obtain ⟨hosts, each, rfl⟩ := Option.map_eq_some_iff.1 found
    rintro ⟨host, partitions⟩ listed
    have answered : (IdMap.ofList hosts).get? host = some partitions :=
      IdMap.get?_eq_some_iff.2 listed
    obtain ⟨field, _, here⟩ := exists_of_forall₂ (mapM_eq_some_iff.1 each).flip
      (IdMap.mem_of_get?_ofList answered)
    unfold hostOfField at here
    split at here
    · next named held =>
      cases here
      exact ⟨isWord_of_hostOfName named, isWord_of_partitionsOfValue held⟩
    · cases here
  · cases found

theorem fits_of_parse {text : List Char} {placement : Placement}
    (found : parse text = some placement) : placement.Fits := by
  obtain ⟨read, _, same⟩ := Option.bind_eq_some_iff.1 found
  exact fits_of_ofValue same

end Read

/-- The text of a placement is read as the placement. Also what is read from any other text is
read again from its own. -/
theorem json_round_trip :
    (∀ placement : Placement, placement.Fits → parse placement.json = some placement) ∧
      ∀ (text : List Char) (placement : Placement), parse text = some placement →
        parse placement.json = some placement :=
  ⟨fun _ => parse_json, fun _ _ found => parse_json (fits_of_parse found)⟩

/-- An empty host, a partition on two hosts and the largest numbers; and a text with blanks, a
host and a partition twice and both out of order, of which the last counts. -/
theorem json_round_trip_largest :
    let placement : Placement :=
      ⟨.ofList [(0, {}), (3, .ofList [0, 7]), (wordMax, .ofList [7, wordMax])]⟩
    let text := "\x7b \"3\":[1],\"2\" : [ ],\"3\":[9,5 , 5] \x7d".toList
    let other : Placement := ⟨.ofList [(2, {}), (3, .ofList [5, 9])]⟩
    placement.Fits ∧ parse placement.json = some placement ∧
      placement.json = ("\x7b\"0\":[],\"3\":[0,7],\"18446744073709551615\":" ++
        "[7,18446744073709551615]\x7d").toList ∧
      parse text = some other ∧ parse other.json = some other ∧
      other.json = "\x7b\"2\":[],\"3\":[5,9]\x7d".toList := by
  intro placement text other
  have fits : placement.Fits := by
    unfold Fits
    decide +kernel
  have written : placement.json = ("\x7b\"0\":[],\"3\":[0,7],\"18446744073709551615\":" ++
      "[7,18446744073709551615]\x7d").toList := by decide +kernel
  have read : parse text = some other := by decide +kernel
  exact ⟨fits, json_round_trip.1 placement fits, written, read, json_round_trip.2 text other read,
    by decide +kernel⟩

end Placement

end Rebalance
