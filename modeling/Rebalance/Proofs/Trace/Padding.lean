import Mathlib.Order.Monotone.Basic
import Rebalance.Proofs.Json.Trailing
import Rebalance.Proofs.Trace.Lines

/-!
Traces that are read piece by piece. What goes up to a line feed is read as it would be alone:
its records come first, and if it fails the rest does not matter. Blank lines and carriage returns
put in later only move the numbers of lines.
-/

namespace Rebalance.Trace

open Utf8

def ReadError.renumber (f : Nat → Nat) : ReadError → ReadError
  | encoding => encoding
  | malformed line => malformed (f line)

section Pieces
variable {front : List UInt8}

theorem readLine_renumber (f : Nat → Nat) (number : Nat) (row : List UInt8) :
    readLine (f number) row = (readLine number row).mapError (·.renumber f) := by
  unfold readLine
  split
  · rfl
  · split
    · rfl
    · split <;> rfl

theorem readOnto_add (done : List Record) (number count : Nat) (rows : List (List UInt8)) :
    readOnto done (number + count) rows =
      (readOnto done number rows).mapError (·.renumber (· + count)) := by
  induction rows generalizing done number with
  | nil => rfl
  | cons row rows ih =>
    rw [readOnto, readOnto, readLine_renumber (· + count)]
    cases readLine number row with
    | error error => rfl
    | ok record =>
      have later := ih (record.toList ++ done) (number + 1)
      rw [Nat.add_right_comm] at later
      exact later

theorem readOnto_done (done : List Record) (number : Nat) (rows : List (List UInt8)) :
    readOnto done number rows = (readOnto [] number rows).map (done.reverse ++ ·) := by
  induction rows generalizing done number with
  | nil => simp [readOnto, Except.map]
  | cons row rows ih =>
    rw [readOnto, readOnto]
    cases readLine number row with
    | error error => rfl
    | ok record =>
      simp only
      rw [ih (record.toList ++ done), ih (record.toList ++ [])]
      cases readOnto [] (number + 1) rows with
      | error error => rfl
      | ok later => simp [Except.map]

theorem readOnto_append (done : List Record) (number : Nat) (first second : List (List UInt8)) :
    readOnto done number (first ++ second) =
      (readOnto done number first).bind fun records =>
        readOnto records.reverse (number + first.length) second := by
  induction first generalizing done number with
  | nil => simp [readOnto, Except.bind]
  | cons row first ih =>
    rw [List.cons_append, readOnto, readOnto]
    cases readLine number row with
    | error error => rfl
    | ok record =>
      have later := ih (record.toList ++ done) (number + 1)
      rw [Nat.add_right_comm] at later
      exact later

/-- Behind whole lines the rest is read as it would be alone, but for the numbers of its lines. -/
theorem read_append (ended : IsEnded front) (back : List UInt8) :
    read (front ++ back) = (read front).bind fun records =>
      ((read back).mapError (·.renumber (· + front.count lineFeed))).map (records ++ ·) := by
  rw [read, read, read, ended.lines_append, readOnto_append, ended.length_lines]
  congr 1
  funext records
  rw [readOnto_done, List.reverse_reverse, readOnto_add]

theorem readLine_line {number line : Nat} {row : List UInt8}
    (failed : readLine number row = .error (.malformed line)) : line = number := by
  unfold readLine at failed
  split at failed
  · cases failed
  · split at failed
    · cases failed
    · split at failed <;> cases failed
      rfl

theorem readOnto_line {done : List Record} {number line : Nat} {rows : List (List UInt8)}
    (failed : readOnto done number rows = .error (.malformed line)) :
    number ≤ line ∧ line < number + rows.length := by
  induction rows generalizing done number with
  | nil => cases failed
  | cons row rows ih =>
    rw [readOnto] at failed
    rw [List.length_cons]
    cases found : readLine number row with
    | error error =>
      rw [found] at failed
      cases failed
      have here := readLine_line found
      omega
    | ok record =>
      rw [found] at failed
      have later := ih failed
      omega

theorem read_line {line : Nat} {bytes : List UInt8}
    (failed : read bytes = .error (.malformed line)) : 1 ≤ line ∧ line ≤ (lines bytes).length := by
  have bounds := readOnto_line failed
  omega

end Pieces

section Rows
variable {row : List UInt8}

theorem readLine_append_return (number : Nat) (row : List UInt8) :
    readLine number (row ++ [carriageReturn]) = readLine number row := by
  cases decoded : String.fromUTF8? ⟨row.toArray⟩ with
  | some text =>
    have same := fromUTF8?_eq_some_iff.1 decoded
    have longer : String.fromUTF8? ⟨(row ++ [carriageReturn]).toArray⟩ =
        some (String.ofList (text.toList ++ ['\r'])) := by
      rw [fromUTF8?_eq_some_iff, String.toList_ofList, encode_append, same]
      rfl
    have blank : (text.toList ++ ['\r']).all isBlank = text.toList.all isBlank := by
      rw [List.all_append]
      exact Bool.and_true _
    have space : Json.isSpace '\r' = true := rfl
    unfold readLine
    simp only [decoded, longer, String.toList_ofList, blank, Json.parse_space space]
  | none =>
    -- a text that ends in a carriage return would still be one without it
    have longer : String.fromUTF8? ⟨(row ++ [carriageReturn]).toArray⟩ = none := by
      rw [Option.eq_none_iff_forall_ne_some]
      intro text found
      obtain ⟨front, _, _, _, same⟩ :=
        exists_of_encode_eq_append (by decide) (fromUTF8?_eq_some_iff.1 found)
      rw [← same, fromUTF8?_encode] at decoded
      cases decoded
    unfold readLine
    rw [decoded, longer]

theorem readLine_chomp (number : Nat) (row : List UInt8) :
    readLine number (chomp row) = readLine number row := by
  rcases eq_chomp_or row with same | ended
  · rw [← same]
  · conv_rhs => rw [ended, readLine_append_return]

theorem readLine_blank (number : Nat) {text : List Char} (blank : text.all isBlank) :
    readLine number (encode text) = .ok none := by
  unfold readLine
  rw [fromUTF8?_encode]
  simp only [String.toList_ofList, if_pos blank]

theorem read_solid (solid : lineFeed ∉ row) : read row = readOnto [] 1 [row] := by
  rw [read, lines_solid solid]
  split
  · next empty =>
    rw [List.isEmpty_iff.1 empty]
    rfl
  · rfl

theorem read_feed (solid : lineFeed ∉ row) : read (row ++ [lineFeed]) = readOnto [] 1 [row] := by
  rw [read, lines_cons solid [], readOnto, readOnto, readLine_chomp]
  rfl

theorem read_return_feed (solid : lineFeed ∉ row) (back : List UInt8) :
    read (row ++ carriageReturn :: lineFeed :: back) = read (row ++ lineFeed :: back) := by
  have marked : lineFeed ∉ row ++ [carriageReturn] := by
    rw [List.mem_append, not_or]
    exact ⟨solid, by decide⟩
  have split := lines_cons marked back
  rw [List.append_assoc, List.singleton_append] at split
  rw [read, read, split, lines_cons solid, readOnto, readOnto, readLine_chomp, readLine_chomp,
    readLine_append_return]

end Rows

def behind (count line : Nat) : Nat := if line ≤ count then line else line + 1

/-- A change to a trace that leaves its records, with the numbers of its lines after it. -/
inductive Padding : List UInt8 → (Nat → Nat) → List UInt8 → Prop where
  /-- A line of nothing but white space. -/
  | blankLine {front : List UInt8} {text : List Char} (ended : IsEnded front)
      (blank : text.all isBlank) (single : '\n' ∉ text) (back : List UInt8) :
      Padding (front ++ back) (behind (front.count lineFeed))
        (front ++ (encode text ++ [lineFeed] ++ back))
  /-- White space after the last line feed. -/
  | blankEnd {front : List UInt8} {text : List Char} (ended : IsEnded front)
      (blank : text.all isBlank) (single : '\n' ∉ text) : Padding front id (front ++ encode text)
  /-- A carriage return before a line feed. -/
  | carriage (front back : List UInt8) :
      Padding (front ++ lineFeed :: back) id (front ++ carriageReturn :: lineFeed :: back)
  /-- A line feed after everything. -/
  | finalFeed (bytes : List UInt8) : Padding bytes id (bytes ++ [lineFeed])

inductive Padded (bytes : List UInt8) : (Nat → Nat) → List UInt8 → Prop where
  | none : Padded bytes id bytes
  | more {f g : Nat → Nat} {middle padded : List UInt8} (earlier : Padded bytes f middle)
      (last : Padding middle g padded) : Padded bytes (g ∘ f) padded

theorem mapError_renumber_id (result : Except ReadError (List Record)) :
    result.mapError (·.renumber id) = result := by
  cases result with
  | error error => cases error <;> rfl
  | ok records => rfl

section Blank
variable {text : List Char} (blank : text.all isBlank) (single : '\n' ∉ text)
include single

theorem lineFeed_not_mem_encode : lineFeed ∉ encode text := by
  intro member
  obtain ⟨c, listed, value⟩ := exists_of_mem_encode (by decide) member
  have feed : c = '\n' := Char.ext (UInt32.toNat_inj.1 value)
  exact single (feed ▸ listed)

include blank

theorem read_blank : read (encode text) = .ok [] := by
  rw [read_solid (lineFeed_not_mem_encode single), readOnto, readLine_blank 1 blank]
  rfl

theorem read_blank_append (back : List UInt8) :
    read (encode text ++ [lineFeed] ++ back) = (read back).mapError (·.renumber (· + 1)) := by
  have solid := lineFeed_not_mem_encode single
  have alone : read (encode text ++ [lineFeed]) = .ok [] := by
    rw [read_feed solid, ← read_solid solid, read_blank blank single]
  have count : (encode text ++ [lineFeed]).count lineFeed = 1 := by
    rw [List.count_append, List.count_eq_zero.2 solid]
    rfl
  rw [read_append (isEnded_append _), alone, count]
  cases read back <;> rfl

end Blank

theorem read_insert_blank {front : List UInt8} {text : List Char} (ended : IsEnded front)
    (blank : text.all isBlank) (single : '\n' ∉ text) (back : List UInt8) :
    read (front ++ (encode text ++ [lineFeed] ++ back)) =
      (read (front ++ back)).mapError (·.renumber (behind (front.count lineFeed))) := by
  rw [read_append ended, read_append ended, read_blank_append blank single]
  cases first : read front with
  | error error =>
    cases error with
    | encoding => rfl
    | malformed line =>
      have bounds := read_line first
      rw [ended.length_lines] at bounds
      have stays : behind (front.count lineFeed) line = line := if_pos bounds.2
      exact congrArg (Except.error ∘ ReadError.malformed) stays.symm
  | ok records =>
    cases second : read back with
    | ok later => rfl
    | error error =>
      cases error with
      | encoding => rfl
      | malformed line =>
        have bounds := read_line second
        have moves : behind (front.count lineFeed) (line + front.count lineFeed) =
            line + 1 + front.count lineFeed := by
          rw [behind, if_neg (by omega)]
          omega
        exact congrArg (Except.error ∘ ReadError.malformed) moves.symm

theorem Padding.read_eq {bytes padded : List UInt8} {f : Nat → Nat}
    (padding : Padding bytes f padded) : read padded = (read bytes).mapError (·.renumber f) := by
  cases padding with
  | blankLine ended blank single back => exact read_insert_blank ended blank single back
  | blankEnd ended blank single =>
    rw [mapError_renumber_id, read_append ended, read_blank blank single]
    cases read bytes with
    | error error => rfl
    | ok records => exact congrArg Except.ok (List.append_nil records)
  | carriage front back =>
    obtain ⟨front, row, ended, solid, rfl⟩ := exists_isEnded front
    rw [mapError_renumber_id, List.append_assoc, List.append_assoc, read_append ended,
      read_append ended, read_return_feed solid]
  | finalFeed =>
    obtain ⟨front, row, ended, solid, rfl⟩ := exists_isEnded bytes
    rw [mapError_renumber_id, List.append_assoc, read_append ended, read_append ended,
      read_feed solid, read_solid solid]

theorem Padding.strictMono {bytes padded : List UInt8} {f : Nat → Nat}
    (padding : Padding bytes f padded) : StrictMono f := by
  cases padding with
  | blankLine =>
    intro line next less
    unfold behind
    split <;> split <;> omega
  | blankEnd => exact strictMono_id
  | carriage => exact strictMono_id
  | finalFeed => exact strictMono_id

theorem Padded.read_eq {bytes padded : List UInt8} {f : Nat → Nat}
    (changes : Padded bytes f padded) :
    StrictMono f ∧ read padded = (read bytes).mapError (·.renumber f) := by
  induction changes with
  | none => exact ⟨strictMono_id, (mapError_renumber_id _).symm⟩
  | @more f g middle padded earlier last ih =>
    refine ⟨last.strictMono.comp ih.1, ?_⟩
    rw [last.read_eq, ih.2]
    cases read bytes with
    | error error => cases error <;> rfl
    | ok records => rfl

/-- A trace is read line by line: whole lines in front are read as they are alone, an error in
them stands, and behind them the rest is read with its lines counted on. Padding a trace renumbers
the lines and nothing else. -/
theorem read_by_lines :
    (∀ front back : List UInt8, IsEnded front →
      (∀ error, read front = .error error → read (front ++ back) = .error error) ∧
      ∀ records, read front = .ok records →
        (∀ later, read back = .ok later → read (front ++ back) = .ok (records ++ later)) ∧
        ∀ error, read back = .error error →
          read (front ++ back) = .error (error.renumber (· + front.count lineFeed))) ∧
    ∀ (bytes padded : List UInt8) (f : Nat → Nat), Padded bytes f padded →
      StrictMono f ∧ read padded = (read bytes).mapError (·.renumber f) := by
  refine ⟨fun front back ended => ⟨fun error failed => ?_, fun records found => ?_⟩,
    fun bytes padded f grown => grown.read_eq⟩
  · rw [read_append ended, failed]
    rfl
  · constructor
    · intro later rest
      rw [read_append ended, found, rest]
      rfl
    · intro error rest
      rw [read_append ended, found, rest]
      rfl

/-- The second line of the rest is not a record. It is the third of the whole, and the fourth once
a line with a tab is put in behind the first. -/
theorem read_by_lines_malformed :
    let record : Record :=
      { txnId := 1, procedure := "P", isSingle := false, partition := none, initiatorHost := 1,
        initiatorSite := 2, coordinatorSite := 3, latency := 5, messages := [] }
    let front := encode "[1,\"P\",false,null,1,2,3,5]\n".toList
    let back := encode "\r\n-\n".toList
    IsEnded front ∧ read front = .ok [record] ∧ read back = .error (.malformed 2) ∧
      read (front ++ back) = .error (.malformed 3) ∧
      read (front ++ (encode ['\t'] ++ [lineFeed] ++ back)) = .error (.malformed 4) := by
  intro record front back
  obtain ⟨pieces, grown⟩ := read_by_lines
  have ended : IsEnded front := isEnded_append (encode "[1,\"P\",false,null,1,2,3,5]".toList)
  have first : read front = .ok [record] := by decide +kernel
  have second : read back = .error (.malformed 2) := by decide +kernel
  have whole : read (front ++ back) = .error (.malformed 3) :=
    ((pieces front back ended).2 [record] first).2 (.malformed 2) second
  have blank : Padding (front ++ back) (behind 1) (front ++ (encode ['\t'] ++ [lineFeed] ++ back)) :=
    .blankLine ended (by decide) (by decide) back
  obtain ⟨_, padded⟩ := grown _ _ _ (.more .none blank)
  rw [whole] at padded
  exact ⟨ended, first, second, whole, padded⟩

end Rebalance.Trace
