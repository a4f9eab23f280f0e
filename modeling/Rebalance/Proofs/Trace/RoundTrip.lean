import Rebalance.Proofs.Trace.Lines
import Rebalance.Proofs.Trace.Reading

/-!
A trace comes back as it was written: each record on a line of its own, no line feed inside a
line, and the same records read in the same order.
-/

namespace Rebalance.Trace

open Json Utf8

theorem printed_escape (chars : List Char) : Printed (escape chars) :=
  fun _ => le_toNat_of_mem_escape

theorem printed_digits (n : Nat) : Printed (Decimal.digits n) := by
  intro c member
  have digit := Decimal.isDigit_of_mem_digits member
  have zero : '0' ≤ c := of_decide_eq_true (Bool.and_eq_true_iff.1 digit).1
  have above : '0'.toNat ≤ c.toNat := zero
  exact Nat.le_trans (by decide) above

theorem printed_integer (n : Int) : Printed (Decimal.integer n) := by
  unfold Decimal.integer
  split
  · exact (printed_digits _).cons (by decide)
  · exact printed_digits _

theorem IsPlain.printed {name : String} (plain : IsPlain name) : Printed name.toList :=
  plain ▸ printed_escape name.toList

theorem IsPlain.printed_fieldName {name : String} (plain : IsPlain name) :
    Printed (fieldName name) := by
  have after : Printed ['"', ':'] := (printed_nil.cons (by decide)).cons (by decide)
  exact (plain.printed.append after).cons (by decide)

theorem printed_bool (b : Bool) : Printed (if b then "true" else "false").toList := by
  have yes : IsPlain "true" := by decide
  have no : IsPlain "false" := by decide
  cases b with
  | true => exact yes.printed
  | false => exact no.printed

theorem printed_commaSeparated {rows : List (List Char)} (each : ∀ row ∈ rows, Printed row) :
    Printed (commaSeparated rows) := by
  cases rows with
  | nil => exact printed_nil
  | cons row rows =>
    obtain ⟨first, others⟩ := List.forall_mem_cons.1 each
    have later : Printed (rows.flatMap (',' :: ·)) := by
      exact List.forall_mem_flatMap.2 fun next member => (others next member).cons (by decide)
    rw [commaSeparated_cons]
    exact first.append later

theorem printed_inBraces {fields : List (List Char)} (each : ∀ field ∈ fields, Printed field) :
    Printed (inBraces fields) :=
  ((printed_commaSeparated each).append (printed_nil.cons (by decide))).cons (by decide)

theorem printed_wordField {name : String} (plain : IsPlain name) (n : Nat) :
    Printed (wordField name n) := plain.printed_fieldName.append (printed_digits n)

theorem printed_signedField {name : String} (plain : IsPlain name) (n : Int) :
    Printed (signedField name n) := plain.printed_fieldName.append (printed_integer n)

theorem printed_writeMessage (message : MessageTiming) : Printed (writeMessage message) := by
  apply printed_inBraces
  simp only [List.forall_mem_cons]
  exact ⟨printed_wordField (by decide) _, printed_wordField (by decide) _,
    printed_signedField (by decide) _, printed_signedField (by decide) _, List.forall_mem_nil _⟩

theorem printed_partitionField (partition : Option PartitionId) :
    ∀ field ∈ partitionField partition, Printed field := by
  intro field member
  obtain ⟨partition, _, rfl⟩ := List.mem_map.1 member
  exact printed_wordField (by decide) partition

theorem printed_messagesField (messages : List MessageTiming) :
    ∀ field ∈ messagesField messages, Printed field := by
  unfold messagesField
  split
  · exact List.forall_mem_nil _
  · have name : IsPlain "messages" := by decide
    have rows : ∀ row ∈ messages.map writeMessage, Printed row :=
      List.forall_mem_map.2 fun message _ => printed_writeMessage message
    have items : Printed ('[' :: commaSeparated (messages.map writeMessage) ++ [']']) :=
      ((printed_commaSeparated rows).cons (by decide)).append (printed_nil.cons (by decide))
    rw [List.forall_mem_singleton]
    exact name.printed_fieldName.append items

/-- A written record is free of control characters, so it stays on one line. -/
theorem printed_writeRecord (record : Record) : Printed (writeRecord record) := by
  have name : IsPlain "procedure" := by decide
  have flag : IsPlain "is_single_partition" := by decide
  have quote : Printed ['"'] := printed_nil.cons (by decide)
  apply printed_inBraces
  simp only [List.forall_mem_append, List.forall_mem_cons]
  refine ⟨⟨⟨⟨?_, ?_, ?_, List.forall_mem_nil _⟩, printed_partitionField _⟩, ?_, ?_, ?_, ?_,
    List.forall_mem_nil _⟩, printed_messagesField _⟩
  · exact printed_wordField (by decide) _
  · exact name.printed_fieldName.append (((printed_escape _).cons (by decide)).append quote)
  · exact flag.printed_fieldName.append (printed_bool _)
  · exact printed_wordField (by decide) _
  · exact printed_wordField (by decide) _
  · exact printed_wordField (by decide) _
  · exact printed_signedField (by decide) _

/-- The line of a record holds that record, wherever it stands in the file. -/
theorem readLine_writeRecord {record : Record} (fits : record.Fits) (number : Nat) :
    readLine number (encode (writeRecord record)) = .ok (some record) := by
  have solid : (writeRecord record).all isBlank = false := rfl
  have parsed := (spells_writeRecord record).parse_eq
  unfold readLine
  simp only [fromUTF8?_encode, String.toList_ofList, solid, parsed, Option.bind_some,
    readRecord_recordValue fits, Bool.false_eq_true, if_false]

theorem bytes_write (records : List Record) :
    (write records).toUTF8.toList =
      (records.map fun record => encode (writeRecord record)).flatMap (· ++ [lineFeed]) := by
  have ended (record : Record) : encode (writeRecord record ++ ['\n']) =
      encode (writeRecord record) ++ [lineFeed] := List.flatMap_append
  rw [write, toList_toUTF8_ofList, encode, List.flatMap_assoc, List.flatMap_map]
  exact congrArg (fun row => records.flatMap row) (funext ended)

/-- Written records come back: they are counted, each stands on a line of its own that holds
nothing else, and reading the bytes gives the same records. -/
theorem read_writeAll (records : List Record) (fits : ∀ record ∈ records, record.Fits) :
    (writeAll records).records = records.length ∧
      (∃ rows : List (List UInt8),
        List.Forall₂ (fun row record =>
          lineFeed ∉ row ∧ ∀ number, readLine number row = .ok (some record)) rows records ∧
        (writeAll records).text.toUTF8.toList = rows.flatMap (· ++ [lineFeed])) ∧
      read (writeAll records).text.toUTF8.toList = .ok records := by
  have row (record : Record) : IsRow (encode (writeRecord record)) :=
    isRow_encode (printed_writeRecord record)
  have held : List.Forall₂ (fun row record => ∀ number, readLine number row = .ok (some record))
      (records.map fun record => encode (writeRecord record)) records := by
    rw [List.forall₂_map_left_iff, List.forall₂_same]
    exact fun record member => readLine_writeRecord (fits record member)
  rw [writeAll_eq]
  refine ⟨rfl, ⟨_, ?_, bytes_write records⟩, ?_⟩
  · rw [List.forall₂_map_left_iff, List.forall₂_same]
    exact fun record member => ⟨(row record).1, readLine_writeRecord (fits record member)⟩
  · have split := lines_rows (List.forall_mem_map.2 fun record (_ : record ∈ records) => row record)
    rw [bytes_write, read, split, readOnto_eq held, List.reverse_nil, List.nil_append]

/-- Numbers at their limits, and a name of quotes, control characters, line ends and letters
beyond ASCII. -/
def extremeRecord : Record :=
  { txnId := wordMax
    procedure := "pay \"all\" \\ \u0000\u001f\u007f\t\r\n\u0085\u2028 ünï 支払 🙂"
    isSingle := true
    partition := some wordMax
    initiatorHost := 0
    initiatorSite := wordMax
    coordinatorSite := 1
    latency := -(Int.pow 2 63)
    messages := [⟨0, wordMax, -(Int.pow 2 63), Int.pow 2 63 - 1⟩, ⟨7, 8, 0, -1⟩] }

def bareRecord : Record := { (default : Record) with latency := Int.pow 2 63 - 1 }

/-- Also at the limits, and again with a bare record before and after. -/
theorem read_writeAll_extremes :
    (∀ record ∈ [bareRecord, extremeRecord, bareRecord], record.Fits) ∧
      (writeAll [bareRecord, extremeRecord, bareRecord]).records = 3 ∧
      read (writeAll [bareRecord, extremeRecord, bareRecord]).text.toUTF8.toList =
        .ok [bareRecord, extremeRecord, bareRecord] := by
  have bare : bareRecord.Fits :=
    { txnId := by decide
      partition := fun _ none => nomatch none
      initiatorHost := by decide
      initiatorSite := by decide
      coordinatorSite := by decide
      latency := by decide
      messages := List.forall_mem_nil _ }
  have extreme : extremeRecord.Fits :=
    { txnId := by decide
      partition := fun _ same => Option.some.inj same ▸ (by decide : IsWord wordMax)
      initiatorHost := by decide
      initiatorSite := by decide
      coordinatorSite := by decide
      latency := by decide
      messages := List.forall_mem_cons.2 ⟨⟨by decide, by decide, by decide, by decide⟩,
        List.forall_mem_singleton.2 ⟨by decide, by decide, by decide, by decide⟩⟩ }
  have fits : ∀ record ∈ [bareRecord, extremeRecord, bareRecord], record.Fits :=
    List.forall_mem_cons.2
      ⟨bare, List.forall_mem_cons.2 ⟨extreme, List.forall_mem_singleton.2 bare⟩⟩
  obtain ⟨counted, _, same⟩ := read_writeAll _ fits
  exact ⟨fits, counted, same⟩

end Rebalance.Trace
