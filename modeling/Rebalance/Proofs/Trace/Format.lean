import Mathlib.Data.List.Forall2
import Rebalance.Proofs.Json.Token
import Rebalance.Trace.Format

/-!
What a written record stands for: an object with its fields, those left out that it does not
have. Whatever the order of the fields, a record is read from them by name.
-/

namespace Rebalance.Trace

open Json

theorem commaSeparated_cons (row : List Char) (rows : List (List Char)) :
    commaSeparated (row :: rows) = row ++ rows.flatMap (',' :: ·) := by
  induction rows generalizing row with
  | nil => simp [commaSeparated]
  | cons next rows ih =>
    have first : commaSeparated (row :: next :: rows) =
        row ++ [','] ++ commaSeparated (next :: rows) :=
      List.intercalate_cons_cons
    rw [first, ih, List.flatMap_cons, List.append_assoc]
    rfl

theorem delimited_flatMap (rows : List (List Char)) {rest : List Char}
    (delimited : Delimited rest) : Delimited (rows.flatMap (',' :: ·) ++ rest) := by
  cases rows with
  | nil => exact delimited
  | cons row rows =>
    intro c first
    cases first
    exact .inl rfl

def rawFields (fields : List (String × Value)) : List (List Char × Value) :=
  fields.map fun field => (field.1.toList, field.2)

def SpellsField (row : List Char) (field : String × Value) : Prop :=
  Spells row (.text field.1.toList :: .colon :: field.2.tokens)

def IsPlain (name : String) : Prop := escape name.toList = name.toList

instance (name : String) : Decidable (IsPlain name) :=
  inferInstanceAs (Decidable (escape name.toList = name.toList))

theorem spellsField {name : String} {piece : List Char} {value : Value} (plain : IsPlain name)
    (spells : Spells piece value.tokens) : SpellsField (fieldName name ++ piece) (name, value) := by
  intro rest later delimited scans
  have read := (spells rest later delimited scans).colon.quoted name.toList
  rw [plain] at read
  simpa [fieldName] using read

theorem spells_laterFields {rows : List (List Char)} {fields : List (String × Value)}
    (written : List.Forall₂ SpellsField rows fields) :
    Spells (rows.flatMap (',' :: ·)) (laterFields (rawFields fields)) := by
  induction written with
  | nil => exact fun _ _ _ scans => scans
  | @cons row field rows fields first written ih =>
    intro rest later delimited scans
    have read := first _ _ (delimited_flatMap rows delimited) (ih rest later delimited scans)
    simpa [rawFields, laterFields] using read.comma

theorem spells_laterItems {pieces : List (List Char)} {values : List Value}
    (written : List.Forall₂ (fun piece value => Spells piece value.tokens) pieces values) :
    Spells (pieces.flatMap (',' :: ·)) (laterItems values) := by
  induction written with
  | nil => exact fun _ _ _ scans => scans
  | @cons piece value pieces values first written ih =>
    intro rest later delimited scans
    have read := first _ _ (delimited_flatMap pieces delimited) (ih rest later delimited scans)
    simpa [laterItems] using read.comma

theorem spells_inBraces {rows : List (List Char)} {fields : List (String × Value)}
    (written : List.Forall₂ SpellsField rows fields) :
    Spells (inBraces rows) (Value.object (rawFields fields)).tokens := by
  intro rest later delimited scans
  have ended : Scans ('\x7d' :: rest) (.closing .curly :: later) :=
    scans.mark rfl fun _ => rfl
  have closed : Delimited ('\x7d' :: rest) := by simp [Delimited]
  cases written with
  | nil =>
    have opened : Scans ('\x7b' :: '\x7d' :: rest) (.opening .curly :: .closing .curly :: later) :=
      ended.mark rfl fun _ => rfl
    simpa [inBraces, commaSeparated, rawFields, Value.tokens] using opened
  | @cons row field rows fields first written =>
    have others := spells_laterFields written _ _ closed ended
    have read := first _ _ (delimited_flatMap rows closed) others
    have opened : Scans _ (.opening .curly :: _) := read.mark (c := '\x7b') rfl fun _ => rfl
    simpa [inBraces, commaSeparated_cons, rawFields, Value.tokens] using opened

theorem spells_inBrackets {pieces : List (List Char)} {values : List Value}
    (written : List.Forall₂ (fun piece value => Spells piece value.tokens) pieces values) :
    Spells ('[' :: commaSeparated pieces ++ [']']) (Value.array values).tokens := by
  intro rest later delimited scans
  have ended : Scans (']' :: rest) (.closing .square :: later) := scans.mark rfl fun _ => rfl
  have closed : Delimited (']' :: rest) := by simp [Delimited]
  cases written with
  | nil =>
    have opened : Scans ('[' :: ']' :: rest) (.opening .square :: .closing .square :: later) :=
      ended.mark rfl fun _ => rfl
    simpa [commaSeparated, Value.tokens] using opened
  | @cons piece value pieces values first written =>
    have others := spells_laterItems written _ _ closed ended
    have read := first _ _ (delimited_flatMap pieces closed) others
    have opened : Scans _ (.opening .square :: _) := read.mark (c := '[') rfl fun _ => rfl
    simpa [commaSeparated_cons, Value.tokens] using opened

def wordValue (n : Nat) : Value := .number (some (n : Int))

def messageFields (message : MessageTiming) : List (String × Value) :=
  [ ("sender_site", wordValue message.sender),
    ("receiver_site", wordValue message.receiver),
    ("send_time_ns", .number (some message.sent)),
    ("receive_time_ns", .number (some message.received)) ]

def messageValue (message : MessageTiming) : Value := .object (rawFields (messageFields message))

def recordFields (record : Record) : List (String × Value) :=
  [ ("txn_id", wordValue record.txnId),
    ("procedure", .text (escape record.procedure.toList)),
    ("is_single_partition", .word (if record.isSingle then .true else .false)) ]
    ++ record.partition.toList.map (fun partition => ("partition", wordValue partition))
    ++ [ ("initiator_host", wordValue record.initiatorHost),
         ("initiator_site", wordValue record.initiatorSite),
         ("coordinator_site", wordValue record.coordinatorSite),
         ("latency_ns", .number (some record.latency)) ]
    ++ if record.messages.isEmpty then []
       else [("messages", .array (record.messages.map messageValue))]

def recordValue (record : Record) : Value := .object (rawFields (recordFields record))

theorem spellsField_word {name : String} (plain : IsPlain name) (n : Nat) :
    SpellsField (wordField name n) (name, wordValue n) :=
  spellsField plain (by rw [wordValue, Value.tokens]; exact spells_digits n)

theorem spellsField_signed {name : String} (plain : IsPlain name) (n : Int) :
    SpellsField (signedField name n) (name, .number (some n)) :=
  spellsField plain (by rw [Value.tokens]; exact spells_integer n)

theorem spellsField_bool {name : String} (plain : IsPlain name) (b : Bool) :
    SpellsField (boolField name b) (name, .word (if b then .true else .false)) :=
  spellsField plain (by rw [Value.tokens]; exact spells_bool b)

theorem spellsField_string {name : String} (plain : IsPlain name) (s : String) :
    SpellsField (stringField name s) (name, .text (escape s.toList)) := by
  have meant : Spells ('"' :: escape s.toList ++ ['"']) (Value.text (escape s.toList)).tokens := by
    rw [Value.tokens]
    exact spells_quoted s.toList
  have written := spellsField plain meant
  rwa [← List.append_assoc] at written

theorem spells_writeMessage (message : MessageTiming) :
    Spells (writeMessage message) (messageValue message).tokens := by
  apply spells_inBraces
  exact
    .cons (spellsField_word (by decide) _) <|
    .cons (spellsField_word (by decide) _) <|
    .cons (spellsField_signed (by decide) _) <|
    .cons (spellsField_signed (by decide) _) .nil

theorem written_partition (partition : Option PartitionId) :
    List.Forall₂ SpellsField (partitionField partition)
      (partition.toList.map fun partition => ("partition", wordValue partition)) := by
  cases partition with
  | none => exact .nil
  | some partition => exact .cons (spellsField_word (by decide) partition) .nil

theorem written_messages (messages : List MessageTiming) :
    List.Forall₂ SpellsField (messagesField messages)
      (if messages.isEmpty then [] else [("messages", .array (messages.map messageValue))]) := by
  unfold messagesField
  split
  · exact .nil
  · have each : List.Forall₂ (fun piece value => Spells piece value.tokens)
        (messages.map writeMessage) (messages.map messageValue) := by
      rw [List.forall₂_map_left_iff, List.forall₂_map_right_iff, List.forall₂_same]
      exact fun message _ => spells_writeMessage message
    have plain : IsPlain "messages" := by decide
    have written := spellsField plain (spells_inBrackets each)
    rw [← List.append_assoc] at written
    exact .cons written .nil

theorem spells_writeRecord (record : Record) :
    Spells (writeRecord record) (recordValue record).tokens := by
  apply spells_inBraces
  unfold recordFields
  refine List.rel_append (List.rel_append (List.rel_append ?_ (written_partition _)) ?_)
    (written_messages _)
  · exact
      .cons (spellsField_word (by decide) _) <|
      .cons (spellsField_string (by decide) _) <|
      .cons (spellsField_bool (by decide) _) .nil
  · exact
      .cons (spellsField_word (by decide) _) <|
      .cons (spellsField_word (by decide) _) <|
      .cons (spellsField_word (by decide) _) <|
      .cons (spellsField_signed (by decide) _) .nil

end Rebalance.Trace
