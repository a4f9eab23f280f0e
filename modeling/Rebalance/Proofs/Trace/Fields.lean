import Rebalance.Proofs.Json.Grammar
import Rebalance.Proofs.Trace.Padding
import Rebalance.Proofs.Trace.Reading

/-!
Records by the names of their fields. The fields of a record or a message may stand in any order,
their names in any spelling and others between them; but no known name may occur twice, and a
required one has to occur.
-/

namespace Rebalance.Trace

open Json Utf8

def SpellsName (field : List Char × Value) (named : String × Value) : Prop :=
  unescape field.1 = some named.1.toList ∧ field.2 = named.2

/-- Fields of which those with known names are the given ones, in any order. Of the others it only
matters that their names can be read. -/
def Scattered (known : List String) (given : List (String × Value))
    (fields : List (List Char × Value)) : Prop :=
  ∃ named, List.Forall₂ SpellsName fields named ∧ (named.filter (·.1 ∈ known)).Perm given

section Scattered
variable {known : List String} {given named : List (String × Value)} {name : String}
variable {fields : List (List Char × Value)} {value : Value}

theorem namedFields_eq_some_iff :
    namedFields fields = some named ↔ List.Forall₂ SpellsName fields named := by
  have each (field : List Char × Value) (pair : String × Value) :
      ((unescape field.1).map fun name => (String.ofList name, field.2)) = some pair ↔
        SpellsName field pair := by
    rw [Option.map_eq_some_iff, SpellsName]
    constructor
    · rintro ⟨name, spelt, rfl⟩
      exact ⟨spelt.trans (congrArg some String.toList_ofList.symm), rfl⟩
    · rintro ⟨spelt, same⟩
      exact ⟨_, spelt, Prod.ext String.ofList_toList same⟩
  rw [namedFields, mapM_eq_some_iff]
  simp only [each]

theorem optional_filter (isKnown : name ∈ known) :
    optional name (named.filter (·.1 ∈ known)) = optional name named := by
  have same : (named.filter (·.1 ∈ known)).filter (·.1 = name) = named.filter (·.1 = name) := by
    rw [List.filter_filter]
    refine List.filter_congr fun field _ => ?_
    rw [Bool.and_eq_left_iff_imp, decide_eq_true_eq, decide_eq_true_eq]
    rintro rfl
    exact isKnown
  unfold optional
  rw [same]

theorem optional_of_perm (scattered : (named.filter (·.1 ∈ known)).Perm given)
    (distinct : (given.map (·.1)).Nodup) (isKnown : name ∈ known) (listed : (name, value) ∈ given) :
    optional name named = some (some value) := by
  rw [← optional_filter isKnown]
  exact optional_of_mem (((scattered.map _).nodup_iff).2 distinct) (scattered.mem_iff.2 listed)

theorem optional_of_perm_of_absent (scattered : (named.filter (·.1 ∈ known)).Perm given)
    (isKnown : name ∈ known) (absent : name ∉ given.map (·.1)) :
    optional name named = some none := by
  rw [← optional_filter isKnown]
  exact optional_of_not_mem fun present => absent ((scattered.map _).mem_iff.1 present)

theorem required_of_perm (scattered : (named.filter (·.1 ∈ known)).Perm given)
    (distinct : (given.map (·.1)).Nodup) (isKnown : name ∈ known) (listed : (name, value) ∈ given) :
    required name named = some value := by
  rw [required, optional_of_perm scattered distinct isKnown listed, Option.join_some]

end Scattered

def messageNames : List String :=
  ["sender_site", "receiver_site", "send_time_ns", "receive_time_ns"]

inductive ShowsMessage (message : MessageTiming) : Value → Prop where
  | object {fields : List (List Char × Value)}
      (scattered : Scattered messageNames (messageFields message) fields) :
      ShowsMessage message (.object fields)

inductive ShowsPartition : Option PartitionId → Option Value → Prop where
  | omitted : ShowsPartition none none
  | null : ShowsPartition none (some (.word .null))
  | given (partition : PartitionId) : ShowsPartition (some partition) (some (wordValue partition))

inductive ShowsMessages : List MessageTiming → Option Value → Prop where
  | omitted : ShowsMessages [] none
  | listed {messages : List MessageTiming} {items : List Value}
      (each : List.Forall₂ ShowsMessage messages items) :
      ShowsMessages messages (some (.array items))

/-- The fields of a record, with what is written for its procedure, its partition and its
messages. -/
def shownFields (record : Record) (procedure : List Char) (partition messages : Option Value) :
    List (String × Value) :=
  [ ("txn_id", wordValue record.txnId),
    ("procedure", .text procedure),
    ("is_single_partition", .word (if record.isSingle then .true else .false)) ]
    ++ partition.toList.map (fun value => ("partition", value))
    ++ [ ("initiator_host", wordValue record.initiatorHost),
         ("initiator_site", wordValue record.initiatorSite),
         ("coordinator_site", wordValue record.coordinatorSite),
         ("latency_ns", .number (some record.latency)) ]
    ++ messages.toList.map (fun value => ("messages", value))

inductive ShowsRecord (record : Record) (fields : List (List Char × Value)) : Prop where
  | intro {procedure : List Char} {partition messages : Option Value}
      (spelt : unescape procedure = some record.procedure.toList)
      (split : ShowsPartition record.partition partition)
      (told : ShowsMessages record.messages messages)
      (scattered : Scattered recordNames (shownFields record procedure partition messages) fields)

section Shown
variable {record : Record} {message : MessageTiming} {fields : List (List Char × Value)}

theorem readMessage_of_shows {value : Value} (fits : message.Fits)
    (shows : ShowsMessage message value) : readMessage value = some message := by
  cases shows with
  | @object fields scattered =>
    obtain ⟨named, spelt, perm⟩ := scattered
    have distinct : ((messageFields message).map (·.1)).Nodup := by
      simp only [messageFields, List.map_cons, List.map_nil]
      decide
    have found {name : String} {value : Value} (isKnown : name ∈ messageNames)
        (listed : (name, value) ∈ messageFields message) : required name named = some value :=
      required_of_perm perm distinct isKnown listed
    have sender : required "sender_site" named = some (wordValue message.sender) :=
      found (by simp [messageNames]) (by simp [messageFields])
    have receiver : required "receiver_site" named = some (wordValue message.receiver) :=
      found (by simp [messageNames]) (by simp [messageFields])
    have sent : required "send_time_ns" named = some (.number (some message.sent)) :=
      found (by simp [messageNames]) (by simp [messageFields])
    have received : required "receive_time_ns" named = some (.number (some message.received)) :=
      found (by simp [messageNames]) (by simp [messageFields])
    rw [readMessage, namedFields_eq_some_iff.2 spelt, Option.bind_eq_bind, Option.bind_some, sender,
      Option.bind_eq_bind, Option.bind_some, receiver, Option.bind_some, sent, Option.bind_some,
      received, Option.bind_some, messageOfValues_eq fits]

theorem mapM_readMessage_of_shows {messages : List MessageTiming} {items : List Value}
    (fits : ∀ message ∈ messages, message.Fits)
    (each : List.Forall₂ ShowsMessage messages items) :
    items.mapM readMessage = some messages := by
  have both := (List.forall₂_and_left _ _).2 ⟨fits, each⟩
  exact mapM_eq_some_iff.2 (both.imp fun _ _ known => readMessage_of_shows known.1 known.2).flip

theorem readPartition_of_shows {partition : Option PartitionId} {value : Option Value}
    (fits : ∀ p ∈ partition, IsWord p) (shows : ShowsPartition partition value) :
    readPartition value = some partition := by
  cases shows with
  | omitted => rfl
  | null => rfl
  | given partition => exact @readPartition_eq (some partition) fits

theorem readMessages_of_shows {messages : List MessageTiming} {value : Option Value}
    (fits : ∀ message ∈ messages, message.Fits) (shows : ShowsMessages messages value) :
    readMessages value = some messages := by
  cases shows with
  | omitted => rfl
  | listed each =>
    rw [readMessages, Value.items?, Option.bind_some, mapM_readMessage_of_shows fits each]

variable {procedure : List Char} {partition messages : Option Value}

theorem names_shownFields (record : Record) (procedure : List Char)
    (partition messages : Option Value) :
    ((shownFields record procedure partition messages).map (·.1)).Sublist recordNames := by
  have single (name : String) (value : Option Value) :
      ((value.toList.map fun value => (name, value)).map (·.1)).Sublist [name] := by
    cases value with
    | none => exact List.nil_sublist _
    | some value => exact List.Sublist.refl _
  unfold shownFields
  simp only [List.map_append]
  exact (((List.Sublist.refl _).append (single "partition" partition)).append
    (List.Sublist.refl _)).append (single "messages" messages)

theorem distinct_shownFields (record : Record) (procedure : List Char)
    (partition messages : Option Value) :
    ((shownFields record procedure partition messages).map (·.1)).Nodup := by
  have distinct : recordNames.Nodup := by decide
  exact distinct.sublist (names_shownFields record procedure partition messages)

theorem recordOfValues_of_shows (fits : record.Fits)
    (spelt : unescape procedure = some record.procedure.toList)
    (split : ShowsPartition record.partition partition)
    (told : ShowsMessages record.messages messages) :
    recordOfValues (wordValue record.txnId) (.text procedure)
      (.word (if record.isSingle then .true else .false)) partition
      (wordValue record.initiatorHost) (wordValue record.initiatorSite)
      (wordValue record.coordinatorSite) (.number (some record.latency)) messages =
        some record := by
  have name : (Value.text procedure).string? = some record.procedure := by
    rw [Value.string?, spelt, Option.map_some, String.ofList_toList]
  simp only [recordOfValues, Option.bind_eq_bind, Option.bind_some, Option.pure_def,
    word?_wordValue fits.txnId, name, bool?_word, readPartition_of_shows fits.partition split,
    word?_wordValue fits.initiatorHost, word?_wordValue fits.initiatorSite,
    word?_wordValue fits.coordinatorSite, signedWord?_number fits.latency,
    readMessages_of_shows fits.messages told]

theorem readRecord_of_shows (fits : record.Fits) (shows : ShowsRecord record fields) :
    readRecord (.object fields) = some record := by
  obtain @⟨procedure, partition, messages, spelt, split, told, named, spellsNames, perm⟩ := shows
  have distinct := distinct_shownFields record procedure partition messages
  have found {name : String} {value : Value} (isKnown : name ∈ recordNames)
      (listed : (name, value) ∈ shownFields record procedure partition messages) :
      required name named = some value := required_of_perm perm distinct isKnown listed
  have txnId : required "txn_id" named = some (wordValue record.txnId) :=
    found (by simp [recordNames]) (by simp [shownFields])
  have procedureField : required "procedure" named = some (.text procedure) :=
    found (by simp [recordNames]) (by simp [shownFields])
  have isSingle : required "is_single_partition" named =
    some (.word (if record.isSingle then .true else .false)) :=
      found (by simp [recordNames]) (by simp [shownFields])
  have host : required "initiator_host" named = some (wordValue record.initiatorHost) :=
    found (by simp [recordNames]) (by simp [shownFields])
  have site : required "initiator_site" named = some (wordValue record.initiatorSite) :=
    found (by simp [recordNames]) (by simp [shownFields])
  have coordinator : required "coordinator_site" named = some (wordValue record.coordinatorSite) :=
    found (by simp [recordNames]) (by simp [shownFields])
  have latency : required "latency_ns" named = some (.number (some record.latency)) :=
    found (by simp [recordNames]) (by simp [shownFields])
  have partitionField : optional "partition" named = some partition := by
    have isKnown : "partition" ∈ recordNames := by simp [recordNames]
    cases partition with
    | none =>
      refine optional_of_perm_of_absent perm isKnown ?_
      cases messages <;> simp [shownFields]
    | some value => exact optional_of_perm perm distinct isKnown (by simp [shownFields])
  have messagesField : optional "messages" named = some messages := by
    have isKnown : "messages" ∈ recordNames := by simp [recordNames]
    cases messages with
    | none =>
      refine optional_of_perm_of_absent perm isKnown ?_
      cases partition <;> simp [shownFields]
    | some value => exact optional_of_perm perm distinct isKnown (by simp [shownFields])
  rw [readRecord, namedFields_eq_some_iff.2 spellsNames]
  simp only [Option.bind_eq_bind, Option.bind_some]
  rw [txnId, Option.bind_some, procedureField, Option.bind_some, isSingle, Option.bind_some,
    partitionField, Option.bind_some, host, Option.bind_some, site, Option.bind_some,
    coordinator, Option.bind_some, latency, Option.bind_some, messagesField, Option.bind_some,
    recordOfValues_of_shows fits spelt split told]

end Shown

def occurrences (name : String) (fields : List (List Char × Value)) : Nat :=
  fields.countP fun field => unescape field.1 = some name.toList

def Flawed (known required : List String) (fields : List (List Char × Value)) : Prop :=
  (∃ name ∈ known, 2 ≤ occurrences name fields) ∨ ∃ name ∈ required, occurrences name fields = 0

def requiredNames : List String :=
  [ "txn_id", "procedure", "is_single_partition", "initiator_host", "initiator_site",
    "coordinator_site", "latency_ns" ]

/-- An object that is flawed as a record, or that has a message which is flawed. -/
inductive FlawedRecord (fields : List (List Char × Value)) : Prop where
  | record (flawed : Flawed recordNames requiredNames fields)
  | message {name : List Char} {items : List Value} {inner : List (List Char × Value)}
      (listed : (name, .array items) ∈ fields) (spelt : unescape name = some "messages".toList)
      (item : .object inner ∈ items) (flawed : Flawed messageNames messageNames inner)

section Flaws
variable {name : String} {fields : List (List Char × Value)} {named : List (String × Value)}
variable {known needed : List String}

theorem occurrences_eq (spelt : List.Forall₂ SpellsName fields named) :
    occurrences name fields = (named.filter (·.1 = name)).length := by
  induction spelt with
  | nil => rfl
  | @cons field pair fields named first _ ih =>
    have same : (unescape field.1 = some name.toList) ↔ pair.1 = name := by
      rw [first.1, Option.some.injEq, String.toList_inj]
    unfold occurrences at ih ⊢
    rw [List.countP_cons, ih, List.filter_cons]
    simp only [decide_eq_true_eq, same]
    split
    · rw [List.length_cons]
    · rfl

theorem occurrences_le_one {found : Option Value} (spelt : List.Forall₂ SpellsName fields named)
    (answered : optional name named = some found) : occurrences name fields ≤ 1 := by
  rw [occurrences_eq spelt]
  unfold optional at answered
  split at answered
  · next none =>
    rw [none]
    exact Nat.zero_le _
  · next alone =>
    rw [alone]
    exact Nat.le_refl _
  · cases answered

theorem occurrences_eq_one {found : Value} (spelt : List.Forall₂ SpellsName fields named)
    (answered : required name named = some found) : occurrences name fields = 1 := by
  rw [occurrences_eq spelt]
  unfold required optional at answered
  split at answered
  · cases answered
  · next alone =>
    rw [alone]
    rfl
  · cases answered

/-- Where each known name is answered and each required one with a value, there is no flaw. -/
theorem not_flawed (spelt : List.Forall₂ SpellsName fields named)
    (answered : ∀ name ∈ known, ∃ found, optional name named = some found)
    (filled : ∀ name ∈ needed, ∃ found, required name named = some found) :
    ¬ Flawed known needed fields := by
  rintro (⟨name, isKnown, twice⟩ | ⟨name, isNeeded, absent⟩)
  · obtain ⟨found, here⟩ := answered name isKnown
    have once := occurrences_le_one spelt here
    omega
  · obtain ⟨found, here⟩ := filled name isNeeded
    have once := occurrences_eq_one spelt here
    omega

theorem exists_optional {found : Value} (answered : required name named = some found) :
    ∃ found, optional name named = some found := ⟨some found, Option.join_eq_some_iff.1 answered⟩

theorem optional_eq_of_mem {value : Value} {found : Option Value} (listed : (name, value) ∈ named)
    (answered : optional name named = some found) : found = some value := by
  have member : (name, value) ∈ named.filter (·.1 = name) :=
    List.mem_filter.2 ⟨listed, decide_eq_true rfl⟩
  unfold optional at answered
  split at answered
  · next none => exact absurd (none ▸ member) List.not_mem_nil
  · next field alone =>
    cases answered
    rw [alone, List.mem_singleton] at member
    rw [← member]
  · cases answered

theorem not_flawed_of_readMessage {message : MessageTiming}
    (read : readMessage (.object fields) = some message) :
    ¬ Flawed messageNames messageNames fields := by
  simp only [readMessage, Option.bind_eq_bind, Option.bind_eq_some_iff] at read
  obtain ⟨named, names, _, sender, _, receiver, _, sent, _, received, _⟩ := read
  have filled : ∀ name ∈ messageNames, ∃ found, required name named = some found := by
    simp only [messageNames, List.forall_mem_cons]
    exact ⟨⟨_, sender⟩, ⟨_, receiver⟩, ⟨_, sent⟩, ⟨_, received⟩, List.forall_mem_nil _⟩
  refine not_flawed (namedFields_eq_some_iff.1 names) (fun name isKnown => ?_) filled
  obtain ⟨found, here⟩ := filled name isKnown
  exact exists_optional here

theorem not_flawedRecord_of_readRecord {record : Record}
    (read : readRecord (.object fields) = some record) : ¬ FlawedRecord fields := by
  simp only [readRecord, Option.bind_eq_bind, Option.bind_eq_some_iff] at read
  obtain ⟨named, names, _, txnId, _, procedure, _, isSingle, partition, split, _, host, _, site, _,
    coordinator, _, latency, messages, told, values⟩ := read
  have spelt := namedFields_eq_some_iff.1 names
  have filled : ∀ name ∈ requiredNames, ∃ found, required name named = some found := by
    simp only [requiredNames, List.forall_mem_cons]
    exact ⟨⟨_, txnId⟩, ⟨_, procedure⟩, ⟨_, isSingle⟩, ⟨_, host⟩, ⟨_, site⟩, ⟨_, coordinator⟩,
      ⟨_, latency⟩, List.forall_mem_nil _⟩
  have answered : ∀ name ∈ recordNames, ∃ found, optional name named = some found := by
    simp only [recordNames, List.forall_mem_cons]
    exact ⟨exists_optional txnId, exists_optional procedure, exists_optional isSingle,
      ⟨_, split⟩, exists_optional host, exists_optional site, exists_optional coordinator,
      exists_optional latency, ⟨_, told⟩, List.forall_mem_nil _⟩
  intro flawed
  cases flawed with
  | record flawed => exact not_flawed spelt answered filled flawed
  | @message name items inner listed called item flawed =>
    obtain ⟨⟨other, value⟩, member, first, same⟩ := exists_of_forall₂ spelt listed
    obtain rfl : "messages" = other :=
      String.toList_inj.1 (Option.some.inj (called.symm.trans first))
    obtain rfl : Value.array items = value := same
    obtain rfl := optional_eq_of_mem member told
    simp only [recordOfValues, Option.bind_eq_bind, Option.bind_eq_some_iff] at values
    obtain ⟨_, _, _, _, _, _, _, _, _, _, _, _, _, _, _, _, found, readAll, _⟩ := values
    obtain ⟨message, _, readOne⟩ := exists_of_forall₂ (mapM_eq_some_iff.1 readAll) item
    exact not_flawed_of_readMessage readOne flawed

end Flaws

def IsObjectLine (fields : List (List Char × Value)) (bytes : List UInt8) : Prop :=
  ∃ text, Spaced text (Value.object fields).tokens ∧ '\n' ∉ text ∧
    (bytes = encode text ∨ bytes = encode text ++ [lineFeed])

theorem mem_of_spaced {text : List Char} {tokens : List Token} (spaced : Spaced text tokens)
    (opened : tokens.head? = some (.opening .curly)) : '\x7b' ∈ text := by
  induction spaced with
  | nil => cases opened
  | blank _ _ ih => exact List.mem_cons_of_mem _ (ih opened)
  | token written _ _ =>
    cases opened
    cases written
    exact List.mem_cons_self

theorem readLine_object {text : List Char} {fields : List (List Char × Value)}
    (spaced : Spaced text (Value.object fields).tokens) (number : Nat) :
    readLine number (encode text) =
      match readRecord (.object fields) with
      | some record => .ok (some record)
      | none => .error (.malformed number) := by
  have opened : (Value.object fields).tokens.head? = some (.opening .curly) := by
    cases fields <;> rfl
  have solid : text.all isBlank = false :=
    List.all_eq_false.2 ⟨'\x7b', mem_of_spaced spaced opened, by decide⟩
  unfold readLine
  cases found : readRecord (.object fields) with
  | none | some =>
    simp only [fromUTF8?_encode, String.toList_ofList, solid, spaced.parse_eq, Option.bind_some,
      found, Bool.false_eq_true, if_false]

theorem read_object {bytes : List UInt8} {fields : List (List Char × Value)}
    (line : IsObjectLine fields bytes) :
    read bytes =
      match readRecord (.object fields) with
      | some record => .ok [record]
      | none => .error (.malformed 1) := by
  obtain ⟨text, spaced, single, ended⟩ := line
  have solid := lineFeed_not_mem_encode single
  have alone : read bytes = readOnto [] 1 [encode text] := by
    rcases ended with rfl | rfl
    · exact read_solid solid
    · exact read_feed solid
  rw [alone, readOnto, readLine_object spaced]
  cases readRecord (.object fields) with
  | none => rfl
  | some record => rfl

/-- A line with an object is read by the names of its fields, whatever their order and spelling,
the blanks between tokens, and the values of fields with other names: it holds the record that
they show, and it is malformed where a known name stands twice or a required one is missing, in
the record or in one of its messages. -/
theorem read_by_fields {bytes : List UInt8} {fields : List (List Char × Value)}
    (line : IsObjectLine fields bytes) :
    (∀ record : Record, record.Fits → ShowsRecord record fields → read bytes = .ok [record]) ∧
      (FlawedRecord fields → read bytes = .error (.malformed 1)) := by
  rw [read_object line]
  constructor
  · intro record fits shows
    rw [readRecord_of_shows fits shows]
  · intro flawed
    cases found : readRecord (.object fields) with
    | none => rfl
    | some record => exact absurd flawed (not_flawedRecord_of_readRecord found)

/-- The fields in the opposite order, blanks, a name and a procedure with escapes, and half of a
surrogate pair in a value that is skipped. A second partition makes the line malformed. -/
theorem read_by_fields_scattered :
    let record : Record :=
      { txnId := 7, procedure := "pay", isSingle := false, partition := none, initiatorHost := 100
        initiatorSite := 2, coordinatorSite := 3, latency := 900, messages := [⟨1, 2, -3, 5⟩] }
    let message : List (List Char × Value) :=
      [ ("receive_time_ns".toList, .number (some 5)), ("more".toList, .array [.array []]),
        ("send_time_ns".toList, .number (some (-3))), ("receiver_site".toList, wordValue 2),
        ("sender_site".toList, wordValue 1) ]
    let fields : List (List Char × Value) :=
      [ ("x".toList, .array [.object [], .number none, .text "\\ud800".toList]),
        ("messages".toList, .array [.object message]), ("latency_ns".toList, .number (some 900)),
        ("coordinator_site".toList, wordValue 3), ("x".toList, .number none),
        ("initiator_site".toList, wordValue 2), ("initiator_host".toList, wordValue 100),
        ("partition".toList, .word .null), ("is_single_partition".toList, .word .false),
        ("procedure".toList, .text "p\\u0061y".toList), ("\\u0074xn_id".toList, wordValue 7) ]
    let rest : List Char :=
      "\"x\" : [ \x7b \x7d , -1.5e+3,\"\\ud800\"],\t\"messages\":[\x7b ".toList ++
        "\"receive_time_ns\" :5,\"more\":[[]],\"send_time_ns\":-3 ,".toList ++
        "\"receiver_site\":2,\"sender_site\":1\x7d],\"latency_ns\":900,".toList ++
        "\"coordinator_site\":3,\"x\":0.0,\"initiator_site\":2,".toList ++
        "\"initiator_host\":100,\"partition\":null,".toList ++
        "\"is_single_partition\":false,\"procedure\":\"p\\u0061y\",".toList ++
        "\"\\u0074xn_id\":7\x7d\r".toList
    let line := encode (" \x7b".toList ++ rest)
    let twice := encode ("\x7b\"partition\":4,".toList ++ rest)
    IsObjectLine fields line ∧ record.Fits ∧ ShowsRecord record fields ∧
      read line = .ok [record] ∧
      IsObjectLine (("partition".toList, wordValue 4) :: fields) twice ∧
      FlawedRecord (("partition".toList, wordValue 4) :: fields) ∧
      read twice = .error (.malformed 1) := by
  intro record message fields rest line twice
  have isLine : IsObjectLine fields line := by
    refine ⟨" \x7b".toList ++ rest, spaced_of_scan ?_, ?_, .inl rfl⟩
    · simp only [rest, message, fields, String.reduceToList]
      decide +kernel
    · simp only [rest, String.reduceToList]
      decide +kernel
  have isTwice : IsObjectLine (("partition".toList, wordValue 4) :: fields) twice := by
    refine ⟨"\x7b\"partition\":4,".toList ++ rest, spaced_of_scan ?_, ?_, .inl rfl⟩
    · simp only [rest, message, fields, String.reduceToList]
      decide +kernel
    · simp only [rest, String.reduceToList]
      decide +kernel
  have fits : record.Fits :=
    { txnId := by decide
      partition := fun _ none => nomatch none
      initiatorHost := by decide
      initiatorSite := by decide
      coordinatorSite := by decide
      latency := by decide
      messages := List.forall_mem_singleton.2 ⟨by decide, by decide, by decide, by decide⟩ }
  have inner : Scattered messageNames (messageFields ⟨1, 2, -3, 5⟩) message :=
    ⟨_, namedFields_eq_some_iff.1 rfl, List.reverse_perm (messageFields ⟨1, 2, -3, 5⟩)⟩
  have flawed : FlawedRecord (("partition".toList, wordValue 4) :: fields) :=
    .record (.inl ⟨"partition", by simp [recordNames], by decide +kernel⟩)
  let named : List (String × Value) :=
    [ ("x", .array [.object [], .number none, .text "\\ud800".toList]),
      ("messages", .array [.object message]), ("latency_ns", .number (some 900)),
      ("coordinator_site", wordValue 3), ("x", .number none), ("initiator_site", wordValue 2),
      ("initiator_host", wordValue 100), ("partition", .word .null),
      ("is_single_partition", .word .false), ("procedure", .text "p\\u0061y".toList),
      ("txn_id", wordValue 7) ]
  have spellsNames : List.Forall₂ SpellsName fields named := by
    simp only [fields, named, List.forall₂_cons, List.forall₂_nil_right_iff, SpellsName, and_true]
    decide +kernel
  let shown := shownFields record "p\\u0061y".toList (some (.word .null))
    (some (.array [.object message]))
  have known : named.filter (·.1 ∈ recordNames) = shown.reverse := by
    simp [named, recordNames, shown, shownFields, record]
  have scattered : Scattered recordNames shown fields :=
    ⟨named, spellsNames, known ▸ shown.reverse_perm⟩
  have spelt : unescape "p\\u0061y".toList = some record.procedure.toList := by decide +kernel
  have shows : ShowsRecord record fields :=
    .intro spelt .null (.listed (.cons (.object inner) .nil)) scattered
  exact ⟨isLine, fits, shows, (read_by_fields isLine).1 record fits shows, isTwice, flawed,
    (read_by_fields isTwice).2 flawed⟩

end Rebalance.Trace
