import Mathlib.Data.List.Nodup
import Rebalance.Proofs.Trace.Format

/-!
Reading a record by the names of its fields: each name is looked up, so their order does not
matter, and the record that was written comes back where its numbers fit their words.
-/

namespace Rebalance

def IsWord (n : Nat) : Prop := n ≤ wordMax

instance (n : Nat) : Decidable (IsWord n) := inferInstanceAs (Decidable (n ≤ wordMax))

def IsSignedWord (n : Int) : Prop := -(Int.pow 2 63) ≤ n ∧ n < Int.pow 2 63

instance (n : Int) : Decidable (IsSignedWord n) :=
  inferInstanceAs (Decidable (-(Int.pow 2 63) ≤ n ∧ n < Int.pow 2 63))

/-- The numbers of a message fit: sites are words, clock readings signed words. -/
structure MessageTiming.Fits (message : MessageTiming) : Prop where
  sender : IsWord message.sender
  receiver : IsWord message.receiver
  sent : IsSignedWord message.sent
  received : IsSignedWord message.received

/-- The numbers of a record fit: identifiers are words, times signed words. -/
structure Record.Fits (record : Record) : Prop where
  txnId : IsWord record.txnId
  partition : ∀ partition ∈ record.partition, IsWord partition
  initiatorHost : IsWord record.initiatorHost
  initiatorSite : IsWord record.initiatorSite
  coordinatorSite : IsWord record.coordinatorSite
  latency : IsSignedWord record.latency
  messages : ∀ message ∈ record.messages, message.Fits

namespace Trace

open Json

theorem word?_wordValue {n : Nat} (fits : IsWord n) : (wordValue n).word? = some n := by
  have above : (0 : Int) ≤ n := Int.natCast_nonneg n
  have below : (n : Int) < Int.pow 2 64 := Int.ofNat_lt.2 (Nat.lt_succ_of_le fits)
  have inside : (decide (0 ≤ (n : Int)) && decide ((n : Int) < Int.pow 2 64)) = true :=
    Bool.and_eq_true_iff.2 ⟨decide_eq_true above, decide_eq_true below⟩
  rw [wordValue, Value.word?, if_pos inside, Int.toNat_natCast]

theorem signedWord?_number {n : Int} (fits : IsSignedWord n) :
    (Value.number (some n)).signedWord? = some n := by
  have inside : (decide (-(Int.pow 2 63) ≤ n) && decide (n < Int.pow 2 63)) = true :=
    Bool.and_eq_true_iff.2 ⟨decide_eq_true fits.1, decide_eq_true fits.2⟩
  rw [Value.signedWord?, if_pos inside]

theorem string?_escape (s : String) : (Value.text (escape s.toList)).string? = some s := by
  rw [Value.string?, unescape_escape, Option.map_some, String.ofList_toList]

theorem bool?_word (b : Bool) : (Value.word (if b then .true else .false)).bool? = some b := by
  cases b <;> rfl

theorem namedFields_rawFields {fields : List (String × Value)}
    (plain : ∀ field ∈ fields, IsPlain field.1) : namedFields (rawFields fields) = some fields := by
  induction fields with
  | nil => rfl
  | cons field fields ih =>
    obtain ⟨first, others⟩ := List.forall_mem_cons.1 plain
    have name : unescape field.1.toList = some field.1.toList :=
      (congrArg unescape first).symm.trans (unescape_escape _)
    have rest := ih others
    unfold namedFields rawFields at rest ⊢
    simp [name, rest]

theorem optional_of_mem {fields : List (String × Value)} {name : String} {value : Value}
    (distinct : (fields.map (·.1)).Nodup) (listed : (name, value) ∈ fields) :
    optional name fields = some (some value) := by
  have alone : fields.filter (·.1 = name) = [(name, value)] := by
    induction fields with
    | nil => exact absurd listed List.not_mem_nil
    | cons field fields ih =>
      rw [List.map_cons, List.nodup_cons] at distinct
      rcases List.mem_cons.1 listed with rfl | later
      · have others : fields.filter (·.1 = name) = [] := by
          apply List.filter_eq_nil_iff.2
          intro other member same
          have again : other.1 = name := of_decide_eq_true same
          exact distinct.1 (again ▸ List.mem_map.2 ⟨other, member, rfl⟩)
        rw [List.filter_cons_of_pos (by simp), others]
      · have differs : field.1 ≠ name := fun here => distinct.1 (here ▸ List.mem_map_of_mem later)
        rw [List.filter_cons_of_neg (by simpa using differs), ih distinct.2 later]
  unfold optional
  rw [alone]

theorem optional_of_not_mem {fields : List (String × Value)} {name : String}
    (absent : name ∉ fields.map (·.1)) : optional name fields = some none := by
  have none : fields.filter (·.1 = name) = [] := by
    apply List.filter_eq_nil_iff.2
    intro field member same
    exact absent (of_decide_eq_true same ▸ List.mem_map_of_mem member)
  unfold optional
  rw [none]

theorem required_of_mem {fields : List (String × Value)} {name : String} {value : Value}
    (distinct : (fields.map (·.1)).Nodup) (listed : (name, value) ∈ fields) :
    required name fields = some value := by
  rw [required, optional_of_mem distinct listed, Option.join_some]

theorem messageOfValues_eq {message : MessageTiming} (fits : message.Fits) :
    messageOfValues (wordValue message.sender) (wordValue message.receiver)
      (.number (some message.sent)) (.number (some message.received)) = some message := by
  simp only [messageOfValues, Option.bind_eq_bind, Option.bind_some, Option.pure_def,
    word?_wordValue fits.sender, word?_wordValue fits.receiver, signedWord?_number fits.sent,
    signedWord?_number fits.received]

theorem readMessage_messageValue {message : MessageTiming} (fits : message.Fits) :
    readMessage (messageValue message) = some message := by
  have plain : ∀ field ∈ messageFields message, IsPlain field.1 := by
    simp only [messageFields, List.forall_mem_cons]
    exact ⟨by decide, by decide, by decide, by decide, fun _ member => nomatch member⟩
  have distinct : ((messageFields message).map (·.1)).Nodup := by
    simp only [messageFields, List.map_cons, List.map_nil]
    decide
  have sender : required "sender_site" (messageFields message) =
    some (wordValue message.sender) := required_of_mem distinct (by simp [messageFields])
  have receiver : required "receiver_site" (messageFields message) =
    some (wordValue message.receiver) := required_of_mem distinct (by simp [messageFields])
  have sent : required "send_time_ns" (messageFields message) =
    some (.number (some message.sent)) := required_of_mem distinct (by simp [messageFields])
  have received : required "receive_time_ns" (messageFields message) =
    some (.number (some message.received)) := required_of_mem distinct (by simp [messageFields])
  rw [messageValue, readMessage, namedFields_rawFields plain, Option.bind_eq_bind,
    Option.bind_some, sender, Option.bind_eq_bind, Option.bind_some, receiver, Option.bind_some,
    sent, Option.bind_some, received, Option.bind_some, messageOfValues_eq fits]

theorem mapM_readMessage {messages : List MessageTiming}
    (fits : ∀ message ∈ messages, message.Fits) :
    (messages.map messageValue).mapM readMessage = some messages := by
  induction messages with
  | nil => rfl
  | cons message messages ih =>
    obtain ⟨first, others⟩ := List.forall_mem_cons.1 fits
    rw [List.map_cons, List.mapM_cons, readMessage_messageValue first, ih others]
    rfl

def recordNames : List String :=
  [ "txn_id", "procedure", "is_single_partition", "partition", "initiator_host",
    "initiator_site", "coordinator_site", "latency_ns", "messages" ]

theorem names_recordFields (record : Record) :
    ((recordFields record).map (·.1)).Sublist recordNames := by
  have partition : ((record.partition.toList.map fun partition =>
      ("partition", wordValue partition)).map (·.1)).Sublist ["partition"] := by
    cases record.partition with
    | none => exact List.nil_sublist _
    | some partition => exact List.Sublist.refl _
  have messages : ((if record.messages.isEmpty then []
      else [("messages", Value.array (record.messages.map messageValue))]).map (·.1)).Sublist
        ["messages"] := by
    split
    · exact List.nil_sublist _
    · exact List.Sublist.refl _
  unfold recordFields
  simp only [List.map_append]
  exact (((List.Sublist.refl _).append partition).append (List.Sublist.refl _)).append messages

theorem plain_recordFields (record : Record) : ∀ field ∈ recordFields record, IsPlain field.1 := by
  have plain : ∀ name ∈ recordNames, IsPlain name := by
    simp only [recordNames, List.forall_mem_cons]
    exact ⟨by decide, by decide, by decide, by decide, by decide, by decide, by decide, by decide,
      by decide, fun _ member => nomatch member⟩
  intro field member
  exact plain _ ((names_recordFields record).subset (List.mem_map_of_mem member))

theorem distinct_recordFields (record : Record) : ((recordFields record).map (·.1)).Nodup := by
  have distinct : recordNames.Nodup := by decide
  exact distinct.sublist (names_recordFields record)

theorem optional_partition (record : Record) :
    optional "partition" (recordFields record) = some (record.partition.map wordValue) := by
  cases present : record.partition with
  | none =>
    refine optional_of_not_mem ?_
    unfold recordFields
    split <;> simp [present]
  | some partition =>
    exact optional_of_mem (distinct_recordFields record) (by simp [recordFields, present])

theorem optional_messages (record : Record) :
    optional "messages" (recordFields record) =
      some (if record.messages.isEmpty then none
        else some (.array (record.messages.map messageValue))) := by
  split
  · next empty =>
    exact optional_of_not_mem (by simp [recordFields, empty])
  · next filled =>
    exact optional_of_mem (distinct_recordFields record) (by simp [recordFields, filled])

theorem readPartition_eq {partition : Option PartitionId}
    (fits : ∀ p ∈ partition, IsWord p) :
    readPartition (partition.map wordValue) = some partition := by
  cases partition with
  | none => rfl
  | some partition =>
    have value := word?_wordValue (fits partition rfl)
    show (wordValue partition).word?.map some = some (some partition)
    rw [value, Option.map_some]

theorem readMessages_eq {messages : List MessageTiming}
    (fits : ∀ message ∈ messages, message.Fits) :
    readMessages (if messages.isEmpty then none else some (.array (messages.map messageValue))) =
      some messages := by
  split
  · next empty => rw [List.isEmpty_iff.1 empty, readMessages]
  · rw [readMessages, Value.items?, Option.bind_some, mapM_readMessage fits]

theorem recordOfValues_eq {record : Record} (fits : record.Fits) :
    recordOfValues (wordValue record.txnId) (.text (escape record.procedure.toList))
      (.word (if record.isSingle then .true else .false)) (record.partition.map wordValue)
      (wordValue record.initiatorHost) (wordValue record.initiatorSite)
      (wordValue record.coordinatorSite) (.number (some record.latency))
      (if record.messages.isEmpty then none
        else some (.array (record.messages.map messageValue))) = some record := by
  simp only [recordOfValues, Option.bind_eq_bind, Option.bind_some, Option.pure_def,
    word?_wordValue fits.txnId, string?_escape, bool?_word, readPartition_eq fits.partition,
    word?_wordValue fits.initiatorHost, word?_wordValue fits.initiatorSite,
    word?_wordValue fits.coordinatorSite, signedWord?_number fits.latency,
    readMessages_eq fits.messages]

theorem readRecord_recordValue {record : Record} (fits : record.Fits) :
    readRecord (recordValue record) = some record := by
  have found {name : String} {value : Value} (listed : (name, value) ∈ recordFields record) :=
    required_of_mem (distinct_recordFields record) listed
  have txnId : required "txn_id" (recordFields record) = some (wordValue record.txnId) :=
    found (by simp [recordFields])
  have procedure : required "procedure" (recordFields record) =
    some (.text (escape record.procedure.toList)) := found (by simp [recordFields])
  have isSingle : required "is_single_partition" (recordFields record) =
    some (.word (if record.isSingle then .true else .false)) := found (by simp [recordFields])
  have host : required "initiator_host" (recordFields record) =
    some (wordValue record.initiatorHost) := found (by simp [recordFields])
  have site : required "initiator_site" (recordFields record) =
    some (wordValue record.initiatorSite) := found (by simp [recordFields])
  have coordinator : required "coordinator_site" (recordFields record) =
    some (wordValue record.coordinatorSite) := found (by simp [recordFields])
  have latency : required "latency_ns" (recordFields record) =
    some (.number (some record.latency)) := found (by simp [recordFields])
  rw [recordValue, readRecord, namedFields_rawFields (plain_recordFields record)]
  simp only [Option.bind_eq_bind, Option.bind_some]
  rw [txnId, Option.bind_some, procedure, Option.bind_some, isSingle, Option.bind_some,
    optional_partition, Option.bind_some, host, Option.bind_some, site, Option.bind_some,
    coordinator, Option.bind_some, latency, Option.bind_some, optional_messages,
    Option.bind_some, recordOfValues_eq fits]

end Trace

end Rebalance
