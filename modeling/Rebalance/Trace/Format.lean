import Rebalance.Json.Text
import Rebalance.Telemetry.Record

/-!
Records as JSON. A record is written as an object, without what it does not have; it is read
from an object with its fields in any order and others between them, or from an array of the
fields' values.
-/

namespace Rebalance.Trace

def fieldName (name : String) : List Char := '"' :: name.toList ++ ['"', ':']

def wordField (name : String) (n : Nat) : List Char := fieldName name ++ Decimal.digits n

def signedField (name : String) (n : Int) : List Char := fieldName name ++ Decimal.integer n

def boolField (name : String) (b : Bool) : List Char :=
  fieldName name ++ (if b then "true" else "false").toList

def stringField (name : String) (s : String) : List Char :=
  fieldName name ++ '"' :: Json.escape s.toList ++ ['"']

def commaSeparated (rows : List (List Char)) : List Char := [','].intercalate rows

def inBraces (fields : List (List Char)) : List Char :=
  '\x7b' :: commaSeparated fields ++ ['\x7d']

def writeMessage (message : MessageTiming) : List Char :=
  inBraces
    [ wordField "sender_site" message.sender,
      wordField "receiver_site" message.receiver,
      signedField "send_time_ns" message.sent,
      signedField "receive_time_ns" message.received ]

def partitionField (partition : Option PartitionId) : List (List Char) :=
  partition.toList.map (wordField "partition")

def messagesField (messages : List MessageTiming) : List (List Char) :=
  if messages.isEmpty then []
  else [fieldName "messages" ++ '[' :: commaSeparated (messages.map writeMessage) ++ [']']]

def writeRecord (record : Record) : List Char :=
  inBraces
    ([ wordField "txn_id" record.txnId,
       stringField "procedure" record.procedure,
       boolField "is_single_partition" record.isSingle ]
      ++ partitionField record.partition
      ++ [ wordField "initiator_host" record.initiatorHost,
           wordField "initiator_site" record.initiatorSite,
           wordField "coordinator_site" record.coordinatorSite,
           signedField "latency_ns" record.latency ]
      ++ messagesField record.messages)

/-- Fields with their names read; none where a name cannot be. -/
def namedFields (fields : List (List Char × Json.Value)) : Option (List (String × Json.Value)) :=
  fields.mapM fun field => (Json.unescape field.1).map fun name => (String.ofList name, field.2)

/-- The value of a field that may be absent; none where the name occurs twice. -/
def optional (name : String) (fields : List (String × Json.Value)) : Option (Option Json.Value) :=
  match fields.filter (·.1 = name) with
  | [] => some none
  | [field] => some (some field.2)
  | _ => none

def required (name : String) (fields : List (String × Json.Value)) : Option Json.Value :=
  (optional name fields).join

def messageOfValues (sender receiver sent received : Json.Value) : Option MessageTiming := do
  pure
    { sender := ← sender.word?
      receiver := ← receiver.word?
      sent := ← sent.signedWord?
      received := ← received.signedWord? }

def readMessage : Json.Value → Option MessageTiming
  | .object fields => do
    let fields ← namedFields fields
    messageOfValues (← required "sender_site" fields) (← required "receiver_site" fields)
      (← required "send_time_ns" fields) (← required "receive_time_ns" fields)
  | .array [sender, receiver, sent, received] => messageOfValues sender receiver sent received
  | _ => none

def readPartition : Option Json.Value → Option (Option PartitionId)
  | none => some none
  | some (.word .null) => some none
  | some value => value.word?.map some

def readMessages : Option Json.Value → Option (List MessageTiming)
  | none => some []
  | some value => value.items?.bind (·.mapM readMessage)

def recordOfValues (txnId procedure isSingle : Json.Value) (partition : Option Json.Value)
    (host site coordinator latency : Json.Value) (messages : Option Json.Value) :
    Option Record := do
  pure
    { txnId := ← txnId.word?
      procedure := ← procedure.string?
      isSingle := ← isSingle.bool?
      partition := ← readPartition partition
      initiatorHost := ← host.word?
      initiatorSite := ← site.word?
      coordinatorSite := ← coordinator.word?
      latency := ← latency.signedWord?
      messages := ← readMessages messages }

def readRecord : Json.Value → Option Record
  | .object fields => do
    let fields ← namedFields fields
    recordOfValues (← required "txn_id" fields) (← required "procedure" fields)
      (← required "is_single_partition" fields) (← optional "partition" fields)
      (← required "initiator_host" fields) (← required "initiator_site" fields)
      (← required "coordinator_site" fields) (← required "latency_ns" fields)
      (← optional "messages" fields)
  | .array (txnId :: procedure :: isSingle :: partition :: host :: site :: coordinator :: latency
      :: rest) =>
    match rest with
    | [] => recordOfValues txnId procedure isSingle (some partition) host site coordinator latency
        none
    | [messages] =>
      recordOfValues txnId procedure isSingle (some partition) host site coordinator latency
        (some messages)
    | _ => none
  | _ => none

end Rebalance.Trace
