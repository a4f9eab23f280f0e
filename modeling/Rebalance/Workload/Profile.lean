import Rebalance.Cluster.Layout

/-!
What kinds of transactions a synthetic workload is made of.
-/

namespace Rebalance

inductive Initiator
  /-- From the host that serves the partition. -/
  | follow
  /-- From `host` with probability `affinity`, else from any host. -/
  | home (host : HostId) (affinity : Float)
deriving Inhabited

structure Procedure where
  name : String
  weight : Nat
  /-- A single-partition procedure takes one of these per transaction, any other takes all. -/
  partitions : List PartitionId
  isSingle : Bool
  initiator : Initiator
  baseLatency : Int
deriving Inhabited

structure Profile where
  procedures : List Procedure
  /-- One-way cost of a message between hosts. -/
  networkLatency : Int
  /-- The most that is added to a latency at random. -/
  jitter : Int
deriving Inhabited

inductive ProfileError
  | noProcedures
  | noWeight
  | noPartitions (procedure : String)
  | affinity (procedure : String) (value : Float)
  | networkLatency
  | jitter

def ProfileError.message (render : Float → String) : ProfileError → String
  | noProcedures => "workload has no procedures"
  | noWeight => "workload has no procedure with a positive weight"
  | noPartitions procedure => "procedure " ++ procedure ++ " touches no partitions"
  | affinity procedure value =>
    "procedure " ++ procedure ++ " affinity must be within [0, 1] (got " ++ render value ++ ")"
  | networkLatency => "network latency must be >= 0"
  | jitter => "jitter must be >= 0"

def Procedure.validate (procedure : Procedure) : Except ProfileError Unit := do
  if procedure.partitions.isEmpty then throw (.noPartitions procedure.name)
  if let .home _ affinity := procedure.initiator then
    if !(0.0 ≤ affinity && affinity ≤ 1.0) then throw (.affinity procedure.name affinity)

namespace Profile

def validate (profile : Profile) : Except ProfileError Unit := do
  if profile.procedures.isEmpty then throw .noProcedures
  if !profile.procedures.any (0 < ·.weight) then throw .noWeight
  profile.procedures.forM Procedure.validate
  if profile.networkLatency < 0 then throw .networkLatency
  if profile.jitter < 0 then throw .jitter

/-- The sum of the weights as it is reckoned in 32 bits: the tickets to draw from. -/
def totalWeight (profile : Profile) : Nat :=
  profile.procedures.foldl (fun total procedure => (total + procedure.weight) % Nat.pow 2 32) 0

def pick : List Procedure → Nat → Option Procedure
  | [], _ => none
  | procedure :: rest, ticket =>
    if ticket < procedure.weight then some procedure else pick rest (ticket - procedure.weight)

/-- Light traffic on every partition from wherever it is served, and heavy traffic from the
first host on one partition, the first of the last host. -/
def skewed (hosts : List HostId) (partitionsPerHost : Nat) : Profile :=
  let partitions := hosts.flatMap fun host =>
    (List.range partitionsPerHost).map fun index => host + (index + 1)
  let first := hosts.head?.getD 0
  let hot := hosts.getLast?.getD 0 + 1
  let lookup : Procedure :=
    { name := "Lookup", weight := 3, partitions, isSingle := true
      initiator := .follow, baseLatency := 2000000 }
  let checkout : Procedure :=
    { name := "Checkout", weight := 6, partitions := [hot], isSingle := true
      initiator := .home first 0.95, baseLatency := 2000000 }
  let audit : Procedure :=
    { name := "Audit", weight := 1, partitions := partitions.take 2, isSingle := false
      initiator := .home first 0.8, baseLatency := 4000000 }
  { procedures := [lookup, checkout] ++ (if 1 < partitions.length then [audit] else [])
    networkLatency := 10000000
    jitter := 500000 }

def ofLayout (layout : Layout) : Profile := skewed layout.hostIds layout.partitionsPerHost

end Profile

end Rebalance
