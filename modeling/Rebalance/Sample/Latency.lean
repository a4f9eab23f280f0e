/-!
Buffers of latency samples in nanoseconds, with a median that is computed at most once
between two insertions.
-/

namespace Rebalance

/-- The middle sample, or the mean of the two middle samples rounded half up; none for no
samples at all. -/
def median? (samples : List Nat) : Option Nat :=
  let sorted := samples.mergeSort
  let half := sorted.length / 2
  if sorted.length % 2 = 1 then sorted[half]?
  else
    match sorted[half - 1]?, sorted[half]? with
    | some low, some high => some ((low + high + 1) / 2)
    | _, _ => none

structure LatencyBuffer where
  /-- In order of arrival. -/
  samples : Array Nat := #[]
  /-- The median, once it has been asked for. -/
  cached : Option Nat := none
deriving DecidableEq, Inhabited

namespace LatencyBuffer

def push (buffer : LatencyBuffer) (ns : Nat) : LatencyBuffer :=
  { samples := buffer.samples.push ns, cached := none }

def size (buffer : LatencyBuffer) : Nat := buffer.samples.size

def isEmpty (buffer : LatencyBuffer) : Bool := buffer.samples.isEmpty

def clear (_ : LatencyBuffer) : LatencyBuffer := {}

def median (buffer : LatencyBuffer) : Option Nat × LatencyBuffer :=
  match buffer.cached with
  | some m => (some m, buffer)
  | none =>
    let m := median? buffer.samples.toList
    (m, { buffer with cached := m })

end LatencyBuffer

/-- Where a transaction's coordinator ran, seen from the host that received the request. -/
inductive Locality
  | near
  | far
deriving DecidableEq, Inhabited

/-- A latency and whether it was inferred rather than measured. -/
structure Latency where
  ns : Nat
  isEstimate : Bool
deriving DecidableEq, Inhabited

namespace Latency

def measured (ns : Nat) : Latency := ⟨ns, false⟩

def inferred (ns : Nat) : Latency := ⟨ns, true⟩

/-- Latencies below one nanosecond count as one. -/
def clamp (ns : Int) : Nat := (max ns 1).toNat

end Latency

end Rebalance
