import Rebalance.Simulation

/-!
What a command may ask for at most. Buffers are set up before they are filled, so that a
command which asks for too large a one stops before it has done anything.
-/

namespace Rebalance.CommandLine

def maxBufferBytes : Nat := Nat.pow 2 63 - 1

def bufferFits (items bytes : Nat) : Bool := items * bytes ≤ maxBufferBytes

def wordBytes : Nat := 8

def recordBytes : Nat := 112

def recordsFit (count : Nat) : Bool := bufferFits count recordBytes

/-- Whether the hosts of a layout can be listed, and the partitions of a host if there is one. -/
def layoutFits (layout : Layout) : Bool :=
  bufferFits layout.hosts wordBytes
    && (layout.hosts = 0 || bufferFits layout.partitionsPerHost wordBytes)

def maxInbox : Nat := Nat.pow 2 61 - 1

def configFits {α : Type} (config : Config α) : Bool :=
  config.channelCapacity ≤ maxInbox && bufferFits config.historyLength wordBytes

/-- Whether a clock that has been running for `uptime` nanoseconds, and counts seconds in 63
bits, gets as far as `span` nanoseconds from now. -/
def clockReaches (uptime span : Nat) : Bool := uptime + span < Nat.pow 2 63 * Config.second

end Rebalance.CommandLine
