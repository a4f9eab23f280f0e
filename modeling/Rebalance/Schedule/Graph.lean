import Rebalance.Schedule.Basic

/-!
A schedule as a linked graph. Nodes are numbered in order of creation: a concurrent block
before its members, the members in the order of their groups. Every node names its
neighbours in the one chain it is on.
-/

namespace Rebalance

structure Chain where
  head : Option Nat := none
  tail : Option Nat := none
  length : Nat := 0
deriving DecidableEq, Inhabited

inductive NodeKind
  | serial (group : GroupId)
  /-- One chain per partition, the chains side by side. -/
  | concurrent (chains : IdMap Chain)
deriving DecidableEq, Inhabited

structure Node where
  kind : NodeKind
  previous : Option Nat := none
  next : Option Nat := none
deriving DecidableEq, Inhabited

structure Graph where
  nodes : Array Node := #[]
  /-- The chain of the blocks themselves. -/
  chain : Chain := {}
deriving DecidableEq, Inhabited

namespace Chain

def isEmpty (chain : Chain) : Bool := chain.length = 0

def push (chain : Chain) (id : Nat) : Chain :=
  { head := if chain.tail.isSome then chain.head else some id
    tail := some id
    length := chain.length + 1 }

end Chain

def NodeKind.group? : NodeKind → Option GroupId
  | .serial group => some group
  | .concurrent _ => none

namespace Graph

def link (nodes : Array Node) (chain : Chain) (id : Nat) : Array Node :=
  match chain.tail with
  | some tail =>
    (nodes.modify tail ({ · with next := some id })).modify id ({ · with previous := some tail })
  | none => nodes

def append (nodes : Array Node) (chain : Chain) (kind : NodeKind) : Array Node :=
  link (nodes.push { kind }) chain nodes.size

def push (graph : Graph) (kind : NodeKind) : Graph :=
  { nodes := append graph.nodes graph.chain kind
    chain := graph.chain.push graph.nodes.size }

def kind? (nodes : Array Node) (id : Nat) : Option NodeKind := (nodes[id]?).map (·.kind)

/-- A new member at the end of its partition's chain in a concurrent block. The chain is taken
out of the block's map, extended and put back. -/
def pushInto (block : Nat) (graph : Graph) (member : GroupId × PartitionId) : Graph :=
  match kind? graph.nodes block with
  | some (.concurrent chains) =>
    let chain := (chains.get? member.2).getD {}
    let nodes := append graph.nodes chain (.serial member.1)
    let chains := chains.insert member.2 (chain.push graph.nodes.size)
    { graph with nodes := nodes.modify block ({ · with kind := .concurrent chains }) }
  | _ => graph

def members (chains : IdMap (List GroupId)) : List (GroupId × PartitionId) :=
  (chains.entries.flatMap fun entry => entry.2.map fun group => (group, entry.1)).mergeSort
    fun a b => a.1 ≤ b.1

def pushBlock (graph : Graph) : Block → Graph
  | .serial group => graph.push (.serial group)
  | .concurrent chains =>
    (members chains).foldl (pushInto graph.nodes.size) (graph.push (.concurrent .empty))

def ofSchedule (schedule : Schedule) : Graph := schedule.foldl pushBlock {}

def walkFrom (graph : Graph) : Nat → Option Nat → List (Nat × Node)
  | fuel + 1, some id =>
    match graph.nodes[id]? with
    | some node => (id, node) :: graph.walkFrom fuel node.next
    | none => []
  | _, _ => []

def walk (graph : Graph) (chain : Chain) : List (Nat × Node) :=
  graph.walkFrom graph.nodes.size chain.head

end Graph

end Rebalance
