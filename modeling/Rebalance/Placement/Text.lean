import Rebalance.Json.Text
import Rebalance.Placement.Basic

/-!
Placements as JSON: an object with a field per host, named by its number, that lists the
host's partitions.
-/

namespace Rebalance.Placement

def separated (rows : List (List Char)) : List Char := [','].intercalate rows

def hostJson (entry : HostId × IdSet) : List Char :=
  '"' :: Decimal.digits entry.1 ++ ['"', ':', '[']
    ++ separated (entry.2.toList.map Decimal.digits) ++ [']']

def json (placement : Placement) : List Char :=
  '\x7b' :: separated (placement.hosts.entries.map hostJson) ++ ['\x7d']

/-- A host's number as the name of a field: decimal digits, none of them escaped. -/
def hostOfName (name : List Char) : Option HostId :=
  (Decimal.read? name).bind fun host => if host ≤ wordMax then some host else none

def partitionsOfValue (value : Json.Value) : Option IdSet :=
  (value.items?.bind (·.mapM Json.Value.word?)).map IdSet.ofList

def hostOfField (field : List Char × Json.Value) : Option (HostId × IdSet) :=
  match hostOfName field.1, partitionsOfValue field.2 with
  | some host, some partitions => some (host, partitions)
  | _, _ => none

def ofValue : Json.Value → Option Placement
  | .object fields => (fields.mapM hostOfField).map fun hosts => ⟨IdMap.ofList hosts⟩
  | _ => none

def parse (chars : List Char) : Option Placement := (Json.parse chars).bind ofValue

end Rebalance.Placement
