import Rebalance.Text.Blank
import Rebalance.Trace.Format

/-!
Traces: files with one record per line. Blank lines are skipped but counted; the first line
that cannot be read decides what is wrong with a file.
-/

namespace Rebalance.Trace

inductive ReadError
  /-- A line is not UTF-8. -/
  | encoding
  /-- A line, counted from 1, is not a record. -/
  | malformed (line : Nat)
deriving DecidableEq, Inhabited

def write (records : List Record) : String :=
  String.ofList (records.flatMap fun record => writeRecord record ++ ['\n'])

/-- What has been written of a trace, and how many records there are in it. -/
structure Written where
  text : String := ""
  records : Nat := 0
deriving DecidableEq, Inhabited

def Written.add (written : Written) (record : Record) : Written :=
  { text := written.text ++ String.ofList (writeRecord record ++ ['\n'])
    records := written.records + 1 }

def writeAll (records : List Record) : Written := records.foldl Written.add {}

theorem foldl_add (written : Written) (records : List Record) :
    records.foldl Written.add written =
      ⟨written.text ++ write records, written.records + records.length⟩ := by
  induction records generalizing written with
  | nil => simp [write]
  | cons record records ih =>
    rw [List.foldl_cons, ih, Written.add, List.length_cons]
    simp [write, String.append_assoc, Nat.add_comm, Nat.add_left_comm]

theorem writeAll_eq (records : List Record) : writeAll records = ⟨write records, records.length⟩ := by
  rw [writeAll, foldl_add, String.empty_append, Nat.zero_add]

def lineFeed : UInt8 := 10

def carriageReturn : UInt8 := 13

def dropReturn (reversed : List UInt8) : List UInt8 :=
  match reversed with
  | b :: rest => if b = carriageReturn then rest else reversed
  | [] => []

/-- The lines of a file without their ends; `line` holds the bytes of the line being read,
newest first, and `done` the lines before it. What follows the last line feed is a line
unless it is empty. -/
def splitOnto (done : List (List UInt8)) (line : List UInt8) : List UInt8 → List (List UInt8)
  | [] => (if line.isEmpty then done else line.reverse :: done).reverse
  | b :: rest =>
    if b = lineFeed then splitOnto ((dropReturn line).reverse :: done) [] rest
    else splitOnto done (b :: line) rest

def lines (bytes : List UInt8) : List (List UInt8) := splitOnto [] [] bytes

def readLine (number : Nat) (line : List UInt8) : Except ReadError (Option Record) :=
  match String.fromUTF8? ⟨line.toArray⟩ with
  | none => .error .encoding
  | some text =>
    if text.toList.all isBlank then .ok none
    else
      match (Json.parse text.toList).bind readRecord with
      | some record => .ok (some record)
      | none => .error (.malformed number)

/-- Reads the lines numbered from `number` on; `done` holds the records so far, newest
first. -/
def readOnto (done : List Record) (number : Nat) : List (List UInt8) →
    Except ReadError (List Record)
  | [] => .ok done.reverse
  | line :: rest =>
    match readLine number line with
    | .ok record => readOnto (record.toList ++ done) (number + 1) rest
    | .error error => .error error

def read (bytes : List UInt8) : Except ReadError (List Record) := readOnto [] 1 (lines bytes)

end Rebalance.Trace
