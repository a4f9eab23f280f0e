import Rebalance.Trace.File

/-!
The chunks in which a trace goes to its file: text is held back until there is more of it than
the buffer takes. Together the chunks are the trace (`flatMap_text_chunks`).
-/

namespace Rebalance.Trace

def bufferSize : Nat := 8192

inductive Moment
  /-- On a record that no longer fits. -/
  | record (id : Nat)
  /-- On the end of a line that just fits. -/
  | lineEnd
  /-- After the last record. -/
  | finish
deriving DecidableEq, Inhabited

structure Chunk where
  text : String
  moment : Moment
deriving DecidableEq, Inhabited

def chunksAfter (held : String) : List Record → List Chunk
  | [] => if held.isEmpty then [] else [⟨held, .finish⟩]
  | record :: rest =>
    let text := held ++ String.ofList (writeRecord record)
    let line := text ++ "\n"
    if bufferSize < text.utf8ByteSize then ⟨line, .record record.txnId⟩ :: chunksAfter "" rest
    else if bufferSize < line.utf8ByteSize then ⟨line, .lineEnd⟩ :: chunksAfter "" rest
    else chunksAfter line rest

def chunks (records : List Record) : List Chunk := chunksAfter "" records

theorem flatMap_text_chunksAfter (held : String) (records : List Record) :
    (chunksAfter held records).flatMap (·.text.toList) =
      held.toList ++ records.flatMap fun record => writeRecord record ++ ['\n'] := by
  induction records generalizing held with
  | nil => by_cases empty : held = "" <;> simp [chunksAfter, empty]
  | cons record rest ih =>
    simp only [chunksAfter]
    split
    · simp [ih]
    · split <;> simp [ih]

theorem flatMap_text_chunks (records : List Record) :
    (chunks records).flatMap (·.text.toList) = (write records).toList := by
  simp [chunks, write, flatMap_text_chunksAfter]

end Rebalance.Trace
