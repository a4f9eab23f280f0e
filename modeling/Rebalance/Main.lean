import Rebalance.CommandLine.Command
import Std.Time.DateTime.Timestamp

/-!
The command line. A simulated run is computed at once; its times are those of the wall clock
at its start and as long after as the run lasts.
-/

namespace Rebalance.CommandLine

def usage : String :=
  "usage: run|trace|replay [--flag value]...\n\nflags of run:\n"
    ++ String.join (runFlags.map fun flag => "  --" ++ flag.name ++ "\n")
    ++ "flags of trace:\n" ++ String.join (traceFlags.map fun flag => "  --" ++ flag.name ++ "\n")
    ++ "flags of replay:\n"
    ++ String.join (replayFlags.map fun flag => "  --" ++ flag.name ++ "\n")

def readEnvironment : IO Bindings := do
  let names := (runFlags ++ traceFlags ++ replayFlags).filterMap (·.envName?)
  let found ← names.mapM fun name => do
    let value ← IO.getEnv name
    pure (value.map fun value => (name, value))
  pure (found.filterMap id)

def printError (messages : List String) : IO UInt32 := do
  IO.eprint (report messages)
  pure 1

def openFile (path : String) (mode : IO.FS.Mode) : IO (Option IO.FS.Handle) := do
  try
    let file ← IO.FS.Handle.mk path mode
    pure (some file)
  catch _ => pure none

def readContent (file : IO.FS.Handle) : IO Content := do
  try
    let content ← file.readBinToEnd
    pure (.bytes content.toList)
  catch _ => pure .unreadable

def accepts (file : IO.FS.Handle) (text : String) : IO Bool := do
  try
    file.putStr text
    file.flush
    pure true
  catch _ => pure false

def putChunks (file : IO.FS.Handle) : List Trace.Chunk → IO (Option Trace.Moment)
  | [] => pure none
  | chunk :: rest => do
    if ← accepts file chunk.text then putChunks file rest else pure (some chunk.moment)

def perform : Action → IO UInt32
  | .refuse refusal => do
    IO.eprintln (if refusal = .usage then usage else "more than there is room for")
    pure refusal.exitCode.toUInt32
  | .print lines => do
    lines.forM IO.println
    pure 0
  | .fail messages => printError messages
  | .save path chunks => do
    match ← openFile path .write with
    | none => printError (createFailure path)
    | some file =>
      match ← putChunks file chunks with
      | none => pure 0
      | some moment => printError (chunkFailure path moment)
  | .load path next => do
    match ← openFile path .read with
    | none => perform (next .missing)
    | some file =>
      let content ← readContent file
      perform (next content)

def readStart : IO Start := do
  let now ← Std.Time.Timestamp.now
  let fresh ← IO.rand 1 wordMax
  let uptime ← IO.monoNanosNow
  pure { fresh, now := now.toNanosecondsSinceUnixEpoch.val.toNat, uptime }

end Rebalance.CommandLine

open Rebalance.CommandLine in
def main (args : List String) : IO UInt32 := do
  let environment ← readEnvironment
  let start ← readStart
  perform (respond start environment args)
