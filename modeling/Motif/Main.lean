import Motif.CommandLine
import Motif.CommandLine.Elapsed

/-!
# The executable

Reads the sequence if the arguments do not hold it, measures the time, and writes the output.

* `main`: the command.
-/

namespace Motif.CommandLine

/-- Reads a stream to its end. -/
partial def readAll (stream : IO.FS.Stream) (read : ByteArray) : IO ByteArray := do
  let more ← stream.read 65536
  if more.isEmpty then return read else readAll stream (read ++ more)

/-- Reads the sequence as text. -/
def readInput : IO (Except UsageError String) := do
  let bytes ← readAll (← IO.getStdin) ByteArray.empty
  return match String.fromUTF8? bytes with
    | some text => .ok text
    | none => .error (.unreadableInput "stream did not contain valid UTF-8")

/-- Carries an invocation out and measures the time. -/
def carryOut (i : Invocation) : IO Output := do
  let input ← if i.wantsInput then readInput else pure (.ok "")
  match input with
  | .error e => return .ofUsageError e
  | .ok text =>
    let before ← IO.monoNanosNow
    let a ← IO.lazyPure fun _ => i.answer text
    let after ← IO.monoNanosNow
    return a.output (elapsedText (after - before))

end Motif.CommandLine

open Motif.CommandLine in
/-- The command. -/
def main (args : List String) : IO UInt32 := do
  let stdout ← IO.getStdout
  let output ← match Invocation.ofArguments (← stdout.isTty) args with
    | .error e => pure (Output.ofUsageError e)
    | .ok i => carryOut i
  stdout.putStr output.stdout
  (← IO.getStderr).putStr output.stderr
  return UInt32.ofNat output.code
