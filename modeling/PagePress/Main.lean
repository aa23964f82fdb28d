/-
  PagePress.Main

  The program: its arguments, the files of the machine, and the clock.
-/

import PagePress.Command.Run
import Std.Time.DateTime.Timestamp

namespace PagePress.Program

def toString (t : Text) : String := String.ofList t

def succeeds (action : IO Unit) : IO Bool := do
  try
    action
    return true
  catch _ => return false

/-- Why a file cannot be read, by the error of the attempt.  A file in place of a directory shows
    when the path is opened, and the error names the path; a directory shows only when it is read. -/
def readError : IO.Error → ReadError
  | .noFileOrDirectory .. => .missing
  | .inappropriateType (some _) .. => .notDirectory
  | .inappropriateType none .. => .isDirectory
  | .invalidArgument .. => .nameTooLong
  | _ => .notText

instance : FileAccess IO where
  readText path := do
    try return .ok (← IO.FS.readFile (toString path)).toList
    catch e => return .error (readError e)
  makeDirectory path := succeeds (IO.FS.createDirAll (toString path))
  writeText path content := succeeds (IO.FS.writeFile (toString path) (toString content))

/-- The present moment; its milliseconds make up the seed. -/
def moment : IO Moment := do
  let millis := (← Std.Time.Timestamp.now).toMillisecondsSinceUnixEpoch.val
  return {
    now := ⟨millis / 1000, (millis % 1000).toNat * 1000000⟩
    seed := UInt32.ofNat (millis % Int.pow 2 32).toNat }

end PagePress.Program

def main (arguments : List String) : IO UInt32 := do
  let moment ← PagePress.Program.moment
  let outcome ← PagePress.runProgram moment (arguments.map String.toList)
  (← IO.getStderr).putStr (PagePress.Program.toString outcome.printed.messages)
  (← IO.getStdout).putStr (PagePress.Program.toString outcome.printed.output)
  return UInt32.ofNat outcome.exit
