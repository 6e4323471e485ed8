import Std.Time.DateTime.Timestamp
import ParcelDesk.CommandLine.Program

/-!
# The command line

Carries out the program that a command line asks for.
-/

namespace ParcelDesk.CommandLine

def currentTime : IO Instant := do
  let elapsed ← Std.Time.Timestamp.now
  match Instant.ofNanos? elapsed.toNanosecondsSinceUnixEpoch.val with
  | some time => return time
  | none => return (default : Date).start

/-- What an error of reading a file says about its path; the system numbers directories 21. -/
def foundOf : IO.Error → Found
  | .noFileOrDirectory .. => .missing
  | .inappropriateType _ 21 _ => .directory
  | _ => .unreadable

def lookUp (path : String) : IO Found := do
  try
    return .file (Octets.ofBytes (← IO.FS.readBinFile path))
  catch error => return foundOf error

def replaceFile (path : String) (octets : List Char) : IO Bool := do
  try
    IO.FS.writeBinFile (path ++ ".tmp") (Octets.toBytes octets)
    IO.FS.rename (path ++ ".tmp") path
    return true
  catch _ => return false

def Program.perform : Program → IO Nat
  | .exit code => return code
  | .print text next => do
      IO.print (String.ofList text)
      next.perform
  | .tell notice next => do
      IO.eprintln notice.text
      next.perform
  | .readClock next => do (next (← currentTime)).perform
  | .readFile path next => do (next (← lookUp path)).perform
  | .writeFile path octets next => do (next (← replaceFile path octets)).perform

end ParcelDesk.CommandLine

open ParcelDesk.CommandLine in
def main (words : List String) : IO UInt32 := do
  let snapshot ← IO.getEnv snapshotVariable
  let database ← IO.getEnv databaseVariable
  let environment (name : String) : Option String :=
    if name = snapshotVariable then snapshot
    else if name = databaseVariable then database
    else none
  return (← (Program.ofWords environment words).perform).toUInt32
