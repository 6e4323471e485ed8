import ParcelDesk.CommandLine.Program
import ParcelDesk.Text.Pieces

/-!
# Disks

A disk in memory, on which programs can be run without touching a real one. It has directories that
stay as they are and files of bytes that can be read and written.
-/

namespace ParcelDesk.CommandLine

/-- The names on the way to a file or directory; a path from the root begins with an empty name. -/
abbrev Path := List String

namespace Path

def enter (path : Path) (name : String) : Path :=
  if name = "" || name = "." then path
  else if name = ".." then if path = [""] then path else path.dropLast
  else path ++ [name]

def ofText (text : String) : Path :=
  let names := (Text.split (· == '/') text.toList).map String.ofList
  names.foldl enter (if text.startsWith "/" then [""] else [])

def isDirectoryText (text : String) : Bool :=
  match (Text.split (· == '/') text.toList).getLast? with
  | some last => last.isEmpty || last == ['.'] || last == ['.', '.']
  | none => false

end Path

/-- Directories and the content of files. -/
structure Disk where
  directories : List Path
  files : List (Path × List Char)

namespace Disk

def find (disk : Disk) (text : String) : Found :=
  let path := Path.ofText text
  if path ∈ disk.directories then .directory
  else match disk.files.lookup path with
    | some octets => if Path.isDirectoryText text then .unreadable else .file octets
    | none =>
        if disk.files.any fun file => file.1.isPrefixOf path then .unreadable else .missing

def write? (disk : Disk) (text : String) (octets : List Char) : Option Disk :=
  let path := Path.ofText text
  if path ∈ disk.directories || Path.isDirectoryText text || path.dropLast ∉ disk.directories then
    none
  else
    let content := Octets.ofBytes (Octets.toBytes octets)
    some { disk with files := (path, content) :: disk.files.filter (·.1 ≠ path) }

end Disk

/-- What a program has done in the end. -/
structure Transcript where
  code : Nat
  output : List Char
  notices : List Notice
  disk : Disk

namespace Program

def onDisk (time : Instant) : Program → Disk → Transcript
  | .exit code, disk => ⟨code, [], [], disk⟩
  | .print text next, disk =>
      let transcript := next.onDisk time disk
      { transcript with output := text ++ transcript.output }
  | .tell notice next, disk =>
      let transcript := next.onDisk time disk
      { transcript with notices := notice :: transcript.notices }
  | .readClock next, disk => (next time).onDisk time disk
  | .readFile path next, disk => (next (disk.find path)).onDisk time disk
  | .writeFile path octets next, disk =>
      match disk.write? path octets with
      | some disk => (next true).onDisk time disk
      | none => (next false).onDisk time disk

end Program

end ParcelDesk.CommandLine
