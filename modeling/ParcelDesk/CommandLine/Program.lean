import ParcelDesk.CommandLine.Arguments
import ParcelDesk.Session.Run
import ParcelDesk.Sheet.Instructions

/-!
# Programs

What the program does from its command line to its exit code, as a value: which files it reads and
writes, what it prints, and what it tells whoever started it. It works on a snapshot, if one is
named, runs the session of a sheet, and saves the snapshot again. Two things are left to chance: who
takes the next step in the session, and the order in which the maps of the snapshot are written.
-/

namespace ParcelDesk.CommandLine

inductive Found where
  | file (octets : List Char)
  | directory
  | missing
  | unreadable
deriving DecidableEq

inductive Notice where
  | misuse
  | fallback
  | unreadable (error : Error)
  | news (event : Event)
  | failure (error : Error)

namespace Notice

def text : Notice → String
  | .misuse => "error: the arguments are not understood\n\nFor more information, try '--help'."
  | .fallback =>
      "Postgres storage requested via --database-url, but 'storage-postgres' feature is not " ++
        "enabled. Falling back to JSON storage."
  | .unreadable error => "Error reading command error=" ++ error.message
  | .news event => String.ofList event.payload
  | .failure error => "Error: " ++ error.message

end Notice

/-- A program that works with files. -/
inductive Program where
  | exit (code : Nat)
  | print (text : List Char) (next : Program)
  | tell (notice : Notice) (next : Program)
  | readClock (next : Instant → Program)
  | readFile (path : String) (next : Found → Program)
  | writeFile (path : String) (octets : List Char) (next : Bool → Program)

namespace Program

def giveUp (error : Error) : Program :=
  .tell (.failure error) (.exit 1)

def fileError (path : String) : Error :=
  .failed .io ("can't use " ++ path)

def save (path : String) (octets : List Char) (next : Program) : Program :=
  .writeFile path octets fun done => if done then next else giveUp (fileError path)

def tellAll (notices : List Notice) (next : Program) : Program :=
  notices.foldr .tell next

def orGiveUp (result : Except Error α) (next : α → Program) : Program :=
  match result with
  | .ok value => next value
  | .error error => giveUp error

/-- Opens the stock of a snapshot. A snapshot that is not there is created; without a path the
stock begins empty. -/
def openStock (snapshot : Option String) (next : Stock → Program) : Program :=
  match snapshot with
  | none => next .empty
  | some path =>
      .readFile path fun
        | .file octets => orGiveUp (Stock.ofSnapshot octets) next
        | .missing => save path "{}".toList (next .empty)
        | .directory | .unreadable => giveUp (fileError path)

def readSheet (path : String) (next : List (Except Error Instruction) → Program) : Program :=
  .readFile path fun
    | .file octets => next (Sheet.instructions octets)
    | .directory => next []
    | .missing | .unreadable => giveUp (fileError path)

def saveStock (scribe : Scribe) (snapshot : Option String) (stock : Stock) (next : Program) :
    Program :=
  match snapshot with
  | none => next
  | some path => save path (scribe.write stock) next

/-- Ends a session: its news are told, its report is printed, and the stock is saved if all workers
have left. -/
def conclude (scribe : Scribe) (snapshot : Option String) (session : Session Stock) : Program :=
  tellAll (session.office.news.map .news) <| .print session.report <|
    match session.clerk with
    | .gone (.ok ()) => saveStock scribe snapshot session.office.stores (.exit 0)
    | .gone (.error error) => giveUp error
    | _ => giveUp (.internal "the session has come to a halt")

/-- The program when its session goes as `play` has it and its snapshot is written by the scribe. -/
def runBy (play : Instant → Session Stock → Session Stock) (scribe : Scribe) (options : Options) :
    Program :=
  openStock options.snapshot fun stock =>
    orGiveUp (Session.make options.workers stock []) fun session =>
      readSheet options.commands fun rows =>
        tellAll ((errorsOf rows).map .unreadable) <|
          .readClock fun time =>
            conclude scribe options.snapshot (play time { session with agenda := valuesOf rows })

def run (options : Options) : Program :=
  runBy (fun time session => (session.run Stock.serve time).2) .ascending options

def ofInvocation (environment : Environment) : Invocation → Program
  | .help => .print (helpText environment).toList (.exit 0)
  | .version => .print versionText.toList (.exit 0)
  | .misuse => .tell .misuse (.exit 2)
  | .run options =>
      if options.databaseUrl.isSome then .tell .fallback (run options) else run options

def ofWords (environment : Environment) (words : List String) : Program :=
  ofInvocation environment (invocation environment words)

end Program

end ParcelDesk.CommandLine
