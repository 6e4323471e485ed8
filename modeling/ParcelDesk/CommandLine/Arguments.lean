import ParcelDesk.Text.Numeral

/-!
# Arguments

What the words of a command line ask for. A word is taken with those before it, so of a mistake and
a call for help the one that comes first counts. A setting that no word gives may be given by an
environment variable.
-/

namespace ParcelDesk.CommandLine

abbrev Environment := String → Option String

/-- The settings, each with a value. -/
inductive Setting where
  | snapshot
  | databaseUrl
  | workers
deriving DecidableEq

namespace Setting

def all : List Setting := [.snapshot, .databaseUrl, .workers]

def name : Setting → String
  | .snapshot => "snapshot"
  | .databaseUrl => "database-url"
  | .workers => "workers"

end Setting

def snapshotVariable : String := "PICKUP_SNAPSHOT"

def databaseVariable : String := "DATABASE_URL"

/-- What a run needs to know: the sheet, the snapshot to load and save, a database that somebody
would rather have used, and the number of workers. -/
structure Options where
  commands : String
  snapshot : Option String
  databaseUrl : Option String
  workers : UInt64
deriving DecidableEq

/-- What a command line asks for. -/
inductive Invocation where
  | run (options : Options)
  | help
  | version
  | misuse
deriving DecidableEq

inductive Word where
  | separator
  | long (name : String) (value : Option String)
  | short (flags : List Char)
  | plain
deriving DecidableEq

namespace Word

/-- The kind of a word, by the hyphens in front of it; a single hyphen is a plain word. -/
def ofChars : List Char → Word
  | ['-', '-'] => .separator
  | '-' :: '-' :: text =>
      let value := (text.dropWhile (· != '=')).drop 1
      .long (String.ofList (text.takeWhile (· != '=')))
        (if '=' ∈ text then some (String.ofList value) else none)
  | '-' :: flag :: flags => .short (flag :: flags)
  | _ => .plain

def ofText (text : String) : Word :=
  ofChars text.toList

end Word

structure Draft where
  commands : Option String := none
  snapshot : Option String := none
  databaseUrl : Option String := none
  workers : Option UInt64 := none

namespace Draft

def path? (text : String) : Option String :=
  if text.isEmpty then none else some text

def takePath (draft : Draft) (text : String) : Option Draft :=
  match draft.commands, path? text with
  | none, some path => some { draft with commands := some path }
  | _, _ => none

def take (draft : Draft) (setting : Setting) (text : String) : Option Draft :=
  match setting with
  | .snapshot =>
      match draft.snapshot, path? text with
      | none, some path => some { draft with snapshot := some path }
      | _, _ => none
  | .databaseUrl =>
      match draft.databaseUrl with
      | none => some { draft with databaseUrl := some text }
      | some _ => none
  | .workers =>
      match draft.workers, Numeral.read text.toList with
      | none, .ok count => some { draft with workers := some count }
      | _, _ => none

/-- Takes a setting from the environment unless a word has given it. -/
def takeVariable (draft : Draft) (setting : Setting) (given : Bool) (value : Option String) :
    Option Draft :=
  match given, value with
  | false, some text => draft.take setting text
  | _, _ => some draft

/-- The options, of which only the sheet is indispensable. -/
def finish (environment : Environment) (draft : Draft) : Option Options := do
  let commands ← draft.commands
  let draft ← draft.takeVariable .snapshot draft.snapshot.isSome (environment snapshotVariable)
  let draft ← draft.takeVariable .databaseUrl draft.databaseUrl.isSome
    (environment databaseVariable)
  return { commands, snapshot := draft.snapshot, databaseUrl := draft.databaseUrl,
           workers := draft.workers.getD 4 }

end Draft

def shortFlag : List Char → Invocation
  | 'h' :: _ => .help
  | 'V' :: _ => .version
  | _ => .misuse

def longFlag : String → Invocation
  | "help" => .help
  | "version" => .version
  | _ => .misuse

def orMisuse : Option Draft → (Draft → Except Invocation Draft) → Except Invocation Draft
  | some draft, next => next draft
  | none, _ => .error .misuse

def takePaths (draft : Draft) : List String → Except Invocation Draft
  | [] => .ok draft
  | text :: rest => orMisuse (draft.takePath text) fun draft => takePaths draft rest

/-- Takes words one after the other, of which the first may be the value of a setting, until one of
them settles what is asked for. -/
def takeWords (draft : Draft) (waiting : Option Setting) :
    List String → Except Invocation Draft
  | [] => if waiting.isSome then .error .misuse else .ok draft
  | text :: rest =>
      match waiting, Word.ofText text with
      | some setting, .plain =>
          orMisuse (draft.take setting text) fun draft => takeWords draft none rest
      | some _, _ => .error .misuse
      | none, .plain => orMisuse (draft.takePath text) fun draft => takeWords draft none rest
      | none, .separator => takePaths draft rest
      | none, .short flags => .error (shortFlag flags)
      | none, .long name value =>
          match Setting.all.find? (·.name == name), value with
          | none, none => .error (longFlag name)
          | none, some _ => .error .misuse
          | some setting, none => takeWords draft (some setting) rest
          | some setting, some value =>
              orMisuse (draft.take setting value) fun draft => takeWords draft none rest

def invocation (environment : Environment) (words : List String) : Invocation :=
  match takeWords {} none words with
  | .error invocation => invocation
  | .ok draft =>
      match draft.finish environment with
      | some options => .run options
      | none => .misuse

def programName : String := "pickup_point"

def versionText : String :=
  programName ++ " 0.1.0\n"

def variableText (environment : Environment) (name : String) : String :=
  "[env: " ++ name ++ "=" ++ (environment name).getD "" ++ "]"

def helpText (environment : Environment) : String :=
  String.intercalate "\n"
    ["Usage: " ++ programName ++ " [OPTIONS] <COMMANDS>",
     "",
     "Arguments:",
     "  <COMMANDS>  Command CSV file",
     "",
     "Options:",
     "      --snapshot <SNAPSHOT>",
     "          JSON snapshot to load on start and save on exit. " ++
       "Without it, state lives in memory only " ++ variableText environment snapshotVariable,
     "      --database-url <DATABASE_URL>",
     "          Postgres connection string. If provided, uses the relational backend " ++
       variableText environment databaseVariable,
     "      --workers <WORKERS>",
     "          Number of workers running commands concurrently [default: 4]",
     "  -h, --help",
     "          Print help",
     "  -V, --version",
     "          Print version",
     ""]

end ParcelDesk.CommandLine
