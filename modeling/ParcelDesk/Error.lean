/-!
# Errors

Why a call failed: the request is not legal in the state of its orders, several orders of one
batch failed, or something below the engine did. Every error has a wording, a class by which
transports answer, and a mark that says whether the engine itself is to blame.
-/

namespace ParcelDesk

/-- The reasons for which a request is turned down. -/
inductive Refusal where
  | notFound
  | alreadyExists
  | wrongInput
  | wrongStatus
  | expirationPassed
  | notExpired
  | twoDaysPassed
deriving DecidableEq, Repr

/-- What failed below the engine. -/
inductive Source where
  | csv
  | io
  | json
  | database
  | internal
deriving DecidableEq, Repr

/-- Why a call failed. -/
inductive Error where
  | refused (reason : Refusal) (detail : String)
  | batch (members : List Error)
  | failed (source : Source) (detail : String)
deriving Repr, Inhabited

/-- The classes of errors that transports tell apart. -/
inductive ErrorClass where
  | notFound
  | alreadyExists
  | invalidArgument
  | failedPrecondition
  | internal
deriving DecidableEq, Repr

namespace ErrorClass

def code : ErrorClass → String
  | .notFound => "NOT_FOUND"
  | .alreadyExists => "ALREADY_EXISTS"
  | .invalidArgument => "INVALID_ARGUMENT"
  | .failedPrecondition => "FAILED_PRECONDITION"
  | .internal => "INTERNAL"

def httpStatus : ErrorClass → Nat
  | .notFound => 404
  | .alreadyExists | .failedPrecondition => 409
  | .invalidArgument => 400
  | .internal => 500

end ErrorClass

namespace Refusal

def heading : Refusal → String
  | .notFound => "not found"
  | .alreadyExists => "already exists"
  | .wrongInput => "wrong input"
  | .wrongStatus => "wrong status"
  | .expirationPassed => "expiration date has passed"
  | .notExpired => "expiration date has not come yet"
  | .twoDaysPassed => "two days have passed"

def errorClass : Refusal → ErrorClass
  | .notFound => .notFound
  | .alreadyExists => .alreadyExists
  | .wrongInput => .invalidArgument
  | .wrongStatus | .expirationPassed | .notExpired | .twoDaysPassed => .failedPrecondition

end Refusal

namespace Source

def heading : Source → String
  | .csv => "CSV error"
  | .io => "IO error"
  | .json => "JSON error"
  | .database => "database error"
  | .internal => "internal error"

end Source

namespace Error

mutual

/-- The wording of an error; a batch lists the wordings of its members. -/
def message : Error → String
  | .refused reason detail => reason.heading ++ ": " ++ detail
  | .batch members => String.intercalate "; " (messages members)
  | .failed source detail => source.heading ++ ": " ++ detail

def messages : List Error → List String
  | [] => []
  | error :: rest => error.message :: messages rest

end

/-- The class of an error; a batch has that of its first member. -/
def errorClass : Error → ErrorClass
  | .refused reason _ => reason.errorClass
  | .batch [] => .internal
  | .batch (error :: _) => error.errorClass
  | .failed _ _ => .internal

mutual

def isServiceError : Error → Bool
  | .refused _ _ => false
  | .batch members => anyServiceError members
  | .failed _ _ => true

def anyServiceError : List Error → Bool
  | [] => false
  | error :: rest => error.isServiceError || anyServiceError rest

end

/-- Several failures as one error; a single one stays as it is. -/
def fold : List Error → Error
  | [error] => error
  | errors => .batch errors

def internal (detail : String) : Error :=
  .failed .internal detail

theorem messages_eq_map (errors : List Error) : messages errors = errors.map message := by
  induction errors with
  | nil => rfl
  | cons error rest ih => simp [messages, ih]

theorem anyServiceError_eq_any (errors : List Error) :
    anyServiceError errors = errors.any isServiceError := by
  induction errors with
  | nil => rfl
  | cons error rest ih => simp [anyServiceError, ih]

theorem fold_singleton (error : Error) : fold [error] = error := rfl

end Error

def errorsOf : List (Except Error α) → List Error
  | [] => []
  | .error error :: rest => error :: errorsOf rest
  | .ok _ :: rest => errorsOf rest

def valuesOf : List (Except Error α) → List α
  | [] => []
  | .error _ :: rest => valuesOf rest
  | .ok value :: rest => value :: valuesOf rest

theorem ok_bind (value : α) (next : α → Except ε β) :
    (Except.ok value >>= next) = next value := rfl

/-- Items that are read back one by one are read back together. -/
theorem mapM_map_ok {items : List α} {write : α → β} {read : β → Except ε γ} {value : α → γ}
    (h : ∀ item ∈ items, read (write item) = .ok (value item)) :
    (items.map write).mapM read = .ok (items.map value) := by
  induction items with
  | nil => rfl
  | cons item items ih =>
      rw [List.map_cons, List.mapM_cons, h item List.mem_cons_self, ok_bind,
        ih fun other hother => h other (List.mem_cons_of_mem item hother)]
      rfl

/-- A fault for which no answer exists: the computation ends on the spot. -/
inductive Crash where
  | instantOverflow
  | indexOutOfBounds (size index : Nat)
deriving DecidableEq, Repr

namespace Crash

def message : Crash → String
  | .instantOverflow => "`DateTime + TimeDelta` overflowed"
  | .indexOutOfBounds size index =>
      s!"index out of bounds: the len is {size} but the index is {index}"

end Crash

inductive Stop where
  | error (error : Error)
  | crash (crash : Crash)

abbrev Reply (α : Type) := Except Stop α

namespace Reply

def fail (error : Error) : Reply α :=
  .error (.error error)

def refuse (reason : Refusal) (detail : String) : Reply α :=
  .error (.error (.refused reason detail))

def ofExcept : Except Error α → Reply α
  | .ok value => .ok value
  | .error error => fail error

end Reply

end ParcelDesk
