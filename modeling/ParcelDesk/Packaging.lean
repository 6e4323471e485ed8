import ParcelDesk.Error
import ParcelDesk.Text.Blank

/-!
# Packaging

What a parcel is handed over in, and what that adds to its cost. `cost` has no wrap-around: a sum
beyond the range of amounts is turned down.
-/

namespace ParcelDesk

inductive Container where
  | plain
  | package
  | box
  | tape
deriving DecidableEq, Repr, Inhabited

namespace Container

def all : List Container := [.plain, .package, .box, .tape]

def name : Container → String
  | .plain => "default"
  | .package => "package"
  | .box => "box"
  | .tape => "tape"

def surcharge : Container → Nat
  | .plain => 0
  | .package => 5
  | .box => 20
  | .tape => 1

def weightLimit : Container → Option Nat
  | .plain | .tape => none
  | .package => some 10000
  | .box => some 30000

/-- The container with the name, blanks around it aside. No name at all is the plain one. -/
def read (text : List Char) : Except Error Container :=
  let text := String.ofList (Text.trim text)
  if text.isEmpty then .ok .plain
  else match all.find? fun container => container.name == text with
    | some container => .ok container
    | none => .error (.refused .wrongInput (text ++ " isn't a package kind"))

/-- The container's label for clients; of those that enclose the parcel it tells whether they are
taped. -/
def label (container : Container) (taped : Bool) : String :=
  match container, taped with
  | .package, true => "taped package"
  | .box, true => "taped box"
  | container, _ => container.name

end Container

/-- A container and whether it is wrapped in tape besides. Tape itself takes no wrap. -/
structure Packaging where
  container : Container
  wrapped : Bool
  bare : container = .tape → wrapped = false
deriving DecidableEq

namespace Packaging

def wrapCost : Nat := 1

def ofContainer (container : Container) : Packaging :=
  ⟨container, false, fun _ => rfl⟩

def wrap (packaging : Packaging) : Except Error Packaging :=
  if h : packaging.container = .tape then .error (.refused .wrongInput "can't use tape twice")
  else if packaging.wrapped then
    .error (.refused .wrongInput (packaging.container.name ++ " is already wrapped"))
  else .ok ⟨packaging.container, true, fun tape => absurd tape h⟩

def make (container : Container) (wrapped : Bool) : Except Error Packaging :=
  if wrapped then (ofContainer container).wrap else .ok (ofContainer container)

def isTaped (packaging : Packaging) : Bool :=
  packaging.wrapped || packaging.container = .tape

def surcharge (packaging : Packaging) : Nat :=
  packaging.container.surcharge + if packaging.wrapped then wrapCost else 0

def cost (packaging : Packaging) (weight base : UInt64) : Except Error UInt64 :=
  match packaging.container.weightLimit with
  | some limit =>
      if limit < weight.toNat then
        .error (.refused .wrongInput s!"max weight for {packaging.container.name} is {limit}gr")
      else total
  | none => total
where
  /-- Base cost and surcharge together. -/
  total : Except Error UInt64 :=
    if h : base.toNat + packaging.surcharge < UInt64.size then
      .ok (.ofNatLT (base.toNat + packaging.surcharge) h)
    else .error (.refused .wrongInput s!"cost {base} is too large")

end Packaging

end ParcelDesk
