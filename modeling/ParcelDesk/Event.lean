import ParcelDesk.Json.Value
import ParcelDesk.Order

/-!
# Events

What the desk tells the world about the orders it has worked on, and the document in which it is
logged.
-/

namespace ParcelDesk

/-- The news of a mutation: the stage that orders have reached, or the error inside the engine that
kept them from it. -/
structure Event where
  kind : Status
  time : Instant
  ids : List UInt64
  error : Option String
deriving DecidableEq

namespace Event

def toJson (event : Event) : Json :=
  .object [("kind", .ofString event.kind.name), ("timestamp", .string event.time.text),
    ("order_ids", .array (event.ids.map .ofWord)),
    ("error", match event.error with
      | some detail => .ofString detail
      | none => .null)]

def payload (event : Event) : List Char :=
  event.toJson.compact

end Event

end ParcelDesk
