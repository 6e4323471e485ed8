import ParcelDesk.Order

/-!
# Requests to a store

What a store of orders can be asked, and the kind of answer each request has. Every request that
changes something is one step: whoever else works on the store sees all of the change or none.
-/

namespace ParcelDesk

/-- What a store can be asked. -/
inductive Request where
  | addOrder (owner id : UInt64) (order : Order) (time : Instant)
  | record (id : UInt64)
  | order (owner id : UInt64)
  | expiration (owner id : UInt64)
  | checkRemovable (id : UInt64)
  | removeOrders (ids : List UInt64) (status : Status) (time : Instant)
  | setStatus (id : UInt64) (status : Status) (time : Instant)
  | addRefund (owner id : UInt64) (order : Order) (time : Instant)
  | removeRefund (id : UInt64) (time : Instant)
  | orders (owner first limit : UInt64)
  | refunds (page size : UInt64)
deriving DecidableEq

namespace Request

abbrev Answer : Request → Type
  | .addOrder .. => Unit
  | .record .. => Record
  | .order .. => Order
  | .expiration .. => Date
  | .checkRemovable .. => Unit
  | .removeOrders .. => Unit
  | .setStatus .. => Unit
  | .addRefund .. => Unit
  | .removeRefund .. => Unit
  | .orders .. => List Slot
  | .refunds .. => List Slot

def method : Request → String
  | .addOrder .. => "add_order"
  | .record .. => "get_order_status"
  | .order .. => "get_order"
  | .expiration .. => "get_expiration_date"
  | .checkRemovable .. => "can_remove_order"
  | .removeOrders .. => "remove_orders"
  | .setStatus .. => "set_order_status"
  | .addRefund .. => "add_refund"
  | .removeRefund .. => "remove_refund"
  | .orders .. => "get_orders_by_user"
  | .refunds .. => "get_refunds"

def changes : Request → Bool
  | .addOrder .. | .removeOrders .. | .setStatus .. | .addRefund .. | .removeRefund .. => true
  | .record .. | .order .. | .expiration .. | .checkRemovable .. | .orders .. | .refunds .. =>
      false

end Request

/-- A way of answering requests from a state of type `σ`. The state after a request that fails is
told as well. -/
abbrev Server (σ : Type) := (request : Request) → σ → Reply request.Answer × σ

namespace Server

/-- Answers the requests named in `methods` with a failure inside the engine and passes on the
others. -/
def failing (methods : List String) (detail : String) (serve : Server σ) : Server σ :=
  fun request state =>
    if request.method ∈ methods then (Reply.fail (.internal detail), state)
    else serve request state

end Server

end ParcelDesk
