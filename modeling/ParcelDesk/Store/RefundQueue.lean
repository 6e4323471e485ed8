import ParcelDesk.Store.Rack

/-!
# The refund queue

The orders that their owners brought back, read page by page. A page is cut out of all places,
live or not.
-/

namespace ParcelDesk

/-- The orders brought back, in the order in which they came. -/
abbrev RefundQueue := Rack

namespace RefundQueue

def add (queue : RefundQueue) (owner id : UInt64) (order : Order) : Except Error RefundQueue := do
  let (_, queue) ← queue.push (.ofOrder owner id order)
  .ok queue

def remove (queue : RefundQueue) (id : UInt64) : Reply RefundQueue :=
  match queue.withdraw id with
  | .error (.error _) => Reply.refuse .notFound s!"order {id} is not in refunds"
  | reply => reply

/-- The live orders from a page's first place on, as many as a page may show. Pages count from 1. -/
def list (queue : RefundQueue) (page size : UInt64) : Except Error (List Slot) :=
  if size = 0 then .error (.refused .wrongInput "orders per page must be greater than 0")
  else if page = 0 then .error (.refused .wrongInput "page must be greater than 0")
  else .ok (queue.scan ((page.toNat - 1) * size.toNat) (some size.toNat))

end RefundQueue

end ParcelDesk
