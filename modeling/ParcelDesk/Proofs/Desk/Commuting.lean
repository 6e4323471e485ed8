import ParcelDesk.Proofs.Desk.Verdicts

/-!
# Deeds on different orders

Two deeds whose orders are all different come to the same in either order, and leave the same stock
but for the order of the two places that they have added to one list.
-/

namespace ParcelDesk

namespace Impact

variable {one other : Impact} {time : Instant}

inductive Meets : Impact → Impact → Prop
  | register {owner other : UInt64} (howner : owner = other) (first second : UInt64)
      (one two : Order) : Meets (.register owner first one) (.register other second two)
  | enqueue (owner other first second : UInt64) (one two : Order) :
      Meets (.enqueue owner first one) (.enqueue other second two)

theorem apply_comm (hapart : ∀ id ∈ one.ids, id ∉ other.ids) (hmeet : ¬ one.Meets other)
    (stock : Stock) :
    other.apply time (one.apply time stock) = one.apply time (other.apply time stock) := by
  cases one with
  | nothing => rfl
  | register owner first order =>
      have hfirst := hapart first List.mem_cons_self
      cases other with
      | nothing => rfl
      | register user second further =>
          exact stock.register_comm (fun howner => hmeet (.register howner _ _ _ _))
            (List.ne_of_not_mem_cons hfirst) order further
      | release ids status =>
          exact Stock.releaseAll_comm (·.register owner first order time) status
            (fun id hid stock => stock.release_register
              (ne_of_mem_of_not_mem hid hfirst).symm _ _ _) stock
      | enqueue user second further =>
          exact (stock.register_enqueue (List.ne_of_not_mem_cons hfirst) _ _ _ _).symm
      | dequeue second =>
          exact (stock.register_dequeue (List.ne_of_not_mem_cons hfirst) _ _).symm
  | release ids status =>
      cases other with
      | nothing => rfl
      | register user second further =>
          exact (Stock.releaseAll_comm (·.register user second further time) status
            (fun id hid stock => stock.release_register
              (List.ne_of_not_mem_cons (hapart id hid)).symm _ _ _) stock).symm
      | release keys further =>
          refine Stock.releaseAll_comm (·.releaseAll ids status time) further
            (fun key hkey stock => ?_) stock
          refine (Stock.releaseAll_comm (·.release key further time) status
            (fun id hid stock => stock.release_comm ?_ _ _) stock).symm
          rintro rfl
          exact hapart _ hid hkey
      | enqueue user second further =>
          exact (Stock.releaseAll_comm (·.enqueue user second further time) status
            (fun id hid stock => stock.release_enqueue
              (List.ne_of_not_mem_cons (hapart id hid)) _ _ _) stock).symm
      | dequeue second =>
          exact (Stock.releaseAll_comm (·.dequeue second time) status
            (fun id hid stock => stock.release_dequeue
              (List.ne_of_not_mem_cons (hapart id hid)) _) stock).symm
  | enqueue owner first order =>
      have hfirst := hapart first List.mem_cons_self
      cases other with
      | nothing => rfl
      | register user second further =>
          exact stock.register_enqueue (List.ne_of_not_mem_cons hfirst).symm _ _ _ _
      | release ids status =>
          exact Stock.releaseAll_comm (·.enqueue owner first order time) status
            (fun id hid stock => stock.release_enqueue (ne_of_mem_of_not_mem hid hfirst) _ _ _)
            stock
      | enqueue user second further =>
          exact absurd (.enqueue owner user first second order further) hmeet
      | dequeue second => exact stock.dequeue_enqueue (List.ne_of_not_mem_cons hfirst) _ _
  | dequeue first =>
      have hfirst := hapart first List.mem_cons_self
      cases other with
      | nothing => rfl
      | register user second further =>
          exact stock.register_dequeue (List.ne_of_not_mem_cons hfirst).symm _ _
      | release ids status =>
          exact Stock.releaseAll_comm (·.dequeue first time) status
            (fun id hid stock => stock.release_dequeue (ne_of_mem_of_not_mem hid hfirst) _) stock
      | enqueue user second further =>
          exact (stock.dequeue_enqueue (List.ne_of_not_mem_cons hfirst).symm _ _).symm
      | dequeue second => exact stock.dequeue_comm (List.ne_of_not_mem_cons hfirst)

end Impact

namespace Deed

/-- How the stocks may differ that two deeds leave, in one order and in the other: where both
succeed and add a place to the same list, these two places are swapped; else not at all. -/
def Crossed (first : Deed) (one : Reply Receipt) (second : Deed) (two : Reply Receipt)
    (stock other : Stock) : Prop :=
  match first, one, second, two with
  | .accept parcel, .ok _, .accept further, .ok _ =>
      if parcel.owner = further.owner then
        Stock.SwappedFor parcel.owner parcel.id further.id stock other
      else stock = other
  | .refund _ id, .ok _, .refund _ further, .ok _ => Stock.SwappedQueue id further stock other
  | _, _, _, _ => stock = other

variable {first second : Deed} {one two : Reply Receipt} {impact further : Impact}
  {time : Instant}

theorem Leaves.crossed (hfirst : first.Leaves one impact) (hsecond : second.Leaves two further)
    (hapart : ∀ id ∈ first.ids, id ∉ second.ids) (stock : Stock) :
    Crossed first one second two (further.apply time (impact.apply time stock))
      (impact.apply time (further.apply time stock)) := by
  have happly (hmeet : ¬ impact.Meets further) :
      further.apply time (impact.apply time stock) =
        impact.apply time (further.apply time stock) :=
    Impact.apply_comm (fun id hid hmem =>
      hapart id (hfirst.ids_subset hid) (hsecond.ids_subset hmem)) hmeet stock
  unfold Crossed
  split
  next parcel receipt other answer =>
    have hne : parcel.id ≠ other.id :=
      List.ne_of_not_mem_cons (hapart parcel.id List.mem_cons_self)
    cases hfirst
    cases hsecond
    split
    next howner =>
      rw [← howner]
      exact stock.swappedFor_register hne _ _ _
    next howner =>
      apply happly
      rintro ⟨hsame⟩
      exact howner hsame
  next owner id receipt user key answer =>
    have hne : id ≠ key := List.ne_of_not_mem_cons (hapart id List.mem_cons_self)
    cases hfirst
    cases hsecond
    exact stock.swappedQueue_enqueue hne _ _ _ _
  next hparcels hrefunds =>
    apply happly
    intro hmeet
    cases hmeet with
    | register howner first second one two =>
        cases hfirst
        cases hsecond
        exact hparcels _ _ _ _ rfl rfl rfl rfl
    | enqueue owner other first second one two =>
        cases hfirst
        cases hsecond
        exact hrefunds _ _ _ _ _ _ rfl rfl rfl rfl

theorem Leaves.sameRecords (hfirst : first.Leaves one impact)
    (hapart : ∀ id ∈ first.ids, id ∉ second.ids) (time : Instant) (stock : Stock) :
    stock.SameRecords second.ids (impact.apply time stock) := fun id hid =>
  Impact.get?_apply (fun hmem => hapart id (hfirst.ids_subset hmem) hid) time stock

/-- Deeds on different orders commute. Whatever has been done at the desk before, each of the two
has the same reply whether it comes first or second, and the stocks they leave are the same but for
the order of two places: on the rack of their user if both were accepted, in the queue if both were
taken back. -/
theorem deeds_commute (past : List Move) (first second : Deed) (time : Instant)
    (hapart : ∀ id ∈ first.ids, id ∉ second.ids) :
    let stock := ((Counter.opened .empty).run past).stock
    let firstOnce := first.call.run Stock.serve time stock
    let secondThen := second.call.run Stock.serve time firstOnce.state
    let secondOnce := second.call.run Stock.serve time stock
    let firstThen := first.call.run Stock.serve time secondOnce.state
    firstThen.reply = firstOnce.reply ∧ secondThen.reply = secondOnce.reply ∧
      Crossed first firstOnce.reply second secondOnce.reply secondThen.state firstThen.state := by
  intro stock firstOnce secondThen secondOnce firstThen
  have hsettled : stock.Settled :=
    ((Counter.kept_opened Stock.settled_empty).run past).settled
  obtain ⟨one, impact, hone, hfirst⟩ := first.decided time stock
  obtain ⟨two, further, htwo, hsecond⟩ := second.decided time stock
  obtain ⟨hfirstReply, hfirstState⟩ := hfirst stock hsettled fun _ _ => rfl
  obtain ⟨hsecondReply, hsecondState⟩ := hsecond stock hsettled fun _ _ => rfl
  have hafterFirst : firstOnce.state.Settled := first.settled_run hsettled time
  have hafterSecond : secondOnce.state.Settled := second.settled_run hsettled time
  obtain ⟨hthenReply, hthenState⟩ := hsecond firstOnce.state hafterFirst (by
    rw [hfirstState]
    exact hone.sameRecords hapart time stock)
  obtain ⟨hlastReply, hlastState⟩ := hfirst secondOnce.state hafterSecond (by
    rw [hsecondState]
    exact htwo.sameRecords (fun id hid hmem => hapart id hmem hid) time stock)
  refine ⟨hlastReply.trans hfirstReply.symm, hthenReply.trans hsecondReply.symm, ?_⟩
  rw [hfirstReply, hsecondReply, hthenState, hfirstState, hlastState, hsecondState]
  exact hone.crossed htwo hapart stock

/-- A box and another one that are accepted for one user. -/
theorem deeds_commute_boxes :
    let first : Deed := .accept (Desk.boxUntil Desk.noonDay)
    let second : Deed := .accept { Desk.boxUntil Desk.noonDay with id := 2 }
    let firstOnce := first.call.run Stock.serve Desk.noon .empty
    let secondThen := second.call.run Stock.serve Desk.noon firstOnce.state
    let secondOnce := second.call.run Stock.serve Desk.noon .empty
    let firstThen := first.call.run Stock.serve Desk.noon secondOnce.state
    (∀ id ∈ first.ids, id ∉ second.ids) ∧ firstThen.reply = firstOnce.reply ∧
      secondThen.reply = secondOnce.reply ∧
      Stock.SwappedFor 7 1 2 secondThen.state firstThen.state := by
  intro first second firstOnce secondThen secondOnce firstThen
  have hapart : ∀ id ∈ first.ids, id ∉ second.ids := by
    intro id hid hother
    cases List.mem_singleton.1 hid
    cases List.mem_singleton.1 hother
  exact ⟨hapart, deeds_commute [] first second Desk.noon hapart⟩

end Deed

end ParcelDesk
