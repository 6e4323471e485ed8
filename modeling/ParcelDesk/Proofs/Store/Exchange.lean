import ParcelDesk.Proofs.Store.Handing

/-!
# Changes in either order

Changes that concern different orders come to the same in either order, with two exceptions: a list
to which two orders are added shows which of them came first.
-/

namespace ParcelDesk

namespace Rack

variable {first second : UInt64}

theorem retire_add (rack : Rack) {slot : Slot} (h : slot.id ≠ first) :
    (rack.add slot).retire first = (rack.retire first).add slot := by
  simp [add, retire, Slot.without, h]

theorem retire_comm (rack : Rack) (first second : UInt64) :
    (rack.retire first).retire second = (rack.retire second).retire first := by
  simp only [retire, List.map_map, Rack.mk.injEq, and_true]
  apply List.map_congr_left
  intro slot _
  simp only [Function.comp_apply, Slot.without]
  split <;> split <;> simp_all

/-- The places of two orders have been added to the same rack, to the one and to the other in turn:
they are the last two, in either order. -/
def Swapped (first second : UInt64) (rack other : Rack) : Prop :=
  ∃ (start : Rack) (one two : Slot), one.id = first ∧ two.id = second ∧
    rack = (start.add one).add two ∧ other = (start.add two).add one

end Rack

namespace Holding

theorem release_accept (holding : Holding) {first second : UInt64} (h : first ≠ second)
    (order : Order) :
    (holding.accept first order).release second =
      (holding.release second).accept first order := by
  rw [release, accept, release, accept, Rack.retire_add _ h, IdMap.erase_insert _ h]

theorem release_comm (holding : Holding) (first second : UInt64) :
    (holding.release first).release second = (holding.release second).release first := by
  simp only [release, Rack.retire_comm _ first, IdMap.erase_comm _ first]

end Holding

namespace Holdings

def alter (holdings : Holdings) (owner : UInt64) (change : Holding → Holding) : Holdings :=
  holdings.insert owner (change ((holdings.get? owner).getD (.empty owner)))

theorem alter_comm (holdings : Holdings) {owner other : UInt64} {change further : Holding → Holding}
    (h : owner = other → ∀ holding, further (change holding) = change (further holding)) :
    (holdings.alter owner change).alter other further =
      (holdings.alter other further).alter owner change := by
  unfold alter
  by_cases hsame : owner = other
  · subst hsame
    simp only [IdMap.get?_insert, if_true, Option.getD_some, IdMap.insert_insert, h rfl]
  · rw [IdMap.get?_insert, IdMap.get?_insert, if_neg hsame, if_neg (Ne.symm hsame),
      IdMap.insert_comm _ hsame]

end Holdings

namespace History

variable {first second : UInt64}

theorem mark_insert (history : History) (h : first ≠ second) (record : Record) (status : Status)
    (time : Instant) :
    mark (history.insert first record) second status time =
      (history.mark second status time).insert first record := by
  apply IdMap.ext_get?
  intro key
  simp only [get?_mark, IdMap.get?_insert]
  split
  · rename_i hkey
    rw [if_neg (hkey ▸ h.symm), if_neg (hkey ▸ h.symm)]
  · rfl

theorem mark_comm (history : History) (h : first ≠ second) (one other : Status) (time : Instant) :
    (history.mark first one time).mark second other time =
      (history.mark second other time).mark first one time := by
  apply IdMap.ext_get?
  intro key
  simp only [get?_mark]
  split
  · rename_i hkey
    rw [if_neg (hkey ▸ h.symm), if_neg (hkey ▸ h.symm)]
  · rfl

end History

namespace Stock

variable {first second : UInt64} {time : Instant}

theorem ext_stores {stock other : Stock} (hhistory : stock.history = other.history)
    (hholdings : stock.holdings = other.holdings) (hrefunds : stock.refunds = other.refunds) :
    stock = other := by
  cases stock
  cases other
  simp_all

theorem history_release (id : UInt64) (status : Status) (time : Instant) (stock : Stock) :
    (stock.release id status time).history = stock.history.mark id status time := by
  unfold release History.mark
  cases stock.history.get? id <;> rfl

theorem holdings_release_eq (id : UInt64) (status : Status) (time : Instant) (stock : Stock) :
    (stock.release id status time).holdings = match stock.history.get? id with
      | some record => stock.holdings.alter record.owner (·.release id)
      | none => stock.holdings := by
  unfold release
  cases stock.history.get? id <;> rfl

theorem holdings_register (owner id : UInt64) (order : Order) (time : Instant) (stock : Stock) :
    (stock.register owner id order time).holdings =
      stock.holdings.alter owner (·.accept id order) := rfl

theorem register_comm (stock : Stock) {owner other : UInt64} (howner : owner ≠ other)
    (h : first ≠ second) (one two : Order) :
    (stock.register owner first one time).register other second two time =
      (stock.register other second two time).register owner first one time := by
  apply ext_stores
  · exact IdMap.insert_comm _ h _ _
  · simp only [holdings_register]
    exact Holdings.alter_comm _ fun hsame => absurd hsame howner
  · rfl

theorem release_register (stock : Stock) (h : first ≠ second) (owner : UInt64) (order : Order)
    (status : Status) :
    (stock.register owner first order time).release second status time =
      (stock.release second status time).register owner first order time := by
  have hget : (stock.register owner first order time).history.get? second =
      stock.history.get? second := by
    rw [get?_register, if_neg h.symm]
  apply ext_stores
  · simp only [history_release, register]
    exact History.mark_insert _ h _ status time
  · rw [holdings_release_eq, hget, holdings_register, holdings_register, holdings_release_eq]
    cases stock.history.get? second with
    | none => rfl
    | some record =>
        exact Holdings.alter_comm _ fun _ holding => holding.release_accept h order
  · rw [refunds_release, refunds_register, refunds_register, refunds_release]

theorem release_comm (stock : Stock) (h : first ≠ second) (one other : Status) :
    (stock.release first one time).release second other time =
      (stock.release second other time).release first one time := by
  have hsecond : (stock.release first one time).history.get? second =
      stock.history.get? second := by
    rw [get?_release, if_neg h.symm]
  have hfirst : (stock.release second other time).history.get? first =
      stock.history.get? first := by
    rw [get?_release, if_neg h]
  apply ext_stores
  · simp only [history_release]
    exact History.mark_comm _ h one other time
  · simp only [holdings_release_eq, hfirst, hsecond]
    cases stock.history.get? first with
    | none => rfl
    | some record =>
        cases stock.history.get? second with
        | none => rfl
        | some found =>
            exact Holdings.alter_comm _ fun _ holding => holding.release_comm first second
  · simp only [refunds_release]

theorem register_enqueue (stock : Stock) (h : first ≠ second) (owner other : UInt64)
    (one two : Order) :
    (stock.enqueue other second two time).register owner first one time =
      (stock.register owner first one time).enqueue other second two time := by
  apply ext_stores
  · exact (History.mark_insert _ h _ .returned time).symm
  · rfl
  · rfl

theorem register_dequeue (stock : Stock) (h : first ≠ second) (owner : UInt64) (order : Order) :
    (stock.dequeue second time).register owner first order time =
      (stock.register owner first order time).dequeue second time := by
  apply ext_stores
  · exact (History.mark_insert _ h _ .issuedToCourier time).symm
  · rfl
  · rfl

theorem release_enqueue (stock : Stock) (h : first ≠ second) (owner : UInt64) (order : Order)
    (status : Status) :
    (stock.enqueue owner second order time).release first status time =
      (stock.release first status time).enqueue owner second order time := by
  have hget : (stock.enqueue owner second order time).history.get? first =
      stock.history.get? first := by
    rw [get?_enqueue, if_neg h]
  apply ext_stores
  · simp only [history_release, enqueue]
    exact (History.mark_comm _ h status .returned time).symm
  · rw [holdings_release_eq, hget]
    exact (holdings_release_eq first status time stock).symm
  · simp only [refunds_release, refunds_enqueue]

theorem release_dequeue (stock : Stock) (h : first ≠ second) (status : Status) :
    (stock.dequeue second time).release first status time =
      (stock.release first status time).dequeue second time := by
  have hget : (stock.dequeue second time).history.get? first = stock.history.get? first := by
    rw [get?_dequeue, if_neg h]
  apply ext_stores
  · simp only [history_release, dequeue]
    exact (History.mark_comm _ h status .issuedToCourier time).symm
  · rw [holdings_release_eq, hget]
    exact (holdings_release_eq first status time stock).symm
  · simp only [refunds_release, refunds_dequeue]

theorem dequeue_enqueue (stock : Stock) (h : first ≠ second) (owner : UInt64) (order : Order) :
    (stock.enqueue owner first order time).dequeue second time =
      (stock.dequeue second time).enqueue owner first order time := by
  apply ext_stores
  · exact History.mark_comm _ h .returned .issuedToCourier time
  · rfl
  · exact Rack.retire_add _ h

theorem dequeue_comm (stock : Stock) (h : first ≠ second) :
    (stock.dequeue first time).dequeue second time =
      (stock.dequeue second time).dequeue first time := by
  apply ext_stores
  · exact History.mark_comm _ h .issuedToCourier .issuedToCourier time
  · rfl
  · exact Rack.retire_comm _ first second

/-- What can be done before and after each of some orders has gone can be done before and after all
of them have. -/
theorem releaseAll_comm (change : Stock → Stock) (status : Status) {ids : List UInt64}
    (h : ∀ id ∈ ids, ∀ stock : Stock,
      (change stock).release id status time = change (stock.release id status time))
    (stock : Stock) :
    (change stock).releaseAll ids status time = change (stock.releaseAll ids status time) := by
  induction ids generalizing stock with
  | nil => rfl
  | cons id rest ih =>
      rw [releaseAll_cons, releaseAll_cons, h id List.mem_cons_self,
        ih fun key hkey => h key (List.mem_cons_of_mem id hkey)]

/-- The stocks differ only in the order of the last two places on a user's rack. -/
structure SwappedFor (owner first second : UInt64) (stock other : Stock) : Prop where
  history_eq : stock.history = other.history
  refunds_eq : stock.refunds = other.refunds
  others_eq : ∀ user, user ≠ owner → stock.holdings.get? user = other.holdings.get? user
  swapped : ∃ one two : Holding, stock.holdings.get? owner = some one ∧
    other.holdings.get? owner = some two ∧ one.owner = two.owner ∧ one.orders = two.orders ∧
      Rack.Swapped first second one.rack two.rack

/-- The stocks differ only in the order of the last two places in the queue. -/
structure SwappedQueue (first second : UInt64) (stock other : Stock) : Prop where
  history_eq : stock.history = other.history
  holdings_eq : stock.holdings = other.holdings
  swapped : Rack.Swapped first second stock.refunds other.refunds

theorem swappedFor_register (stock : Stock) (h : first ≠ second) (owner : UInt64)
    (one two : Order) :
    SwappedFor owner first second
      ((stock.register owner first one time).register owner second two time)
      ((stock.register owner second two time).register owner first one time) where
  history_eq := IdMap.insert_comm _ h _ _
  refunds_eq := rfl
  others_eq := by
    intro user huser
    simp only [holdings_register, Holdings.alter, IdMap.get?_insert, if_neg huser]
  swapped := by
    have hget (id key : UInt64) (order further : Order) :
        ((stock.register owner id order time).register owner key further
          time).holdings.get? owner =
            some (((stock.holding owner).accept id order).accept key further) := by
      simp only [holdings_register, Holdings.alter, IdMap.get?_insert, if_true, Option.getD_some]
      rfl
    exact ⟨_, _, hget first second one two, hget second first two one, rfl,
      IdMap.insert_comm _ h _ _, _, _, _, rfl, rfl, rfl, rfl⟩

theorem swappedQueue_enqueue (stock : Stock) (h : first ≠ second) (owner other : UInt64)
    (one two : Order) :
    SwappedQueue first second
      ((stock.enqueue owner first one time).enqueue other second two time)
      ((stock.enqueue other second two time).enqueue owner first one time) where
  history_eq := History.mark_comm _ h .returned .returned time
  holdings_eq := rfl
  swapped := ⟨_, _, _, rfl, rfl, rfl, rfl⟩

end Stock

end ParcelDesk
