import Mathlib.Data.List.Pairwise
import ParcelDesk.Proofs.Desk.Agreement

namespace ParcelDesk

namespace Stock

theorem Change.born {stock after : Stock} {request : Request}
    (h : stock.Change request after) {id : UInt64} {record : Record}
    (hnew : stock.history.get? id = none) (hrecord : after.history.get? id = some record) :
    ∃ owner order time, request = .addOrder owner id order time ∧
      record = ⟨order, .accepted, owner, time⟩ := by
  cases h with
  | register owner key order time hnone =>
      rw [get?_register] at hrecord
      split at hrecord
      · rename_i hid
        subst hid
        cases hrecord
        exact ⟨owner, order, time, rfl, rfl⟩
      · rw [hnew] at hrecord
        cases hrecord
  | releaseAll ids status time hall =>
      rw [get?_releaseAll, hnew] at hrecord
      simp at hrecord
  | mark key status time found hfound =>
      rw [get?_mark, hnew] at hrecord
      simp at hrecord
  | enqueue key order time found hfound hstatus hlists =>
      rw [get?_enqueue, hnew] at hrecord
      simp at hrecord
  | dequeue key time found hfound hstatus hshows =>
      rw [get?_dequeue, hnew] at hrecord
      simp at hrecord

end Stock

namespace Deed

variable {deed : Deed} {receipt : Receipt} {looks : List Instant} {mutation : Mutation Stock}

private theorem exists_moved {before after : Stock} {id : UInt64} {record : Record}
    {status : Status} {time : Instant} (hrecord : before.history.get? id = some record)
    (hafter : after.history.get? id =
      (before.history.get? id).map (·.moved status time)) :
    ∃ later, after.history.get? id = some later ∧ later.status = status := by
  refine ⟨record.moved status time, ?_, rfl⟩
  rw [hafter, hrecord, Option.map_some]

theorem Success.reached (h : deed.Success receipt looks mutation) {id : UInt64}
    (hid : id ∈ deed.ids) :
    ∃ record, mutation.after.history.get? id = some record ∧ record.status = deed.stage := by
  cases h with
  | @accept parcel order time before hfresh horder hnew =>
      cases List.mem_singleton.1 hid
      refine ⟨⟨order, .accepted, parcel.owner, time⟩, ?_, rfl⟩
      rw [Stock.get?_register, if_pos rfl]
  | give hsome hready =>
      obtain ⟨record, hrecord, -⟩ := hready id hid
      exact exists_moved hrecord
        ((Stock.get?_releaseAll _ _ _ _ _).trans (if_pos (mem_distinct.2 hid)))
  | refund hrecord hstatus hlimit hintime =>
      cases List.mem_singleton.1 hid
      exact exists_moved hrecord ((Stock.get?_enqueue _ _ _ _ _ _).trans (if_pos rfl))
  | sendBackReturned hrecord hstatus =>
      cases List.mem_singleton.1 hid
      exact exists_moved hrecord ((Stock.get?_dequeue _ _ _ _).trans (if_pos rfl))
  | sendBackUnclaimed hrecord hstatus hlimit hlate =>
      cases List.mem_singleton.1 hid
      exact exists_moved hrecord
        ((Stock.get?_releaseAll _ _ _ _ _).trans (if_pos List.mem_cons_self))

theorem Success.leadsTo (h : deed.Success receipt looks mutation) {id : UInt64}
    (hid : id ∈ deed.ids) {record : Record}
    (hrecord : mutation.before.history.get? id = some record) :
    record.status.leadsTo deed.stage = true := by
  cases h with
  | accept hfresh horder hnew =>
      cases List.mem_singleton.1 hid
      rw [hnew] at hrecord
      cases hrecord
  | give hsome hready =>
      obtain ⟨found, hfound, hstatus, -⟩ := hready id hid
      rw [hfound] at hrecord
      cases hrecord
      rw [hstatus]
      rfl
  | refund hfound hstatus _ _
  | sendBackReturned hfound hstatus
  | sendBackUnclaimed hfound hstatus _ _ =>
      cases List.mem_singleton.1 hid
      rw [hfound] at hrecord
      cases hrecord
      rw [hstatus]
      rfl

theorem Success.registers {owner id : UInt64} {order : Order} {time : Instant}
    (h : deed.Success receipt looks mutation)
    (hrequest : mutation.request = .addOrder owner id order time) :
    ∃ parcel, deed = .accept parcel ∧ parcel.id = id ∧ parcel.owner = owner ∧
      parcel.order = .ok order := by
  cases h with
  | accept hfresh horder hnew =>
      cases hrequest
      exact ⟨_, rfl, rfl, rfl, horder⟩
  | give | refund | sendBackReturned | sendBackUnclaimed => cases hrequest

/-- From the stage to which a deed has brought an order it never goes back. -/
theorem Success.rank_le (h : deed.Success receipt looks mutation) {stock : Stock}
    (hgrows : mutation.after.Grows stock) {id : UInt64} (hid : id ∈ deed.ids)
    {record : Record} (hrecord : stock.history.get? id = some record) :
    deed.stage.rank ≤ record.status.rank := by
  obtain ⟨reached, hreached, hstatus⟩ := h.reached hid
  obtain ⟨found, hfound, hbecomes⟩ := hgrows id reached hreached
  rw [hrecord] at hfound
  cases hfound
  rw [← hstatus]
  cases hbecomes.stage with
  | inl hsame =>
      subst hsame
      exact Nat.le_refl _
  | inr hfurther => exact Nat.le_of_lt hfurther

theorem Success.rank_lt {other : Deed} {answer : Receipt} {moments : List Instant}
    {later : Mutation Stock} (h : deed.Success receipt looks mutation)
    (hother : other.Success answer moments later)
    (hgrows : mutation.after.Grows later.before) {id : UInt64} (hid : id ∈ deed.ids)
    (hshared : id ∈ other.ids) : deed.stage.rank < other.stage.rank := by
  obtain ⟨reached, hreached, -⟩ := h.reached hid
  obtain ⟨found, hfound, -⟩ := hgrows id reached hreached
  exact Nat.lt_of_le_of_lt (h.rank_le hgrows hid hfound)
    (Status.rank_lt_of_leadsTo (hother.leadsTo hshared hfound))

end Deed

namespace Counter

/-! What becomes of orders from some moment on. A record is never lost and keeps its owner and its
order, and it moves along the steps of a life only; no order reaches a stage twice; and a parcel
whose identifier is taken is turned down. -/

structure Lifecycle (counter : Counter) : Prop where
  steps : ∀ move, counter.stock.Steps (counter.step move).stock
  born : ∀ move id record, counter.stock.history.get? id = none →
    (counter.step move).stock.history.get? id = some record →
      record.status = .accepted ∧ ∃ (number : Nat) (visit : Visit) (parcel : Parcel),
        (counter.step move).visits[number]? = some visit ∧ visit.deed = .accept parcel ∧
          parcel.id = id ∧ parcel.owner = record.owner ∧ parcel.order = .ok record.order
  kept : ∀ moves id record, counter.stock.history.get? id = some record →
    ∃ later, (counter.run moves).stock.history.get? id = some later ∧
      later.owner = record.owner ∧ later.order = record.order
  once : ∀ (first second : Nat) (visit other : Visit) (receipt answer : Receipt) id,
    counter.visits[first]? = some visit → counter.visits[second]? = some other →
      visit.left.reply? = some (.ok receipt) → other.left.reply? = some (.ok answer) →
        visit.deed.stage = other.deed.stage → id ∈ visit.deed.ids → id ∈ other.deed.ids →
          first = second
  taken : ∀ (number : Nat) (visit : Visit) (parcel : Parcel) record moves,
    counter.stock.history.get? parcel.id = some record → counter.changesOf number = [] →
      (counter.run moves).visits[number]? = some visit → visit.deed = .accept parcel →
        (counter.run moves).changesOf number = [] ∧
          ∀ reply, visit.left.reply? = some reply → ∃ error, reply = Reply.fail error ∧
            ((∀ time ∈ visit.looks, parcel.InOrder time) → ∃ status : Status,
              error = .refused .alreadyExists
                s!"order {parcel.id} has already been {status.words}")
  unchanged : ∀ move, (counter.step move).ledger = counter.ledger →
    (counter.step move).stock = counter.stock

variable {start : Stock} {counter : Counter}

theorem Kept.steps (h : Kept start counter) (move : Move) :
    counter.stock.Steps (counter.step move).stock := by
  obtain ⟨-, hstock⟩ | ⟨number, request, after, -, rfl, hproper, hchange⟩ := h.step_cases move
  · rw [hstock]
    exact .refl counter.stock
  · exact (h.settled.change hproper hchange).2

theorem Kept.unchanged (h : Kept start counter) (move : Move)
    (hledger : (counter.step move).ledger = counter.ledger) :
    (counter.step move).stock = counter.stock := by
  obtain ⟨-, hstock⟩ | ⟨number, request, after, hentry, -⟩ := h.step_cases move
  · exact hstock
  · rw [hledger] at hentry
    cases List.self_eq_append_right.1 hentry

/-- Only a visitor who came to have a parcel accepted adds a record, and it is that of the
parcel. -/
theorem Kept.born (h : Kept start counter) (move : Move) {id : UInt64} {record : Record}
    (hnew : counter.stock.history.get? id = none)
    (hrecord : (counter.step move).stock.history.get? id = some record) :
    record.status = .accepted ∧ ∃ (number : Nat) (visit : Visit) (parcel : Parcel),
      (counter.step move).visits[number]? = some visit ∧ visit.deed = .accept parcel ∧
        parcel.id = id ∧ parcel.owner = record.owner ∧ parcel.order = .ok record.order := by
  obtain ⟨-, hstock⟩ | ⟨number, request, after, hledger, rfl, -, hchange⟩ := h.step_cases move
  · rw [hstock, hnew] at hrecord
    cases hrecord
  · obtain ⟨owner, order, time, rfl, rfl⟩ := hchange.born hnew hrecord
    obtain ⟨visit, hvisit, -, receipt, looks, hsuccess⟩ :=
      (h.step move).success (hledger ▸ List.mem_append_right _ List.mem_cons_self)
    obtain ⟨parcel, hdeed, hid, howner, horder⟩ := hsuccess.registers rfl
    exact ⟨rfl, number, visit, parcel, hvisit, hdeed, hid, howner, horder⟩

def Apart (entry other : Nat × Mutation Stock) : Prop :=
  entry.2.after.Grows other.2.before ∨ other.2.after.Grows entry.2.before

instance : Std.Symm Apart := ⟨fun _ _ => Or.symm⟩

theorem Kept.apart (h : Kept start counter) {entry other : Nat × Mutation Stock}
    (hmem : entry ∈ counter.ledger) (hother : other ∈ counter.ledger) (hne : entry ≠ other) :
    Apart entry other := by
  have hpairs : counter.ledger.Pairwise Apart :=
    (List.pairwise_map.1 h.chronicle.pairwise).imp Or.inl
  exact hpairs.forall hmem hother hne

theorem Kept.once (h : Kept start counter) {first second : Nat} {visit other : Visit}
    {receipt answer : Receipt} {id : UInt64} (hvisit : counter.visits[first]? = some visit)
    (hother : counter.visits[second]? = some other)
    (hreply : visit.left.reply? = some (.ok receipt))
    (hanswer : other.left.reply? = some (.ok answer))
    (hstage : visit.deed.stage = other.deed.stage) (hid : id ∈ visit.deed.ids)
    (hshared : id ∈ other.deed.ids) : first = second := by
  obtain ⟨mutation, hone, hsuccess⟩ := h.ends hvisit hreply
  obtain ⟨later, hlater, hsuccessLater⟩ := h.ends hother hanswer
  have hmem := mem_ledger hone
  have hmemLater := mem_ledger hlater
  by_contra hne
  have hentries : (first, mutation) ≠ (second, later) := fun heq => hne (congrArg Prod.fst heq)
  cases h.apart hmem hmemLater hentries with
  | inl hgrows =>
      have hlt := hsuccess.rank_lt hsuccessLater hgrows hid hshared
      rw [hstage] at hlt
      exact Nat.lt_irrefl _ hlt
  | inr hgrows =>
      have hlt := hsuccessLater.rank_lt hsuccess hgrows hshared hid
      rw [hstage] at hlt
      exact Nat.lt_irrefl _ hlt

theorem Kept.changesOf_taken (h : Kept start counter) {number : Nat} {visit : Visit}
    {parcel : Parcel} {record : Record}
    (hrecord : counter.stock.history.get? parcel.id = some record)
    (hidle : counter.changesOf number = []) {moves : List Move}
    (hvisit : (counter.run moves).visits[number]? = some visit)
    (hdeed : visit.deed = .accept parcel) : (counter.run moves).changesOf number = [] := by
  obtain ⟨entries, hledger, hchronicle⟩ := h.run_ledger moves
  rw [List.eq_nil_iff_forall_not_mem]
  intro mutation hmem
  have hentry := mem_changesOf.1 hmem
  obtain ⟨found, hfound, -, receipt, looks, hsuccess⟩ := (h.run moves).success hentry
  rw [hvisit] at hfound
  cases hfound
  rw [hledger] at hentry
  cases List.mem_append.1 hentry with
  | inl hold =>
      rw [← mem_changesOf, hidle] at hold
      cases hold
  | inr hnew =>
      obtain ⟨later, hlater, -⟩ :=
        hchronicle.grows_before (List.mem_map_of_mem hnew) parcel.id record hrecord
      rw [hdeed] at hsuccess
      cases hsuccess with
      | accept hfresh horder hnone =>
          rw [hnone] at hlater
          cases hlater

theorem Kept.lifecycle (h : Kept start counter) : counter.Lifecycle where
  steps := h.steps
  born := fun move _ _ hnew hrecord => h.born move hnew hrecord
  kept := by
    intro moves id record hrecord
    obtain ⟨entries, -, hchronicle⟩ := h.run_ledger moves
    obtain ⟨later, hlater, hbecomes⟩ := hchronicle.grows id record hrecord
    exact ⟨later, hlater, hbecomes.owner_eq, hbecomes.order_eq⟩
  once := fun _ _ _ _ _ _ _ hvisit hother hreply hanswer hstage hid hshared =>
    h.once hvisit hother hreply hanswer hstage hid hshared
  taken := by
    intro number visit parcel record moves hrecord hidle hvisit hdeed
    have hnone := h.changesOf_taken hrecord hidle hvisit hdeed
    refine ⟨hnone, ?_⟩
    intro reply hreply
    have hends := (h.run moves).ends hvisit hreply
    rw [hdeed] at hends
    cases reply with
    | ok receipt =>
        obtain ⟨mutation, hone, -⟩ := hends
        rw [hnone] at hone
        cases hone
    | error stop =>
        obtain ⟨-, time, error, hlooks, rfl, hrefused⟩ := hends
        refine ⟨error, rfl, ?_⟩
        intro hinOrder
        change visit.looks = [time] at hlooks
        exact hrefused (hinOrder time (hlooks ▸ List.mem_cons_self))
  unchanged := h.unchanged

/-- The life of every order over whole runs from an empty stock, whatever the clock tells and in
whatever order the calls take their steps. -/
theorem lifecycle_run (moves : List Move) : ((opened .empty).run moves).Lifecycle :=
  ((kept_opened Stock.settled_empty).run moves).lifecycle

end Counter

end ParcelDesk
