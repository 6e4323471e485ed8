import ParcelDesk.Proofs.Desk.Counter
import ParcelDesk.Proofs.Desk.Faults
import ParcelDesk.Proofs.Desk.Replay
import ParcelDesk.Proofs.Store.Handing

/-!
# Giving a batch

A batch is given to one owner, the owner of its first order that has a record. What is wrong with an
order of the batch is told of the stock alone, so the errors of a batch and its success can be read
off the stock before anything is asked.
-/

namespace ParcelDesk

namespace Stock

variable {stock : Stock}

def ownerOf (stock : Stock) (id : UInt64) : Option UInt64 :=
  (stock.history.get? id).map Record.owner

def batchOwner (stock : Stock) (ids : List UInt64) : Option UInt64 :=
  ids.findSome? stock.ownerOf

/-- The first thing that is wrong with an order of a batch for this owner. -/
def giveFault (stock : Stock) (today : Date) (owner : Option UInt64) (id : UInt64) :
    Option Error :=
  match stock.history.get? id with
  | none => some (.refused .notFound s!"order {id} not found")
  | some record =>
      if owner ≠ some record.owner then
        some (.refused .wrongInput s!"can't give order {id}: different user id")
      else if record.status ≠ .accepted then
        some (.refused .wrongStatus s!"can't give order {id}: status = {record.status.words}")
      else if record.order.expires < today then
        some (.refused .expirationPassed
          s!"can't give order {id}: expired on {Desk.dateText record.order.expires}")
      else none

/-- An order that can be given to this owner. -/
def Givable (stock : Stock) (today : Date) (owner : Option UInt64) (id : UInt64) : Prop :=
  ∃ record, stock.history.get? id = some record ∧ owner = some record.owner ∧
    record.status = .accepted ∧ ¬ record.order.expires < today

theorem ownerOf_of_some {id : UInt64} {record : Record}
    (h : stock.history.get? id = some record) : stock.ownerOf id = some record.owner := by
  rw [ownerOf, h, Option.map_some]

theorem ownerOf_of_none {id : UInt64} (h : stock.history.get? id = none) :
    stock.ownerOf id = none := by
  rw [ownerOf, h, Option.map_none]

@[simp] theorem batchOwner_nil (stock : Stock) : stock.batchOwner [] = none := rfl

@[simp] theorem batchOwner_cons (stock : Stock) (id : UInt64) (rest : List UInt64) :
    stock.batchOwner (id :: rest) = (stock.ownerOf id).or (stock.batchOwner rest) := by
  unfold batchOwner
  rw [List.findSome?_cons]
  cases stock.ownerOf id <;> rfl

theorem giveFault_eq_none {today : Date} {owner : Option UInt64} {id : UInt64} :
    stock.giveFault today owner id = none ↔ stock.Givable today owner id := by
  unfold giveFault Givable
  cases stock.history.get? id with
  | none => simp
  | some record =>
      by_cases howner : owner = some record.owner
      · by_cases hstatus : record.status = .accepted
        · simp [howner, hstatus]
        · simp [howner, hstatus]
      · simp [howner]

/-- Once an order with a record has fixed the owner, the orders after it do not matter to it. -/
theorem giveFault_or (stock : Stock) (today : Date) (owner later : Option UInt64)
    (id : UInt64) :
    stock.giveFault today ((owner.or (stock.ownerOf id)).or later) id =
      stock.giveFault today (owner.or (stock.ownerOf id)) id := by
  cases hrecord : stock.history.get? id with
  | none =>
      unfold giveFault
      rw [hrecord]
  | some record =>
      rw [ownerOf_of_some hrecord]
      cases owner <;> rfl

theorem filterMap_giveFault_eq_nil {today : Date} {owner : Option UInt64}
    {ids : List UInt64} :
    ids.filterMap (stock.giveFault today owner) = [] ↔
      ∀ id ∈ ids, stock.Givable today owner id := by
  simp only [List.filterMap_eq_nil_iff, giveFault_eq_none]

end Stock

namespace Desk

variable {stock : Stock} {time : Instant}

/-- One check fixes the owner of the batch, if it was not fixed before, and tells what is wrong. -/
theorem checkGive_yields_giveFault (h : stock.Settled) (time : Instant) (today : Date)
    (owner : Option UInt64) (id : UInt64) :
    (checkGive today owner id).Yields Stock.serve time stock
      (owner.or (stock.ownerOf id), stock.giveFault today (owner.or (stock.ownerOf id)) id)
      stock := by
  unfold checkGive Stock.giveFault
  rw [Call.attempt_request_bind]
  cases hrecord : stock.history.get? id with
  | none =>
      rw [Stock.ownerOf_of_none hrecord, Option.or_none]
      exact .refused (Stock.serve_record_of_none hrecord) .done
  | some record =>
      rw [Stock.ownerOf_of_some hrecord]
      have hfixed : owner.or (some record.owner) = some (owner.getD record.owner) := by
        cases owner <;> rfl
      refine .answered (Stock.serve_record.2 hrecord) ?_
      dsimp only
      rw [hfixed]
      generalize owner.getD record.owner = user
      by_cases howner : record.owner = user
      · subst howner
        rw [if_neg (not_not_intro rfl), if_neg (not_not_intro rfl)]
        by_cases hstatus : record.status = .accepted
        · have hshows := (h.accepted_iff id record hrecord).1 hstatus
          have hleads := Status.leadsTo_issuedToClient.2 hstatus
          rw [hleads, if_neg (by decide), if_neg (not_not_intro hstatus),
            Call.attempt_request_bind]
          refine .answered (h.serve_expiration.2
            ⟨record.order, Stock.deposit_of_get? hrecord, hshows, rfl⟩) ?_
          dsimp only
          by_cases hexpired : record.order.expires < today
          · rw [if_pos hexpired, if_pos hexpired]
            exact .done
          · rw [if_neg hexpired, if_neg hexpired, Call.attempt_request_bind]
            exact .answered
              (h.serve_checkRemovable.2 (h.removable_of_accepted hrecord hstatus)) .done
        · have hstuck : record.status.leadsTo .issuedToClient = false :=
            Bool.eq_false_iff.2 fun hleads => hstatus (Status.leadsTo_issuedToClient.1 hleads)
          rw [hstuck, if_pos (by decide), if_pos hstatus]
          exact .done
      · rw [if_pos howner, if_pos fun hsame => howner (Option.some.inj hsame).symm]
        exact .done

theorem checkBatch_yields_giveFault (h : stock.Settled) (time : Instant) (today : Date)
    (owner : Option UInt64) (ids : List UInt64) :
    (checkBatch today owner ids).Yields Stock.serve time stock
      (ids.filterMap (stock.giveFault today (owner.or (stock.batchOwner ids)))) stock := by
  induction ids generalizing owner with
  | nil => exact .done
  | cons id rest ih =>
      have hhead := checkGive_yields_giveFault h time today owner id
      have hrest := ih (owner.or (stock.ownerOf id))
      rw [Stock.batchOwner_cons, ← Option.or_assoc, List.filterMap_cons, Stock.giveFault_or]
      unfold checkBatch
      refine hhead.bind (hrest.bind ?_)
      cases stock.giveFault today (owner.or (stock.ownerOf id)) id with
      | none => exact .done
      | some error => exact .done

theorem run_tryGive_of_faults (h : stock.Settled) {ids : List UInt64} (hsome : ids ≠ [])
    (hfaults : ids.filterMap (stock.giveFault time.date (stock.batchOwner ids)) ≠ []) :
    ((tryGive ids).run Stock.serve time stock).reply = Reply.fail (.fold
      (ids.filterMap (stock.giveFault time.date (stock.batchOwner ids)))) ∧
    ((tryGive ids).run Stock.serve time stock).state = stock := by
  have hchecked := checkBatch_yields_giveFault h time time.date none ids
  rw [Option.none_or] at hchecked
  unfold tryGive
  rw [if_neg (by simpa using hsome), Call.now_bind, Call.run]
  obtain ⟨hreply, hstate⟩ := hchecked.run_bind _
  rw [hreply, hstate]
  generalize ids.filterMap _ = errors at hfaults
  cases errors with
  | nil => exact absurd rfl hfaults
  | cons error rest => exact ⟨rfl, rfl⟩

theorem exists_owner_of_givable {ids : List UInt64} (hsome : ids ≠ [])
    (hgivable : ∀ id ∈ ids, stock.Givable time.date (stock.batchOwner ids) id) :
    ∃ owner, stock.batchOwner ids = some owner ∧
      ∀ id ∈ ids, Ready time.date owner stock id := by
  obtain ⟨first, hfirst⟩ := List.exists_mem_of_ne_nil ids hsome
  obtain ⟨record, -, howner, -⟩ := hgivable first hfirst
  refine ⟨record.owner, howner, ?_⟩
  intro id hid
  obtain ⟨found, hfound, hsame, hstatus, hfresh⟩ := hgivable id hid
  rw [howner] at hsame
  exact ⟨found, hfound, hstatus, (Option.some.inj hsame).symm, hfresh⟩

/-- All that a request to give some orders does: either each of the distinct orders is givable to
the owner of the first of them that has a record, and they are all handed out, or nothing happens
and each order that is not givable has its error. -/
structure Gave (time : Instant) (stock : Stock) (ids batch : List UInt64)
    (reply : Reply (List UInt64)) (after : Stock) : Prop where
  ascending : batch.Pairwise (· < ·)
  members : ∀ id, id ∈ batch ↔ id ∈ ids
  ok_iff : reply = .ok batch ↔
    batch ≠ [] ∧ ∀ id ∈ batch, stock.Givable time.date (stock.batchOwner batch) id
  given : ∀ given, reply = .ok given → given = batch ∧
    ∃ owner, stock.batchOwner batch = some owner ∧ stock.HandedOut owner batch time after
  refused : ∀ stop, reply = .error stop → after = stock ∧
    ((batch = [] ∧ stop = .error (.refused .wrongInput "no orders to give")) ∨
      ∃ errors, errors = batch.filterMap (stock.giveFault time.date (stock.batchOwner batch)) ∧
        ((∃ error, errors = [error] ∧ stop = .error error) ∨
          (2 ≤ errors.length ∧ stop = .error (.batch errors))))

theorem fold_cases {errors : List Error} (h : errors ≠ []) :
    (∃ error, errors = [error] ∧ Error.fold errors = error) ∨
      (2 ≤ errors.length ∧ Error.fold errors = .batch errors) := by
  match errors, h with
  | [error], _ => exact .inl ⟨error, rfl, rfl⟩
  | first :: second :: rest, _ =>
      refine .inr ⟨?_, rfl⟩
      simp

theorem run_give (ids : List UInt64) (time : Instant) (stock : Stock) :
    ((give ids).run Stock.serve time stock).reply =
      ((tryGive (distinct ids)).run Stock.serve time stock).reply.map (fun _ => distinct ids) ∧
    ((give ids).run Stock.serve time stock).state =
      ((tryGive (distinct ids)).run Stock.serve time stock).state := by
  unfold give
  rw [run_announced, Call.run_map]
  exact ⟨rfl, rfl⟩

theorem gave_of_givable (h : stock.Settled) {ids : List UInt64} (hsome : distinct ids ≠ [])
    (hgivable : ∀ id ∈ distinct ids,
      stock.Givable time.date (stock.batchOwner (distinct ids)) id) :
    Gave time stock ids (distinct ids) (.ok (distinct ids))
      (stock.releaseAll (distinct ids) .issuedToClient time) := by
  obtain ⟨owner, howner, hready⟩ := exists_owner_of_givable hsome hgivable
  constructor
  case ascending => exact ascending_distinct ids
  case members => exact fun id => mem_distinct
  case ok_iff => exact ⟨fun _ => ⟨hsome, hgivable⟩, fun _ => rfl⟩
  case given =>
    intro given hgiven
    cases hgiven
    refine ⟨rfl, owner, howner, h.handedOut hsome ?_ time⟩
    intro id hid
    obtain ⟨record, hrecord, hstatus, hsame, -⟩ := hready id hid
    exact ⟨record, hrecord, hsame, hstatus⟩
  case refused =>
    intro stop hstop
    cases hstop

theorem gave_of_faults {ids : List UInt64}
    (hfaults : (distinct ids).filterMap
      (stock.giveFault time.date (stock.batchOwner (distinct ids))) ≠ []) :
    Gave time stock ids (distinct ids)
      (Reply.fail (.fold ((distinct ids).filterMap
        (stock.giveFault time.date (stock.batchOwner (distinct ids)))))) stock := by
  constructor
  case ascending => exact ascending_distinct ids
  case members => exact fun id => mem_distinct
  case ok_iff =>
    constructor
    · intro hok
      cases hok
    · intro hall
      exact absurd (Stock.filterMap_giveFault_eq_nil.2 hall.2) hfaults
  case given =>
    intro given hgiven
    cases hgiven
  case refused =>
    intro stop hstop
    cases hstop
    refine ⟨rfl, .inr ⟨_, rfl, ?_⟩⟩
    obtain ⟨error, hone, hfold⟩ | ⟨hmany, hfold⟩ := fold_cases hfaults
    · exact .inl ⟨error, hone, by rw [hfold]⟩
    · exact .inr ⟨hmany, by rw [hfold]⟩

theorem gave_of_nothing {ids : List UInt64} (hnone : distinct ids = []) :
    Gave time stock ids (distinct ids) (Reply.refuse .wrongInput "no orders to give") stock := by
  constructor
  case ascending => exact ascending_distinct ids
  case members => exact fun id => mem_distinct
  case ok_iff =>
    constructor
    · intro hok
      cases hok
    · intro hall
      exact absurd hnone hall.1
  case given =>
    intro given hgiven
    cases hgiven
  case refused =>
    intro stop hstop
    cases hstop
    exact ⟨rfl, .inl ⟨hnone, rfl⟩⟩

theorem gave (h : stock.Settled) (ids : List UInt64) (time : Instant) :
    Gave time stock ids (distinct ids) ((give ids).run Stock.serve time stock).reply
      ((give ids).run Stock.serve time stock).state := by
  obtain ⟨hreply, hstate⟩ := run_give ids time stock
  rw [hreply, hstate]
  by_cases hsome : distinct ids = []
  · have hgave := @gave_of_nothing stock time ids hsome
    rw [hsome] at hgave ⊢
    exact hgave
  by_cases hfaults : (distinct ids).filterMap
      (stock.giveFault time.date (stock.batchOwner (distinct ids))) = []
  · have hgivable := Stock.filterMap_giveFault_eq_nil.1 hfaults
    obtain ⟨owner, -, hready⟩ := exists_owner_of_givable hsome hgivable
    obtain ⟨hok, hafter⟩ := (tryGive_yields h hsome hready).run_eq
    rw [distinct_distinct] at hafter
    rw [hok, hafter]
    exact gave_of_givable h hsome hgivable
  · obtain ⟨hfail, hafter⟩ := run_tryGive_of_faults h hsome hfaults
    rw [hfail, hafter]
    exact gave_of_faults hfaults

/-- Giving is exactly told by the stock and the day, whatever has been done at the desk before. -/
theorem give_exactly (past : List Move) (ids : List UInt64) (time : Instant) :
    Gave time ((Counter.opened .empty).run past).stock ids (distinct ids)
      ((give ids).run Stock.serve time ((Counter.opened .empty).run past).stock).reply
      ((give ids).run Stock.serve time ((Counter.opened .empty).run past).stock).state :=
  gave ((Counter.kept_opened Stock.settled_empty).run past).settled ids time

end Desk

end ParcelDesk
