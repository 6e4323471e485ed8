import ParcelDesk.Proofs.Relational.Refusals

/-!
# What is committed

Whatever the server refuses, and at whatever point, a request to the relational store has left the
committed tables alone or has committed all its statements in one transaction.
-/

namespace ParcelDesk.Relational

namespace Work

variable {kind : Statement → Prop}

def Reading (statement : Statement) : Prop := statement.isWrite = false

theorem heeds_ofExcept (result : Except Error α) :
    Heeds kind Unrefused false (ofExcept result) := by
  cases result with
  | ok value => exact .done rfl
  | error error => exact .fail

theorem heeds_query {statement : Statement} (h : kind statement) :
    Heeds kind Unrefused false (query statement) :=
  .send h (fun _ => .done rfl) fun _ => .fail

theorem heeds_read {statement : Statement} (h : statement.isWrite = false) :
    Heeds Reading Unrefused false (query statement) :=
  heeds_query h

theorem heeds_insert {statement : Statement} (h : kind statement) (detail : String) :
    Heeds kind Unrefused false (insert statement detail) := by
  refine .send h (fun _ => .done rfl) fun error => ?_
  dsimp only
  split <;> exact .fail

end Work

open Work

/-! ## Works that only read -/

theorem heeds_findRecord (id : UInt64) : Heeds Reading Unrefused false (findRecord id) := by
  refine (heeds_ofExcept _).followed fun number => ?_
  refine (heeds_read rfl).followed fun row => ?_
  cases row with
  | none => exact .done rfl
  | some row => exact (heeds_ofExcept _).map

theorem heeds_record (id : UInt64) : Heeds Reading Unrefused false (record id) := by
  refine (heeds_findRecord id).followed fun found => ?_
  cases found with
  | none => exact .fail
  | some record => exact .done rfl

theorem heeds_status (id : UInt64) : Heeds Reading Unrefused false (status id) := by
  refine (heeds_ofExcept _).followed fun number => ?_
  refine (heeds_read rfl).followed fun text => ?_
  cases text with
  | none => exact .fail
  | some text => exact heeds_ofExcept _

theorem heeds_findLive (owner id : UInt64) :
    Heeds Reading Unrefused false (findLive owner id) := by
  refine (heeds_ofExcept _).followed fun ownerNumber => ?_
  refine (heeds_ofExcept _).followed fun number => ?_
  refine (heeds_read rfl).followed fun parcel => ?_
  cases parcel with
  | none => exact .done rfl
  | some parcel => exact (heeds_ofExcept _).map

theorem heeds_checkUser (owner : UInt64) : Heeds Reading Unrefused false (checkUser owner) := by
  refine (heeds_ofExcept _).followed fun number => ?_
  refine (heeds_read rfl).followed fun known => ?_
  split
  · exact .done rfl
  · exact .fail

theorem heeds_position (owner id : UInt64) :
    Heeds Reading Unrefused false (position owner id) := by
  refine (heeds_ofExcept _).followed fun ownerNumber => ?_
  refine (heeds_ofExcept _).followed fun number => ?_
  refine (heeds_read rfl).followed fun place => ?_
  cases place with
  | none => exact .fail
  | some place => exact .done rfl

theorem heeds_order (owner id : UInt64) : Heeds Reading Unrefused false (order owner id) := by
  refine (heeds_checkUser owner).followed fun _ => ?_
  refine (heeds_findLive owner id).followed fun found => ?_
  cases found with
  | none => exact .fail
  | some order => exact .done rfl

theorem heeds_checkRemovable (id : UInt64) :
    Heeds Reading Unrefused false (checkRemovable id) := by
  refine (heeds_record id).followed fun record => ?_
  split
  · exact .fail
  · refine (heeds_findLive record.owner id).followed fun found => ?_
    cases found with
    | none => exact .fail
    | some order => exact .done rfl

theorem heeds_orders (owner first limit : UInt64) :
    Heeds Reading Unrefused false (orders owner first limit) := by
  refine (heeds_checkUser owner).followed fun _ => ?_
  have hscan (start : Nat) (limit : Option Nat) : Heeds Reading Unrefused false (do
      let number ← Work.ofExcept (bound owner)
      slots (← Work.query (.scanUser number start limit))) :=
    (heeds_ofExcept _).followed fun number =>
      (heeds_read rfl).followed fun rows => heeds_ofExcept _
  dsimp only
  split
  · exact hscan 0 _
  · exact (heeds_position owner first).followed fun start => hscan start _

theorem heeds_refunds (page size : UInt64) :
    Heeds Reading Unrefused false (refunds page size) := by
  refine Heeds.followed (heeds_read rfl) fun rows => ?_
  exact heeds_ofExcept _

/-- The checks of a batch go on after a refusal, but then they tell an error. -/
theorem heeds_checkAll (ids : List UInt64) :
    Heeds Reading (fun refused errors => errors = [] → refused = false) false (checkAll ids) := by
  induction ids with
  | nil => exact .done fun _ => rfl
  | cons id rest ih =>
      refine (heeds_checkRemovable id).attempt.bind fun refused checked hchecked => ?_
      cases checked with
      | ok done =>
          rw [show refused = false from hchecked done rfl]
          exact ih.bind fun _ _ herrors => .done herrors
      | error error =>
          refine (ih.heedless refused).bind fun _ _ _ => .done fun hnone => ?_
          cases hnone

/-! ## Works that write -/

def Any (_ : Statement) : Prop := True

theorem Work.Heeds.any {kind : Statement → Prop} {post : Bool → α → Prop} {refused : Bool}
    {work : Work α} (h : Heeds kind post refused work) : Heeds Any post refused work :=
  h.mono fun _ _ => True.intro

theorem heeds_setStatus (id : UInt64) (status : Status) (time : Instant) :
    Heeds Any Unrefused false (setStatus id status time) := by
  refine (heeds_ofExcept _).followed fun number => ?_
  refine (heeds_query True.intro).followed fun found => ?_
  split
  · exact .done rfl
  · exact .fail

theorem heeds_withdraw (listing : Listing) (id : UInt64) :
    Heeds Any Unrefused false (withdraw listing id) := by
  refine (heeds_ofExcept _).followed fun number => ?_
  refine (heeds_query True.intro).followed fun found => ?_
  split
  · exact .done rfl
  · exact .fail

theorem heeds_list (listing : Listing) (owner id : UInt64) (order : Order) :
    Heeds Any Unrefused false (list listing owner id order) := by
  refine (heeds_ofExcept _).followed fun ownerNumber => ?_
  refine (heeds_ofExcept _).followed fun number => ?_
  refine (heeds_ofExcept _).followed fun parcel => ?_
  exact heeds_insert True.intro _

theorem heeds_putAccepted (owner id : UInt64) (order : Order) (time : Instant) :
    Heeds Any Unrefused false (putAccepted owner id order time) := by
  refine (heeds_ofExcept _).followed fun number => ?_
  refine (heeds_ofExcept _).followed fun ownerNumber => ?_
  refine (heeds_ofExcept _).followed fun parcel => ?_
  exact heeds_insert True.intro _

theorem heeds_addOrder (owner id : UInt64) (order : Order) (time : Instant) :
    Heeds Any Unrefused false (addOrder owner id order time) := by
  refine (heeds_findRecord id).any.followed fun found => ?_
  cases found with
  | some record => exact .fail
  | none =>
      exact (heeds_list .orders owner id order).followed fun _ =>
        heeds_putAccepted owner id order time

theorem heeds_removeAll (status : Status) (time : Instant) (ids : List UInt64) :
    Heeds Any Unrefused false (removeAll status time ids) := by
  induction ids with
  | nil => exact .done rfl
  | cons id rest ih =>
      refine (heeds_withdraw .orders id).followed fun _ => ?_
      exact (heeds_setStatus id status time).followed fun _ => ih

theorem heeds_removeOrders (ids : List UInt64) (status : Status) (time : Instant) :
    Heeds Any Unrefused false (removeOrders ids status time) := by
  refine (heeds_checkAll (distinct ids)).any.bind fun refused errors herrors => ?_
  cases errors with
  | nil =>
      rw [herrors rfl]
      exact heeds_removeAll status time (distinct ids)
  | cons error errors => exact .fail

theorem heeds_addRefund (owner id : UInt64) (order : Order) (time : Instant) :
    Heeds Any Unrefused false (addRefund owner id order time) := by
  refine (heeds_record id).any.followed fun record => ?_
  split
  · exact .fail
  · split
    · exact .fail
    · exact (heeds_list .refunds owner id order).followed fun _ => heeds_setStatus id .returned time

theorem heeds_removeRefund (id : UInt64) (time : Instant) :
    Heeds Any Unrefused false (removeRefund id time) := by
  refine (heeds_status id).any.followed fun status => ?_
  split
  · exact .fail
  · exact (heeds_withdraw .refunds id).followed fun _ => heeds_setStatus id .issuedToCourier time

/-! ## Transactions -/

/-- Statements that a transaction may carry out which was opened in this way. -/
def Mode.Admits (mode : Mode) (statement : Statement) : Prop :=
  statement.isWrite = true → mode.access = .readWrite

/-- Every request heeds refusals, and changes rows only in a transaction opened for that. -/
theorem heeds_transaction {request : Request} {mode : Mode} {work : Work request.Answer}
    (h : transaction request = .ok (mode, work)) : Heeds mode.Admits Unrefused false work := by
  have hwriting {post : Bool → request.Answer → Prop} {work : Work request.Answer} {mode : Mode}
      (hmode : mode.access = .readWrite) (hwork : Heeds Any post false work) :
      Heeds mode.Admits post false work := hwork.mono fun _ _ _ => hmode
  have hreading {post : Bool → request.Answer → Prop} {work : Work request.Answer} {mode : Mode}
      (hwork : Heeds Reading post false work) : Heeds mode.Admits post false work :=
    hwork.mono fun statement hread hwrite => by
      rw [show statement.isWrite = false from hread] at hwrite
      cases hwrite
  cases request with
  | addOrder owner id order time => cases h; exact hwriting rfl (heeds_addOrder owner id order time)
  | record id => cases h; exact hreading (heeds_record id)
  | order owner id => cases h; exact hreading (heeds_order owner id)
  | expiration owner id => cases h; exact hreading (heeds_order owner id).map
  | checkRemovable id => cases h; exact hreading (heeds_checkRemovable id)
  | removeOrders ids status time =>
      cases h
      exact hwriting rfl (heeds_removeOrders ids status time)
  | setStatus id status time => cases h; exact hwriting rfl (heeds_setStatus id status time)
  | addRefund owner id order time =>
      cases h
      exact hwriting rfl (heeds_addRefund owner id order time)
  | removeRefund id time => cases h; exact hwriting rfl (heeds_removeRefund id time)
  | orders owner first limit => cases h; exact hreading (heeds_orders owner first limit)
  | refunds page size =>
      simp only [transaction] at h
      split at h
      · cases h
      · split at h
        · cases h
        · cases h
          exact hreading (heeds_refunds page size)

namespace Database

variable {φ : Type} {strike : Faults φ} {mode : Mode} {work : Work α} {db : Database φ}

theorem start_of_ok {begun : Transaction φ} {after : Database φ}
    (h : db.start strike = (.ok begun, after)) :
    begun = ⟨db.tables, false, after.faults⟩ ∧ after.tables = db.tables ∧
      after.ended = db.ended := by
  rw [start] at h
  rcases hbegin : strike .begin db.faults with ⟨struck | error, faults⟩
  · rw [hbegin] at h
    dsimp only at h
    rcases hconfigure : strike .configure faults with ⟨struck | error, faults⟩
    · rw [hconfigure] at h
      cases h
      exact ⟨rfl, rfl, rfl⟩
    · rw [hconfigure] at h
      cases h
  · rw [hbegin] at h
    cases h

theorem start_of_error {error : Error} {after : Database φ}
    (h : db.start strike = (.error error, after)) : after.tables = db.tables := by
  have hkept : (db.start strike).2.tables = db.tables := by
    rw [start]
    rcases strike .begin db.faults with ⟨struck | error, faults⟩
    · dsimp only
      rcases strike .configure faults with ⟨struck | error, faults⟩ <;> rfl
    · rfl
  rw [h] at hkept
  exact hkept

theorem commit_of_ok {transaction : Transaction φ} (hgoing : transaction.aborted = false)
    (h : (db.commit strike mode transaction).1 = .ok ()) :
    (db.commit strike mode transaction).2.tables = transaction.tables ∧
      (db.commit strike mode transaction).2.ended = db.ended ++ [⟨mode, true⟩] := by
  rw [commit, if_neg (by rw [hgoing]; exact Bool.false_ne_true)] at h ⊢
  rcases hcommit : strike .commit transaction.faults with ⟨struck | error, faults⟩
  · exact ⟨rfl, rfl⟩
  · rw [hcommit] at h
    cases h

theorem commit_of_error {error : Error} {transaction : Transaction φ}
    (h : (db.commit strike mode transaction).1 = .error error) :
    (db.commit strike mode transaction).2.tables = db.tables := by
  rw [commit] at h ⊢
  split
  · rfl
  · rename_i hgoing
    rw [if_neg hgoing] at h
    rcases hcommit : strike .commit transaction.faults with ⟨struck | error, faults⟩
    · rw [hcommit] at h
      cases h
    · rfl

theorem transact_of_failed {error : Error} (h : (db.transact strike mode work).1 = .error error) :
    (db.transact strike mode work).2.tables = db.tables := by
  rw [transact] at h ⊢
  rcases hstart : db.start strike with ⟨failure | begun, after⟩
  · exact start_of_error hstart
  · obtain ⟨-, htables, -⟩ := start_of_ok hstart
    rw [hstart] at h
    dsimp only at h ⊢
    rcases hrun : work.run strike begun with ⟨failure | value, ran⟩
    · exact htables
    · rw [hrun] at h
      dsimp only at h ⊢
      rcases hcommit : after.commit strike mode ran with ⟨failure | done, last⟩
      · rw [← htables]
        have hundone := commit_of_error (congrArg Prod.fst hcommit)
        rw [hcommit] at hundone
        exact hundone
      · rw [hcommit] at h
        cases h

theorem transact_of_done {value : α} (hheeds : Heeds mode.Admits Unrefused false work)
    (h : (db.transact strike mode work).1 = .ok value) :
    ∃ begun : Transaction φ, begun.tables = db.tables ∧
      Statement.replay (work.sent strike begun) db.tables =
        .ok (db.transact strike mode work).2.tables ∧
      (∀ statement ∈ work.sent strike begun, mode.Admits statement) ∧
      (db.transact strike mode work).2.ended = db.ended ++ [⟨mode, true⟩] ∧
      transact Faults.never mode work ⟨db.tables, (), db.ended⟩ =
        (.ok value, ⟨(db.transact strike mode work).2.tables, (),
          (db.transact strike mode work).2.ended⟩) := by
  rw [transact] at h ⊢
  rcases hstart : db.start strike with ⟨failure | begun, after⟩
  · rw [hstart] at h
    cases h
  · obtain ⟨hbegun, htables, hended⟩ := start_of_ok hstart
    have haborted : begun.aborted = false := by rw [hbegun]
    have hsame : begun.tables = db.tables := by rw [hbegun]
    obtain ⟨hadmits, hclean⟩ : (∀ statement ∈ work.sent strike begun, mode.Admits statement) ∧
        ∀ value, (work.run strike begun).1 = .ok value →
          Unrefused (work.run strike begun).2.aborted value := hheeds.run haborted
    rw [hstart] at h
    dsimp only at h ⊢
    rcases hrun : work.run strike begun with ⟨failure | result, ran⟩
    · rw [hrun] at h
      cases h
    · have hgoing : (work.run strike begun).2.aborted = false :=
        hclean result (congrArg Prod.fst hrun)
      have hreplay := replay_sent strike work hgoing
      have hnever := run_never strike work hgoing
      rw [hrun] at h hgoing hreplay hnever
      rw [hsame] at hreplay hnever
      dsimp only at h hgoing ⊢
      rcases hcommit : after.commit strike mode ran with ⟨failure | done, last⟩
      · rw [hcommit] at h
        cases h
      · obtain ⟨hlast, hnoted⟩ := commit_of_ok hgoing (congrArg Prod.fst hcommit)
        rw [hcommit] at h hlast hnoted
        cases h
        dsimp only at hlast hnoted ⊢
        rw [hended] at hnoted
        refine ⟨begun, hsame, hlast ▸ hreplay, hadmits, hnoted, ?_⟩
        rw [transact, start]
        simp only [Faults.never, hnever, commit, Bool.false_eq_true, if_false, hlast, hnoted]

end Database

/-! ## Requests -/

def moves : Request → Bool
  | .removeOrders .. | .setStatus .. | .addRefund .. | .removeRefund .. => true
  | .addOrder .. | .record .. | .order .. | .expiration .. | .checkRemovable .. | .orders ..
  | .refunds .. => false

theorem mode_of_moves {request : Request} {mode : Mode} {work : Work request.Answer}
    (h : transaction request = .ok (mode, work)) (hmoves : moves request = true) :
    mode = .moving := by
  cases request with
  | removeOrders | setStatus | addRefund | removeRefund => cases h; rfl
  | addOrder | record | order | expiration | checkRemovable | orders | refunds => cases hmoves

/-- What a request has done to a database. -/
structure Wholly (strike : Faults φ) (request : Request) (db : Database φ) : Prop where
  /-- One that fails leaves the committed tables as they were. -/
  undone : ∀ stop, (serve strike request db).1 = .error stop →
    (serve strike request db).2.tables = db.tables
  /-- One that answers has committed one transaction: it carried out exactly the statements that the
  request sent, it was opened for writing if one of them writes, and it was serializable if the
  request moves orders. The server has refused nothing then. -/
  done : ∀ answer, (serve strike request db).1 = .ok answer →
    ∃ (mode : Mode) (work : Work request.Answer) (begun : Transaction φ),
      transaction request = .ok (mode, work) ∧ begun.tables = db.tables ∧
      Statement.replay (work.sent strike begun) db.tables =
        .ok (serve strike request db).2.tables ∧
      (serve strike request db).2.ended = db.ended ++ [⟨mode, true⟩] ∧
      ((∃ statement ∈ work.sent strike begun, statement.isWrite = true) →
        mode.access = .readWrite) ∧
      (moves request = true → mode = .moving) ∧
      serve Faults.never request ⟨db.tables, (), db.ended⟩ =
        (.ok answer, ⟨(serve strike request db).2.tables, (), (serve strike request db).2.ended⟩)

/-- Whatever is asked of whatever tables, and at whatever points the server refuses to go on: the
request has failed and left no trace in the tables, or all of it is committed at once. -/
theorem all_or_nothing {φ : Type} (strike : Faults φ) (request : Request) (db : Database φ) :
    Wholly strike request db := by
  cases htransaction : transaction request with
  | error error =>
      have hserve : serve strike request db = (Reply.fail error, db) := by
        rw [serve, htransaction]
      refine ⟨fun stop hstop => by rw [hserve], fun answer hanswer => ?_⟩
      rw [hserve] at hanswer
      cases hanswer
  | ok opened =>
      obtain ⟨mode, work⟩ := opened
      have hserve {ψ : Type} (strike : Faults ψ) (db : Database ψ) :
          serve strike request db = (Reply.ofExcept (db.transact strike mode work).1,
            (db.transact strike mode work).2) := by
        rw [serve, htransaction]
      constructor
      case undone =>
        intro stop hstop
        rw [hserve] at hstop ⊢
        cases hresult : (db.transact strike mode work).1 with
        | ok answer =>
            rw [hresult] at hstop
            cases hstop
        | error error => exact Database.transact_of_failed hresult
      case done =>
        intro answer hanswer
        rw [hserve strike] at hanswer
        cases hresult : (db.transact strike mode work).1 with
        | error error =>
            rw [hresult] at hanswer
            cases hanswer
        | ok value =>
            rw [hresult] at hanswer
            cases hanswer
            obtain ⟨begun, hbegun, hreplay, hadmits, hended, hnever⟩ :=
              Database.transact_of_done (heeds_transaction htransaction) hresult
            rw [hserve strike, hserve Faults.never, hnever]
            refine ⟨mode, work, begun, htransaction, hbegun, hreplay, hended, ?_,
              mode_of_moves htransaction, rfl⟩
            rintro ⟨statement, hsent, hwrite⟩
            exact hadmits statement hsent hwrite

end ParcelDesk.Relational
