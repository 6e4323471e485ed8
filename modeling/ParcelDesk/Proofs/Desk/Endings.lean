import ParcelDesk.Proofs.Desk.Deeds

namespace ParcelDesk

namespace Stock

variable {stock : Stock}

/-- A request of the desk keeps the stock settled and moves each order by at most one step. -/
theorem Settled.serve (h : stock.Settled) {request : Request} (hproper : stock.Proper request) :
    (serve request stock).2.Settled ∧ stock.Steps (serve request stock).2 := by
  obtain ⟨answer, after, -, hchange, hserve⟩ | ⟨answer, -, hserve⟩ | ⟨error, hserve⟩ :=
    h.serve_cases request
  · rw [hserve]
    exact h.change hproper hchange
  · rw [hserve]
    exact ⟨h, .refl stock⟩
  · rw [hserve]
    exact ⟨h, .refl stock⟩

end Stock

namespace Desk

/-- The rules of the desk: the stock stays settled and only grows. -/
def rules : Rules Stock.serve where
  holds := Stock.Settled
  grows := Stock.Grows
  allows := Stock.Proper
  grows_refl := .refl
  grows_trans := .trans
  kept := fun hsettled hproper =>
    ⟨(hsettled.serve hproper).1, (hsettled.serve hproper).2.grows⟩

variable {post : Reply α → Stock → Diary Stock → Prop} {stock : Stock} {diary : Diary Stock}
  {request : Request} {next : Except Error request.Answer → Call α}

theorem keeps_read (hread : request.changes = false)
    (hok : ∀ later answer, later.Settled → stock.Grows later →
      Stock.serve request later = (.ok answer, later) →
        (next (.ok answer)).Keeps rules post later diary)
    (hfail : ∀ later error, later.Settled → stock.Grows later →
      Stock.serve request later = (Reply.fail error, later) →
        (next (.error error)).Keeps rules post later diary) :
    (Call.ask request next).Keeps rules post stock diary := by
  refine .ask (fun later _ _ => Stock.proper_of_read hread later) ?_ ?_ ?_
  all_goals
    intro later after value hsettled hgrows hserve
    obtain ⟨result, hresult⟩ := Stock.serve_of_read hread later
    cases result
    all_goals
      rw [hserve] at hresult
      cases hresult
  · rw [Diary.note_of_read hread]
    exact hok later value hsettled hgrows hserve
  · exact hfail later value hsettled hgrows hserve

theorem keeps_change (hchanges : request.changes = true)
    (hproper : ∀ later, later.Settled → stock.Grows later → later.Proper request)
    (hok : ∀ later after answer, later.Settled → stock.Grows later →
      later.Change request after → Stock.serve request later = (.ok answer, after) →
        (next (.ok answer)).Keeps rules post after
          { diary with mutations := diary.mutations ++ [⟨request, later, after⟩] })
    (hfail : ∀ later error, later.Settled → stock.Grows later →
      Stock.serve request later = (Reply.fail error, later) →
        (next (.error error)).Keeps rules post later diary) :
    (Call.ask request next).Keeps rules post stock diary := by
  refine .ask hproper ?_ ?_ ?_
  all_goals
    intro later after value hsettled hgrows hserve
    obtain ⟨answer, changed, -, hchange, hanswer⟩ | ⟨answer, hread, -⟩ | ⟨error, hanswer⟩ :=
      hsettled.serve_cases request
    case inr.inl =>
      rw [hchanges] at hread
      cases hread
    all_goals
      rw [hserve] at hanswer
      cases hanswer
  · rw [Diary.note_of_change hchanges]
    exact hok later after value hsettled hgrows hchange hserve
  · exact hfail later value hsettled hgrows hserve

theorem later_bind (time : Instant) (span : Int) (next : Instant → Call α) :
    (later time span >>= next) =
      match time.plus span with
      | some limit => next limit
      | none => .crash .instantOverflow := by
  unfold later
  cases time.plus span <;> rfl

/-! ## Accepting parcels -/

theorem accept_ends (parcel : Parcel) (stock : Stock) :
    (Deed.accept parcel).call.Keeps rules (Deed.accept parcel).Ends stock {} := by
  refine Call.Keeps.map (Call.Keeps.announced ?_ _ _)
  rw [tryAccept_eq]
  refine .readClock fun time => ?_
  split
  · rename_i hexpired
    refine .fail ⟨rfl, time, _, rfl, rfl, ?_⟩
    intro hinOrder
    exact absurd hexpired hinOrder.fresh
  · rename_i hfresh
    cases horder : parcel.order with
    | error error =>
        refine .fail ⟨rfl, time, error, rfl, rfl, ?_⟩
        rintro ⟨-, order, hpacked⟩
        rw [horder] at hpacked
        cases hpacked
    | ok order =>
        change (Call.request _ >>= _).Keeps _ _ _ _
        rw [Call.request_bind]
        refine keeps_change rfl (fun _ _ _ => True.intro) ?_ ?_
        · intro before after answer hsettled hgrows hchange hserve
          cases hchange with
          | register _ _ _ _ hnew => exact .done ⟨_, rfl, .accept hfresh horder hnew⟩
        · intro before error hsettled hgrows hserve
          refine .fail ⟨rfl, time, error, rfl, rfl, ?_⟩
          intro
          cases hrecord : before.history.get? parcel.id with
          | none =>
              have hdone := hsettled.addOrder_of_none hrecord parcel.owner order time
              rw [Stock.serve, hdone] at hserve
              cases hserve
          | some record =>
              have hrefused := Stock.addOrder_of_some hrecord parcel.owner order time
              rw [Stock.serve, hrefused] at hserve
              cases hserve
              exact ⟨record.status, rfl⟩

/-! ## Refunds -/

theorem refund_ends (owner id : UInt64) (stock : Stock) :
    (Deed.refund owner id).call.Keeps rules (Deed.refund owner id).Ends stock {} := by
  refine Call.Keeps.map (Call.Keeps.announced ?_ _ _)
  unfold tryRefund
  rw [Call.request_bind]
  refine keeps_read rfl ?_ fun _ _ _ _ _ => .fail ⟨rfl, True.intro⟩
  intro seen record hseen hgrows hserve
  have hknown := Stock.serve_record.1 hserve
  dsimp only
  split
  · exact .fail ⟨rfl, True.intro⟩
  · rename_i hleads
    split
    · exact .fail ⟨rfl, True.intro⟩
    · rename_i howner
      rw [Call.now_bind]
      refine .readClock fun time => ?_
      rw [later_bind]
      split
      · rename_i limit hlimit
        split
        · exact .fail ⟨rfl, True.intro⟩
        · rename_i hintime
          refine keeps_change rfl ?_ ?_ fun _ _ _ _ _ => .fail ⟨rfl, True.intro⟩
          · intro before hsettled hgrew
            exact ⟨record.owner, hgrew.deposit (Stock.deposit_of_get? hknown)⟩
          · intro before after answer hsettled hgrew hchange hserve
            obtain ⟨found, hfound, hbecomes⟩ := hgrew id record hknown
            cases hchange with
            | enqueue _ _ _ current hcurrent hstatus _ =>
                rw [hfound] at hcurrent
                cases hcurrent
                -- the stage leads to the queue, and from that stage it has not moved since
                have hsame : found = record := by
                  apply hbecomes.eq_of_status
                  have hleaves : record.status.leadsTo .returned = true := by
                    simpa using hleads
                  rw [hstatus, Status.leadsTo_returned.1 hleaves]
                subst hsame
                exact .done ⟨_, rfl, .refund hfound hstatus hlimit hintime⟩
      · exact .crash ⟨rfl, True.intro⟩

/-! ## Sending orders back -/

theorem sendBack_ends (id : UInt64) (stock : Stock) :
    (Deed.sendBack id).call.Keeps rules (Deed.sendBack id).Ends stock {} := by
  refine Call.Keeps.map (Call.Keeps.announced ?_ _ _)
  unfold trySendBack
  rw [Call.request_bind]
  refine keeps_read rfl ?_ fun _ _ _ _ _ => .fail ⟨rfl, True.intro⟩
  intro seen record hseen hgrows hserve
  have hknown := Stock.serve_record.1 hserve
  dsimp only
  rw [Call.now_bind]
  refine .readClock fun time => ?_
  cases hstage : record.status with
  | returned =>
      refine keeps_change rfl (fun _ _ _ => True.intro) ?_ fun _ _ _ _ _ => .fail ⟨rfl, True.intro⟩
      intro before after answer hsettled hgrew hchange hserve
      cases hchange with
      | dequeue _ _ found hfound hstatus _ =>
          exact .done ⟨_, rfl, .sendBackReturned hfound hstatus⟩
  | accepted =>
      dsimp only
      rw [Call.request_bind]
      refine keeps_read rfl ?_ fun _ _ _ _ _ => .fail ⟨rfl, True.intro⟩
      intro later expires hlater hgrew hserve
      obtain ⟨order, hdeposit, -, rfl⟩ := hlater.serve_expiration.1 hserve
      dsimp only
      rw [later_bind]
      split
      · rename_i limit hlimit
        split
        · exact .fail ⟨rfl, True.intro⟩
        · rename_i hlate
          refine keeps_change rfl (fun _ _ _ => rfl) ?_ fun _ _ _ _ _ => .fail ⟨rfl, True.intro⟩
          intro before after answer hsettled hgrew hchange hserve
          cases hchange with
          | releaseAll _ _ _ hall =>
              obtain ⟨found, hfound, hstatus, -⟩ :=
                hsettled.accepted_of_removable (hall id List.mem_cons_self)
              have hsame := hgrew.deposit hdeposit
              rw [Stock.deposit_of_get? hfound] at hsame
              obtain ⟨-, rfl⟩ := Prod.mk.inj (Option.some.inj hsame)
              exact .done ⟨_, rfl, .sendBackUnclaimed hfound hstatus hlimit hlate⟩
      · exact .crash ⟨rfl, True.intro⟩
  | issuedToClient => exact .fail ⟨rfl, True.intro⟩
  | issuedToCourier => exact .fail ⟨rfl, True.intro⟩

/-! ## Giving orders to their owner -/

/-- An order may be in a batch for this owner. It was accepted for them, and that never changes. -/
def Fits (today : Date) (owner : UInt64) (stock : Stock) (id : UInt64) : Prop :=
  ∃ order, stock.deposit id = some (owner, order) ∧ ¬ order.expires < today

theorem Fits.later {today : Date} {owner : UInt64} {stock after : Stock} {id : UInt64}
    (h : Fits today owner stock id) (hgrows : stock.Grows after) :
    Fits today owner after id := by
  obtain ⟨order, hdeposit, hfresh⟩ := h
  exact ⟨order, hgrows.deposit hdeposit, hfresh⟩

def Checked (today : Date) (owner : Option UInt64) (id : UInt64) (diary : Diary Stock) :
    Reply (Option UInt64 × Option Error) → Stock → Diary Stock → Prop
  | .ok (batch, none), stock, final =>
      final = diary ∧ ∃ user, batch = some user ∧ owner.getD user = user ∧
        Fits today user stock id
  | _, _, final => final = diary

theorem checkGive_keeps (today : Date) (owner : Option UInt64) (id : UInt64) (stock : Stock)
    (diary : Diary Stock) :
    (checkGive today owner id).Keeps rules (Checked today owner id diary) stock diary := by
  unfold checkGive
  rw [Call.attempt_request_bind]
  refine keeps_read rfl ?_ fun _ _ _ _ _ => .done rfl
  intro seen record hseen hgrows hserve
  have hdeposit := Stock.deposit_of_get? (Stock.serve_record.1 hserve)
  dsimp only
  split
  · exact .done rfl
  · rename_i howner
    split
    · exact .done rfl
    · rw [Call.attempt_request_bind]
      refine keeps_read rfl ?_ fun _ _ _ _ _ => .done rfl
      intro later expires hlater hgrew hserve
      obtain ⟨order, hkept, -, rfl⟩ := hlater.serve_expiration.1 hserve
      dsimp only
      split
      · exact .done rfl
      · rename_i hfresh
        rw [Call.attempt_request_bind]
        refine keeps_read rfl ?_ fun _ _ _ _ _ => .done rfl
        intro last answer hlast hgrown hserve
        have hsame : owner.getD record.owner = record.owner :=
          (Decidable.not_not.1 howner).symm
        rw [hsame]
        exact .done ⟨rfl, record.owner, rfl, hsame, order, hgrown.deposit hkept, hfresh⟩

def CheckedAll (today : Date) (owner : Option UInt64) (ids : List UInt64)
    (diary : Diary Stock) : Reply (List Error) → Stock → Diary Stock → Prop
  | .ok [], stock, final =>
      final = diary ∧ ∃ user, owner.getD user = user ∧ ∀ id ∈ ids, Fits today user stock id
  | _, _, final => final = diary

theorem checkBatch_keeps (today : Date) (owner : Option UInt64) (ids : List UInt64)
    (stock : Stock) (diary : Diary Stock) :
    (checkBatch today owner ids).Keeps rules (CheckedAll today owner ids diary) stock diary := by
  induction ids generalizing owner stock with
  | nil =>
      refine .done ⟨rfl, owner.getD 0, ?_, fun id hid => nomatch hid⟩
      cases owner <;> rfl
  | cons id rest ih =>
      unfold checkBatch
      refine (checkGive_keeps today owner id stock diary).bind ?_ fun _ _ _ hstop => hstop
      rintro ⟨batch, error⟩ seen final hchecked
      have hfinal : final = diary := by
        cases error with
        | none => exact hchecked.1
        | some error => exact hchecked
      subst hfinal
      refine ((ih batch seen).remember (.refl seen)).bind ?_ fun _ _ _ hstop => hstop.2
      rintro errors last final ⟨hgrows, hrest⟩
      cases error with
      | some error =>
          refine .done ?_
          cases errors with
          | nil => exact hrest.1
          | cons => exact hrest
      | none =>
          cases errors with
          | cons => exact .done hrest
          | nil =>
              obtain ⟨-, user, rfl, howner, hfits⟩ := hchecked
              obtain ⟨hfinal, other, hsame, hothers⟩ := hrest
              change user = other at hsame
              subst hsame
              refine .done ⟨hfinal, user, howner, ?_⟩
              intro key hkey
              cases hkey with
              | head => exact hfits.later hgrows
              | tail _ hkey => exact hothers key hkey

theorem give_ends (ids : List UInt64) (stock : Stock) :
    (Deed.give ids).call.Keeps rules (Deed.give ids).Ends stock {} := by
  refine Call.Keeps.map (Call.Keeps.announced ?_ _ _)
  change (tryGive (distinct ids) >>= fun _ => pure (distinct ids)).Keeps rules _ stock {}
  refine Call.Keeps.map ?_
  unfold tryGive
  split
  · exact .fail ⟨rfl, True.intro⟩
  · rename_i hsome
    rw [Call.now_bind]
    refine .readClock fun first => ?_
    refine (checkBatch_keeps first.date none (distinct ids) stock _).bind ?_ ?_
    · intro errors seen final hchecked
      cases errors with
      | cons error rest =>
          cases hchecked
          exact .fail ⟨rfl, True.intro⟩
      | nil =>
          obtain ⟨rfl, owner, -, hfits⟩ := hchecked
          dsimp only
          rw [Call.now_bind]
          refine .readClock fun time => ?_
          refine keeps_change rfl (fun _ _ _ => rfl) ?_ fun _ _ _ _ _ => .fail ⟨rfl, True.intro⟩
          intro before after answer hsettled hgrows hchange hserve
          cases hchange with
          | releaseAll _ _ _ hall =>
              have hready : ∀ id ∈ ids, ∃ record, before.history.get? id = some record ∧
                  record.status = .accepted ∧ record.owner = owner ∧
                    ¬ record.order.expires < first.date := by
                intro id hid
                have hmember := mem_distinct.2 hid
                obtain ⟨record, hrecord, hstatus, -⟩ :=
                  hsettled.accepted_of_removable (hall id hmember)
                obtain ⟨order, hdeposit, hfresh⟩ := (hfits id hmember).later hgrows
                rw [Stock.deposit_of_get? hrecord] at hdeposit
                obtain ⟨rfl, rfl⟩ := Prod.mk.inj (Option.some.inj hdeposit)
                exact ⟨record, hrecord, hstatus, rfl, hfresh⟩
              rw [distinct_distinct]
              refine .done ⟨_, rfl, .give ?_ hready⟩
              rintro rfl
              exact hsome rfl
    · intro stop seen final hchecked
      cases hchecked
      exact ⟨rfl, True.intro⟩

/-- Every deed ends as promised, whatever the others do meanwhile. -/
theorem deed_ends (deed : Deed) (stock : Stock) :
    deed.call.Keeps rules deed.Ends stock {} := by
  cases deed with
  | accept parcel => exact accept_ends parcel stock
  | give ids => exact give_ends ids stock
  | refund owner id => exact refund_ends owner id stock
  | sendBack id => exact sendBack_ends id stock

end Desk

end ParcelDesk
