import ParcelDesk.Proofs.Desk.Journal
import ParcelDesk.Proofs.Store.Places

/-!
# Saving and opening anew

A stock that is saved and opened anew is the same stock, so nobody who asks or calls afterwards can
tell that it was.
-/

namespace ParcelDesk

namespace Stock

/-- The stock that is found when the file is opened to which it was saved. -/
def reopen (stock : Stock) (scribe : Scribe) : Except Error Stock :=
  ofSnapshot (Octets.ofBytes (Octets.toBytes (scribe.write stock)))

theorem PlacesFit.reopen {stock : Stock} (h : stock.PlacesFit) (scribe : Scribe) :
    stock.reopen scribe = .ok stock := by
  have hsnapshot := scribe.isSnapshot stock
  rw [Stock.reopen, hsnapshot.isAscii.ofBytes_toBytes, h.ofSnapshot hsnapshot]

end Stock

/-- No snapshot is left out: some scribe would have written it. -/
theorem Scribe.exists_write {stock : Stock} {octets : List Char} (h : stock.IsSnapshot octets) :
    ∃ scribe : Scribe, scribe.write stock = octets := by
  classical
  refine ⟨⟨fun other => if other = stock then octets else other.snapshot, fun other => ?_⟩,
    if_pos rfl⟩
  split
  next hsame => exact hsame ▸ h
  next => exact other.isSnapshot_snapshot

/-- What can be done with a stock: something is asked of it, the desk is called while the clock goes
on, or it is saved by some scribe and opened anew. -/
inductive Act where
  | ask (request : Request)
  | call (service : Service) (clock : Nat → Instant)
  | reopening (scribe : Scribe)

/-- What came of an act. -/
inductive Effect where
  | answered (request : Request) (reply : Reply request.Answer)
  | served (service : Service) (reply : Reply (Receipt ⊕ List Slot)) (news : List Event)
  | reopened
  | lost (error : Error)

namespace Effect

def isReopened : Effect → Bool
  | .reopened => true
  | _ => false

end Effect

namespace Act

def isReopening : Act → Bool
  | .reopening _ => true
  | _ => false

def perform : Act → Stock → Effect × Stock
  | .ask request, stock =>
      (.answered request (Stock.serve request stock).1, (Stock.serve request stock).2)
  | .call service clock, stock =>
      let ran := service.call.runBy Stock.serve clock stock
      (.served service ran.reply ran.news, ran.state)
  | .reopening scribe, stock =>
      match stock.reopen scribe with
      | .ok opened => (.reopened, opened)
      | .error error => (.lost error, stock)

def play : List Act → Stock → List Effect × Stock
  | [], stock => ([], stock)
  | act :: rest, stock =>
      ((act.perform stock).1 :: (play rest (act.perform stock).2).1,
        (play rest (act.perform stock).2).2)

/-- The acts other than reopenings. -/
def undisturbed (acts : List Act) : List Act :=
  acts.filter fun act => !act.isReopening

variable {stock : Stock}

theorem later_perform {act : Act} (h : act.isReopening = false) (stock : Stock) :
    stock.Later (act.perform stock).2 := by
  cases act with
  | ask request => exact Stock.later_serve request stock
  | call service clock => exact Stock.later_runBy service.call clock stock
  | reopening scribe => cases h

theorem later_play (acts : List Act) (stock : Stock) :
    stock.Later (play (undisturbed acts) stock).2 := by
  induction acts generalizing stock with
  | nil => exact .refl stock
  | cons act rest ih =>
      cases hact : act.isReopening with
      | true =>
          rw [undisturbed, List.filter_cons_of_neg (by simp [hact])]
          exact ih stock
      | false =>
          rw [undisturbed, List.filter_cons_of_pos (by simp [hact])]
          exact (later_perform hact stock).trans (ih _)

theorem perform_reopening (h : stock.PlacesFit) (scribe : Scribe) :
    perform (.reopening scribe) stock = (.reopened, stock) := by
  rw [perform, h.reopen scribe]

theorem isReopened_perform {act : Act} (h : act.isReopening = false) (stock : Stock) :
    (act.perform stock).1.isReopened = false := by
  cases act with
  | ask request => rfl
  | call service clock => rfl
  | reopening scribe => cases h

/-- Whatever a stock has been through, it can be reopened, and every other act has the effect it
would have had without the reopenings. -/
theorem play_of_placesFit (hfit : stock.PlacesFit) (acts : List Act)
    (hroom : stock.Covered ∨ (play (undisturbed acts) stock).2.Countable) :
    (play acts stock).1.filter (fun effect => !effect.isReopened) =
        (play (undisturbed acts) stock).1 ∧
      (play acts stock).2 = (play (undisturbed acts) stock).2 ∧
      (play acts stock).2.PlacesFit := by
  induction acts generalizing stock with
  | nil => exact ⟨rfl, rfl, hfit⟩
  | cons act rest ih =>
      cases hact : act.isReopening with
      | true =>
          have hkept : undisturbed (act :: rest) = undisturbed rest :=
            List.filter_cons_of_neg (by simp [hact])
          rw [hkept] at hroom ⊢
          cases act with
          | reopening scribe =>
              rw [play, perform_reopening hfit scribe]
              exact ih hfit hroom
          | ask | call => cases hact
      | false =>
          have hkept : undisturbed (act :: rest) = act :: undisturbed rest :=
            List.filter_cons_of_pos (by simp [hact])
          have hlater := later_perform hact stock
          rw [hkept] at hroom ⊢
          obtain ⟨heffects, hfinal, hfits⟩ :=
            ih (hlater.placesFit hfit (hroom.imp_right (later_play rest _).countable))
              (hroom.imp_left hlater.covered)
          refine ⟨?_, hfinal, hfits⟩
          rw [play, play, List.filter_cons_of_pos (by simp [isReopened_perform hact]), heffects]

/-- A stock that was opened from a file may be saved and opened anew as often as one likes, and each
time the members of its maps may be written in another order: every other act has the effect it
would have had, the stock ends as it would have, and it is found again in the file to which it is
saved. If some rack of the file's stock has places of which its index knows nothing, then no rack
may get more places than there are words, as in any machine. -/
theorem reopening_transparent {octets : List Char} {start : Stock}
    (hopen : Stock.ofSnapshot octets = .ok start) (acts : List Act)
    (hroom : start.Covered ∨ (play (undisturbed acts) start).2.Countable) :
    (play acts start).1.filter (fun effect => !effect.isReopened) =
        (play (undisturbed acts) start).1 ∧
      (play acts start).2 = (play (undisturbed acts) start).2 ∧
      ∀ scribe, (play acts start).2.reopen scribe = .ok (play acts start).2 := by
  obtain ⟨heffects, hfinal, hfit⟩ :=
    play_of_placesFit (Stock.placesFit_of_ofSnapshot hopen) acts hroom
  exact ⟨heffects, hfinal, hfit.reopen⟩

/-- Two orders that expire on the first day there is, accepted on the last one and written down with
the greater number first. -/
theorem reopening_transparent_accepted :
    let order : Order := ⟨.first, .box, 1000, 120, false⟩
    let accept (id : UInt64) : Request := .addOrder 1 id order Date.last.start
    let record : Record := ⟨order, .accepted, 1, Date.last.start⟩
    let stock := (play [.ask (accept 7), .ask (accept 10)] .empty).2
    ∃ scribe : Scribe,
      scribe.write stock = (Stock.document (.object [("10", record.toJson), ("7", record.toJson)])
        (.ofMap Holding.toJson stock.holdings) stock.refunds.toJson).pretty ∧
      Stock.ofSnapshot [] = .ok .empty ∧ Stock.empty.Covered ∧
      (play [.ask (accept 7), .ask (accept 10), .reopening scribe, .ask (.order 1 7)]
          .empty).1.filter (fun effect => !effect.isReopened) =
        [.answered (accept 7) (.ok ()), .answered (accept 10) (.ok ()),
          .answered (.order 1 7) (.ok order)] := by
  intro order accept record stock
  have hopen : Stock.ofSnapshot [] = .ok .empty := rfl
  have hten : Numeral.text 10 = "10" := by decide +kernel
  have hseven : Numeral.text 7 = "7" := by decide +kernel
  have hhistory : Json.MapWritten (fun record => (record.toJson = ·)) stock.history
      (.object [("10", record.toJson), ("7", record.toJson)]) := by
    rw [← hten, ← hseven]
    have hmembers : Json.MembersFor (fun record => (Record.toJson record = ·))
        [(10, record), (7, record)]
        [(Numeral.text 10, record.toJson), (Numeral.text 7, record.toJson)] :=
      .cons rfl (.cons rfl .nil)
    exact .intro (List.Perm.swap (7, record) (10, record) []) hmembers
  obtain ⟨scribe, hscribe⟩ := Scribe.exists_write ⟨_, .intro hhistory
    (Json.mapWritten_ofMap Holding.written_toJson stock.holdings)
    (Rack.written_toJson stock.refunds), rfl⟩
  exact ⟨scribe, hscribe, hopen, Stock.covered_empty,
    (reopening_transparent hopen _ (.inl Stock.covered_empty)).1.trans rfl⟩

end Act

end ParcelDesk
