import ParcelDesk.Proofs.Relational.Growth
import ParcelDesk.Proofs.Relational.Writes

namespace ParcelDesk

namespace Relational

/-- The numbers of a request fit their columns, and its time is one that a column keeps exactly, as
it does those of `stored_of_whole`. A listing may be asked for any page, size and limit. -/
def Storable : Request → Prop
  | .addOrder owner id order time | .addRefund owner id order time =>
      Fits owner ∧ Fits id ∧ OrderFits order ∧ stored time = time
  | .record id | .checkRemovable id => Fits id
  | .order owner id | .expiration owner id => Fits owner ∧ Fits id
  | .removeOrders ids _ time => (∀ id ∈ ids, Fits id) ∧ stored time = time
  | .setStatus id _ time | .removeRefund id time => Fits id ∧ stored time = time
  | .orders owner first _ => Fits owner ∧ Fits first
  | .refunds _ _ => True

instance : DecidablePred Storable
  | .addOrder .. | .addRefund .. => inferInstanceAs (Decidable (_ ∧ _ ∧ _ ∧ _))
  | .record _ | .checkRemovable _ => inferInstanceAs (Decidable (Fits _))
  | .order .. | .expiration .. => inferInstanceAs (Decidable (_ ∧ _))
  | .removeOrders ids _ time =>
      -- the check goes through the list, not through all numbers
      @instDecidableAnd _ _ (List.decidableBAll Fits ids) (inferInstanceAs (Decidable (_ = time)))
  | .setStatus .. | .removeRefund .. => inferInstanceAs (Decidable (_ ∧ _))
  | .orders .. => inferInstanceAs (Decidable (_ ∧ _))
  | .refunds .. => inferInstanceAs (Decidable True)

variable {stock : Stock} {tables : Tables} {slots : List Slot}

theorem follows_transaction (h : Mirrors stock tables slots) (hnumbered : Numbered tables)
    {request : Request} (hstorable : Storable request) {mode : Mode}
    {work : Work request.Answer} (htransaction : transaction request = .ok (mode, work)) :
    Follows stock tables request work := by
  cases request with
  | addOrder owner id order time =>
      cases htransaction
      obtain ⟨howner, hid, horder, hstored⟩ := hstorable
      exact follows_addOrder h howner hid horder hstored
  | record id =>
      cases htransaction
      exact follows_of_read h rfl (runs_record h.records hstorable)
  | order owner id =>
      cases htransaction
      exact follows_of_read h rfl (runs_order h hstorable.1 hstorable.2)
  | expiration owner id =>
      cases htransaction
      exact follows_of_read h rfl ((runs_order h hstorable.1 hstorable.2).map _)
  | checkRemovable id =>
      cases htransaction
      exact follows_of_read h rfl (runs_checkRemovable h hstorable)
  | removeOrders ids status time =>
      cases htransaction
      exact follows_removeOrders h hstorable.1 status hstorable.2
  | setStatus id status time =>
      cases htransaction
      exact follows_setStatus h hstorable.1 status hstorable.2
  | addRefund owner id order time =>
      cases htransaction
      obtain ⟨howner, hid, horder, hstored⟩ := hstorable
      exact follows_addRefund h howner hid horder hstored
  | removeRefund id time =>
      cases htransaction
      exact follows_removeRefund h hstorable.1 hstorable.2
  | orders owner first limit =>
      cases htransaction
      exact follows_of_read h rfl (runs_orders h hnumbered hstorable.1 hstorable.2 limit)
  | refunds page size =>
      obtain ⟨error, herror, -⟩ | ⟨hok, hlist⟩ := refunds_cases page size stock.refunds
      · rw [herror] at htransaction
        cases htransaction
      · rw [hok] at htransaction
        cases htransaction
        refine follows_of_read h ?_ (runs_refunds h hnumbered page size)
        rw [Stock.serve, hlist]

theorem serve_of_error {request : Request} {error : Error}
    (htransaction : transaction request = .error error) :
    Stock.serve request stock = (Reply.fail error, stock) := by
  cases request with
  | refunds page size =>
      obtain ⟨other, herror, hlist⟩ | ⟨hok, -⟩ := refunds_cases page size stock.refunds
      · rw [herror] at htransaction
        cases htransaction
        rw [Stock.serve, hlist]
        rfl
      · rw [hok] at htransaction
        cases htransaction
  | addOrder | record | order | expiration | checkRemovable | removeOrders | setStatus |
      addRefund | removeRefund | orders => cases htransaction

/-- Both stores give one answer to a request and go on mirroring each other. -/
theorem Mirrors.serve (h : Mirrors stock tables slots) (hnumbered : Numbered tables)
    {request : Request} (hstorable : Storable request) (ended : List Ended) :
    ∃ reply later places after,
      Relational.serve Faults.never request ⟨some tables, (), ended⟩ =
        (reply, ⟨some later, (), after⟩) ∧
      (Stock.serve request stock).1.Alike reply ∧
      Mirrors (Stock.serve request stock).2 later places := by
  rw [Relational.serve]
  cases htransaction : transaction request with
  | error error =>
      rw [serve_of_error htransaction]
      exact ⟨_, tables, slots, ended, rfl, .fail rfl, h⟩
  | ok opened =>
      obtain ⟨mode, work⟩ := opened
      dsimp only
      cases follows_transaction h hnumbered hstorable htransaction with
      | @ok answer after later places hserve hruns hmirrors =>
          rw [hserve, Database.transact_of_ok hruns mode]
          exact ⟨_, later, places, _, rfl, .ok answer, hmirrors⟩
      | fail hserve hruns hvariant =>
          rw [hserve, Database.transact_of_error hruns mode]
          exact ⟨_, tables, slots, _, rfl, .fail hvariant, h⟩

theorem mirrors_empty : Mirrors .empty {} [] where
  sound := Stock.sound_empty
  records := ⟨fun _ => rfl, fun _ _ hrecord => nomatch hrecord⟩
  orders_eq := rfl
  racks_eq := fun _ => rfl
  orders_fit := fun _ hmem => nomatch hmem
  refunds_eq := rfl
  refunds_fit := fun _ hmem => nomatch hmem

def migrated : Database Unit :=
  (Database.migrate Faults.never ⟨none, (), []⟩).2

def Database.Numbered (db : Database φ) : Prop :=
  ∀ tables ∈ db.tables, Relational.Numbered tables

instance (db : Database φ) : Decidable db.Numbered :=
  inferInstanceAs (Decidable (∀ tables ∈ db.tables, Relational.Numbered tables))

theorem Database.Numbered.of_after {strike : Faults φ} {requests : List Request}
    {db : Database φ} (h : (Server.after (serve strike) requests db).Numbered) :
    db.Numbered := by
  intro tables htables listing
  obtain ⟨later, hlater, hgrows⟩ := after_grows strike requests db htables
  exact Nat.le_trans (hgrows.length_le listing) (h later hlater listing)

theorem Mirrors.after (h : Mirrors stock tables slots) {requests : List Request}
    (hstorable : ∀ request ∈ requests, Storable request) {ended : List Ended}
    (hnumbered : (Server.after (Relational.serve Faults.never) requests
      ⟨some tables, (), ended⟩).Numbered) :
    ∃ later places after,
      Server.after (Relational.serve Faults.never) requests ⟨some tables, (), ended⟩ =
        ⟨some later, (), after⟩ ∧
      Mirrors (Server.after Stock.serve requests stock) later places := by
  induction requests generalizing stock tables slots ended with
  | nil => exact ⟨tables, slots, ended, rfl, h⟩
  | cons request rest ih =>
      have hnow : Numbered tables := hnumbered.of_after tables rfl
      obtain ⟨reply, middle, places, after, hserve, -, hmirrors⟩ :=
        h.serve hnow (hstorable request List.mem_cons_self) ended
      change (Server.after _ rest (Relational.serve _ request _).2).Numbered at hnumbered
      change ∃ later places after, Server.after _ rest (Relational.serve _ request _).2 = _ ∧ _
      rw [hserve] at hnumbered ⊢
      exact ih hmirrors
        (fun other hother => hstorable other (List.mem_cons_of_mem request hother)) hnumbered

/-- After the same requests, each answered before the next, the stock and the relational store
have the same answer to any further one, but for the wording of an error. -/
theorem interchange (past : List Request) (request : Request)
    (hpast : ∀ earlier ∈ past, Storable earlier) (hrequest : Storable request)
    (hnumbered : (Server.after (serve Faults.never) past migrated).Numbered) :
    (Stock.serve request (Server.after Stock.serve past .empty)).1.Alike
      (serve Faults.never request (Server.after (serve Faults.never) past migrated)).1 := by
  obtain ⟨tables, slots, ended, hdb, hmirrors⟩ := mirrors_empty.after hpast hnumbered
  change Server.after (serve Faults.never) past migrated = _ at hdb
  rw [hdb] at hnumbered ⊢
  obtain ⟨reply, later, places, after, hserve, halike, -⟩ :=
    hmirrors.serve (hnumbered tables rfl) hrequest ended
  rw [hserve]
  exact halike

def exchanged : List Request :=
  [.addOrder 3 7 ⟨default, .box, 100, 50, true⟩ ⟨0, 1000, by decide, by decide, by decide⟩,
    .addOrder 3 8 ⟨default, .package, 2, 5, false⟩ ⟨0, 2000, by decide, by decide, by decide⟩,
    .setStatus 7 .issuedToClient ⟨1, 0, by decide, by decide, by decide⟩]

/-- A batch of which two orders cannot be handed out. -/
theorem interchange_exchanged :
    (Stock.serve (.removeOrders [9, 8, 7, 9] .issuedToCourier ⟨2, 0, by decide, by decide,
      by decide⟩) (Server.after Stock.serve exchanged .empty)).1.Alike
    (serve Faults.never (.removeOrders [9, 8, 7, 9] .issuedToCourier ⟨2, 0, by decide, by decide,
      by decide⟩) (Server.after (serve Faults.never) exchanged migrated)).1 :=
  interchange exchanged _ (by decide +kernel) (by decide +kernel) (by decide +kernel)

end Relational

end ParcelDesk
