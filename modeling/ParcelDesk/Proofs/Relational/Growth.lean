import ParcelDesk.Proofs.Store.Alike
import ParcelDesk.Relational.Store

namespace ParcelDesk.Relational

/-- Both listings still have their rows, in the same order and before any others. -/
def Tables.Grows (tables later : Tables) : Prop :=
  ∀ listing, (tables.rows listing).map (·.id) <+: (later.rows listing).map (·.id)

namespace Tables

theorem Grows.refl (tables : Tables) : tables.Grows tables :=
  fun _ => List.prefix_refl _

theorem Grows.trans {first second third : Tables} (h : first.Grows second)
    (hlater : second.Grows third) : first.Grows third :=
  fun listing => (h listing).trans (hlater listing)

theorem Grows.length_le {tables later : Tables} (h : tables.Grows later) (listing : Listing) :
    (tables.rows listing).length ≤ (later.rows listing).length := by
  have hids := (h listing).length_le
  rw [List.length_map, List.length_map] at hids
  exact hids

theorem grows_withRows (tables : Tables) (listing : Listing) {rows : List SlotRow}
    (h : (tables.rows listing).map (·.id) <+: rows.map (·.id)) :
    tables.Grows (tables.withRows listing rows) := by
  intro other
  cases listing with
  | orders =>
      cases other with
      | orders => exact h
      | refunds => exact List.prefix_refl _
  | refunds =>
      cases other with
      | orders => exact List.prefix_refl _
      | refunds => exact h

end Tables

theorem Statement.grows {statement : Statement} {tables later : Tables}
    {answer : statement.Answer} (h : statement.act tables = .ok (answer, later)) :
    tables.Grows later := by
  cases statement with
  | insertHistory row =>
      rw [act] at h
      split at h
      · cases h
      · cases h
        exact .refl tables
  | insertSlot listing row =>
      rw [act] at h
      split at h
      · cases h
      · cases h
        apply Tables.grows_withRows
        rw [List.map_append]
        exact List.prefix_append _ _
  | withdraw listing id =>
      cases h
      apply Tables.grows_withRows
      have hids : (fun row : SlotRow => row.id) ∘
          (fun row => if row.id == id then { row with live := false } else row) =
            fun row => row.id := by
        funext row
        rw [Function.comp_apply]
        split <;> rfl
      simp only [List.map_map, hids, List.prefix_rfl]
  | setStatus | findHistory | findStatus | findLive | hasUser | position | scanUser |
      scanRefunds =>
      cases h
      exact .refl tables

section Faults

variable {φ : Type} (strike : Faults φ)

theorem Transaction.grows (statement : Statement) (transaction : Transaction φ)
    {tables : Tables} (h : transaction.tables = some tables) :
    ∃ later, (transaction.answer strike statement).2.tables = some later ∧
      tables.Grows later := by
  have hsame : ∃ later, transaction.tables = some later ∧ tables.Grows later :=
    ⟨tables, h, .refl tables⟩
  rw [answer]
  split
  · exact hsame
  · rw [h]
    dsimp only
    split
    · exact hsame
    · split
      · exact hsame
      · rename_i answer later hact
        exact ⟨later, rfl, statement.grows hact⟩

theorem Work.grows (work : Work α) (transaction : Transaction φ) {tables : Tables}
    (h : transaction.tables = some tables) :
    ∃ later, (work.run strike transaction).2.tables = some later ∧ tables.Grows later := by
  induction work generalizing transaction tables with
  | done value => exact ⟨tables, h, .refl tables⟩
  | fail error => exact ⟨tables, h, .refl tables⟩
  | send statement next ih =>
      obtain ⟨middle, hmiddle, hfirst⟩ := transaction.grows strike statement h
      obtain ⟨later, hlater, hrest⟩ := ih _ _ hmiddle
      exact ⟨later, hlater, hfirst.trans hrest⟩

namespace Database

theorem start_tables (db : Database φ) :
    (db.start strike).2.tables = db.tables ∧
      ∀ transaction, (db.start strike).1 = .ok transaction → transaction.tables = db.tables := by
  rw [start]
  split
  · exact ⟨rfl, fun transaction hstart => nomatch hstart⟩
  · split
    · exact ⟨rfl, fun transaction hstart => nomatch hstart⟩
    · refine ⟨rfl, ?_⟩
      intro transaction hstart
      cases hstart
      rfl

/-- A commit puts the tables of the transaction in place or leaves those of the database. -/
theorem commit_tables (mode : Mode) (transaction : Transaction φ) (db : Database φ) :
    (db.commit strike mode transaction).2.tables = db.tables ∨
      (db.commit strike mode transaction).2.tables = transaction.tables := by
  rw [commit]
  split
  · exact .inl rfl
  · split
    · exact .inl rfl
    · exact .inr rfl

theorem transact_grows (mode : Mode) (work : Work α) (db : Database φ) {tables : Tables}
    (h : db.tables = some tables) :
    ∃ later, (db.transact strike mode work).2.tables = some later ∧ tables.Grows later := by
  obtain ⟨hkept, hopened⟩ := db.start_tables strike
  rw [transact]
  cases hstart : db.start strike with
  | mk opened begun =>
      rw [hstart] at hkept hopened
      have hsame : ∃ later, begun.tables = some later ∧ tables.Grows later :=
        ⟨tables, hkept.trans h, .refl tables⟩
      cases opened with
      | error error => exact hsame
      | ok transaction =>
          obtain ⟨later, hlater, hgrows⟩ :=
            work.grows strike transaction ((hopened transaction rfl).trans h)
          dsimp only
          cases hrun : work.run strike transaction with
          | mk result ran =>
              rw [hrun] at hlater
              cases result with
              | error error => exact hsame
              | ok value =>
                  have hcommit := begun.commit_tables strike mode ran
                  dsimp only
                  cases hended : begun.commit strike mode ran with
                  | mk committed ended =>
                      rw [hended] at hcommit
                      have hafter : ∃ later, ended.tables = some later ∧ tables.Grows later := by
                        obtain hcommit | hcommit := hcommit
                        · exact ⟨tables, hcommit.trans (hkept.trans h), .refl tables⟩
                        · exact ⟨later, hcommit.trans hlater, hgrows⟩
                      cases committed with
                      | error error => exact hafter
                      | ok _ => exact hafter

end Database

theorem serve_grows (request : Request) (db : Database φ) {tables : Tables}
    (h : db.tables = some tables) :
    ∃ later, (serve strike request db).2.tables = some later ∧ tables.Grows later := by
  rw [serve]
  cases transaction request with
  | error error => exact ⟨tables, h, .refl tables⟩
  | ok work => exact db.transact_grows strike work.1 work.2 h

/-- Rows are never deleted, whatever is asked and whatever the server refuses. -/
theorem after_grows (requests : List Request) (db : Database φ) {tables : Tables}
    (h : db.tables = some tables) :
    ∃ later, (Server.after (serve strike) requests db).tables = some later ∧
      tables.Grows later := by
  induction requests generalizing db tables with
  | nil => exact ⟨tables, h, .refl tables⟩
  | cons request rest ih =>
      obtain ⟨middle, hmiddle, hfirst⟩ := serve_grows strike request db h
      obtain ⟨later, hlater, hrest⟩ := ih _ hmiddle
      exact ⟨later, hlater, hfirst.trans hrest⟩

end Faults

end ParcelDesk.Relational
