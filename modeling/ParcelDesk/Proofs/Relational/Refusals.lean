import ParcelDesk.Relational.Store

/-!
# Refused statements

A server may refuse any statement of a transaction, and then refuses all that follow. A work heeds
refusals if it comes to no value once it has met one; then whatever is committed was carried out
from the first statement to the last. The checks of a batch are the exception: they go on after a
refusal, and tell it among their errors.
-/

namespace ParcelDesk.Relational

namespace Statement

def isWrite : Statement → Bool
  | .insertHistory .. | .setStatus .. | .insertSlot .. | .withdraw .. => true
  | .findHistory .. | .findStatus .. | .findLive .. | .hasUser .. | .position .. | .scanUser ..
  | .scanRefunds .. => false

/-- What statements make of the tables when they are carried out one after the other; the first
refusal ends it. -/
def replay : List Statement → Option Tables → Except ServerError (Option Tables)
  | [], tables => .ok tables
  | statement :: _, none => .error (.missingTable statement.table)
  | statement :: rest, some tables =>
      match statement.act tables with
      | .error error => .error error
      | .ok (_, tables) => replay rest (some tables)

end Statement

namespace Work

variable {φ : Type}

def sent (strike : Faults φ) : Work α → Transaction φ → List Statement
  | .done _, _ | .fail _, _ => []
  | .send statement next, transaction =>
      let (answer, transaction) := transaction.answer strike statement
      statement :: (next answer).sent strike transaction

/-- A work sends only statements of a kind, and comes to no values but those in `post`, which may
depend on whether a statement was refused. -/
inductive Heeds (kind : Statement → Prop) (post : Bool → α → Prop) : Bool → Work α → Prop where
  | done {refused : Bool} {value : α} (h : post refused value) :
      Heeds kind post refused (.done value)
  | fail {refused : Bool} {error : Error} : Heeds kind post refused (.fail error)
  | send {refused : Bool} {statement : Statement}
      {next : Except ServerError statement.Answer → Work α} (hkind : kind statement)
      (hok : ∀ answer, Heeds kind post refused (next (.ok answer)))
      (hrefused : ∀ error, Heeds kind post true (next (.error error))) :
      Heeds kind post refused (.send statement next)

def Unrefused (refused : Bool) (_ : α) : Prop := refused = false

namespace Heeds

variable {kind : Statement → Prop} {post : Bool → α → Prop} {refused : Bool} {work : Work α}

theorem bind {post : Bool → β → Prop} {first : Bool → α → Prop} {next : α → Work β}
    (h : Heeds kind first refused work)
    (hnext : ∀ refused value, first refused value → Heeds kind post refused (next value)) :
    Heeds kind post refused (work >>= next) := by
  change Heeds kind post refused (work.bind next)
  induction h with
  | done h => exact hnext _ _ h
  | fail => exact .fail
  | send hkind hok hrefused ihok ihrefused => exact .send hkind ihok ihrefused

theorem followed {post : Bool → β → Prop} {next : α → Work β}
    (h : Heeds kind Unrefused refused work)
    (hnext : ∀ value, Heeds kind post false (next value)) :
    Heeds kind post refused (work >>= next) :=
  h.bind fun refused value hclean => by
    rw [show refused = false from hclean]
    exact hnext value

theorem map {f : α → β} (h : Heeds kind Unrefused refused work) :
    Heeds kind Unrefused refused (f <$> work) :=
  h.followed fun _ => .done rfl

theorem attempt (h : Heeds kind post refused work) :
    Heeds kind (fun refused result => ∀ value, result = .ok value → post refused value) refused
      work.attempt := by
  induction h with
  | done h =>
      refine .done fun value hvalue => ?_
      cases hvalue
      exact h
  | fail => exact .done fun value hvalue => nomatch hvalue
  | send hkind hok hrefused ihok ihrefused => exact .send hkind ihok ihrefused

theorem heedless (h : Heeds kind post refused work) (earlier : Bool) :
    Heeds kind (fun _ _ => True) earlier work := by
  induction h generalizing earlier with
  | done h => exact .done True.intro
  | fail => exact .fail
  | send hkind hok hrefused ihok ihrefused =>
      exact .send hkind (fun answer => ihok answer earlier) fun error => ihrefused error true

theorem mono {wider : Statement → Prop} (h : Heeds kind post refused work)
    (hwider : ∀ statement, kind statement → wider statement) : Heeds wider post refused work := by
  induction h with
  | done h => exact .done h
  | fail => exact .fail
  | send hkind hok hrefused ihok ihrefused => exact .send (hwider _ hkind) ihok ihrefused

end Heeds

/-! ## What a work that heeds refusals does in a transaction -/

section Run

variable {strike : Faults φ} {kind : Statement → Prop} {post : Bool → α → Prop}

theorem run_send {statement : Statement} {next : Except ServerError statement.Answer → Work α}
    (strike : Faults φ) (transaction : Transaction φ) :
    (send statement next).run strike transaction =
      (next (transaction.answer strike statement).1).run strike
        (transaction.answer strike statement).2 := rfl

theorem sent_send {statement : Statement} {next : Except ServerError statement.Answer → Work α}
    (strike : Faults φ) (transaction : Transaction φ) :
    (send statement next).sent strike transaction =
      statement :: (next (transaction.answer strike statement).1).sent strike
        (transaction.answer strike statement).2 := rfl

/-- A statement of a transaction that goes on is carried out; otherwise it is refused, and the
transaction is ended by that. -/
theorem answer_cases (strike : Faults φ) (statement : Statement) {transaction : Transaction φ}
    (hgoing : transaction.aborted = false) :
    (∃ tables answer after, transaction.tables = some tables ∧
      statement.act tables = .ok (answer, after) ∧
      (transaction.answer strike statement).1 = .ok answer ∧
      (transaction.answer strike statement).2.tables = some after ∧
      (transaction.answer strike statement).2.aborted = false) ∨
    ∃ error, (transaction.answer strike statement).1 = .error error ∧
      (transaction.answer strike statement).2.aborted = true := by
  rw [Transaction.answer, if_neg (by rw [hgoing]; exact Bool.false_ne_true)]
  cases htables : transaction.tables with
  | none => exact .inr ⟨_, rfl, rfl⟩
  | some tables =>
      dsimp only
      rcases strike (.statement statement) transaction.faults with ⟨struck | error, faults⟩
      · dsimp only
        cases hact : statement.act tables with
        | error error => exact .inr ⟨_, rfl, rfl⟩
        | ok result =>
            obtain ⟨answer, after⟩ := result
            exact .inl ⟨tables, answer, after, rfl, hact, rfl, rfl, hgoing⟩
      · exact .inr ⟨_, rfl, rfl⟩

theorem answer_of_aborted (strike : Faults φ) (statement : Statement)
    {transaction : Transaction φ} (h : transaction.aborted = true) :
    transaction.answer strike statement = (.error .aborted, transaction) := by
  rw [Transaction.answer, if_pos h]

theorem aborted_run (strike : Faults φ) (work : Work α) {transaction : Transaction φ}
    (h : transaction.aborted = true) : (work.run strike transaction).2.aborted = true := by
  induction work with
  | done value => exact h
  | fail error => exact h
  | send statement next ih =>
      rw [run_send, answer_of_aborted strike statement h]
      exact ih (.error .aborted)

/-- Whether a statement was refused is what the transaction tells in the end. -/
theorem Heeds.run {work : Work α} {refused : Bool} (h : Heeds kind post refused work)
    {transaction : Transaction φ} (hrefused : transaction.aborted = refused) :
    (∀ statement ∈ work.sent strike transaction, kind statement) ∧
      ∀ value, (work.run strike transaction).1 = .ok value →
        post (work.run strike transaction).2.aborted value := by
  induction h generalizing transaction with
  | @done refused value h =>
      refine ⟨List.forall_mem_nil _, fun other hother => ?_⟩
      cases hother
      rw [Work.run, hrefused]
      exact h
  | fail => exact ⟨List.forall_mem_nil _, fun value hvalue => nomatch hvalue⟩
  | @send refused statement next hkind hok hfail ihok ihfail =>
      rw [sent_send, run_send, List.forall_mem_cons]
      suffices hnext : _ ∧ _ from ⟨⟨hkind, hnext.1⟩, hnext.2⟩
      cases refused with
      | true =>
          rw [answer_of_aborted strike statement hrefused]
          exact ihfail .aborted hrefused
      | false =>
          obtain ⟨_, answer, _, _, _, hanswer, _, hgoing⟩ | ⟨error, hanswer, haborted⟩ :=
            answer_cases strike statement hrefused
          · rw [hanswer]
            exact ihok answer hgoing
          · rw [hanswer]
            exact ihfail error haborted

theorem replay_sent (strike : Faults φ) (work : Work α) {transaction : Transaction φ}
    (h : (work.run strike transaction).2.aborted = false) :
    Statement.replay (work.sent strike transaction) transaction.tables =
      .ok (work.run strike transaction).2.tables := by
  induction work generalizing transaction with
  | done value => rfl
  | fail error => rfl
  | send statement next ih =>
      cases hgoing : transaction.aborted with
      | true =>
          rw [aborted_run strike _ hgoing] at h
          cases h
      | false =>
          rw [run_send] at h ⊢
          rw [sent_send]
          obtain ⟨tables, answer, after, htables, hact, hanswer, hafter, -⟩ |
            ⟨error, hanswer, haborted⟩ := answer_cases strike statement hgoing
          · rw [hanswer] at h ⊢
            rw [htables, Statement.replay, hact]
            dsimp only
            rw [← hafter]
            exact ih _ h
          · rw [aborted_run strike _ haborted] at h
            cases h

/-- A transaction of which no statement was refused goes as it does where the server refuses nothing
for reasons of its own. -/
theorem run_never (strike : Faults φ) (work : Work α) {transaction : Transaction φ}
    (h : (work.run strike transaction).2.aborted = false) :
    work.run Faults.never ⟨transaction.tables, false, ()⟩ =
      ((work.run strike transaction).1, ⟨(work.run strike transaction).2.tables, false, ()⟩) := by
  induction work generalizing transaction with
  | done value => rfl
  | fail error => rfl
  | send statement next ih =>
      cases hgoing : transaction.aborted with
      | true =>
          rw [aborted_run strike _ hgoing] at h
          cases h
      | false =>
          rw [run_send] at h ⊢
          rw [run_send]
          obtain ⟨tables, answer, after, htables, hact, hanswer, hafter, -⟩ |
            ⟨error, hanswer, haborted⟩ := answer_cases strike statement hgoing
          · have hplain : Transaction.answer Faults.never statement
                ⟨transaction.tables, false, ()⟩ = (.ok answer, ⟨some after, false, ()⟩) := by
              simp only [Transaction.answer, htables, Faults.never, hact, Bool.false_eq_true,
                if_false]
            rw [hplain, ← hafter]
            rw [hanswer] at h ⊢
            exact ih _ h
          · rw [aborted_run strike _ haborted] at h
            cases h

end Run

end Work

end ParcelDesk.Relational
