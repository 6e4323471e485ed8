import ParcelDesk.Relational.Store

namespace ParcelDesk.Relational

namespace Work

/-- What comes of a work on some tables when the server refuses nothing for reasons of its own: a
result, and the tables then, unless the last statement was refused. -/
inductive Runs : Work α → Tables → Except Error α → Option Tables → Prop
  | done {value : α} {tables : Tables} : Runs (.done value) tables (.ok value) (some tables)
  | fail {error : Error} {tables : Tables} :
      Runs (.fail error) tables (.error error) (some tables)
  | send {statement : Statement} {next : Except ServerError statement.Answer → Work α}
      {tables after : Tables} {answer : statement.Answer} {result : Except Error α}
      {final : Option Tables} (hact : statement.act tables = .ok (answer, after))
      (h : Runs (next (.ok answer)) after result final) :
      Runs (.send statement next) tables result final
  | refused {statement : Statement} {next : Except ServerError statement.Answer → Work α}
      {tables : Tables} {refusal : ServerError} {error : Error}
      (hact : statement.act tables = .error refusal) (h : next (.error refusal) = .fail error) :
      Runs (.send statement next) tables (.error error) none

namespace Runs

variable {work : Work α} {tables after : Tables} {final : Option Tables}

theorem bind {value : α} {next : α → Work β} {result : Except Error β}
    (h : work.Runs tables (.ok value) (some after))
    (hnext : (next value).Runs after result final) :
    (work >>= next).Runs tables result final := by
  change (work.bind next).Runs tables result final
  generalize hok : Except.ok value = reply at h
  generalize hafter : some after = left at h
  induction h with
  | done =>
      cases hok
      cases hafter
      exact hnext
  | fail => cases hok
  | send hact h ih => exact .send hact (ih hok hafter)
  | refused hact h => cases hafter

theorem bind_error {error : Error} {next : α → Work β}
    (h : work.Runs tables (.error error) final) :
    (work >>= next).Runs tables (.error error) final := by
  change (work.bind next).Runs tables (.error error) final
  generalize herror : Except.error error = reply at h
  induction h with
  | done => cases herror
  | fail =>
      cases herror
      exact .fail
  | send hact h ih => exact .send hact (ih herror)
  | refused hact h =>
      cases herror
      refine .refused hact ?_
      rw [h]
      rfl

theorem map (f : α → β) {result : Except Error α} (h : work.Runs tables result (some after)) :
    (f <$> work).Runs tables (result.map f) (some after) := by
  change (work >>= fun value => pure (f value)).Runs _ _ _
  cases result with
  | ok value => exact h.bind .done
  | error error => exact h.bind_error

theorem attempt {result : Except Error α} (h : work.Runs tables result (some after)) :
    work.attempt.Runs tables (.ok result) (some after) := by
  generalize hafter : some after = left at h
  induction h with
  | done =>
      cases hafter
      exact .done
  | fail =>
      cases hafter
      exact .done
  | send hact h ih => exact .send hact (ih hafter)
  | refused hact h => cases hafter

theorem run_eq {result : Except Error α} (h : work.Runs tables result final) :
    ∃ transaction : Transaction Unit,
      work.run Faults.never ⟨some tables, false, ()⟩ = (result, transaction) ∧
        ∀ after, final = some after → transaction = ⟨some after, false, ()⟩ := by
  induction h with
  | done =>
      refine ⟨_, rfl, ?_⟩
      rintro after ⟨⟩
      rfl
  | fail =>
      refine ⟨_, rfl, ?_⟩
      rintro after ⟨⟩
      rfl
  | @send statement next tables after answer result final hact h ih =>
      have hanswer : Transaction.answer Faults.never statement ⟨some tables, false, ()⟩ =
          (.ok answer, ⟨some after, false, ()⟩) := by
        simp [Transaction.answer, Faults.never, hact]
      rw [run, hanswer]
      exact ih
  | @refused statement next tables refusal error hact h =>
      have hanswer : Transaction.answer Faults.never statement ⟨some tables, false, ()⟩ =
          (.error refusal, ⟨some tables, true, ()⟩) := by
        simp [Transaction.answer, Faults.never, hact, Transaction.abort]
      rw [run, hanswer]
      simp only [h]
      refine ⟨_, rfl, ?_⟩
      intro after hafter
      cases hafter

end Runs

theorem runs_query {statement : Statement} {tables after : Tables}
    {answer : statement.Answer} (h : statement.act tables = .ok (answer, after)) :
    (query statement).Runs tables (.ok answer) (some after) :=
  .send h .done

end Work

namespace Database

variable {work : Work α} {tables after : Tables} {ended : List Ended}

theorem start_never (tables : Tables) (ended : List Ended) :
    start Faults.never ⟨some tables, (), ended⟩ =
      (.ok ⟨some tables, false, ()⟩, ⟨some tables, (), ended⟩) := rfl

theorem transact_of_ok {value : α} (h : work.Runs tables (.ok value) (some after))
    (mode : Mode) :
    transact Faults.never mode work ⟨some tables, (), ended⟩ =
      (.ok value, ⟨some after, (), ended ++ [⟨mode, true⟩]⟩) := by
  obtain ⟨transaction, hrun, hafter⟩ := h.run_eq
  rw [hafter after rfl] at hrun
  simp only [transact, start_never, hrun]
  rfl

/-- A work that fails leaves the tables as they were. -/
theorem transact_of_error {error : Error} {final : Option Tables}
    (h : work.Runs tables (.error error) final) (mode : Mode) :
    transact Faults.never mode work ⟨some tables, (), ended⟩ =
      (.error error, ⟨some tables, (), ended ++ [⟨mode, false⟩]⟩) := by
  obtain ⟨transaction, hrun, -⟩ := h.run_eq
  simp only [transact, start_never, hrun]
  rfl

end Database

end ParcelDesk.Relational
