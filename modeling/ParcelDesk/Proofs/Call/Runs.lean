import ParcelDesk.Desk

namespace ParcelDesk

namespace Call

variable {σ : Type} {serve : Server σ} {time : Instant} {before middle after : σ}

inductive Yields (serve : Server σ) (time : Instant) : Call α → σ → α → σ → Prop
  | done {value : α} {state : σ} : Yields serve time (.done value) state value state
  | readClock {next : Instant → Call α} {before : σ} {value : α} {after : σ}
      (h : Yields serve time (next time) before value after) :
      Yields serve time (.readClock next) before value after
  | announce {kind : Status} {ids : List UInt64} {error : Option String} {call : Call α}
      {before : σ} {value : α} {after : σ} (h : Yields serve time call before value after) :
      Yields serve time (.announce kind ids error call) before value after
  | answered {request : Request} {next : Except Error request.Answer → Call α}
      {answer : request.Answer} {before middle : σ} {value : α} {after : σ}
      (hserve : serve request before = (.ok answer, middle))
      (h : Yields serve time (next (.ok answer)) middle value after) :
      Yields serve time (.ask request next) before value after
  | refused {request : Request} {next : Except Error request.Answer → Call α}
      {error : Error} {before middle : σ} {value : α} {after : σ}
      (hserve : serve request before = (Reply.fail error, middle))
      (h : Yields serve time (next (.error error)) middle value after) :
      Yields serve time (.ask request next) before value after

namespace Yields

variable {call : Call α} {value : α}

theorem run_eq (h : call.Yields serve time before value after) :
    (call.run serve time before).reply = .ok value ∧
      (call.run serve time before).state = after := by
  induction h with
  | done => exact ⟨rfl, rfl⟩
  | readClock h ih => exact ih
  | announce h ih => exact ih
  | answered hserve h ih =>
      rw [run, hserve]
      exact ih
  | refused hserve h ih =>
      rw [run, hserve]
      exact ih

theorem bind {next : α → Call β} {result : β}
    (h : call.Yields serve time before value middle)
    (hnext : (next value).Yields serve time middle result after) :
    (call >>= next).Yields serve time before result after := by
  change (call.bind next).Yields serve time before result after
  induction h with
  | done => exact hnext
  | readClock h ih => exact .readClock (ih hnext)
  | announce h ih => exact .announce (ih hnext)
  | answered hserve h ih => exact .answered hserve (ih hnext)
  | refused hserve h ih => exact .refused hserve (ih hnext)

/-- However what follows ends, the whole ends so. -/
theorem run_bind (h : call.Yields serve time before value after) (next : α → Call β) :
    ((call >>= next).run serve time before).reply = ((next value).run serve time after).reply ∧
      ((call >>= next).run serve time before).state =
        ((next value).run serve time after).state := by
  change ((call.bind next).run serve time before).reply = _ ∧
    ((call.bind next).run serve time before).state = _
  induction h with
  | done => exact ⟨rfl, rfl⟩
  | readClock h ih => exact ih
  | announce h ih => exact ih
  | answered hserve h ih =>
      rw [Call.bind, run, hserve]
      exact ih
  | refused hserve h ih =>
      rw [Call.bind, run, hserve]
      exact ih

theorem attempt (h : call.Yields serve time before value after) :
    call.attempt.Yields serve time before (.ok value) after := by
  induction h with
  | done => exact .done
  | readClock h ih => exact .readClock ih
  | announce h ih => exact .announce ih
  | answered hserve h ih => exact .answered hserve ih
  | refused hserve h ih => exact .refused hserve ih

theorem announced (h : call.Yields serve time before value after) (kind : Status)
    (ids : List UInt64) :
    (Desk.announced kind ids call).Yields serve time before value after :=
  h.attempt.bind (.announce .done)

end Yields

end Call

end ParcelDesk
