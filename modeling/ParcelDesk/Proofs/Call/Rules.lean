import ParcelDesk.Desk
import ParcelDesk.Proofs.Call.Steps

namespace ParcelDesk

/-! The rules under which calls work side by side on the same stores: what always holds of the
stores, how they may change between two steps of a call, and what a call may ask of them. -/

structure Rules {σ : Type} (serve : Server σ) where
  holds : σ → Prop
  grows : σ → σ → Prop
  allows : σ → Request → Prop
  grows_refl : ∀ state, grows state state
  grows_trans : ∀ {first second third}, grows first second → grows second third →
    grows first third
  kept : ∀ {state request}, holds state → allows state request →
    holds (serve request state).2 ∧ grows state (serve request state).2

/-- What a call has read off the clock and changed so far. -/
structure Diary (σ : Type) where
  looks : List Instant := []
  mutations : List (Mutation σ) := []

namespace Diary

variable {σ : Type}

def look (diary : Diary σ) (time : Instant) : Diary σ :=
  { diary with looks := diary.looks ++ [time] }

def note (diary : Diary σ) (request : Request) (before after : σ) : Diary σ :=
  if request.changes then
    { diary with mutations := diary.mutations ++ [⟨request, before, after⟩] }
  else diary

theorem note_of_read {request : Request} (h : request.changes = false) (diary : Diary σ)
    (before after : σ) : diary.note request before after = diary := by
  rw [note, h]
  rfl

theorem note_of_change {request : Request} (h : request.changes = true) (diary : Diary σ)
    (before after : σ) :
    diary.note request before after =
      { diary with mutations := diary.mutations ++ [⟨request, before, after⟩] } := by
  rw [note, if_pos h]

end Diary

namespace Call

variable {σ : Type} {serve : Server σ}

/-- A call keeps to the rules and ends as promised: it asks only what is allowed, whatever others
have done to the stores before each of its requests, and what it has replied, left and done once it
ends is as `post` tells. -/
inductive Keeps (rules : Rules serve) (post : Reply α → σ → Diary σ → Prop) :
    Call α → σ → Diary σ → Prop
  | done {value : α} {state : σ} {diary : Diary σ} (h : post (.ok value) state diary) :
      Keeps rules post (.done value) state diary
  | fail {error : Error} {state : σ} {diary : Diary σ}
      (h : post (Reply.fail error) state diary) :
      Keeps rules post (.fail error) state diary
  | crash {cause : Crash} {state : σ} {diary : Diary σ}
      (h : post (.error (.crash cause)) state diary) :
      Keeps rules post (.crash cause) state diary
  | readClock {next : Instant → Call α} {state : σ} {diary : Diary σ}
      (h : ∀ time, Keeps rules post (next time) state (diary.look time)) :
      Keeps rules post (.readClock next) state diary
  | announce {kind : Status} {ids : List UInt64} {error : Option String} {next : Call α}
      {state : σ} {diary : Diary σ} (h : Keeps rules post next state diary) :
      Keeps rules post (.announce kind ids error next) state diary
  | ask {request : Request} {next : Except Error request.Answer → Call α} {state : σ}
      {diary : Diary σ}
      (hallows : ∀ later, rules.holds later → rules.grows state later →
        rules.allows later request)
      (hok : ∀ later after answer, rules.holds later → rules.grows state later →
        serve request later = (.ok answer, after) →
          Keeps rules post (next (.ok answer)) after (diary.note request later after))
      (hfail : ∀ later after error, rules.holds later → rules.grows state later →
        serve request later = (Reply.fail error, after) →
          Keeps rules post (next (.error error)) after diary)
      (hcrash : ∀ later after cause, rules.holds later → rules.grows state later →
        serve request later = (.error (.crash cause), after) →
          post (.error (.crash cause)) after diary) :
      Keeps rules post (.ask request next) state diary

namespace Keeps

variable {rules : Rules serve} {post : Reply α → σ → Diary σ → Prop} {call : Call α}
  {state : σ} {diary : Diary σ}

theorem later (h : call.Keeps rules post state diary)
    (hstable : ∀ reply state later diary,
      post reply state diary → rules.grows state later → post reply later diary)
    {after : σ} (hgrows : rules.grows state after) :
    call.Keeps rules post after diary := by
  induction h with
  | done h => exact .done (hstable _ _ _ _ h hgrows)
  | fail h => exact .fail (hstable _ _ _ _ h hgrows)
  | crash h => exact .crash (hstable _ _ _ _ h hgrows)
  | readClock h ih => exact .readClock fun time => ih time hgrows
  | announce h ih => exact .announce (ih hgrows)
  | ask hallows hok hfail hcrash ihok ihfail =>
      apply Keeps.ask
      · intro later hholds hlater
        exact hallows later hholds (rules.grows_trans hgrows hlater)
      · intro later after answer hholds hlater
        exact hok later after answer hholds (rules.grows_trans hgrows hlater)
      · intro later after error hholds hlater
        exact hfail later after error hholds (rules.grows_trans hgrows hlater)
      · intro later after cause hholds hlater
        exact hcrash later after cause hholds (rules.grows_trans hgrows hlater)

theorem remember (h : call.Keeps rules post state diary) {start : σ}
    (hstart : rules.grows start state) :
    call.Keeps rules (fun reply final diary => rules.grows start final ∧ post reply final diary)
      state diary := by
  induction h with
  | done h => exact .done ⟨hstart, h⟩
  | fail h => exact .fail ⟨hstart, h⟩
  | crash h => exact .crash ⟨hstart, h⟩
  | readClock h ih => exact .readClock fun time => ih time hstart
  | announce h ih => exact .announce (ih hstart)
  | @ask request next state diary hallows hok hfail hcrash ihok ihfail =>
      have hafter : ∀ later, rules.holds later → rules.grows state later →
          rules.grows start (serve request later).2 := by
        intro later hholds hlater
        have hkept := rules.kept hholds (hallows later hholds hlater)
        exact rules.grows_trans hstart (rules.grows_trans hlater hkept.2)
      refine .ask hallows ?_ ?_ ?_
      · intro later after answer hholds hlater hserve
        have hgrows := hafter later hholds hlater
        rw [hserve] at hgrows
        exact ihok later after answer hholds hlater hserve hgrows
      · intro later after error hholds hlater hserve
        have hgrows := hafter later hholds hlater
        rw [hserve] at hgrows
        exact ihfail later after error hholds hlater hserve hgrows
      · intro later after cause hholds hlater hserve
        have hgrows := hafter later hholds hlater
        rw [hserve] at hgrows
        exact ⟨hgrows, hcrash later after cause hholds hlater hserve⟩

theorem weaken {weaker : Reply α → σ → Diary σ → Prop} (h : call.Keeps rules post state diary)
    (hweaker : ∀ reply state diary, post reply state diary → weaker reply state diary) :
    call.Keeps rules weaker state diary := by
  induction h with
  | done h => exact .done (hweaker _ _ _ h)
  | fail h => exact .fail (hweaker _ _ _ h)
  | crash h => exact .crash (hweaker _ _ _ h)
  | readClock h ih => exact .readClock ih
  | announce h ih => exact .announce ih
  | ask hallows hok hfail hcrash ihok ihfail =>
      exact .ask hallows ihok ihfail fun later after cause hholds hlater hserve =>
        hweaker _ _ _ (hcrash later after cause hholds hlater hserve)

theorem bind {first : Reply α → σ → Diary σ → Prop} {post : Reply β → σ → Diary σ → Prop}
    {next : α → Call β} (h : call.Keeps rules first state diary)
    (hnext : ∀ value state diary, first (.ok value) state diary →
      (next value).Keeps rules post state diary)
    (hstop : ∀ stop state diary, first (.error stop) state diary →
      post (.error stop) state diary) :
    (call >>= next).Keeps rules post state diary := by
  change (call.bind next).Keeps rules post state diary
  induction h with
  | done h => exact hnext _ _ _ h
  | fail h => exact .fail (hstop _ _ _ h)
  | crash h => exact .crash (hstop _ _ _ h)
  | readClock h ih => exact .readClock ih
  | announce h ih => exact .announce ih
  | ask hallows hok hfail hcrash ihok ihfail =>
      refine .ask hallows ihok ihfail ?_
      intro later after cause hholds hlater hserve
      exact hstop _ _ _ (hcrash later after cause hholds hlater hserve)

theorem map {f : α → β} {post : Reply β → σ → Diary σ → Prop}
    (h : call.Keeps rules (fun reply state diary => post (reply.map f) state diary) state diary) :
    (call >>= fun value => pure (f value)).Keeps rules post state diary :=
  h.bind (fun _ _ _ hpost => .done hpost) (fun _ _ _ hpost => hpost)

/-- A call that keeps to the rules still does after its next step. -/
theorem advance (h : call.Keeps rules post state diary) (hholds : rules.holds state)
    (time : Instant) :
    (call.advance serve time state).1.Keeps rules post (call.advance serve time state).2
      ⟨diary.looks ++ call.looks time, diary.mutations ++ call.mutations serve state⟩ := by
  cases h with
  | done h =>
      simp only [advance, looks, mutations, List.append_nil]
      exact .done h
  | fail h =>
      simp only [advance, looks, mutations, List.append_nil]
      exact .fail h
  | crash h =>
      simp only [advance, looks, mutations, List.append_nil]
      exact .crash h
  | readClock h =>
      simp only [advance, looks, mutations, List.append_nil]
      exact h time
  | announce h =>
      simp only [advance, looks, mutations, List.append_nil]
      exact h
  | @ask request next state diary hallows hok hfail hcrash =>
      have hgrows := rules.grows_refl state
      simp only [looks, mutations, List.append_nil]
      rcases hserve : serve request state with ⟨reply, after⟩
      cases reply with
      | ok answer =>
          rw [advance_ask_ok hserve]
          have hnext := hok state after answer hholds hgrows hserve
          rw [Diary.note] at hnext
          simp only
          split
          · rw [if_pos ‹_›] at hnext
            exact hnext
          · rw [if_neg ‹_›] at hnext
            rw [List.append_nil]
            exact hnext
      | error stop =>
          rw [List.append_nil]
          cases stop with
          | error error =>
              rw [advance_ask_fail hserve]
              exact hfail state after error hholds hgrows hserve
          | crash cause =>
              rw [advance_ask_crash hserve]
              exact .crash (hcrash state after cause hholds hgrows hserve)

theorem kept (h : call.Keeps rules post state diary) (hholds : rules.holds state)
    (time : Instant) :
    rules.holds (call.advance serve time state).2 ∧
      rules.grows state (call.advance serve time state).2 := by
  have hsame := rules.grows_refl state
  cases h with
  | done | fail | crash | readClock | announce => exact ⟨hholds, hsame⟩
  | @ask request next state diary hallows hok hfail hcrash =>
      have hkept := rules.kept hholds (hallows state hholds hsame)
      rcases hserve : serve request state with ⟨reply, after⟩
      rw [hserve] at hkept
      cases reply with
      | ok answer =>
          rw [advance_ask_ok hserve]
          exact hkept
      | error stop =>
          cases stop with
          | error error =>
              rw [advance_ask_fail hserve]
              exact hkept
          | crash cause =>
              rw [advance_ask_crash hserve]
              exact hkept

/-- A call can always come to an end, and what it has changed so far stays in its diary. -/
theorem exists_end (h : call.Keeps rules post state diary) (hholds : rules.holds state)
    (time : Instant) :
    ∃ reply final last, post reply final last ∧
      diary.mutations <+: last.mutations := by
  induction h with
  | @done value state diary h => exact ⟨_, state, diary, h, List.prefix_rfl⟩
  | @fail error state diary h => exact ⟨_, state, diary, h, List.prefix_rfl⟩
  | @crash cause state diary h => exact ⟨_, state, diary, h, List.prefix_rfl⟩
  | readClock h ih => exact ih time hholds
  | announce h ih => exact ih hholds
  | @ask request next state diary hallows hok hfail hcrash ihok ihfail =>
      have hgrows := rules.grows_refl state
      have hkept := (rules.kept hholds (hallows state hholds hgrows)).1
      rcases hserve : serve request state with ⟨reply, after⟩
      rw [hserve] at hkept
      cases reply with
      | ok answer =>
          obtain ⟨reply, final, last, hpost, hsofar⟩ :=
            ihok state after answer hholds hgrows hserve hkept
          refine ⟨reply, final, last, hpost, List.IsPrefix.trans ?_ hsofar⟩
          rw [Diary.note]
          split
          · exact List.prefix_append _ _
          · exact List.prefix_rfl
      | error stop =>
          cases stop with
          | error error => exact ihfail state after error hholds hgrows hserve hkept
          | crash cause =>
              exact ⟨_, after, diary, hcrash state after cause hholds hgrows hserve,
                List.prefix_rfl⟩

theorem announced (h : call.Keeps rules post state diary) (kind : Status)
    (ids : List UInt64) :
    (Desk.announced kind ids call).Keeps rules post state diary := by
  change (call.attempt.bind _).Keeps rules post state diary
  induction h with
  | done h => exact .announce (.done h)
  | @fail error state diary h =>
      change (if error.isServiceError then Call.announce kind ids (some error.message)
        (.fail error) else .fail error).Keeps rules post state diary
      split
      · exact .announce (.fail h)
      · exact .fail h
  | crash h => exact .crash h
  | readClock h ih => exact .readClock ih
  | announce h ih => exact .announce ih
  | ask hallows hok hfail hcrash ihok ihfail => exact .ask hallows ihok ihfail hcrash

end Keeps

/-! How requests and looks at the clock go on with what follows. -/

theorem now_bind (next : Instant → Call α) : (now >>= next) = .readClock next := rfl

theorem request_bind (request : Request) (next : request.Answer → Call α) :
    (Call.request request >>= next) = .ask request fun
      | .ok answer => next answer
      | .error error => .fail error := by
  change Call.ask request _ = _
  congr 1
  funext answer
  cases answer <;> rfl

theorem attempt_request_bind (request : Request)
    (next : Except Error request.Answer → Call α) :
    ((Call.request request).attempt >>= next) = .ask request next := by
  change Call.ask request _ = _
  congr 1
  funext answer
  cases answer <;> rfl

theorem run_request_ok {request : Request} {answer : request.Answer} {time : Instant}
    {state after : σ} (h : serve request state = (.ok answer, after))
    (next : request.Answer → Call α) :
    (Call.request request >>= next).run serve time state = (next answer).run serve time after := by
  rw [request_bind, run, h]

theorem run_request_fail {request : Request} {error : Error} {time : Instant} {state after : σ}
    (h : serve request state = (Reply.fail error, after)) (next : request.Answer → Call α) :
    (Call.request request >>= next).run serve time state = ⟨Reply.fail error, after, []⟩ := by
  rw [request_bind, run, h]
  rfl

end Call

end ParcelDesk
