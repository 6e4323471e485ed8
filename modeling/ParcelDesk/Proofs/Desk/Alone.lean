import ParcelDesk.Proofs.Call.Clock
import ParcelDesk.Proofs.Desk.Counter

namespace ParcelDesk

/-! A call that nobody disturbs, whatever the clock tells it meanwhile. -/

/-- It makes its changes one right after the other and ends as it promised. -/
theorem Call.Keeps.runBy {post : Reply α → Stock → Diary Stock → Prop} {call : Call α}
    {stock : Stock} {diary : Diary Stock} (h : call.Keeps Desk.rules post stock diary)
    (hsettled : stock.Settled) (clock : Nat → Instant) :
    ∃ log, Chronicle stock log (call.runBy Stock.serve clock stock).state ∧
      post (call.runBy Stock.serve clock stock).reply
        (call.runBy Stock.serve clock stock).state
        ⟨diary.looks ++ call.looksBy Stock.serve clock stock, diary.mutations ++ log⟩ := by
  induction h generalizing clock with
  | @done value stock diary h =>
      refine ⟨[], .nil stock, ?_⟩
      simp only [looksBy, List.append_nil]
      exact h
  | @fail error stock diary h =>
      refine ⟨[], .nil stock, ?_⟩
      simp only [looksBy, List.append_nil]
      exact h
  | @crash cause stock diary h =>
      refine ⟨[], .nil stock, ?_⟩
      simp only [looksBy, List.append_nil]
      exact h
  | readClock h ih =>
      obtain ⟨log, hlog, hpost⟩ := ih (clock 0) hsettled fun look => clock (look + 1)
      refine ⟨log, hlog, ?_⟩
      rw [Diary.look, List.append_assoc] at hpost
      exact hpost
  | announce h ih => exact ih hsettled fun look => clock (look + 1)
  | @ask request next stock diary hallows hok hfail hcrash ihok ihfail =>
      have hgrows := Stock.Grows.refl stock
      have hproper : stock.Proper request := hallows stock hsettled hgrows
      obtain ⟨answer, after, hchanges, hchange, hserve⟩ | ⟨answer, hread, hserve⟩ |
        ⟨error, hserve⟩ := hsettled.serve_cases request
      · have hafter := (hsettled.change hproper hchange).1
        obtain ⟨log, hlog, hpost⟩ :=
          ihok stock after answer hsettled hgrows hserve hafter clock
        rw [Call.runBy_ask_ok hserve, Call.looksBy_ask_ok hserve]
        refine ⟨⟨request, stock, after⟩ :: log, .cons hsettled hproper hchange hlog, ?_⟩
        rw [Diary.note_of_change hchanges, List.append_assoc] at hpost
        exact hpost
      · rw [Call.runBy_ask_ok hserve, Call.looksBy_ask_ok hserve]
        have hnext := ihok stock stock answer hsettled hgrows hserve hsettled clock
        rw [Diary.note_of_read hread] at hnext
        exact hnext
      · rw [Call.runBy_ask_fail hserve, Call.looksBy_ask_fail hserve]
        exact ihfail stock stock error hsettled hgrows hserve hsettled clock

namespace Deed

/-- What becomes of a deed that nobody disturbs: it succeeds with its one change, or it leaves the
stock as it was. -/
inductive Comes (deed : Deed) (stock : Stock) : Reply Receipt → Stock → Prop
  | success {receipt : Receipt} {looks : List Instant} {request : Request} {after : Stock}
      (h : deed.Success receipt looks ⟨request, stock, after⟩) :
      Comes deed stock (.ok receipt) after
  | failure (stop : Stop) : Comes deed stock (.error stop) stock

/-- A deed that nobody disturbs succeeds with its one change, or leaves the stock as it was. -/
theorem ends_runBy (deed : Deed) {stock : Stock} (hsettled : stock.Settled)
    (clock : Nat → Instant) :
    (deed.call.runBy Stock.serve clock stock).state.Settled ∧
      ((∃ receipt request,
        (deed.call.runBy Stock.serve clock stock).reply = .ok receipt ∧
        deed.Success receipt (deed.call.looksBy Stock.serve clock stock)
          ⟨request, stock, (deed.call.runBy Stock.serve clock stock).state⟩) ∨
      ∃ stop, (deed.call.runBy Stock.serve clock stock).reply = .error stop ∧
        (deed.call.runBy Stock.serve clock stock).state = stock) := by
  obtain ⟨log, hlog, hends⟩ := (Desk.deed_ends deed stock).runBy hsettled clock
  refine ⟨hlog.settled_final hsettled, ?_⟩
  generalize (deed.call.runBy Stock.serve clock stock).state = final at hlog hends ⊢
  cases hreply : (deed.call.runBy Stock.serve clock stock).reply with
  | ok receipt =>
      rw [hreply] at hends
      obtain ⟨mutation, hone, hsuccess⟩ := hends
      have hlogOne : log = [mutation] := hone
      subst hlogOne
      cases hlog with
      | cons _ _ _ hrest =>
          cases hrest
          exact .inl ⟨receipt, _, rfl, hsuccess⟩
  | error stop =>
      rw [hreply] at hends
      have hnone : log = [] := hends.1
      subst hnone
      cases hlog
      exact .inr ⟨stop, rfl, rfl⟩

theorem comes (deed : Deed) {stock : Stock} (hsettled : stock.Settled)
    (clock : Nat → Instant) :
    (deed.call.runBy Stock.serve clock stock).state.Settled ∧
      deed.Comes stock (deed.call.runBy Stock.serve clock stock).reply
        (deed.call.runBy Stock.serve clock stock).state := by
  obtain ⟨hafter, ⟨receipt, request, hreply, hsuccess⟩ | ⟨stop, hreply, hstate⟩⟩ :=
    deed.ends_runBy hsettled clock
  · refine ⟨hafter, ?_⟩
    rw [hreply]
    exact .success hsuccess
  · refine ⟨hafter, ?_⟩
    rw [hreply, hstate]
    exact .failure stop

end Deed

end ParcelDesk
