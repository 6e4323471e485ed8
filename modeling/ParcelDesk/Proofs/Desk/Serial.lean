import Mathlib.Data.List.Nodup
import ParcelDesk.Proofs.Desk.Lifecycle
import ParcelDesk.Proofs.Desk.Replay

namespace ParcelDesk

namespace Deed

/-- Does deeds one after the other, each alone, and tells their replies. -/
def inTurn (time : Instant) : List Deed → Stock → List (Reply Receipt) × Stock
  | [], stock => ([], stock)
  | deed :: rest, stock =>
      let ran := deed.call.run Stock.serve time stock
      let (replies, final) := inTurn time rest ran.state
      (ran.reply :: replies, final)

theorem inTurn_cons {time : Instant} {deed : Deed} {rest : List Deed} {stock middle final : Stock}
    {receipt : Receipt} {replies : List (Reply Receipt)}
    (h : deed.call.Yields Stock.serve time stock receipt middle)
    (hrest : inTurn time rest middle = (replies, final)) :
    inTurn time (deed :: rest) stock = (.ok receipt :: replies, final) := by
  obtain ⟨hreply, hstate⟩ := h.run_eq
  rw [inTurn, hstate, hreply]
  simp only
  rw [hrest]

theorem Success.given {deed : Deed} {ids : List UInt64}
    {looks : List Instant} {mutation : Mutation Stock}
    (h : deed.Success (.given ids) looks mutation) :
    deed.stage = .issuedToClient ∧ ∀ id, id ∈ ids ↔ id ∈ deed.ids := by
  cases h with
  | give hsome hready => exact ⟨rfl, fun id => mem_distinct⟩

end Deed

namespace Counter

/-- Deeds begun side by side, whose calls take a step each time it is their turn, while the clock
stands still. -/
def together (stock : Stock) (time : Instant) (deeds : List Deed) (turns : List Nat) : Counter :=
  (opened stock).run (deeds.map .enter ++ turns.map (.advance · time))

/-! Deeds done side by side come to the same as the successful ones of them done one after the
other, in the order in which they made their changes. -/

structure Serial (stock : Stock) (time : Instant) (deeds : List Deed) (counter : Counter)
    (order : List Nat) : Prop where
  nodup : order.Nodup
  mem_iff : ∀ number, number ∈ order ↔
    ∃ receipt, counter.reply? number = some (.ok receipt)
  inTurn_eq : Deed.inTurn time (order.filterMap (deeds[·]?)) stock =
    (order.filterMap counter.reply?, counter.stock)
  given_once : ∀ first second ids others, first ≠ second →
    counter.reply? first = some (.ok (.given ids)) →
      counter.reply? second = some (.ok (.given others)) → ∀ id ∈ ids, id ∉ others
  given_or_unclaimed : ∀ first second ids id mutation,
    counter.reply? first = some (.ok (.given ids)) → id ∈ ids →
      deeds[second]? = some (.sendBack id) → (second, mutation) ∈ counter.ledger →
        ∀ record, mutation.before.history.get? id = some record → record.status ≠ .accepted

variable {start : Stock} {counter : Counter}

theorem reply?_eq_some {number : Nat} {reply : Reply Receipt} :
    counter.reply? number = some reply ↔
      ∃ visit, counter.visits[number]? = some visit ∧ visit.left.reply? = some reply :=
  Option.bind_eq_some_iff

theorem deeds_goOn {number : Nat} {visit : Visit}
    (hvisit : counter.visits[number]? = some visit) (time : Instant) :
    (counter.goOn number visit time).visits.map Visit.deed = counter.visits.map Visit.deed := by
  rw [goOn, List.map_set]
  apply List.ext_getElem?
  intro key
  rw [List.getElem?_set]
  split
  · rename_i hkey
    subst hkey
    have hlength := (List.getElem?_eq_some_iff.1 hvisit).1
    rw [List.length_map, if_pos hlength, List.getElem?_map, hvisit, Option.map_some]
  · rfl

theorem deeds_advance (number : Nat) (time : Instant) :
    (counter.step (.advance number time)).visits.map Visit.deed =
      counter.visits.map Visit.deed := by
  cases hvisit : counter.visits[number]? with
  | none => rw [step_advance_none hvisit]
  | some visit => rw [step_advance_some hvisit, deeds_goOn hvisit]

theorem deeds_run_enter (deeds : List Deed) (counter : Counter) :
    (counter.run (deeds.map .enter)).visits.map Visit.deed =
      counter.visits.map Visit.deed ++ deeds := by
  induction deeds generalizing counter with
  | nil => exact (List.append_nil _).symm
  | cons deed rest ih =>
      rw [List.map_cons, run_cons, ih, step, List.map_append, List.append_assoc]
      rfl

theorem deeds_run_advance (turns : List Nat) (time : Instant) (counter : Counter) :
    (counter.run (turns.map (.advance · time))).visits.map Visit.deed =
      counter.visits.map Visit.deed := by
  induction turns generalizing counter with
  | nil => rfl
  | cons number rest ih => rw [List.map_cons, run_cons, ih, deeds_advance]

theorem deeds_together (stock : Stock) (time : Instant) (deeds : List Deed)
    (turns : List Nat) :
    (together stock time deeds turns).visits.map Visit.deed = deeds := by
  rw [together, run_append, deeds_run_advance, deeds_run_enter]
  rfl

/-- Every visit has read the same moment off the clock, each time it looked. -/
def Still (time : Instant) (counter : Counter) : Prop :=
  ∀ visit ∈ counter.visits, ∀ look ∈ visit.looks, look = time

theorem Still.enter {time : Instant} (h : counter.Still time) (deed : Deed) :
    (counter.step (.enter deed)).Still time := by
  intro visit hvisit look hlook
  cases List.mem_append.1 hvisit with
  | inl hold => exact h visit hold look hlook
  | inr hnew =>
      cases List.mem_singleton.1 hnew
      cases hlook

theorem Still.advance {time : Instant} (h : counter.Still time) (number : Nat) :
    (counter.step (.advance number time)).Still time := by
  cases hvisit : counter.visits[number]? with
  | none =>
      rw [step_advance_none hvisit]
      exact h
  | some visit =>
      rw [step_advance_some hvisit]
      intro other hother look hlook
      cases List.mem_or_eq_of_mem_set hother with
      | inl hold => exact h other hold look hlook
      | inr hnew =>
          subst hnew
          cases List.mem_append.1 hlook with
          | inl hold => exact h visit (List.mem_of_getElem? hvisit) look hold
          | inr hlast => exact Call.eq_of_mem_looks hlast

theorem still_together (stock : Stock) (time : Instant) (deeds : List Deed)
    (turns : List Nat) : (together stock time deeds turns).Still time := by
  have hentered : ∀ counter : Counter, counter.Still time →
      (counter.run (deeds.map .enter)).Still time := by
    induction deeds with
    | nil => exact fun _ hstill => hstill
    | cons deed rest ih => exact fun _ hstill => ih _ (hstill.enter deed)
  have hadvanced : ∀ counter : Counter, counter.Still time →
      (counter.run (turns.map (.advance · time))).Still time := by
    induction turns with
    | nil => exact fun _ hstill => hstill
    | cons number rest ih => exact fun _ hstill => ih _ (hstill.advance number)
  rw [together, run_append]
  exact hadvanced _ (hentered _ fun visit hvisit => nomatch hvisit)

/-- Replaying the changes of the ledger: each deed makes its change again. -/
theorem inTurn_ledger {time : Instant} {deed? : Nat → Option Deed}
    {reply? : Nat → Option (Reply Receipt)} {ledger : List (Nat × Mutation Stock)}
    {stock final : Stock} (hchronicle : Chronicle stock (ledger.map Prod.snd) final)
    (hdone : ∀ entry ∈ ledger, ∃ deed receipt looks, deed? entry.1 = some deed ∧
      reply? entry.1 = some (.ok receipt) ∧ deed.Success receipt looks entry.2 ∧
        ∀ look ∈ looks, look = time) :
    Deed.inTurn time ((ledger.map Prod.fst).filterMap deed?) stock =
      ((ledger.map Prod.fst).filterMap reply?, final) := by
  induction ledger generalizing stock with
  | nil =>
      cases hchronicle
      rfl
  | cons entry rest ih =>
      obtain ⟨number, mutation⟩ := entry
      obtain ⟨deed, receipt, looks, hdeed, hreply, hsuccess, hstill⟩ :=
        hdone (number, mutation) List.mem_cons_self
      cases hchronicle with
      | cons hsettled hproper hchange hrest =>
          have hyields := hsuccess.yields hsettled hstill
          have hlater := ih hrest fun other hother => hdone other (List.mem_cons_of_mem _ hother)
          rw [List.map_cons, List.filterMap_cons_some hdeed, List.filterMap_cons_some hreply]
          exact Deed.inTurn_cons hyields hlater

theorem Kept.nodup (h : Kept start counter) : (counter.ledger.map Prod.fst).Nodup := by
  rw [List.nodup_iff_count_le_one]
  intro number
  have hcount : (counter.ledger.map Prod.fst).count number =
      (counter.changesOf number).length := by
    rw [List.count, List.countP_map, changesOf, List.length_map, List.countP_eq_length_filter]
    rfl
  rw [hcount]
  cases hchanges : counter.changesOf number with
  | nil => exact Nat.zero_le 1
  | cons mutation rest =>
      have hmem : (number, mutation) ∈ counter.ledger := by
        rw [← mem_changesOf, hchanges]
        exact List.mem_cons_self
      obtain ⟨-, -, hone, -⟩ := h.success hmem
      rw [hchanges] at hone
      rw [hone]
      exact Nat.le_refl 1

theorem Kept.replied (h : Kept start counter)
    (hended : ∀ visit ∈ counter.visits, visit.left.reply?.isSome = true)
    {number : Nat} {mutation : Mutation Stock} (hmem : (number, mutation) ∈ counter.ledger) :
    ∃ visit receipt, counter.visits[number]? = some visit ∧
      visit.left.reply? = some (.ok receipt) ∧
        visit.deed.Success receipt visit.looks mutation := by
  obtain ⟨visit, hvisit, hone, -⟩ := h.success hmem
  obtain ⟨reply, hreply⟩ :=
    Option.isSome_iff_exists.1 (hended visit (List.mem_of_getElem? hvisit))
  have hends := h.ends hvisit hreply
  cases reply with
  | error stop =>
      have hnone : counter.changesOf number = [] := hends.1
      rw [hone] at hnone
      cases hnone
  | ok receipt =>
      obtain ⟨other, hother, hsuccess⟩ := hends
      have hsame : counter.changesOf number = [other] := hother
      rw [hone] at hsame
      cases hsame
      exact ⟨visit, receipt, hvisit, hreply, hsuccess⟩

theorem Kept.mem_order_iff (h : Kept start counter)
    (hended : ∀ visit ∈ counter.visits, visit.left.reply?.isSome = true) (number : Nat) :
    number ∈ counter.ledger.map Prod.fst ↔
      ∃ receipt, counter.reply? number = some (.ok receipt) := by
  constructor
  · intro hmem
    obtain ⟨⟨number, mutation⟩, hentry, rfl⟩ := List.mem_map.1 hmem
    obtain ⟨visit, receipt, hvisit, hreply, -⟩ := h.replied hended hentry
    exact ⟨receipt, reply?_eq_some.2 ⟨visit, hvisit, hreply⟩⟩
  · rintro ⟨receipt, hreply⟩
    obtain ⟨visit, hvisit, hleft⟩ := reply?_eq_some.1 hreply
    obtain ⟨mutation, hone, -⟩ := h.ends hvisit hleft
    exact List.mem_map.2 ⟨(number, mutation), mem_ledger hone, rfl⟩

theorem Kept.given_once (h : Kept start counter) {first second : Nat}
    {ids others : List UInt64} (hne : first ≠ second)
    (hfirst : counter.reply? first = some (.ok (.given ids)))
    (hsecond : counter.reply? second = some (.ok (.given others))) :
    ∀ id ∈ ids, id ∉ others := by
  intro id hid hshared
  obtain ⟨visit, hvisit, hreply⟩ := reply?_eq_some.1 hfirst
  obtain ⟨other, hother, hanswer⟩ := reply?_eq_some.1 hsecond
  obtain ⟨mutation, -, hsuccess⟩ := h.ends hvisit hreply
  obtain ⟨change, -, hsuccessOther⟩ := h.ends hother hanswer
  have hstage := hsuccess.given.1.trans hsuccessOther.given.1.symm
  exact hne (h.once hvisit hother hreply hanswer hstage ((hsuccess.given.2 id).1 hid)
    ((hsuccessOther.given.2 id).1 hshared))

/-- An order that is given out is not also sent back while it waits for its owner. -/
theorem Kept.given_or_unclaimed (h : Kept start counter) {first second : Nat}
    {ids : List UInt64} {id : UInt64} {visit : Visit} {mutation : Mutation Stock}
    (hfirst : counter.reply? first = some (.ok (.given ids))) (hid : id ∈ ids)
    (hvisit : counter.visits[second]? = some visit) (hdeed : visit.deed = .sendBack id)
    (hmem : (second, mutation) ∈ counter.ledger) {record : Record}
    (hrecord : mutation.before.history.get? id = some record) :
    record.status ≠ .accepted := by
  intro hstatus
  obtain ⟨giver, hgiver, hreply⟩ := reply?_eq_some.1 hfirst
  obtain ⟨gift, hgift, hgiven⟩ := h.ends hgiver hreply
  obtain ⟨found, hfound, -, receipt, looks, hsent⟩ := h.success hmem
  rw [hvisit] at hfound
  cases hfound
  have hidGiver := (hgiven.given.2 id).1 hid
  have hidVisit : id ∈ visit.deed.ids := hdeed ▸ List.mem_cons_self
  have hne : (first, gift) ≠ (second, mutation) := by
    intro hsame
    cases hsame
    rw [hgiver] at hvisit
    cases hvisit
    rw [hdeed] at hgiven
    cases hgiven.given.1
  cases h.apart (mem_ledger hgift) hmem hne with
  | inl hgrows =>
      have hle := hgiven.rank_le hgrows hidGiver hrecord
      rw [hgiven.given.1, hstatus] at hle
      exact absurd hle (by decide)
  | inr hgrows =>
      have hlt := hsent.rank_lt hgiven hgrows hidVisit hidGiver
      rw [hdeed, hgiven.given.1] at hlt
      change Status.issuedToCourier.rank < Status.issuedToClient.rank at hlt
      exact absurd hlt (by decide)

/-- Calls that run side by side on a stock, in whatever turns, end as the successful ones of them
do when they are run one after the other in the order of their changes. -/
theorem serial_together (past : List Move) (time : Instant) (deeds : List Deed)
    (turns : List Nat)
    (hended : ∀ visit ∈
      (together ((opened .empty).run past).stock time deeds turns).visits,
        visit.left.reply?.isSome = true) :
    Serial ((opened .empty).run past).stock time deeds
      (together ((opened .empty).run past).stock time deeds turns)
      ((together ((opened .empty).run past).stock time deeds turns).ledger.map Prod.fst) := by
  have hpast := ((kept_opened Stock.settled_empty).run past).settled
  generalize ((opened .empty).run past).stock = stock at hpast hended
  have hkept : Kept stock (together stock time deeds turns) := (kept_opened hpast).run _
  have hstill := still_together stock time deeds turns
  have hdeeds := deeds_together stock time deeds turns
  generalize together stock time deeds turns = counter at hkept hstill hdeeds hended
  have hdeed : ∀ {number : Nat} {visit : Visit}, counter.visits[number]? = some visit →
      deeds[number]? = some visit.deed := by
    intro number visit hvisit
    rw [← hdeeds, List.getElem?_map, hvisit, Option.map_some]
  constructor
  case nodup => exact hkept.nodup
  case mem_iff => exact hkept.mem_order_iff hended
  case inTurn_eq =>
    apply inTurn_ledger hkept.chronicle
    rintro ⟨number, mutation⟩ hmem
    obtain ⟨visit, receipt, hvisit, hreply, hsuccess⟩ := hkept.replied hended hmem
    exact ⟨visit.deed, receipt, visit.looks, hdeed hvisit,
      reply?_eq_some.2 ⟨visit, hvisit, hreply⟩, hsuccess,
      hstill visit (List.mem_of_getElem? hvisit)⟩
  case given_once =>
    intro first second ids others hne hfirst hsecond
    exact hkept.given_once hne hfirst hsecond
  case given_or_unclaimed =>
    intro first second ids id mutation hfirst hid hsecond hmem record hrecord
    obtain ⟨visit, hvisit, -⟩ := hkept.success hmem
    have hsame := hdeed hvisit
    rw [hsecond] at hsame
    exact hkept.given_or_unclaimed hfirst hid hvisit (Option.some.inj hsame).symm hmem hrecord

def noon : Instant := ⟨43200, 0, by decide, by decide, by decide⟩

def contested : List Move :=
  .enter (.accept ⟨3, 7, default, .box, true, 100, 50⟩) ::
    List.replicate 3 (.advance 0 noon)

/-- Two visitors who ask for the same order in alternate turns. -/
theorem serial_contested :
    (∀ visit ∈ (together ((opened .empty).run contested).stock noon [.give [7], .give [7]]
      (List.replicate 7 [0, 1]).flatten).visits, visit.left.reply?.isSome = true) ∧
    Serial ((opened .empty).run contested).stock noon [.give [7], .give [7]]
      (together ((opened .empty).run contested).stock noon [.give [7], .give [7]]
        (List.replicate 7 [0, 1]).flatten)
      ((together ((opened .empty).run contested).stock noon [.give [7], .give [7]]
        (List.replicate 7 [0, 1]).flatten).ledger.map Prod.fst) :=
  ⟨by decide +kernel, serial_together contested noon [.give [7], .give [7]]
    (List.replicate 7 [0, 1]).flatten (by decide +kernel)⟩

end Counter

end ParcelDesk
