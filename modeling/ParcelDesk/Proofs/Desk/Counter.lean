import ParcelDesk.Proofs.Desk.Endings

namespace ParcelDesk

/-! Changes that were made one right after the other, by requests of the desk, with nothing done to
the stock between them. -/

inductive Chronicle : Stock → List (Mutation Stock) → Stock → Prop
  | nil (stock : Stock) : Chronicle stock [] stock
  | cons {before after final : Stock} {request : Request} {rest : List (Mutation Stock)}
      (hsettled : before.Settled) (hproper : before.Proper request)
      (hchange : before.Change request after) (hrest : Chronicle after rest final) :
      Chronicle before (⟨request, before, after⟩ :: rest) final

namespace Chronicle

variable {start middle final : Stock} {mutations more : List (Mutation Stock)}

theorem append (h : Chronicle start mutations middle) (hmore : Chronicle middle more final) :
    Chronicle start (mutations ++ more) final := by
  induction h with
  | nil => exact hmore
  | cons hsettled hproper hchange hrest ih => exact .cons hsettled hproper hchange (ih hmore)

theorem grows (h : Chronicle start mutations final) : start.Grows final := by
  induction h with
  | nil stock => exact .refl stock
  | cons hsettled hproper hchange hrest ih =>
      exact (hsettled.change hproper hchange).2.grows.trans ih

theorem settled_final (h : Chronicle start mutations final) (hstart : start.Settled) :
    final.Settled := by
  induction h with
  | nil => exact hstart
  | cons hsettled hproper hchange hrest ih => exact ih (hsettled.change hproper hchange).1

theorem grows_before (h : Chronicle start mutations final) {mutation : Mutation Stock}
    (hmem : mutation ∈ mutations) : start.Grows mutation.before := by
  induction h with
  | nil => cases hmem
  | @cons before after final request rest hsettled hproper hchange hrest ih =>
      cases hmem with
      | head => exact .refl before
      | tail _ hmem => exact (hsettled.change hproper hchange).2.grows.trans (ih hmem)

theorem pairwise (h : Chronicle start mutations final) :
    mutations.Pairwise fun first second => first.after.Grows second.before := by
  induction h with
  | nil => exact .nil
  | cons hsettled hproper hchange hrest ih =>
      exact .cons (fun mutation hmem => hrest.grows_before hmem) ih

end Chronicle

/-! ## Deeds done side by side -/

/-- Someone at the counter: what they came for, what is left of it, and what they have read off
the clock. -/
structure Visit where
  deed : Deed
  left : Call Receipt
  looks : List Instant := []

/-- The stock with the visits made since the counter opened, and the changes made since, each with
the number of the visit that made it. -/
structure Counter where
  stock : Stock
  visits : List Visit := []
  ledger : List (Nat × Mutation Stock) := []

/-- What can happen at the counter: somebody comes, or a visit goes on by one step. -/
inductive Move where
  | enter (deed : Deed)
  | advance (visit : Nat) (time : Instant)

namespace Counter

def opened (stock : Stock) : Counter := ⟨stock, [], []⟩

def goOn (counter : Counter) (number : Nat) (visit : Visit) (time : Instant) : Counter where
  stock := (visit.left.advance Stock.serve time counter.stock).2
  visits := counter.visits.set number
    { visit with
      left := (visit.left.advance Stock.serve time counter.stock).1
      looks := visit.looks ++ visit.left.looks time }
  ledger := counter.ledger ++ (visit.left.mutations Stock.serve counter.stock).map (number, ·)

/-- A move at the counter. A move of nobody does nothing. -/
def step (counter : Counter) : Move → Counter
  | .enter deed => { counter with visits := counter.visits ++ [⟨deed, deed.call, []⟩] }
  | .advance number time =>
      match counter.visits[number]? with
      | none => counter
      | some visit => counter.goOn number visit time

def run (counter : Counter) (moves : List Move) : Counter :=
  moves.foldl step counter

def changesOf (counter : Counter) (number : Nat) : List (Mutation Stock) :=
  (counter.ledger.filter fun entry => entry.1 == number).map Prod.snd

def reply? (counter : Counter) (number : Nat) : Option (Reply Receipt) :=
  counter.visits[number]?.bind fun visit => visit.left.reply?

@[simp] theorem run_cons (counter : Counter) (move : Move) (moves : List Move) :
    counter.run (move :: moves) = (counter.step move).run moves := rfl

theorem step_advance_none {counter : Counter} {number : Nat}
    (h : counter.visits[number]? = none) (time : Instant) :
    counter.step (.advance number time) = counter := by
  simp only [step, h]

theorem step_advance_some {counter : Counter} {number : Nat} {visit : Visit}
    (h : counter.visits[number]? = some visit) (time : Instant) :
    counter.step (.advance number time) = counter.goOn number visit time := by
  simp only [step, h]

theorem run_append (counter : Counter) (moves more : List Move) :
    counter.run (moves ++ more) = (counter.run moves).run more :=
  List.foldl_append

section GoOn

variable (counter : Counter) (number : Nat) (visit : Visit) (time : Instant)

theorem changesOf_goOn (key : Nat) :
    (counter.goOn number visit time).changesOf key = counter.changesOf key ++
      if number = key then visit.left.mutations Stock.serve counter.stock else [] := by
  rw [changesOf, goOn, List.filter_append, List.map_append, List.filter_map, List.map_map]
  apply congrArg
  by_cases hkey : number = key
  · simp [hkey, Function.comp_def]
  · simp [hkey, Function.comp_def]

end GoOn

/-! What always holds at a counter: the ledger leads from the stock at the opening to the stock
now, and every visit still keeps to the rules and will end as its deed promises. -/

structure Kept (start : Stock) (counter : Counter) : Prop where
  settled : counter.stock.Settled
  chronicle : Chronicle start (counter.ledger.map Prod.snd) counter.stock
  signed : ∀ entry ∈ counter.ledger, entry.1 < counter.visits.length
  keeps : ∀ number (visit : Visit), counter.visits[number]? = some visit →
    visit.left.Keeps Desk.rules visit.deed.Ends counter.stock
      ⟨visit.looks, counter.changesOf number⟩

theorem kept_opened {stock : Stock} (h : stock.Settled) : Kept stock (opened stock) where
  settled := h
  chronicle := .nil stock
  signed := fun _ hmem => nomatch hmem
  keeps := fun _ _ hvisit => nomatch hvisit

/-- A step of a call either leaves the stock as it is or makes one change to it. -/
theorem advance_cases {post : Reply α → Stock → Diary Stock → Prop} {call : Call α}
    {stock : Stock} {diary : Diary Stock} (h : call.Keeps Desk.rules post stock diary)
    (hsettled : stock.Settled) (time : Instant) :
    (call.mutations Stock.serve stock = [] ∧
      (call.advance Stock.serve time stock).2 = stock) ∨
    ∃ request after, call.mutations Stock.serve stock = [⟨request, stock, after⟩] ∧
      (call.advance Stock.serve time stock).2 = after ∧ stock.Proper request ∧
        stock.Change request after := by
  cases h with
  | done h => exact .inl ⟨rfl, rfl⟩
  | fail h => exact .inl ⟨rfl, rfl⟩
  | crash h => exact .inl ⟨rfl, rfl⟩
  | readClock h => exact .inl ⟨rfl, rfl⟩
  | announce h => exact .inl ⟨rfl, rfl⟩
  | @ask request next state diary hallows hok hfail hcrash =>
      have hproper := hallows stock hsettled (.refl stock)
      obtain ⟨answer, after, hchanges, hchange, hserve⟩ | ⟨answer, hread, hserve⟩ |
        ⟨error, hserve⟩ := hsettled.serve_cases request
      · rw [Call.advance_ask_ok hserve, Call.mutations, hserve]
        dsimp only
        rw [if_pos hchanges]
        exact .inr ⟨request, after, rfl, rfl, hproper, hchange⟩
      · rw [Call.advance_ask_ok hserve, Call.mutations, hserve]
        dsimp only
        rw [if_neg (hread ▸ Bool.false_ne_true)]
        exact .inl ⟨rfl, rfl⟩
      · rw [Call.advance_ask_fail hserve, Call.mutations, hserve]
        exact .inl ⟨rfl, rfl⟩

/-- One move makes one change, which it writes into the ledger, or none. -/
theorem Kept.step_cases {start : Stock} {counter : Counter} (h : Kept start counter)
    (move : Move) :
    ((counter.step move).ledger = counter.ledger ∧
      (counter.step move).stock = counter.stock) ∨
    ∃ number request after,
      (counter.step move).ledger =
          counter.ledger ++ [(number, ⟨request, counter.stock, after⟩)] ∧
        (counter.step move).stock = after ∧ counter.stock.Proper request ∧
          counter.stock.Change request after := by
  cases move with
  | enter deed => exact .inl ⟨rfl, rfl⟩
  | advance number time =>
      cases hvisit : counter.visits[number]? with
      | none =>
          rw [step_advance_none hvisit]
          exact .inl ⟨rfl, rfl⟩
      | some visit =>
          rw [step_advance_some hvisit]
          obtain ⟨hnone, hstock⟩ | ⟨request, after, hone, hstock, hproper, hchange⟩ :=
            advance_cases (h.keeps number visit hvisit) h.settled time
          · refine .inl ⟨?_, hstock⟩
            rw [Counter.goOn, hnone, List.map_nil, List.append_nil]
          · refine .inr ⟨number, request, after, ?_, hstock, hproper, hchange⟩
            rw [Counter.goOn, hone, List.map_singleton]

theorem Kept.step_ledger {start : Stock} {counter : Counter} (h : Kept start counter)
    (move : Move) :
    ∃ entries, (counter.step move).ledger = counter.ledger ++ entries ∧
      Chronicle counter.stock (entries.map Prod.snd) (counter.step move).stock := by
  obtain ⟨hledger, hstock⟩ | ⟨number, request, after, hledger, hstock, hproper, hchange⟩ :=
    h.step_cases move
  · rw [hledger, hstock]
    exact ⟨[], (List.append_nil _).symm, .nil counter.stock⟩
  · rw [hledger, hstock]
    exact ⟨_, rfl, .cons h.settled hproper hchange (.nil after)⟩

theorem Kept.changesOf_eq_nil {start : Stock} {counter : Counter} (h : Kept start counter)
    {number : Nat} (hnone : counter.visits[number]? = none) :
    counter.changesOf number = [] := by
  rw [changesOf, List.map_eq_nil_iff, List.filter_eq_nil_iff]
  intro entry hmem hnumber
  have hlt := h.signed entry hmem
  rw [beq_iff_eq.1 hnumber] at hlt
  exact absurd (List.getElem?_eq_none_iff.1 hnone) (Nat.not_le.2 hlt)

private theorem Kept.enter {start : Stock} {counter : Counter} (h : Kept start counter)
    (deed : Deed) : Kept start (counter.step (.enter deed)) where
  settled := h.settled
  chronicle := h.chronicle
  signed := by
    intro entry hmem
    simp only [Counter.step, List.length_append, List.length_singleton]
    exact Nat.lt_succ_of_lt (h.signed entry hmem)
  keeps := by
    intro number visit hvisit
    simp only [Counter.step, List.getElem?_append] at hvisit
    split at hvisit
    · exact h.keeps number visit hvisit
    · rename_i hlast
      have hnone := h.changesOf_eq_nil (List.getElem?_eq_none_iff.2 (Nat.not_lt.1 hlast))
      rw [List.getElem?_singleton] at hvisit
      split at hvisit
      · cases hvisit
        change deed.call.Keeps _ _ _ ⟨[], counter.changesOf number⟩
        rw [hnone]
        exact Desk.deed_ends deed counter.stock
      · cases hvisit

private theorem Kept.goOn {start : Stock} {counter : Counter} (h : Kept start counter)
    {number : Nat} {visit : Visit} (hvisit : counter.visits[number]? = some visit)
    (time : Instant) : Kept start (counter.goOn number visit time) := by
  have hkeeps := h.keeps number visit hvisit
  have hlength := (List.getElem?_eq_some_iff.1 hvisit).1
  obtain ⟨entries, hledger, hchronicle⟩ := h.step_ledger (.advance number time)
  rw [step_advance_some hvisit] at hledger hchronicle
  constructor
  case settled => exact hchronicle.settled_final h.settled
  case chronicle =>
    rw [hledger, List.map_append]
    exact h.chronicle.append hchronicle
  case signed =>
    intro entry hmem
    rw [Counter.goOn, List.length_set]
    cases List.mem_append.1 hmem with
    | inl hold => exact h.signed entry hold
    | inr hnew =>
        obtain ⟨mutation, -, rfl⟩ := List.mem_map.1 hnew
        exact hlength
  case keeps =>
    intro key other hother
    rw [changesOf_goOn]
    simp only [Counter.goOn, List.getElem?_set] at hother
    split at hother
    · rename_i hkey
      subst hkey
      cases hother
      rw [if_pos rfl]
      exact hkeeps.advance h.settled time
    · rename_i hkey
      rw [if_neg hkey, List.append_nil]
      exact (h.keeps key other hother).later
        (fun _ _ later _ hends _ => hends.later later) hchronicle.grows

theorem Kept.step {start : Stock} {counter : Counter} (h : Kept start counter) (move : Move) :
    Kept start (counter.step move) := by
  cases move with
  | enter deed => exact h.enter deed
  | advance number time =>
      cases hvisit : counter.visits[number]? with
      | none =>
          rw [step_advance_none hvisit]
          exact h
      | some visit =>
          rw [step_advance_some hvisit]
          exact h.goOn hvisit time

/-- Whatever the visitors came for, in whatever order they take their steps, and whatever the
clock tells them. -/
theorem Kept.run {start : Stock} {counter : Counter} (h : Kept start counter)
    (moves : List Move) : Kept start (counter.run moves) := by
  induction moves generalizing counter with
  | nil => exact h
  | cons move rest ih => exact ih (h.step move)

theorem Kept.run_ledger {start : Stock} {counter : Counter} (h : Kept start counter)
    (moves : List Move) :
    ∃ entries, (counter.run moves).ledger = counter.ledger ++ entries ∧
      Chronicle counter.stock (entries.map Prod.snd) (counter.run moves).stock := by
  induction moves generalizing counter with
  | nil => exact ⟨[], (List.append_nil _).symm, .nil counter.stock⟩
  | cons move rest ih =>
      obtain ⟨entries, hledger, hchronicle⟩ := h.step_ledger move
      obtain ⟨more, hmore, hrest⟩ := ih (h.step move)
      refine ⟨entries ++ more, ?_, ?_⟩
      · rw [run_cons, hmore, hledger, List.append_assoc]
      · rw [List.map_append]
        exact hchronicle.append hrest

/-! ## What the ledger tells -/

theorem mem_changesOf {counter : Counter} {number : Nat} {mutation : Mutation Stock} :
    mutation ∈ counter.changesOf number ↔ (number, mutation) ∈ counter.ledger := by
  rw [changesOf, List.mem_map]
  constructor
  · rintro ⟨⟨key, found⟩, hmem, rfl⟩
    rw [List.mem_filter] at hmem
    rw [← beq_iff_eq.1 hmem.2]
    exact hmem.1
  · intro hmem
    exact ⟨(number, mutation), List.mem_filter.2 ⟨hmem, beq_self_eq_true number⟩, rfl⟩

theorem mem_ledger {counter : Counter} {number : Nat} {mutation : Mutation Stock}
    (h : counter.changesOf number = [mutation]) : (number, mutation) ∈ counter.ledger := by
  rw [← mem_changesOf, h]
  exact List.mem_cons_self

/-- Every change in the ledger is the one that makes a success of the deed its visitor came for. -/
theorem Kept.success {start : Stock} {counter : Counter} (h : Kept start counter)
    {number : Nat} {mutation : Mutation Stock} (hmem : (number, mutation) ∈ counter.ledger) :
    ∃ visit, counter.visits[number]? = some visit ∧ counter.changesOf number = [mutation] ∧
      ∃ receipt looks, visit.deed.Success receipt looks mutation := by
  have hlength : number < counter.visits.length := h.signed _ hmem
  have hvisit := List.getElem?_eq_getElem hlength
  have hchange := mem_changesOf.2 hmem
  generalize counter.visits[number] = visit at hvisit
  refine ⟨visit, hvisit, ?_⟩
  obtain ⟨reply, final, diary, hends, hsofar⟩ :=
    (h.keeps number visit hvisit).exists_end h.settled ⟨0, 0, by decide, by decide, by decide⟩
  change counter.changesOf number <+: diary.mutations at hsofar
  cases reply with
  | error stop =>
      rw [hends.1, List.prefix_nil] at hsofar
      rw [hsofar] at hchange
      cases hchange
  | ok receipt =>
      obtain ⟨only, honly, hsuccess⟩ := hends
      have hsame : counter.changesOf number = [only] := by
        rw [honly] at hsofar
        cases List.prefix_cons_iff.1 hsofar with
        | inl hnil =>
            rw [hnil] at hchange
            cases hchange
        | inr hcons =>
            obtain ⟨rest, hrest, hnil⟩ := hcons
            rw [hrest, List.prefix_nil.1 hnil]
      rw [hsame, List.mem_singleton] at hchange
      subst hchange
      exact ⟨hsame, receipt, diary.looks, hsuccess⟩

theorem Kept.ends {start : Stock} {counter : Counter} (h : Kept start counter)
    {number : Nat} {visit : Visit} (hvisit : counter.visits[number]? = some visit)
    {reply : Reply Receipt} (hreply : visit.left.reply? = some reply) :
    visit.deed.Ends reply counter.stock ⟨visit.looks, counter.changesOf number⟩ := by
  have hkeeps := h.keeps number visit hvisit
  cases hleft : visit.left with
  | done value =>
      rw [hleft] at hkeeps hreply
      cases hreply
      cases hkeeps with
      | done hends => exact hends
  | fail error =>
      rw [hleft] at hkeeps hreply
      cases hreply
      cases hkeeps with
      | fail hends => exact hends
  | crash cause =>
      rw [hleft] at hkeeps hreply
      cases hreply
      cases hkeeps with
      | crash hends => exact hends
  | readClock | ask | announce =>
      rw [hleft] at hreply
      cases hreply

end Counter

end ParcelDesk
