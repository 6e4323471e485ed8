import ParcelDesk.Proofs.Relational.Commits
import ParcelDesk.Proofs.Relational.Listings

/-!
# Legible tables

Rows that hold records and places whose numbers fit their columns can be read. No work leaves other
rows behind, so a work on such rows fails only for what it was asked.
-/

namespace ParcelDesk

inductive Error.ToldBy (leaf : Error) : Error → Prop
  | self : ToldBy leaf leaf
  | member {members : List Error} {member : Error} (hmem : member ∈ members)
      (h : ToldBy leaf member) : ToldBy leaf (.batch members)

namespace Relational

def outOfRange (value : UInt64) : Error :=
  .refused .wrongInput s!"{value} is out of range"

/-- The failures that are left when all rows can be read. -/
inductive Plain : Error → Prop
  | notFound (detail : String) : Plain (.refused .notFound detail)
  | alreadyExists (detail : String) : Plain (.refused .alreadyExists detail)
  | wrongStatus (detail : String) : Plain (.refused .wrongStatus detail)
  | outOfRange (value : UInt64) : Plain (outOfRange value)
  | wrongUser (id : UInt64) :
      Plain (.refused .wrongInput s!"can't refund order {id}: wrong user id")
  | noSize : Plain (.refused .wrongInput "orders per page must be greater than 0")
  | noPage : Plain (.refused .wrongInput "page must be greater than 0")
  | batch {members : List Error} (h : ∀ member ∈ members, Plain member) : Plain (.batch members)

def Columns.numbers (columns : Columns) : List Int64 :=
  [columns.weight, columns.cost]

def HistoryRow.numbers (row : HistoryRow) : List Int64 :=
  row.id :: row.owner :: row.parcel.numbers

def SlotRow.numbers (row : SlotRow) : List Int64 :=
  row.id :: row.owner :: row.parcel.numbers

def Tables.numbers (tables : Tables) : List Int64 :=
  tables.history.flatMap HistoryRow.numbers ++
    (tables.orders.flatMap SlotRow.numbers ++ tables.refunds.flatMap SlotRow.numbers)

def HistoryRow.Legible (row : HistoryRow) : Prop :=
  ∃ id record, Fits id ∧ RecordFits record ∧ row = .hold id record

def SlotRow.Legible (row : SlotRow) : Prop :=
  ∃ slot, SlotFits slot ∧ row = .hold slot

structure Legible (tables : Tables) : Prop where
  history : ∀ row ∈ tables.history, row.Legible
  listings : ∀ listing, ∀ row ∈ tables.rows listing, row.Legible

namespace Legible

variable {tables : Tables}

theorem empty : Legible {} where
  history := fun _ hmem => nomatch hmem
  listings := fun listing _ hmem => by cases listing <;> cases hmem

theorem of_history (h : Legible tables) {rows : List HistoryRow}
    (hrows : ∀ row ∈ rows, row.Legible) : Legible { tables with history := rows } where
  history := hrows
  listings := by
    intro listing
    cases listing with
    | orders => exact h.listings .orders
    | refunds => exact h.listings .refunds

theorem withRows (h : Legible tables) (listing : Listing) {rows : List SlotRow}
    (hrows : ∀ row ∈ rows, row.Legible) : Legible (tables.withRows listing rows) where
  history := by cases listing <;> exact h.history
  listings := by
    intro other
    cases listing <;> cases other
    · exact hrows
    · exact h.listings .refunds
    · exact h.listings .orders
    · exact hrows

theorem insertHistory (h : Legible tables) {id : UInt64} {record : Record} (hid : Fits id)
    (hrecord : RecordFits record) :
    Legible { tables with history := tables.history ++ [.hold id record] } := by
  apply h.of_history
  intro row hmem
  cases List.mem_append.1 hmem with
  | inl hold => exact h.history row hold
  | inr hlast => exact ⟨id, record, hid, hrecord, List.mem_singleton.1 hlast⟩

theorem setStatus (h : Legible tables) (number : Int64) (status : Status) (time : Instant) :
    Legible { tables with
      history := tables.history.map fun row =>
        if row.id == number then { row with status := status.name, changed := time }
        else row } := by
  apply h.of_history
  intro row hmem
  obtain ⟨old, hold, rfl⟩ := List.mem_map.1 hmem
  obtain ⟨id, record, hid, hrecord, rfl⟩ := h.history old hold
  split
  · exact ⟨id, { record with status, changed := time }, hid,
      ⟨hrecord.owner_fits, hrecord.order_fits⟩, rfl⟩
  · exact ⟨id, record, hid, hrecord, rfl⟩

theorem insertSlot (h : Legible tables) (listing : Listing) {slot : Slot}
    (hslot : SlotFits slot) :
    Legible (tables.withRows listing (tables.rows listing ++ [.hold slot])) := by
  apply h.withRows
  intro row hmem
  cases List.mem_append.1 hmem with
  | inl hold => exact h.listings listing row hold
  | inr hlast => exact ⟨slot, hslot, List.mem_singleton.1 hlast⟩

theorem withdraw (h : Legible tables) (listing : Listing) (number : Int64) :
    Legible (tables.withRows listing ((tables.rows listing).map fun row =>
      if row.id == number then { row with live := false } else row)) := by
  apply h.withRows
  intro row hmem
  obtain ⟨old, hold, rfl⟩ := List.mem_map.1 hmem
  obtain ⟨slot, hslot, rfl⟩ := h.listings listing old hold
  split
  · exact ⟨{ slot with live := false }, ⟨hslot.id_fits, hslot.owner_fits, hslot.order_fits⟩, rfl⟩
  · exact ⟨slot, hslot, rfl⟩

end Legible

/-! ## Works -/

namespace Work

/-- How a work ends on some tables: with a value in `post` and legible tables, or with a plain
failure. -/
inductive Ends (work : Work α) (post : α → Prop) (tables : Tables) : Prop
  | ok {value : α} {after : Tables} (hruns : work.Runs tables (.ok value) (some after))
      (hafter : Legible after) (h : post value)
  | fail {error : Error} {final : Option Tables} (hruns : work.Runs tables (.error error) final)
      (h : Plain error)

def Clean (work : Work α) (post : α → Prop) : Prop :=
  ∀ tables, Legible tables → work.Ends post tables

variable {work : Work α} {post : α → Prop}

theorem clean_done {value : α} (h : post value) : (done value).Clean post :=
  fun _ htables => .ok .done htables h

theorem clean_fail {error : Error} (h : Plain error) : (fail error).Clean post :=
  fun _ _ => .fail .fail h

theorem Clean.bind {mid : α → Prop} {post : β → Prop} {next : α → Work β} (h : work.Clean mid)
    (hnext : ∀ value, mid value → (next value).Clean post) : (work >>= next).Clean post := by
  intro tables htables
  cases h tables htables with
  | fail hruns hplain => exact .fail hruns.bind_error hplain
  | ok hruns hafter hvalue =>
      cases hnext _ hvalue _ hafter with
      | fail hrest hplain => exact .fail (hruns.bind hrest) hplain
      | ok hrest hlater hpost => exact .ok (hruns.bind hrest) hlater hpost

theorem Clean.mono {wider : α → Prop} (h : work.Clean post)
    (hwider : ∀ value, post value → wider value) : work.Clean wider := by
  intro tables htables
  cases h tables htables with
  | fail hruns hplain => exact .fail hruns hplain
  | ok hruns hafter hpost => exact .ok hruns hafter (hwider _ hpost)

theorem Clean.map {f : α → β} {kept : Prop} (h : work.Clean fun _ => kept) :
    (f <$> work).Clean fun _ => kept :=
  h.bind fun _ hkept => clean_done hkept

theorem act_of_reading {statement : Statement} (h : Reading statement) (tables : Tables) :
    ∃ answer, statement.act tables = .ok (answer, tables) := by
  cases statement with
  | insertHistory | setStatus | insertSlot | withdraw => cases h
  | findHistory | findStatus | findLive | hasUser | position | scanUser | scanRefunds =>
      exact ⟨_, rfl⟩

theorem Runs.final_of_reading {post : Bool → α → Prop} {tables : Tables}
    {result : Except Error α} {final : Option Tables} (h : work.Runs tables result final)
    (hreads : Heeds Reading post false work) : final = some tables := by
  induction h with
  | done => rfl
  | fail => rfl
  | @send statement next tables after answer result final hact h ih =>
      cases hreads with
      | send hkind hok hrefused =>
          obtain ⟨other, hother⟩ := act_of_reading hkind tables
          rw [hact] at hother
          cases hother
          exact ih (hok answer)
  | @refused statement next tables refusal error hact h =>
      cases hreads with
      | send hkind hok hrefused =>
          obtain ⟨other, hother⟩ := act_of_reading hkind tables
          rw [hact] at hother
          cases hother

theorem Clean.attempt {kept : Bool → α → Prop} (h : work.Clean post)
    (hreads : Heeds Reading kept false work) :
    work.attempt.Clean fun result =>
      (∀ value, result = .ok value → post value) ∧
        ∀ error, result = .error error → Plain error := by
  intro tables htables
  cases h tables htables with
  | @fail error final hruns hplain =>
      rw [hruns.final_of_reading hreads] at hruns
      refine .ok hruns.attempt htables (And.intro (fun _ hvalue => nomatch hvalue) ?_)
      rintro _ ⟨⟩
      exact hplain
  | @ok value after hruns hafter hpost =>
      refine .ok hruns.attempt hafter (And.intro ?_ fun _ herror => nomatch herror)
      rintro _ ⟨⟩
      exact hpost

theorem clean_query {statement : Statement} {post : statement.Answer → Prop}
    (h : ∀ tables, Legible tables → ∃ answer after,
      statement.act tables = .ok (answer, after) ∧ Legible after ∧ post answer) :
    (query statement).Clean post := by
  intro tables htables
  obtain ⟨answer, after, hact, hafter, hpost⟩ := h tables htables
  exact .ok (runs_query hact) hafter hpost

theorem clean_insert {statement : Statement} {detail : String}
    (h : ∀ tables, Legible tables →
      (∃ answer after, statement.act tables = .ok (answer, after) ∧ Legible after) ∨
        ∃ constraint, statement.act tables = .error (.duplicate constraint)) :
    (insert statement detail).Clean fun _ => True := by
  intro tables htables
  obtain ⟨answer, after, hact, hafter⟩ | ⟨constraint, hact⟩ := h tables htables
  · exact .ok (.send hact .done) hafter True.intro
  · exact .fail (.refused hact rfl) (.alreadyExists detail)

end Work

open Work

theorem bound_of_not_fits {value : UInt64} (h : ¬ Fits value) :
    bound value = .error (outOfRange value) :=
  if_neg h

theorem clean_bound (value : UInt64) :
    (ofExcept (bound value)).Clean fun number => Fits value ∧ number = value.toInt64 := by
  by_cases h : Fits value
  · rw [bound_of_fits h]
    exact clean_done ⟨h, rfl⟩
  · rw [bound_of_not_fits h]
    exact clean_fail (.outOfRange value)

theorem ofOrder_of_not_fits {order : Order} (h : ¬ OrderFits order) :
    ∃ value, (value = order.weight ∨ value = order.cost) ∧ ¬ Fits value ∧
      Columns.ofOrder order = .error (outOfRange value) := by
  by_cases hweight : Fits order.weight
  · have hcost : ¬ Fits order.cost := fun hcost => h ⟨hweight, hcost⟩
    refine ⟨_, .inr rfl, hcost, ?_⟩
    rw [Columns.ofOrder, bound_of_fits hweight, bound_of_not_fits hcost]
    rfl
  · refine ⟨_, .inl rfl, hweight, ?_⟩
    rw [Columns.ofOrder, bound_of_not_fits hweight]
    rfl

theorem clean_ofOrder (order : Order) :
    (ofExcept (Columns.ofOrder order)).Clean fun parcel =>
      OrderFits order ∧ parcel = .hold order := by
  by_cases h : OrderFits order
  · rw [Columns.ofOrder_of_fits h]
    exact clean_done ⟨h, rfl⟩
  · obtain ⟨value, -, -, hofOrder⟩ := ofOrder_of_not_fits h
    rw [hofOrder]
    exact clean_fail (.outOfRange value)

/-! ## The history -/

theorem clean_findRecord (id : UInt64) : (findRecord id).Clean fun _ => Fits id := by
  refine (clean_bound id).bind ?_
  rintro _ ⟨hid, rfl⟩
  have hquery : (query (.findHistory id.toInt64)).Clean fun found =>
      ∀ row ∈ found, row.Legible :=
    clean_query fun tables htables => ⟨_, tables, rfl, htables, fun row hrow =>
      htables.history row (List.mem_of_find?_eq_some hrow)⟩
  refine hquery.bind fun found hfound => ?_
  cases found with
  | none => exact clean_done hid
  | some row =>
      obtain ⟨key, record, -, hrecord, rfl⟩ := hfound row rfl
      change (some <$> ofExcept (HistoryRow.hold key record).record).Clean _
      rw [HistoryRow.record_hold hrecord]
      exact clean_done hid

theorem clean_record (id : UInt64) : (record id).Clean fun _ => Fits id := by
  refine (clean_findRecord id).bind fun found hid => ?_
  cases found with
  | none => exact clean_fail (.notFound _)
  | some record => exact clean_done hid

theorem clean_status (id : UInt64) : (status id).Clean fun _ => Fits id := by
  refine (clean_bound id).bind ?_
  rintro _ ⟨hid, rfl⟩
  have hquery : (query (.findStatus id.toInt64)).Clean fun found =>
      ∀ text ∈ found, ∃ status : Status, text = status.name :=
    clean_query fun tables htables => ⟨_, tables, rfl, htables, fun text htext => by
      obtain ⟨row, hrow, rfl⟩ := Option.map_eq_some_iff.1 htext
      obtain ⟨key, record, -, -, rfl⟩ := htables.history row (List.mem_of_find?_eq_some hrow)
      exact ⟨record.status, rfl⟩⟩
  refine hquery.bind fun found hfound => ?_
  cases found with
  | none => exact clean_fail (.notFound _)
  | some text =>
      obtain ⟨status, rfl⟩ := hfound text rfl
      change (ofExcept (Status.read status.name)).Clean _
      rw [Status.read_name]
      exact clean_done hid

theorem clean_putAccepted (owner id : UInt64) (order : Order) (time : Instant) :
    (putAccepted owner id order time).Clean fun _ => True := by
  refine (clean_bound id).bind ?_
  rintro _ ⟨hid, rfl⟩
  refine (clean_bound owner).bind ?_
  rintro _ ⟨howner, rfl⟩
  refine (clean_ofOrder order).bind ?_
  rintro _ ⟨horder, rfl⟩
  apply clean_insert
  intro tables htables
  rw [Statement.act]
  split
  · exact .inr ⟨_, rfl⟩
  · have hrecord : RecordFits ⟨order, .accepted, owner, stored time⟩ := ⟨howner, horder⟩
    exact .inl ⟨_, _, rfl, htables.insertHistory hid hrecord⟩

theorem clean_setStatus (id : UInt64) (status : Status) (time : Instant) :
    (setStatus id status time).Clean fun _ => Fits id := by
  refine (clean_bound id).bind ?_
  rintro _ ⟨hid, rfl⟩
  have hquery : (query (.setStatus id.toInt64 status.name (stored time))).Clean fun _ => True :=
    clean_query fun tables htables =>
      ⟨_, _, rfl, htables.setStatus id.toInt64 status (stored time), True.intro⟩
  refine hquery.bind fun found _ => ?_
  cases found with
  | true => exact clean_done hid
  | false => exact clean_fail (.notFound _)

/-! ## The listings -/

theorem clean_list (listing : Listing) (owner id : UInt64) (order : Order) :
    (list listing owner id order).Clean fun _ => Fits owner ∧ Fits id ∧ OrderFits order := by
  refine (clean_bound owner).bind ?_
  rintro _ ⟨howner, rfl⟩
  refine (clean_bound id).bind ?_
  rintro _ ⟨hid, rfl⟩
  refine (clean_ofOrder order).bind ?_
  rintro _ ⟨horder, rfl⟩
  refine Clean.mono (clean_insert ?_) fun _ _ => ⟨howner, hid, horder⟩
  intro tables htables
  rw [Statement.act]
  dsimp only
  split
  · exact .inr ⟨_, rfl⟩
  · have hslot : SlotFits (.ofOrder owner id order) := ⟨hid, howner, horder⟩
    exact .inl ⟨_, _, rfl, htables.insertSlot listing hslot⟩

theorem clean_withdraw (listing : Listing) (id : UInt64) :
    (withdraw listing id).Clean fun _ => Fits id := by
  refine (clean_bound id).bind ?_
  rintro _ ⟨hid, rfl⟩
  have hquery : (query (.withdraw listing id.toInt64)).Clean fun _ => True :=
    clean_query fun tables htables =>
      ⟨_, _, rfl, htables.withdraw listing id.toInt64, True.intro⟩
  refine hquery.bind fun found _ => ?_
  cases found with
  | true => exact clean_done hid
  | false => exact clean_fail (.notFound _)

theorem clean_findLive (owner id : UInt64) :
    (findLive owner id).Clean fun _ => Fits owner ∧ Fits id := by
  refine (clean_bound owner).bind ?_
  rintro _ ⟨howner, rfl⟩
  refine (clean_bound id).bind ?_
  rintro _ ⟨hid, rfl⟩
  have hquery : (query (.findLive owner.toInt64 id.toInt64)).Clean fun found =>
      ∀ parcel ∈ found, ∃ order, OrderFits order ∧ parcel = .hold order :=
    clean_query fun tables htables => ⟨_, tables, rfl, htables, fun parcel hparcel => by
      obtain ⟨row, hrow, rfl⟩ := Option.map_eq_some_iff.1 hparcel
      obtain ⟨slot, hslot, rfl⟩ := htables.listings .orders row (List.mem_of_find?_eq_some hrow)
      exact ⟨slot.order, hslot.order_fits, rfl⟩⟩
  refine hquery.bind fun found hfound => ?_
  cases found with
  | none => exact clean_done ⟨howner, hid⟩
  | some parcel =>
      obtain ⟨order, horder, rfl⟩ := hfound parcel rfl
      change (some <$> ofExcept (Columns.hold order).order).Clean _
      rw [Columns.order_hold horder]
      exact clean_done ⟨howner, hid⟩

theorem clean_checkUser (owner : UInt64) : (checkUser owner).Clean fun _ => Fits owner := by
  refine (clean_bound owner).bind ?_
  rintro _ ⟨howner, rfl⟩
  have hquery : (query (.hasUser owner.toInt64)).Clean fun _ => True :=
    clean_query fun tables htables => ⟨_, tables, rfl, htables, True.intro⟩
  refine hquery.bind fun found _ => ?_
  cases found with
  | true => exact clean_done howner
  | false => exact clean_fail (.notFound _)

theorem clean_position (owner id : UInt64) :
    (position owner id).Clean fun _ => Fits owner ∧ Fits id := by
  refine (clean_bound owner).bind ?_
  rintro _ ⟨howner, rfl⟩
  refine (clean_bound id).bind ?_
  rintro _ ⟨hid, rfl⟩
  have hquery : (query (.position owner.toInt64 id.toInt64)).Clean fun _ => True :=
    clean_query fun tables htables => ⟨_, tables, rfl, htables, True.intro⟩
  refine hquery.bind fun found _ => ?_
  cases found with
  | none => exact clean_fail (.notFound _)
  | some place => exact clean_done ⟨howner, hid⟩

theorem mapM_slot_of_legible {rows : List SlotRow} (h : ∀ row ∈ rows, row.Legible)
    (hlive : ∀ row ∈ rows, row.live = true) :
    ∃ shown, rows.mapM SlotRow.slot = .ok shown := by
  have hheld : ∃ shown : List Slot, rows = shown.map .hold ∧ ∀ slot ∈ shown, SlotFits slot := by
    clear hlive
    induction rows with
    | nil => exact ⟨[], rfl, List.forall_mem_nil _⟩
    | cons row rest ih =>
        obtain ⟨slot, hslot, rfl⟩ := h row List.mem_cons_self
        obtain ⟨shown, rfl, hfits⟩ := ih fun other hother => h other (List.mem_cons_of_mem _ hother)
        exact ⟨slot :: shown, rfl, List.forall_mem_cons.2 ⟨hslot, hfits⟩⟩
  obtain ⟨shown, rfl, hfits⟩ := hheld
  refine ⟨shown, mapM_slot_hold hfits fun slot hmem => ?_⟩
  exact hlive _ (List.mem_map_of_mem hmem)

theorem clean_slots {rows : List SlotRow} (h : ∀ row ∈ rows, row.Legible)
    (hlive : ∀ row ∈ rows, row.live = true) : (slots rows).Clean fun _ => True := by
  obtain ⟨shown, hmapM⟩ := mapM_slot_of_legible h hlive
  rw [slots, hmapM]
  exact clean_done True.intro

theorem clean_scanUser (number : Int64) (start : Nat) (limit : Option Nat) :
    (query (.scanUser number start limit) >>= slots).Clean fun _ => True := by
  have hquery : (query (.scanUser number start limit)).Clean fun rows =>
      (∀ row ∈ rows, row.Legible) ∧ ∀ row ∈ rows, row.live = true := by
    apply clean_query
    intro tables htables
    refine ⟨_, tables, rfl, htables, ?_⟩
    have hrows : ∀ row ∈ (tables.orders.drop start).filter
        fun row => row.owner == number && row.live, row.Legible ∧ row.live = true := by
      intro row hmem
      obtain ⟨hrow, hlive⟩ := List.mem_filter.1 hmem
      rw [Bool.and_eq_true] at hlive
      exact ⟨htables.listings .orders row (List.mem_of_mem_drop hrow), hlive.2⟩
    cases limit with
    | none => exact ⟨fun row hmem => (hrows row hmem).1, fun row hmem => (hrows row hmem).2⟩
    | some limit =>
        exact ⟨fun row hmem => (hrows row (List.mem_of_mem_take hmem)).1,
          fun row hmem => (hrows row (List.mem_of_mem_take hmem)).2⟩
  exact hquery.bind fun rows ⟨hheld, hlive⟩ => clean_slots hheld hlive

/-! ## Requests -/

theorem clean_addOrder (owner id : UInt64) (order : Order) (time : Instant) :
    (addOrder owner id order time).Clean fun _ => Fits owner ∧ Fits id ∧ OrderFits order := by
  refine (clean_findRecord id).bind fun found _ => ?_
  cases found with
  | some record => exact clean_fail (.alreadyExists _)
  | none =>
      refine (clean_list .orders owner id order).bind fun _ hfits => ?_
      exact (clean_putAccepted owner id order time).mono fun _ _ => hfits

theorem clean_order (owner id : UInt64) :
    (order owner id).Clean fun _ => Fits owner ∧ Fits id := by
  refine (clean_checkUser owner).bind fun _ _ => ?_
  refine (clean_findLive owner id).bind fun found hfits => ?_
  cases found with
  | some order => exact clean_done hfits
  | none => exact clean_fail (.notFound _)

theorem clean_checkRemovable (id : UInt64) : (checkRemovable id).Clean fun _ => Fits id := by
  refine (clean_record id).bind fun record hid => ?_
  split
  · exact clean_fail (.wrongStatus _)
  · refine (clean_findLive record.owner id).bind fun found _ => ?_
    cases found with
    | some order => exact clean_done hid
    | none => exact clean_fail (.notFound _)

theorem clean_checkAll (ids : List UInt64) :
    (checkAll ids).Clean fun errors =>
      (∀ error ∈ errors, Plain error) ∧ (errors = [] → ∀ id ∈ ids, Fits id) := by
  induction ids with
  | nil => exact clean_done ⟨List.forall_mem_nil _, fun _ => List.forall_mem_nil _⟩
  | cons id rest ih =>
      refine ((clean_checkRemovable id).attempt (heeds_checkRemovable id)).bind ?_
      rintro checked ⟨hid, hplain⟩
      refine ih.bind fun errors ⟨herrors, hrest⟩ => ?_
      cases checked with
      | ok done =>
          refine clean_done ⟨herrors, fun hnone => ?_⟩
          exact List.forall_mem_cons.2 ⟨hid done rfl, hrest hnone⟩
      | error error =>
          refine clean_done ⟨List.forall_mem_cons.2 ⟨hplain error rfl, herrors⟩, ?_⟩
          intro hnone
          cases hnone

theorem clean_removeAll (status : Status) (time : Instant) (ids : List UInt64) :
    (removeAll status time ids).Clean fun _ => True := by
  induction ids with
  | nil => exact clean_done True.intro
  | cons id rest ih =>
      refine (clean_withdraw .orders id).bind fun _ _ => ?_
      exact (clean_setStatus id status time).bind fun _ _ => ih

theorem plain_fold {errors : List Error} (h : ∀ error ∈ errors, Plain error) :
    Plain (.fold errors) := by
  match errors with
  | [] => exact .batch h
  | [error] => exact h error List.mem_cons_self
  | first :: second :: rest => exact .batch h

theorem clean_removeOrders (ids : List UInt64) (status : Status) (time : Instant) :
    (removeOrders ids status time).Clean fun _ => ∀ id ∈ ids, Fits id := by
  refine (clean_checkAll (distinct ids)).bind fun errors ⟨hplain, hfits⟩ => ?_
  cases errors with
  | nil =>
      refine (clean_removeAll status time (distinct ids)).mono fun _ _ id hid => ?_
      exact hfits rfl id (mem_distinct.2 hid)
  | cons error errors => exact clean_fail (plain_fold hplain)

theorem clean_addRefund (owner id : UInt64) (order : Order) (time : Instant) :
    (addRefund owner id order time).Clean fun _ => Fits owner ∧ Fits id ∧ OrderFits order := by
  refine (clean_record id).bind fun record _ => ?_
  split
  · exact clean_fail (.wrongStatus _)
  · split
    · exact clean_fail (.wrongUser id)
    · refine (clean_list .refunds owner id order).bind fun _ hfits => ?_
      exact (clean_setStatus id .returned time).mono fun _ _ => hfits

theorem clean_removeRefund (id : UInt64) (time : Instant) :
    (removeRefund id time).Clean fun _ => Fits id := by
  refine (clean_status id).bind fun status _ => ?_
  split
  · exact clean_fail (.wrongStatus _)
  · exact (clean_withdraw .refunds id).bind fun _ _ => clean_setStatus id .issuedToCourier time

theorem clean_orders (owner first limit : UInt64) :
    (orders owner first limit).Clean fun _ => Fits owner ∧ Fits first := by
  refine (clean_checkUser owner).bind fun _ howner => ?_
  dsimp only
  have hscan (start : Nat) (limit : Option Nat) : (do
      let number ← ofExcept (bound owner)
      slots (← query (.scanUser number start limit)) : Work _).Clean fun _ => True := by
    refine (clean_bound owner).bind fun number _ => ?_
    exact clean_scanUser number start limit
  split
  · rename_i hzero
    subst hzero
    exact (hscan 0 _).mono fun _ _ => And.intro howner (Nat.zero_le _)
  · exact (clean_position owner first).bind fun start hfits => (hscan start _).mono fun _ _ => hfits

theorem clean_refunds (page size : UInt64) : (refunds page size).Clean fun _ => True := by
  have hquery : (query (.scanRefunds (min ((page.toNat - 1) * size.toNat) greatest)
      (min size.toNat greatest))).Clean fun rows =>
        (∀ row ∈ rows, row.Legible) ∧ ∀ row ∈ rows, row.live = true := by
    apply clean_query
    intro tables htables
    refine ⟨_, tables, rfl, htables, fun row hmem => ?_, fun row hmem => ?_⟩
    · have hrow := (List.mem_filter.1 (List.mem_of_mem_take hmem)).1
      exact htables.listings .refunds row (List.mem_of_mem_drop hrow)
    · exact (List.mem_filter.1 (List.mem_of_mem_take hmem)).2
  exact hquery.bind fun rows ⟨hheld, hlive⟩ => clean_slots hheld hlive

/-- The numbers of a request fit their columns. A listing may be asked for any page, size and
limit. -/
def Fitting : Request → Prop
  | .addOrder owner id order _ | .addRefund owner id order _ =>
      Fits owner ∧ Fits id ∧ OrderFits order
  | .record id | .checkRemovable id | .setStatus id _ _ | .removeRefund id _ => Fits id
  | .order owner id | .expiration owner id => Fits owner ∧ Fits id
  | .removeOrders ids _ _ => ∀ id ∈ ids, Fits id
  | .orders owner first _ => Fits owner ∧ Fits first
  | .refunds _ _ => True

theorem clean_transaction {request : Request} {mode : Mode} {work : Work request.Answer}
    (h : transaction request = .ok (mode, work)) : work.Clean fun _ => Fitting request := by
  cases request with
  | addOrder owner id order time =>
      cases h
      exact clean_addOrder owner id order time
  | record id =>
      cases h
      exact clean_record id
  | order owner id =>
      cases h
      exact clean_order owner id
  | expiration owner id =>
      cases h
      exact (clean_order owner id).map
  | checkRemovable id =>
      cases h
      exact clean_checkRemovable id
  | removeOrders ids status time =>
      cases h
      exact clean_removeOrders ids status time
  | setStatus id status time =>
      cases h
      exact clean_setStatus id status time
  | addRefund owner id order time =>
      cases h
      exact clean_addRefund owner id order time
  | removeRefund id time =>
      cases h
      exact clean_removeRefund id time
  | orders owner first limit =>
      cases h
      exact clean_orders owner first limit
  | refunds page size =>
      simp only [transaction] at h
      split at h
      · cases h
      · split at h
        · cases h
        · cases h
          exact clean_refunds page size

theorem plain_of_transaction {request : Request} {error : Error}
    (h : transaction request = .error error) : Plain error := by
  cases request with
  | refunds page size =>
      simp only [transaction] at h
      split at h
      · cases h
        exact .noSize
      · split at h
        · cases h
          exact .noPage
        · cases h
  | addOrder | record | order | expiration | checkRemovable | removeOrders | setStatus |
      addRefund | removeRefund | orders => cases h

/-- A request that changes nothing sends no statement that could. -/
theorem reads_of_transaction {request : Request} (hreads : request.changes = false) {mode : Mode}
    {work : Work request.Answer} (h : transaction request = .ok (mode, work)) :
    Heeds Reading Unrefused false work := by
  have hmode : mode.access = .readOnly := by
    cases request with
    | addOrder | removeOrders | setStatus | addRefund | removeRefund => cases hreads
    | record | order | expiration | checkRemovable | orders =>
        cases h
        rfl
    | refunds page size =>
        simp only [transaction] at h
        split at h
        · cases h
        · split at h
          · cases h
          · cases h
            rfl
  refine (heeds_transaction h).mono fun statement hadmits => ?_
  cases hwrite : statement.isWrite with
  | false => exact hwrite
  | true =>
      have haccess := hadmits hwrite
      rw [hmode] at haccess
      cases haccess

/-- A request is granted only if its numbers fit, and leaves legible tables then; or it fails
plainly and leaves the tables as they were. -/
theorem serve_cases {tables : Tables} (h : Legible tables) (request : Request)
    (ended : List Ended) :
    (∃ answer later after,
      serve Faults.never request ⟨some tables, (), ended⟩ =
        (.ok answer, ⟨some later, (), after⟩) ∧ Legible later ∧ Fitting request ∧
      (request.changes = false → later = tables)) ∨
    ∃ error after,
      serve Faults.never request ⟨some tables, (), ended⟩ =
        (Reply.fail error, ⟨some tables, (), after⟩) ∧ Plain error := by
  rw [serve]
  cases htransaction : transaction request with
  | error error => exact .inr ⟨error, ended, rfl, plain_of_transaction htransaction⟩
  | ok opened =>
      obtain ⟨mode, work⟩ := opened
      dsimp only
      cases clean_transaction htransaction tables h with
      | @ok value later hruns hlater hfits =>
          rw [Database.transact_of_ok hruns mode]
          refine .inl ⟨value, later, _, rfl, hlater, hfits, fun hreads => ?_⟩
          have hfinal := hruns.final_of_reading (reads_of_transaction hreads htransaction)
          exact Option.some.inj hfinal
      | @fail error final hruns hplain =>
          rw [Database.transact_of_error hruns mode]
          exact .inr ⟨error, _, rfl, hplain⟩

end Relational

end ParcelDesk
