import ParcelDesk.Proofs.Calendar.Scan
import ParcelDesk.Proofs.Json.Octets
import ParcelDesk.Proofs.Json.Records
import ParcelDesk.Proofs.Store.Stock

/-!
# Reading snapshots back

Every record of the stores is read back from its document, and so is a stock in which every place
of an index is a word.
-/

namespace ParcelDesk

open Json

namespace Json

theorem plain_append {a b : List Char} (ha : Plain a) (hb : Plain b) : Plain (a ++ b) := by
  intro c hc
  rcases List.mem_append.1 hc with hc | hc
  · exact ha c hc
  · exact hb c hc

theorem plain_cons {c : Char} {text : List Char} (hc : IsPlain c) (h : Plain text) :
    Plain (c :: text) := by
  intro d hd
  rcases List.mem_cons.1 hd with rfl | hd
  · exact hc
  · exact h d hd

theorem plain_padded (width n : Nat) : Plain (Numeral.padded width n) :=
  fun _ hc => isPlain_of_isDigit (Numeral.isDigit_of_mem_padded hc)

theorem plain_yearText (year : Int) : Plain (Date.yearText year) := by
  rw [Date.yearText]
  split
  · exact plain_padded 4 _
  · split
    · exact plain_cons (by decide) (plain_padded 4 _)
    · exact plain_cons (by decide) (plain_padded 4 _)

theorem plain_yearFirst (date : Date) : Plain date.yearFirst :=
  plain_append (plain_append (plain_yearText _) (plain_cons (by decide) (plain_padded 2 _)))
    (plain_cons (by decide) (plain_padded 2 _))

theorem plain_fractionText (nano : Nat) : Plain (Instant.fractionText nano) := by
  rw [Instant.fractionText]
  split
  · decide
  · split
    · exact plain_cons (by decide) (plain_padded 3 _)
    · split
      · exact plain_cons (by decide) (plain_padded 6 _)
      · exact plain_cons (by decide) (plain_padded 9 _)

theorem plain_clockText (inDay nano : Nat) : Plain (Instant.clockText inDay nano) :=
  plain_append (plain_append (plain_append (plain_padded 2 _)
    (plain_cons (by decide) (plain_padded 2 _))) (plain_cons (by decide) (plain_padded 2 _)))
    (plain_fractionText _)

theorem plain_text (time : Instant) : Plain time.text :=
  plain_append (plain_append (plain_yearFirst _) (plain_cons (by decide) (plain_clockText _ _)))
    (by decide)

theorem reads_date (date : Date) : Reads readDate (.ofDate date) date :=
  reads_parsed (plain_yearFirst date) _ (by rw [Scan.date_yearFirst]; rfl)

theorem reads_instant (time : Instant) : Reads readInstant (.ofInstant time) time :=
  reads_parsed (plain_text time) _ (by rw [Scan.instant_text]; rfl)

end Json

theorem Container.reads (container : Container) :
    Reads Container.reader container.toJson container := by
  cases container <;> exact reads_name (by decide) rfl

theorem Status.reads (status : Status) : Reads Status.reader status.toJson status := by
  cases status <;> exact reads_name (by decide) rfl

namespace Order

theorem named_fields : Named Draft.fields := ⟨by decide, by decide⟩

def drafted (order : Order) : Draft :=
  ⟨some order.expires, some order.container, some order.weight, some order.cost, some order.taped⟩

theorem finish_drafted (order : Order) : order.drafted.finish = .ok order := rfl

theorem reads (order : Order) : Reads Order.reader order.toJson order := by
  refine Fills.reads named_fields ?_ order.finish_drafted "Order"
  exact .cons rfl (reads_make (reads_date order.expires) _) <|
    .cons rfl (reads_make order.container.reads _) <|
    .cons rfl (reads_make (reads_ofWord "u64" order.weight) _) <|
    .cons rfl (reads_make (reads_ofWord "u64" order.cost) _) <|
    .cons rfl (reads_make (reads_bool order.taped) _) <|
    .nil _

end Order

namespace Record

theorem named_fields : Named Draft.fields := ⟨by decide, by decide⟩

def drafted (record : Record) : Draft :=
  ⟨some record.order, some record.status, some record.owner, some record.changed⟩

theorem finish_drafted (record : Record) : record.drafted.finish = .ok record := rfl

theorem reads (record : Record) : Reads Record.reader record.toJson record := by
  refine Fills.reads named_fields ?_ record.finish_drafted "OrderStatus"
  exact .cons rfl (reads_make record.order.reads _) <|
    .cons rfl (reads_make record.status.reads _) <|
    .cons rfl (reads_make (reads_ofWord "u64" record.owner) _) <|
    .cons rfl (reads_make (reads_instant record.changed) _) <|
    .nil _

end Record

namespace Slot

theorem named_fields : Named Draft.fields := ⟨by decide, by decide⟩

def drafted (slot : Slot) : Draft :=
  ⟨some slot.order, some slot.owner, some slot.id, some slot.live⟩

theorem finish_drafted (slot : Slot) : slot.drafted.finish = .ok slot := rfl

theorem reads (slot : Slot) : Reads Slot.reader slot.toJson slot := by
  refine Fills.reads named_fields ?_ slot.finish_drafted "OrderView"
  exact .cons rfl (reads_make slot.order.reads _) <|
    .cons rfl (reads_make (reads_ofWord "u64" slot.owner) _) <|
    .cons rfl (reads_make (reads_ofWord "u64" slot.id) _) <|
    .cons rfl (reads_make (reads_bool slot.live) _) <|
    .nil _

theorem reads_all (slots : List Slot) :
    List.Forall₂ (Reads Slot.reader) (slots.map toJson) slots := by
  induction slots with
  | nil => exact .nil
  | cons slot rest ih => exact .cons slot.reads ih

end Slot

namespace Rack

def PlacesFit (rack : Rack) : Prop :=
  ∀ entry ∈ rack.index.entries, entry.2 < UInt64.size

theorem named_fields : Named Draft.fields := ⟨by decide, by decide⟩

def drafted (rack : Rack) : Draft :=
  ⟨some rack.slots, some rack.index⟩

theorem finish_drafted (rack : Rack) : rack.drafted.finish = .ok rack := rfl

theorem reads_place {place : Nat} (h : place < UInt64.size) :
    Reads Draft.readPlace (.number place) place := by
  intro level blank rest hblank hrest
  have hplace : place.toUInt64.toNat = place := UInt64.toNat_ofNat_of_lt h
  rw [Draft.readPlace, reads_number h "usize" level hblank hrest, ok_bind]
  simp only [hplace]

theorem PlacesFit.reads {rack : Rack} (h : rack.PlacesFit) {document : Json}
    (hwritten : rack.Written document) : Reads Rack.reader document rack := by
  obtain ⟨hindex⟩ := hwritten
  have hindex := hindex.reads fun entry hentry document hdocument =>
    hdocument ▸ reads_place (h entry hentry)
  refine Fills.reads named_fields ?_ rack.finish_drafted "ViewArena"
  exact .cons rfl (reads_make (Reads.array (Slot.reads_all rack.slots)) _) <|
    .cons rfl (reads_make hindex _) <|
    .nil _

end Rack

namespace Holding

theorem named_fields : Named Draft.fields := ⟨by decide, by decide⟩

def drafted (holding : Holding) : Draft :=
  ⟨some holding.owner, some holding.orders, some holding.rack⟩

theorem finish_drafted (holding : Holding) : holding.drafted.finish = .ok holding := rfl

theorem reads {holding : Holding} (h : holding.rack.PlacesFit) {document : Json}
    (hwritten : holding.Written document) : Reads Holding.reader document holding := by
  obtain ⟨horders, hrack⟩ := hwritten
  have horders := horders.reads fun entry _ document hdocument => hdocument ▸ entry.2.reads
  refine Fills.reads named_fields ?_ holding.finish_drafted "UserOrders"
  exact .cons rfl (reads_make (reads_ofWord "u64" holding.owner) _) <|
    .cons rfl (reads_make horders _) <|
    .cons rfl (reads_make (h.reads hrack) _) <|
    .nil _

end Holding

namespace Stock

structure PlacesFit (stock : Stock) : Prop where
  holdings_fit : ∀ owner, (stock.holding owner).rack.PlacesFit
  refunds_fit : Rack.PlacesFit stock.refunds

theorem PlacesFit.entry {stock : Stock} (h : stock.PlacesFit) {entry : UInt64 × Holding}
    (hentry : entry ∈ stock.holdings.entries) : entry.2.rack.PlacesFit := by
  have hfit := h.holdings_fit entry.1
  rw [holding_of_get? (IdMap.get?_of_mem hentry)] at hfit
  exact hfit

theorem named_fields : Named Draft.fields := ⟨by decide, by decide⟩

def drafted (stock : Stock) : Draft :=
  ⟨some stock.history, some stock.holdings, some stock.refunds⟩

theorem finish_drafted (stock : Stock) : stock.drafted.finish = .ok stock := rfl

theorem PlacesFit.reads {stock : Stock} (h : stock.PlacesFit) {document : Json}
    (hwritten : stock.Written document) : Reads Stock.reader document stock := by
  obtain ⟨hhistory, hholdings, hrefunds⟩ := hwritten
  have hhistory := hhistory.reads fun entry _ document hdocument =>
    hdocument ▸ Record.reads entry.2
  have hholdings := hholdings.reads fun entry hentry document hdocument =>
    Holding.reads (h.entry hentry) hdocument
  refine Fills.reads named_fields ?_ stock.finish_drafted "Snapshot"
  exact .cons rfl (reads_optional hhistory _) <|
    .cons rfl (reads_optional hholdings _) <|
    .cons rfl (reads_optional (h.refunds_fit.reads hrefunds) _) <|
    .nil _

/-- A snapshot is read as the stock of which it was taken. -/
theorem PlacesFit.ofSnapshot {stock : Stock} (h : stock.PlacesFit) {octets : List Char}
    (hsnapshot : stock.IsSnapshot octets) : ofSnapshot octets = .ok stock := by
  obtain ⟨document, hwritten, rfl⟩ := hsnapshot
  have hopens : ∃ rest, document.pretty = '\x7b' :: rest := by
    obtain ⟨-, -, -⟩ := hwritten
    rw [Stock.document, pretty, spread, block_eq]
    exact ⟨_, rfl⟩
  have hread := (h.reads hwritten).start 0 ends_nil
  rw [List.append_nil] at hread
  obtain ⟨rest, hrest⟩ := hopens
  have hfull : document.pretty.all Text.isAsciiBlank = false := by
    rw [hrest]
    rfl
  rw [Stock.ofSnapshot, hfull, readDocument, pretty, hread, ok_bind]
  rfl

theorem ofSnapshot_fresh : ofSnapshot "{}".toList = .ok .empty := by
  have hmembers (start : Draft) :
      members (recordMember Draft.fields) true start ['\x7d'] = .ok (start, []) :=
    members_end true start blank_nil []
  have hread : reader ['\x7b', '\x7d'] = .ok (.empty, []) := by
    change (members _ true _ ['\x7d'] >>= _) = _
    rw [hmembers]
    rfl
  change (readDocument reader ['\x7b', '\x7d']).mapError _ = _
  rw [readDocument, hread]
  rfl

end Stock

/-! ## The octets of a snapshot -/

theorem Container.plain_toJson (container : Container) : container.toJson.AllPlain := by
  rw [toJson, ofString, AllPlain]
  cases container <;> decide

theorem Status.plain_toJson (status : Status) : status.toJson.AllPlain := by
  rw [toJson, ofString, AllPlain]
  cases status <;> decide

theorem Order.plain_toJson (order : Order) : order.toJson.AllPlain := by
  simp only [toJson, AllPlain, MembersPlain, ofDate, ofWord, plain_yearFirst,
    order.container.plain_toJson, and_true]
  decide

theorem Record.plain_toJson (record : Record) : record.toJson.AllPlain := by
  simp only [toJson, AllPlain, MembersPlain, ofInstant, ofWord, plain_text,
    record.order.plain_toJson, record.status.plain_toJson, and_true]
  decide

theorem Slot.plain_toJson (slot : Slot) : slot.toJson.AllPlain := by
  simp only [toJson, AllPlain, MembersPlain, ofWord, slot.order.plain_toJson, and_true]
  decide

theorem Json.MembersFor.plain {writes : α → Json → Prop} {entries : List (UInt64 × α)}
    {members : List (String × Json)} (h : MembersFor writes entries members)
    (hplain : ∀ value document, writes value document → document.AllPlain) :
    MembersPlain members := by
  induction h with
  | nil => trivial
  | cons hwrites _ ih => exact ⟨plain_digits _, hplain _ _ hwrites, ih⟩

theorem Json.MapWritten.plain {writes : α → Json → Prop} {map : IdMap α} {document : Json}
    (h : MapWritten writes map document)
    (hplain : ∀ value document, writes value document → document.AllPlain) :
    document.AllPlain := by
  obtain ⟨-, hmembers⟩ := h
  rw [AllPlain]
  exact hmembers.plain hplain

theorem Rack.Written.plain {rack : Rack} {document : Json} (h : rack.Written document) :
    document.AllPlain := by
  obtain ⟨hindex⟩ := h
  have hslots : ItemsPlain (rack.slots.map Slot.toJson) := by
    rw [itemsPlain_iff]
    intro item hitem
    obtain ⟨slot, -, rfl⟩ := List.mem_map.1 hitem
    exact slot.plain_toJson
  have hindex := hindex.plain fun _ _ hdocument => hdocument ▸ trivial
  simp only [Rack.document, AllPlain, MembersPlain, hslots, hindex, and_true]
  decide

theorem Holding.Written.plain {holding : Holding} {document : Json}
    (h : holding.Written document) : document.AllPlain := by
  obtain ⟨horders, hrack⟩ := h
  have horders := horders.plain fun order _ hdocument => hdocument ▸ order.plain_toJson
  simp only [Holding.document, AllPlain, MembersPlain, ofWord, horders, hrack.plain, and_true]
  decide

theorem Stock.Written.plain {stock : Stock} {document : Json} (h : stock.Written document) :
    document.AllPlain := by
  obtain ⟨hhistory, hholdings, hrefunds⟩ := h
  have hhistory := hhistory.plain fun record _ hdocument => hdocument ▸ record.plain_toJson
  have hholdings := hholdings.plain fun _ _ hdocument => Holding.Written.plain hdocument
  simp only [Stock.document, AllPlain, MembersPlain, hhistory, hholdings, hrefunds.plain, and_true]
  decide

theorem Stock.IsSnapshot.isAscii {stock : Stock} {octets : List Char}
    (h : stock.IsSnapshot octets) : Octets.IsAscii octets := by
  obtain ⟨document, hwritten, rfl⟩ := h
  exact isAscii_spread 0 document hwritten.plain

end ParcelDesk
