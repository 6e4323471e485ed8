import ParcelDesk.Proofs.Calendar.Scan
import ParcelDesk.Proofs.Relational.Rows
import ParcelDesk.Proofs.Sheet.Layout
import ParcelDesk.Sheet.Instructions

/-!
# Reading back the instructions of a sheet

Every instruction can be told by a row, and a sheet with a row for each of some instructions gives
these instructions back, in whatever layout it is written.
-/

namespace ParcelDesk

theorem Container.tight_name (container : Container) : Text.Tight container.name.toList := by
  apply Text.tight_of_all
  cases container <;> rfl

theorem Container.name_ne_nil (container : Container) : container.name.toList ≠ [] := by
  cases container <;> decide

namespace Sheet

/-! ## Identifiers in a cell -/

/-- Holds of identifiers and a text that has their numerals with blanks between them. -/
inductive Spaced : List UInt64 → List Char → Prop
  | last (id : UInt64) : Spaced [id] (digitsOf id)
  | more (id : UInt64) {gap : List Char} (hsome : gap ≠ []) (hgap : Text.Blanks gap)
      {ids : List UInt64} {text : List Char} (hrest : Spaced ids text) :
      Spaced (id :: ids) (digitsOf id ++ gap ++ text)

namespace Spaced

variable {ids : List UInt64} {text : List Char}

theorem ne_nil (h : Spaced ids text) : text ≠ [] := by
  cases h with
  | last id => exact digitsOf_ne_nil id
  | more id => simp [digitsOf_ne_nil]

theorem tight (h : Spaced ids text) : Text.Tight text := by
  induction h with
  | last id => exact tight_digitsOf id
  | more id hsome hgap hrest ih =>
      constructor
      · rw [List.append_assoc, List.head?_append_of_ne_nil _ (digitsOf_ne_nil id)]
        exact (tight_digitsOf id).head
      · rw [List.getLast?_append_of_ne_nil _ hrest.ne_nil]
        exact ih.last

theorem words_eq (h : Spaced ids text) : Text.words text = ids.map digitsOf := by
  induction h with
  | last id => exact Text.words_of_forall (digitsOf_ne_nil id) fun _ => isBlank_of_mem_digitsOf
  | more id hsome hgap hrest ih =>
      obtain ⟨c, gap, rfl⟩ := List.exists_cons_of_ne_nil hsome
      have hblanks : Text.Blanks gap := fun d hd => hgap d (List.mem_cons_of_mem c hd)
      rw [List.append_assoc, List.cons_append,
        Text.words_append (digitsOf_ne_nil id) (fun _ => isBlank_of_mem_digitsOf)
          (hgap c List.mem_cons_self),
        hblanks.words_append, ih, List.map_cons]

end Spaced

theorem readId_digitsOf (id : UInt64) : readId (digitsOf id) = .ok id := by
  rw [readId, digitsOf, Numeral.read_digits]

theorem mapM_readId (ids : List UInt64) : (ids.map digitsOf).mapM readId = .ok ids := by
  rw [mapM_map_ok fun id _ => readId_digitsOf id, List.map_id']

theorem Spaced.readIds {ids : List UInt64} {text : List Char} (h : Spaced ids text) :
    readIds text = .ok ids := by
  rw [Sheet.readIds, h.words_eq, mapM_readId]

theorem readSingleId_digitsOf (verb : Verb) (id : UInt64) :
    readSingleId verb (some (digitsOf id)) = .ok id := by
  rw [readSingleId, required, ok_bind, (Spaced.last id).readIds, ok_bind]

/-! ## Instructions in a row -/

/-- Holds of a value and a cell that has it or, if it is the usual one, may be left empty. -/
def Filled (usual value : α) (cell : Option α) : Prop :=
  cell = some value ∨ cell = none ∧ value = usual

/-- Holds of an instruction and a row that has its values in their columns and nothing else. -/
inductive Tells : Instruction → Row → Prop
  | accept (parcel : Parcel) {container : Option Container} {wrap : Option Bool}
      (hcontainer : Filled .plain parcel.container container)
      (hwrap : Filled false parcel.wrapped wrap) :
      Tells (.run (.accept parcel)) {
        verb := some .accept
        user := some parcel.owner
        orders := some (digitsOf parcel.id)
        expiration := some parcel.expires.dayFirst
        package := container.map fun container => container.name.toList
        weight := some parcel.weight
        cost := some parcel.base
        wrap }
  | refund (owner id : UInt64) :
      Tells (.run (.refund owner id))
        { verb := some .refund, user := some owner, orders := some (digitsOf id) }
  | give {ids : List UInt64} {text : List Char} (hids : Spaced ids text) :
      Tells (.run (.give ids)) { verb := some .give, orders := some text }
  | sendBack (id : UInt64) :
      Tells (.run (.sendBack id)) { verb := some .sendBack, orders := some (digitsOf id) }
  | orders (owner : UInt64) {first limit : UInt64} {cursor bound : Option UInt64}
      (hcursor : Filled 0 first cursor) (hbound : Filled 0 limit bound) :
      Tells (.run (.orders owner first limit)) {
        verb := some .orders
        user := some owner
        orders := cursor.map digitsOf
        limit := bound }
  | refunds (page size : UInt64) :
      Tells (.run (.refunds page size))
        { verb := some .refunds, page := some page, limit := some size }
  | setWorkers (count : UInt64) :
      Tells (.setWorkers count) { verb := some .workers, workers := some count }
  | countWorkers : Tells .countWorkers { verb := some .workers }

theorem Tells.telling {instruction : Instruction} {row : Row} (h : Tells instruction row) :
    row.Telling := by
  have hdigits (id : UInt64) : digitsOf id ≠ [] ∧ Text.Tight (digitsOf id) :=
    ⟨digitsOf_ne_nil id, tight_digitsOf id⟩
  cases h with
  | accept parcel hcontainer hwrap =>
      constructor
      · simp
      · simpa using hdigits parcel.id
      · simpa using And.intro parcel.expires.dayFirst_ne_nil parcel.expires.tight_dayFirst
      · intro text htext
        obtain ⟨container, -, rfl⟩ := Option.map_eq_some_iff.1 htext
        exact ⟨Container.name_ne_nil container, Container.tight_name container⟩
  | refund owner id =>
      constructor <;> simp [hdigits id]
  | give hids =>
      constructor <;> simp [hids.ne_nil, hids.tight]
  | sendBack id =>
      constructor <;> simp [hdigits id]
  | orders owner hcursor hbound =>
      constructor
      · simp
      · intro text htext
        obtain ⟨id, -, rfl⟩ := Option.map_eq_some_iff.1 htext
        exact hdigits id
      · simp
      · simp
  | refunds | setWorkers | countWorkers =>
      constructor <;> simp

theorem Filled.getD {usual value : α} {cell : Option α} (h : Filled usual value cell) :
    cell.getD usual = value := by
  obtain rfl | ⟨rfl, rfl⟩ := h <;> rfl

theorem Filled.read_container {container : Container} {cell : Option Container}
    (h : Filled .plain container cell) :
    Container.read ((cell.map fun container => container.name.toList).getD []) = .ok container := by
  obtain rfl | ⟨rfl, rfl⟩ := h
  · exact Container.read_name container
  · rfl

theorem Tells.instructionOf {instruction : Instruction} {row : Row} (h : Tells instruction row) :
    instructionOf (.ok row) = .ok instruction := by
  cases h with
  | accept parcel hcontainer hwrap =>
      simp only [Sheet.instructionOf, Row.instruction, Row.parcel, required, ok_bind,
        readSingleId_digitsOf, Date.read_dayFirst, hcontainer.read_container, hwrap.getD]
  | refund owner id =>
      simp only [Sheet.instructionOf, Row.instruction, required, ok_bind, readSingleId_digitsOf]
  | give hids =>
      simp only [Sheet.instructionOf, Row.instruction, required, ok_bind, hids.readIds]
  | sendBack id =>
      simp only [Sheet.instructionOf, Row.instruction, ok_bind, readSingleId_digitsOf]
  | orders owner hcursor hbound =>
      obtain rfl | ⟨rfl, rfl⟩ := hcursor
      · simp only [Sheet.instructionOf, Row.instruction, required, ok_bind, Option.map_some,
          Option.isSome_some, if_true, readSingleId_digitsOf, hbound.getD]
      · simp only [Sheet.instructionOf, Row.instruction, required, ok_bind, Option.map_none,
          Option.isSome_none, Bool.false_eq_true, if_false, hbound.getD]
  | refunds page size =>
      simp only [Sheet.instructionOf, Row.instruction, required, ok_bind]
  | setWorkers count => rfl
  | countWorkers => rfl

/-! ## Instructions in a sheet -/

/-- Holds of instructions and lines that have the values of each under the columns. -/
def ToldBy (columns : List Column) (told : List Instruction)
    (lines : List (List (List Char))) : Prop :=
  List.Forall₂
    (fun instruction texts => ∃ row, Tells instruction row ∧ Laid (columns.map row.text) texts)
    told lines

variable {columns : List Column} {header : List (List Char)} {told : List Instruction}
  {lines : List (List (List Char))}

theorem ToldBy.exists_rows (h : ToldBy columns told lines) :
    ∃ rows, ShownBy columns rows lines ∧
      (rows.map Except.ok).map instructionOf = told.map .ok := by
  induction h with
  | nil => exact ⟨[], .nil, rfl⟩
  | cons hline _ ih =>
      obtain ⟨row, htells, hlaid⟩ := hline
      obtain ⟨rows, hshown, hrows⟩ := ih
      refine ⟨row :: rows, .cons ⟨htells.telling, hlaid⟩ hshown, ?_⟩
      rw [List.map_cons, List.map_cons, List.map_cons, htells.instructionOf, hrows]

/-- A sheet that names the columns in any order and tells instructions in its lines, with any blanks
around its cells and without some empty cells at the end of a line, gives these instructions. -/
theorem instructions_of_lines (hcolumns : columns.Perm Column.all)
    (hheader : Laid (columns.map fun column => column.name.toList) header)
    (hlines : ToldBy columns told lines) {sheet : List Char}
    (hsheet : Lines ((header :: lines).map encode) sheet) :
    instructions sheet = told.map .ok := by
  obtain ⟨rows, hshown, hrows⟩ := hlines.exists_rows
  rw [instructions, rows_of_lines hcolumns hheader hshown hsheet, hrows]

/-- Two lines under columns in another order, the first ended early, the second without its end. -/
theorem instructions_of_two_lines :
    instructions (" orders,op\t,user,expiration,package,weight,cost,wrap,page,limit,workers\n" ++
        "31 30  31 ,give\r\n,workers,,,,,,,,,8").toList =
      [.ok (.run (.give [31, 30, 31])), .ok (.setWorkers 8)] := by
  have hspaced := Spaced.more 31 (by decide : [' '] ≠ []) (by decide)
    (Spaced.more 30 (by decide : [' ', ' '] ≠ []) (by decide) (Spaced.last 31))
  have h31 : digitsOf 31 = ['3', '1'] := by simp [digitsOf, Numeral.digits]; decide
  have h30 : digitsOf 30 = ['3', '0'] := by simp [digitsOf, Numeral.digits]; decide
  have h8 : numberText (some 8) = ['8'] := by simp [numberText, digitsOf, Numeral.digits]; decide
  rw [h31, h30] at hspaced
  let columns : List Column := [.orders, .verb, .user, .expiration, .package, .weight, .cost,
    .wrap, .page, .limit, .workers]
  let header := [" orders".toList, "op\t".toList, "user".toList, "expiration".toList,
    "package".toList, "weight".toList, "cost".toList, "wrap".toList, "page".toList,
    "limit".toList, "workers".toList]
  let give := ["31 30  31 ".toList, "give".toList]
  let workers := [[], "workers".toList, [], [], [], [], [], [], [], [], ['8']]
  have hheader : Laid (columns.map fun column => column.name.toList) header :=
    .cell ⟨[' '], [], by decide, by decide, rfl⟩
      (.cell ⟨[], ['\t'], by decide, by decide, rfl⟩ (laid_self _))
  have hgive : ∃ row, Tells (.run (.give [31, 30, 31])) row ∧ Laid (columns.map row.text) give :=
    ⟨_, .give hspaced, .cell ⟨[], [' '], by decide, by decide, rfl⟩
      (.cell (Text.shows_self _) (.cut (by decide)))⟩
  have hworkers : ∃ row, Tells (.setWorkers 8) row ∧ Laid (columns.map row.text) workers := by
    refine ⟨_, .setWorkers 8, ?_⟩
    have hvalues : columns.map
        (Row.text { verb := some .workers, workers := some 8 }) = workers := by
      simp only [columns, List.map_cons, List.map_nil, Row.text, h8]
      rfl
    rw [hvalues]
    exact laid_self workers
  have hsheet := Lines.more header (by decide : ['\n'] ≠ []) (by simp [isLineEnd])
    (Lines.more give (by decide : ['\r', '\n'] ≠ []) (by simp [isLineEnd]) (Lines.last workers))
  have hencode : [header, give, workers].map encode = [header, give, workers] := by
    rw [List.map_cons, List.map_cons, List.map_cons, List.map_nil,
      encode_of_isAscii (by decide), encode_of_isAscii (by decide),
      encode_of_isAscii (by decide)]
  rw [← hencode] at hsheet
  exact instructions_of_lines (by decide) hheader (.cons hgive (.cons hworkers .nil)) hsheet

end Sheet

end ParcelDesk
