import ParcelDesk.Proofs.Session.Tickets
import ParcelDesk.Proofs.Sheet.Octets
import ParcelDesk.Proofs.Text.Pieces
import ParcelDesk.Report

/-!
# Reading a report

A client reads the file of a report as cells and each cell as text. What is read are the outcomes
that were told, in their order and in the very words, below one header.
-/

namespace ParcelDesk

namespace Instruction

def name : Instruction → String
  | .run command => command.name
  | .setWorkers _ | .countWorkers => "workers"

def orderIds : Instruction → String
  | .run command => command.orderIds
  | .setWorkers _ | .countWorkers => ""

end Instruction

theorem Command.blank_notMem_name (command : Command) : ' ' ∉ command.name.toList := by
  cases command <;> simp [Command.name]

namespace Report

/-- What a client reads in the file of a report: the texts of its cells, record by record. The
error is the place of an octet that spells nothing. -/
def read (octets : List Char) : Except Nat (List (List String)) :=
  (Sheet.records octets).mapM fun cells =>
    cells.mapM fun cell => (Octets.decode cell).map String.ofList

/-- What a record tells: the instruction, how it ended, and its result or what went wrong. -/
def entry (instruction : Instruction) (result : Except Error String) : List String :=
  match result with
  | .ok detail => [instruction.name, instruction.orderIds, "ok", detail]
  | .error error =>
      [instruction.name, instruction.orderIds, error.errorClass.code, error.message]

/-! ## Labels -/

theorem splitLabel_append {name : List Char} (h : ' ' ∉ name) (ids : List Char) :
    splitLabel (name ++ ' ' :: ids) = (name, ids) := by
  have hname : ∀ c ∈ name, decide (c ≠ ' ') = true := fun c hc =>
    decide_eq_true fun heq => h (heq ▸ hc)
  rw [splitLabel, Text.takeWhile_append_of_stop hname (by simp),
    Text.dropWhile_append_of_stop hname (by simp)]
  rfl

theorem splitLabel_title (instruction : Instruction) :
    splitLabel instruction.title.toList =
      (instruction.name.toList, instruction.orderIds.toList) := by
  cases instruction with
  | run command =>
      have hlabel : command.label.toList =
          command.name.toList ++ ' ' :: command.orderIds.toList := by
        simp [Command.label]
      rw [Instruction.title, hlabel]
      exact splitLabel_append command.blank_notMem_name _
  | setWorkers | countWorkers =>
      have hworkers : splitLabel "workers".toList = ("workers".toList, "".toList) := by decide
      exact hworkers

theorem cells_title (instruction : Instruction) (result : Except Error String) :
    cells ⟨instruction.title, result⟩ = (entry instruction result).map String.toList := by
  simp only [cells, splitLabel_title]
  cases result <;> rfl

/-! ## Records -/

theorem lines_flatMap (rows : List (List (List Char))) : Sheet.Lines rows (rows.flatMap line) := by
  induction rows with
  | nil => exact .none
  | cons cells rows ih =>
      exact .more cells (List.cons_ne_nil '\n' []) (by simp [Sheet.isLineEnd]) ih

theorem stands_cells (outcome : Outcome) : Sheet.Stands (cells outcome) := by
  obtain ⟨label, result⟩ := outcome
  cases result <;> simp [Sheet.Stands, cells]

theorem records_render {outcomes : List Outcome} (hsome : outcomes ≠ []) :
    Sheet.records (render outcomes) = header :: outcomes.map cells := by
  obtain ⟨first, rest, rfl⟩ := List.exists_cons_of_ne_nil hsome
  refine (lines_flatMap (header :: (first :: rest).map cells)).records_eq ?_
  intro row hrow
  rcases List.mem_cons.1 hrow with rfl | hrow
  · simp [Sheet.Stands, header]
  · obtain ⟨outcome, -, rfl⟩ := List.mem_map.1 hrow
    exact stands_cells outcome

/-! ## Files -/

/-- The file of a text is read as the records of the text. -/
theorem read_octets (text : List Char) : read (Octets.ofString (String.ofList text)) =
    .ok ((Sheet.records text).map fun cells => cells.map String.ofList) := by
  rw [read, Octets.ofString_ofList, Sheet.records_octets]
  refine mapM_map_ok fun cells _ => ?_
  refine mapM_map_ok fun cell _ => ?_
  rw [Octets.ofString_ofList, Octets.decode_flatMap_ofChar]
  rfl

/-- The file of a report of some outcomes, each under the title of its instruction, is read as one
header and one record for each outcome, in their order. -/
theorem read_render {told : List (Instruction × Except Error String)} (hsome : told ≠ []) :
    read (Octets.ofString (String.ofList (render
        (told.map fun (instruction, result) => ⟨instruction.title, result⟩)))) =
      .ok (["op", "orders", "outcome", "detail"] ::
        told.map fun (instruction, result) => entry instruction result) := by
  rw [read_octets, records_render (by simpa using hsome)]
  simp only [header, List.map_cons, List.map_map, List.map_nil, Function.comp_def, cells_title,
    String.ofList_toList, List.map_id']

/-- Two outcomes whose words hold every mark that a report has a use for. -/
theorem read_render_marks :
    read (Octets.ofString (String.ofList (render [
        ⟨"give 1 2", .ok "said \"yes\",\r\nand left – at last"⟩,
        ⟨"workers", .error (.batch [.refused .wrongInput "0", .failed .io ","])⟩]))) =
      .ok [["op", "orders", "outcome", "detail"],
        ["give", "1 2", "ok", "said \"yes\",\r\nand left – at last"],
        ["workers", "", "INVALID_ARGUMENT", "wrong input: 0; IO error: ,"]] := by
  have hone : Numeral.digits (1 : UInt64).toNat = ['1'] := by
    rw [Numeral.digits, if_pos (by decide)]
    rfl
  have htwo : Numeral.digits (2 : UInt64).toNat = ['2'] := by
    rw [Numeral.digits, if_pos (by decide)]
    rfl
  have hids : Command.orderIds (.give [1, 2]) = "1 2" := by
    simp only [Command.orderIds, Command.idList, List.map_cons, List.map_nil, hone, htwo]
    rfl
  have hread := @read_render [
    (.run (.give [1, 2]), .ok "said \"yes\",\r\nand left – at last"),
    (.setWorkers 0, .error (.batch [.refused .wrongInput "0", .failed .io ","]))] (by simp)
  simp only [List.map_cons, List.map_nil, Instruction.title, Command.label, hids, entry,
    Instruction.name, Instruction.orderIds] at hread
  exact hread

end Report

end ParcelDesk
