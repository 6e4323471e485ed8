import ParcelDesk.Proofs.Json.Records

/-!
# What readers yield

A property of every value that a reader yields, whatever the document. Of a record it holds when
the draft keeps an invariant, field by field.
-/

namespace ParcelDesk.Json

def Yields (read : Reader α) (P : α → Prop) : Prop :=
  ∀ (text : List Char) (value : α) (rest : List Char), read text = .ok (value, rest) → P value

theorem bind_eq_ok {result : Except ε α} {next : α → Except ε β} {value : β}
    (h : (result >>= next) = .ok value) : ∃ first, result = .ok first ∧ next first = .ok value := by
  cases result with
  | error error => cases h
  | ok first => exact ⟨first, rfl, h⟩

theorem yields_any (read : Reader α) : Yields read fun _ => True :=
  fun _ _ _ _ => trivial

theorem map_eq_ok {result : Except ε α} {f : α → β} {value : β} (h : result.map f = .ok value) :
    ∃ first, result = .ok first ∧ f first = value := by
  cases result with
  | error error => cases h
  | ok first => exact ⟨first, rfl, Except.ok.inj h⟩

/-- What one step of reading members keeps, reading them all keeps. -/
theorem members_keeps {step : σ → List Char → Except Fault (σ × List Char)} {Inv : σ → Prop}
    (hstep : ∀ state, Inv state → Yields (step state) Inv) {first : Bool} {state : σ}
    (hstate : Inv state) : Yields (members step first state) Inv := by
  intro text final rest h
  fun_induction members step first state text with
  | case1 first state text fault hnext => cases h
  | case2 first state text hnext =>
      obtain ⟨after, -, hfinal⟩ := map_eq_ok h
      cases hfinal
      exact hstate
  | case3 first state text member hnext fault hfault => cases h
  | case4 first state text member hnext next after hread hshort ih =>
      exact ih (hstep state hstate _ _ _ hread) h
  | case5 first state text member hnext next after hread hlong => cases h

variable {fields : List (RecordField σ)} {Inv : σ → Prop}

def FieldsKeep (fields : List (RecordField σ)) (Inv : σ → Prop) : Prop :=
  ∀ field ∈ fields, ∀ draft, Inv draft → Yields (field.read draft) Inv

theorem fieldsKeep_nil : FieldsKeep ([] : List (RecordField σ)) Inv := by
  intro field hfield
  cases hfield

theorem fieldsKeep_cons {field : RecordField σ}
    (hfield : ∀ draft, Inv draft → Yields (field.read draft) Inv) (h : FieldsKeep fields Inv) :
    FieldsKeep (field :: fields) Inv := by
  intro other hother
  rcases List.mem_cons.1 hother with rfl | hother
  · exact hfield
  · exact h other hother

theorem FieldsKeep.recordMember (h : FieldsKeep fields Inv) (draft : σ) (hdraft : Inv draft) :
    Yields (recordMember fields draft) Inv := by
  intro text final rest hread
  obtain ⟨⟨name, after⟩, -, hread⟩ := bind_eq_ok hread
  simp only at hread
  split at hread
  · rename_i field hfield
    split at hread
    · cases hread
    · obtain ⟨value, -, hread⟩ := bind_eq_ok hread
      exact h field (List.mem_of_find?_eq_some hfield) draft hdraft _ _ _ hread
  · obtain ⟨value, -, hread⟩ := bind_eq_ok hread
    obtain ⟨skipped, -, hread⟩ := bind_eq_ok hread
    cases hread
    exact hdraft

theorem FieldsKeep.recordItems (wanted : String) {fields : List (RecordField σ)}
    (h : FieldsKeep fields Inv) {count : Nat} {draft : σ} (hdraft : Inv draft) :
    Yields (recordItems wanted fields count draft) Inv := by
  intro text final rest hread
  induction fields generalizing count draft text with
  | nil =>
      cases hread
      exact hdraft
  | cons field fields ih =>
      have hrest : FieldsKeep fields Inv :=
        fun other hother => h other (List.mem_cons_of_mem _ hother)
      obtain ⟨next, -, hread⟩ := bind_eq_ok hread
      cases next with
      | some item =>
          obtain ⟨⟨next, after⟩, hfield, hread⟩ := bind_eq_ok hread
          exact ih hrest (h field List.mem_cons_self draft hdraft _ _ _ hfield) _ hread
      | none =>
          simp only at hread
          split at hread
          · exact ih hrest hdraft _ hread
          · cases hread

theorem FieldsKeep.yields_record (h : FieldsKeep fields Inv) {start : σ} (hstart : Inv start)
    {finish : σ → Except Fault α} {P : α → Prop}
    (hfinish : ∀ draft value, Inv draft → finish draft = .ok value → P value) (name : String) :
    Yields (readRecord name fields start finish) P := by
  intro text value rest hread
  rw [readRecord] at hread
  split at hread
  · obtain ⟨⟨draft, after⟩, hitems, hread⟩ := bind_eq_ok hread
    obtain ⟨found, hfound, hread⟩ := bind_eq_ok hread
    obtain ⟨ended, -, hread⟩ := bind_eq_ok hread
    cases hread
    exact hfinish _ _ (h.recordItems _ hstart _ _ _ hitems) hfound
  · obtain ⟨⟨draft, after⟩, hmembers, hread⟩ := bind_eq_ok hread
    obtain ⟨found, hfound, hread⟩ := bind_eq_ok hread
    cases hread
    exact hfinish _ _ (members_keeps h.recordMember hstart _ _ _ hmembers) hfound
  · cases hread

theorem need_eq_ok {name : String} {found : Option α} {value : α}
    (h : need name found = .ok value) : found = some value := by
  cases found with
  | none => cases h
  | some first => exact congrArg some (Except.ok.inj h)

theorem make_keeps {get : σ → Option α} {set : σ → α → σ} {read : Reader α} {P : α → Prop}
    (hread : Yields read P) (hset : ∀ draft value, Inv draft → P value → Inv (set draft value))
    (name : String) (draft : σ) (hdraft : Inv draft) :
    Yields ((RecordField.make name get set read).read draft) Inv := by
  intro text final rest h
  obtain ⟨⟨value, after⟩, hvalue, h⟩ := bind_eq_ok h
  cases h
  exact hset draft value hdraft (hread _ _ _ hvalue)

theorem optional_keeps {get : σ → Option α} {set : σ → α → σ} {read : Reader α} {P : α → Prop}
    (hread : Yields read P) (hset : ∀ draft value, Inv draft → P value → Inv (set draft value))
    (name : String) (draft : σ) (hdraft : Inv draft) :
    Yields ({ RecordField.make name get set read with optional := true }.read draft) Inv :=
  @make_keeps σ Inv α get set read P hread hset name draft hdraft

theorem readEntry_keeps {read : Reader α} {P : α → Prop} (h : Yields read P) (map : IdMap α)
    (hmap : ∀ entry ∈ map.entries, P entry.2) :
    Yields (readEntry read map) fun map => ∀ entry ∈ map.entries, P entry.2 := by
  intro text next rest hread
  obtain ⟨⟨id, after⟩, -, hread⟩ := bind_eq_ok hread
  obtain ⟨value, -, hread⟩ := bind_eq_ok hread
  obtain ⟨⟨value, rest⟩, hvalue, hread⟩ := bind_eq_ok hread
  cases hread
  intro entry hentry
  rcases IdMap.mem_place hentry with rfl | hentry
  · exact h _ _ _ hvalue
  · exact hmap entry hentry

theorem yields_map {read : Reader α} {P : α → Prop} (h : Yields read P) :
    Yields (readIdMap read) fun map => ∀ entry ∈ map.entries, P entry.2 := by
  intro text map rest hread
  rw [readIdMap, readMap] at hread
  split at hread
  · refine members_keeps (readEntry_keeps h) ?_ _ _ _ hread
    intro entry hentry
    cases hentry
  · cases hread

end ParcelDesk.Json
