import ParcelDesk.Proofs.Json.Reads
import ParcelDesk.Store.Document

/-!
# Reading records and maps back

A record is read back when each of its members is read into the draft; a map is, when each of its
values is.
-/

namespace ParcelDesk.Json

/-! ## Members -/

/-- The pieces of an object, read one after the other, lead from one state to another. -/
inductive Steps (step : σ → List Char → Except Fault (σ × List Char)) :
    σ → List (List Char) → σ → Prop
  | nil (state : σ) : Steps step state [] state
  | cons {state next final : σ} {body : List Char} {pieces : List (List Char)}
      (hstep : ∀ {rest}, Ends rest → step state ('"' :: (body ++ rest)) = .ok (next, rest))
      (hsteps : Steps step next pieces final) : Steps step state (('"' :: body) :: pieces) final

theorem nextMember_first {blank : List Char} (hblank : Blank blank) (text : List Char) :
    nextMember true (blank ++ '"' :: text) = .ok (some ('"' :: text)) := by
  rw [nextMember, hblank.skip, skip_cons (by decide)]
  rfl

theorem nextMember_later {blank : List Char} (hblank : Blank blank) (text : List Char) :
    nextMember false (',' :: (blank ++ '"' :: text)) = .ok (some ('"' :: text)) := by
  rw [nextMember, skip_cons (by decide)]
  simp [hblank.skip, skip_cons (show isSpace '"' = false by decide)]

variable {step : σ → List Char → Except Fault (σ × List Char)}

theorem members_end (first : Bool) (state : σ) {blank : List Char} (hblank : Blank blank)
    (rest : List Char) :
    members step first state (blank ++ '\x7d' :: rest) = .ok (state, rest) := by
  have hskip : skip (blank ++ '\x7d' :: rest) = '\x7d' :: rest := hblank.skip _
  rw [members, nextMember, endObject, hskip]
  rfl

theorem members_cons {first : Bool} {state next : σ} {text member after : List Char}
    (hnext : nextMember first text = .ok (some member))
    (hstep : step state member = .ok (next, after)) (hshort : after.length < text.length) :
    members step first state text = members step false next after := by
  rw [members, hnext]
  simp only [hstep, if_pos hshort]

theorem Steps.members_further {state final : σ} {pieces : List (List Char)}
    (h : Steps step state pieces final) (level : Nat) (rest : List Char) :
    members step false state (further level '\x7d' pieces ++ rest) = .ok (final, rest) := by
  induction h with
  | nil state =>
      rw [further, List.append_assoc]
      exact members_end false state (blank_margin level) rest
  | cons hstep _ ih =>
      rw [further, List.cons_append, List.cons_append, List.append_assoc, List.append_assoc,
        List.cons_append,
        members_cons (nextMember_later (blank_margin _) _) (hstep (ends_further level _ _ rest)) ?_,
        ih]
      simp only [List.length_cons, List.length_append]
      omega

theorem Steps.members {state final : σ} {pieces : List (List Char)}
    (h : Steps step state pieces final) (level : Nat) (rest : List Char) :
    members step true state (inside level '\x7d' pieces ++ rest) = .ok (final, rest) := by
  cases h with
  | nil => exact members_end true state blank_nil rest
  | cons hstep hsteps =>
      rw [inside, List.append_assoc, List.append_assoc, List.cons_append,
        members_cons (nextMember_first (blank_margin _) _) (hstep (ends_further level _ _ rest)) ?_]
      · exact hsteps.members_further level rest
      · simp only [margin, List.length_cons, List.length_append]
        omega

theorem colon_self (rest : List Char) : colon (':' :: rest) = .ok rest := rfl

/-! ## Records -/

/-- The members of an object, one for each field and in their order, take a draft from one state to
another. -/
inductive Fills : List (RecordField σ) → σ → List (String × Json) → σ → Prop
  | nil (draft : σ) : Fills [] draft [] draft
  | cons {draft next final : σ} {document : Json} {members : List (String × Json)}
      {field : RecordField σ} {fields : List (RecordField σ)} (hset : field.isSet draft = false)
      (hread : Reads (field.read draft) document next) (hrest : Fills fields next members final) :
      Fills (field :: fields) draft ((field.name, document) :: members) final

structure Named (fields : List (RecordField σ)) : Prop where
  nodup : (fields.map RecordField.name).Nodup
  plain : ∀ name ∈ fields.map RecordField.name, Plain name.toList

theorem Named.find {fields done rest : List (RecordField σ)} {field : RecordField σ}
    (h : Named fields) (hfields : fields = done ++ field :: rest) :
    fields.find? (fun other => other.name.toList == field.name.toList) = some field := by
  have hnodup := h.nodup
  rw [hfields, List.map_append, List.nodup_append] at hnodup
  have hbefore : done.find? (fun other => other.name.toList == field.name.toList) = none := by
    rw [List.find?_eq_none]
    intro other hother heq
    exact hnodup.2.2 _ (List.mem_map_of_mem hother) _ List.mem_cons_self
      (String.toList_inj.1 (beq_iff_eq.1 heq))
  rw [hfields, List.find?_append, hbefore, Option.none_or, List.find?_cons]
  simp only [beq_self_eq_true]

theorem memberText_plain {name : String} (h : Plain name.toList) (level : Nat) (document : Json) :
    memberText level name document =
      '"' :: (name.toList ++ '"' :: ':' :: ' ' :: document.spread (level + 1)) := by
  rw [memberText, quoted_plain h]
  simp only [List.cons_append, List.append_assoc, List.nil_append]

theorem Fills.steps {fields done rest : List (RecordField σ)} (hnamed : Named fields)
    (hfields : fields = done ++ rest) {draft final : σ} {members : List (String × Json)}
    (h : Fills rest draft members final) (level : Nat) :
    Steps (recordMember fields) draft
      (members.map fun entry => memberText level entry.1 entry.2) final := by
  induction h generalizing done with
  | nil draft => exact .nil draft
  | @cons draft next final document members field rest hset hread _ ih =>
      have hplain : Plain field.name.toList :=
        hnamed.plain _ (List.mem_map_of_mem (by rw [hfields]; simp))
      rw [List.map_cons, memberText_plain hplain]
      refine .cons ?_ (ih (hfields.trans (List.append_cons done field rest)))
      intro rest hrest
      rw [recordMember, List.drop_succ_cons, List.drop_zero, List.append_assoc, List.cons_append,
        textBody_plain hplain, ok_bind]
      simp only [hnamed.find hfields, hset, List.cons_append, colon_self, ok_bind,
        Bool.false_eq_true, if_false]
      exact hread (level + 1) blank_space hrest

theorem Fills.reads {fields : List (RecordField σ)} (hnamed : Named fields) {start draft : σ}
    {members : List (String × Json)} (h : Fills fields start members draft)
    {finish : σ → Except Fault α} {value : α} (hfinish : finish draft = .ok value) (name : String) :
    Reads (readRecord name fields start finish) (.object members) value := by
  intro level blank rest hblank hrest
  rw [spread, spreadMembers_eq_map, block_eq, readRecord, hblank.skip, List.cons_append,
    skip_cons (by decide)]
  simp only [(h.steps hnamed (List.nil_append fields).symm level).members level rest, ok_bind,
    hfinish]

theorem reads_make {get : σ → Option α} {set : σ → α → σ} {read : Reader α} {name : String}
    {document : Json} {value : α} (h : Reads read document value) (draft : σ) :
    Reads ((RecordField.make name get set read).read draft) document (set draft value) := by
  intro level blank rest hblank hrest
  simp only [RecordField.make, h level hblank hrest, ok_bind]

theorem reads_optional {get : σ → Option α} {set : σ → α → σ} {read : Reader α} {name : String}
    {document : Json} {value : α} (h : Reads read document value) (draft : σ) :
    Reads ({ RecordField.make name get set read with optional := true }.read draft) document
      (set draft value) :=
  @reads_make σ α get set read name document value h draft

/-! ## Maps -/

theorem numberName_digits (id : UInt64) (rest : List Char) :
    numberName ('"' :: (Numeral.digits id.toNat ++ '"' :: rest)) = .ok (id, rest) := by
  obtain ⟨c, tail, hdigits, hc⟩ := exists_cons_digits id.toNat
  have hends : Ends ('"' :: rest) := ends_cons (by decide) rest
  have hread := readWord_digits id.toNat_lt "u64" blank_nil hends
  have hword : id.toNat.toUInt64 = id := UInt64.ofNat_toNat
  rw [List.nil_append, hword] at hread
  rw [numberName, List.drop_succ_cons, List.drop_zero, hread, hdigits]
  simp [hc, ok_bind]

end ParcelDesk.Json

namespace ParcelDesk.IdMap

theorem place_last {id : UInt64} {entries : List (UInt64 × α)}
    (h : ∀ entry ∈ entries, entry.1 < id) (value : α) :
    place id value entries = entries ++ [(id, value)] := by
  induction entries with
  | nil => rfl
  | cons entry rest ih =>
      have hlt := h entry List.mem_cons_self
      rw [place, if_neg (UInt64.not_lt.2 (UInt64.le_of_lt hlt)), if_neg (UInt64.ne_of_lt hlt).symm,
        ih fun other hother => h other (List.mem_cons_of_mem entry hother)]
      rfl

def insertAll (map : IdMap α) (entries : List (UInt64 × α)) : IdMap α :=
  entries.foldl (fun map entry => map.insert entry.1 entry.2) map

theorem insertAll_ascending : ∀ {rest done : List (UInt64 × α)}
    (hdone : done.Pairwise fun a b => a.1 < b.1)
    (hall : (done ++ rest).Pairwise fun a b => a.1 < b.1),
    (⟨done, hdone⟩ : IdMap α).insertAll rest = ⟨done ++ rest, hall⟩
  | [], done, hdone, hall => by
      simp only [List.append_nil]
      rfl
  | (id, value) :: rest, done, hdone, hall => by
      have hlast : ∀ entry ∈ done, entry.1 < id := fun entry hentry =>
        (List.pairwise_append.1 hall).2.2 entry hentry _ List.mem_cons_self
      have happend : done ++ (id, value) :: rest = done ++ [(id, value)] ++ rest :=
        List.append_cons done (id, value) rest
      have hnext : (done ++ [(id, value)]).Pairwise fun a b => a.1 < b.1 :=
        (List.pairwise_append.1 (happend ▸ hall)).1
      have hinsert :
          (⟨done, hdone⟩ : IdMap α).insert id value = ⟨done ++ [(id, value)], hnext⟩ := by
        simp only [insert, place_last hlast]
      change ((⟨done, hdone⟩ : IdMap α).insert id value).insertAll rest = _
      rw [hinsert, insertAll_ascending hnext (happend ▸ hall)]
      simp only [happend]

/-- The entries of a map make the map again, in whatever order they are inserted. -/
theorem insertAll_perm {map : IdMap α} {entries : List (UInt64 × α)}
    (h : entries.Perm map.entries) : empty.insertAll entries = map := by
  have hcomm : ∀ one ∈ map.entries, ∀ other ∈ map.entries, ∀ start : IdMap α,
      (start.insert one.1 one.2).insert other.1 other.2 =
        (start.insert other.1 other.2).insert one.1 one.2 := by
    intro one hone other hother start
    by_cases hid : one.1 = other.1
    · -- no two entries have the same identifier
      have hvalue : some one.2 = some other.2 :=
        (get?_of_mem hone).symm.trans (hid ▸ get?_of_mem hother)
      rw [hid, Option.some.inj hvalue]
    · exact insert_comm start hid one.2 other.2
  calc empty.insertAll entries
      = empty.insertAll map.entries := (h.symm.foldl_eq' hcomm empty).symm
    _ = map := insertAll_ascending List.Pairwise.nil map.ascending

end ParcelDesk.IdMap

namespace ParcelDesk.Json

def readEntry (read : Reader α) (map : IdMap α) (text : List Char) :
    Except Fault (IdMap α × List Char) := do
  let (id, rest) ← numberName text
  let (value, rest) ← read (← colon rest)
  .ok (map.insert id value, rest)

theorem plain_digits (n : Nat) : Plain (Numeral.text n).toList := by
  intro c hc
  rw [Numeral.text, String.toList_ofList] at hc
  exact isPlain_of_isDigit (Numeral.isDigit_of_mem_digits hc)

theorem Reads.entry {read : Reader α} {document : Json} {value : α}
    (h : Reads read document value) (level : Nat) (id : UInt64) (map : IdMap α) {rest : List Char}
    (hrest : Ends rest) :
    readEntry read map ('"' :: ((Numeral.text id.toNat).toList ++
      '"' :: ':' :: ' ' :: (document.spread level ++ rest))) = .ok (map.insert id value, rest) := by
  have hvalue := h level blank_space hrest
  rw [List.singleton_append] at hvalue
  rw [readEntry, Numeral.text, String.toList_ofList]
  simp only [numberName_digits, ok_bind, colon_self, hvalue]

theorem MembersFor.steps {read : Reader α} {writes : α → Json → Prop}
    {entries : List (UInt64 × α)} {members : List (String × Json)}
    (h : MembersFor writes entries members)
    (hreads : ∀ entry ∈ entries, ∀ document, writes entry.2 document →
      Reads read document entry.2) (level : Nat) (map : IdMap α) :
    Steps (readEntry read) map (members.map fun member => memberText level member.1 member.2)
      (map.insertAll entries) := by
  induction h generalizing map with
  | nil => exact .nil map
  | @cons id value document entries members hwrites _ ih =>
      obtain ⟨hfirst, hlater⟩ := List.forall_mem_cons.1 hreads
      rw [List.map_cons, memberText_plain (plain_digits _)]
      refine .cons ?_ (ih hlater (map.insert id value))
      intro rest hrest
      rw [List.append_assoc, List.cons_append, List.cons_append, List.cons_append]
      exact (hfirst document hwrites).entry (level + 1) id map hrest

/-- A map is read back from each of its documents. -/
theorem MapWritten.reads {read : Reader α} {writes : α → Json → Prop} {map : IdMap α}
    {document : Json} (h : MapWritten writes map document)
    (hreads : ∀ entry ∈ map.entries, ∀ document, writes entry.2 document →
      Reads read document entry.2) :
    Reads (readIdMap read) document map := by
  obtain ⟨hperm, hmembers⟩ := h
  intro level blank rest hblank hrest
  have hsteps :=
    hmembers.steps (fun entry hentry => hreads entry (hperm.subset hentry)) level .empty
  rw [IdMap.insertAll_perm hperm] at hsteps
  rw [spread, spreadMembers_eq_map, block_eq, readIdMap, readMap, hblank.skip, List.cons_append,
    skip_cons (by decide)]
  exact hsteps.members level rest

end ParcelDesk.Json
