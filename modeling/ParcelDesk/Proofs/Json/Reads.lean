import ParcelDesk.Proofs.Json.Lexeme

/-!
# Reading documents back

A reader reads a document as a value when it takes what was written for the document, at any level
of a larger one, and gives the value. For arrays and objects it is enough that their items and
members are read.
-/

namespace ParcelDesk.Json

/-- The reader takes the document, after any blanks and up to its end, as the value. -/
def Reads (read : Reader α) (document : Json) (value : α) : Prop :=
  ∀ (level : Nat) {blank rest : List Char}, Blank blank → Ends rest →
    read (blank ++ (document.spread level ++ rest)) = .ok (value, rest)

theorem Reads.start {read : Reader α} {document : Json} {value : α} (h : Reads read document value)
    (level : Nat) {rest : List Char} (hrest : Ends rest) :
    read (document.spread level ++ rest) = .ok (value, rest) :=
  h level blank_nil hrest

/-! ## Words and texts -/

theorem reads_number {n : Nat} (h : n < UInt64.size) (wanted : String) :
    Reads (readWord wanted) (.number n) n.toUInt64 := by
  intro level blank rest hblank hrest
  rw [spread, readWord_digits h wanted hblank hrest]

theorem reads_ofWord (wanted : String) (n : UInt64) : Reads (readWord wanted) (.ofWord n) n := by
  have hread := reads_number n.toNat_lt wanted
  have hword : n.toNat.toUInt64 = n := UInt64.ofNat_toNat
  rw [hword] at hread
  exact hread

theorem reads_bool (value : Bool) : Reads readBool (.bool value) value := by
  intro level blank rest hblank hrest
  cases value with
  | true =>
      rw [spread, readBool, hblank.skip]
      rfl
  | false =>
      rw [spread, readBool, hblank.skip]
      rfl

theorem readText_plain {text : List Char} (h : Plain text) (wanted : String)
    {blank : List Char} (hblank : Blank blank) (rest : List Char) :
    readText wanted (blank ++ (quoted text ++ rest)) = .ok (text, rest) := by
  rw [readText, hblank.skip, quoted_plain h, List.cons_append, skip_cons (by decide),
    List.append_assoc]
  exact textBody_plain h rest

theorem reads_parsed {text : List Char} (h : Plain text) (wanted : String)
    {parse : List Char → Except String α} {value : α} (hparse : parse text = .ok value) :
    Reads (readParsed wanted parse) (.string text) value := by
  intro level blank rest hblank hrest
  rw [spread, readParsed, readText_plain h wanted hblank, ok_bind]
  simp only [hparse]

theorem reads_name {name : List Char} (h : Plain name) {known : List (String × α)} {value : α}
    (hchoose : choose known name = .ok value) : Reads (readName known) (.string name) value := by
  intro level blank rest hblank hrest
  rw [spread, readName, hblank.skip, quoted_plain h, List.cons_append, skip_cons (by decide),
    List.append_assoc]
  simp only [List.singleton_append, textBody_plain h, ok_bind, hchoose]

/-! ## What stands between brackets -/

theorem spreadItems_eq_map (level : Nat) (items : List Json) :
    spreadItems level items = items.map (spread (level + 1)) := by
  induction items with
  | nil => rfl
  | cons item rest ih => rw [spreadItems, ih, List.map_cons]

def memberText (level : Nat) (name : String) (value : Json) : List Char :=
  quoted name.toList ++ ':' :: ' ' :: value.spread (level + 1)

theorem spreadMembers_eq_map (level : Nat) (members : List (String × Json)) :
    spreadMembers level members = members.map fun entry => memberText level entry.1 entry.2 := by
  induction members with
  | nil => rfl
  | cons member rest ih =>
      obtain ⟨name, value⟩ := member
      rw [spreadMembers, ih, List.map_cons, memberText]

def further (level : Nat) (last : Char) : List (List Char) → List Char
  | [] => margin level ++ [last]
  | piece :: rest => ',' :: margin (level + 1) ++ (piece ++ further level last rest)

def inside (level : Nat) (last : Char) : List (List Char) → List Char
  | [] => [last]
  | piece :: rest => margin (level + 1) ++ (piece ++ further level last rest)

theorem joined_further (level : Nat) (last : Char) (piece : List Char) (rest : List (List Char)) :
    Text.joined (',' :: margin (level + 1)) (piece :: rest) ++ (margin level ++ [last]) =
      piece ++ further level last rest := by
  induction rest generalizing piece with
  | nil => rfl
  | cons next rest ih =>
      rw [Text.joined, List.append_assoc, ih, List.append_assoc, further]
      exact List.cons_ne_nil next rest

theorem block_eq (level : Nat) (first last : Char) (pieces : List (List Char)) :
    block level first last pieces = first :: inside level last pieces := by
  cases pieces with
  | nil => rfl
  | cons piece rest =>
      have hjoined := joined_further level last piece rest
      rw [block, if_neg (by simp), inside, ← hjoined]
      simp only [List.cons_append, List.append_assoc]

theorem ends_further (level : Nat) (last : Char) (pieces : List (List Char)) (rest : List Char) :
    Ends (further level last pieces ++ rest) := by
  cases pieces with
  | nil => exact ends_cons (by decide) _
  | cons piece pieces => exact ends_cons (by decide) _

def Opens (text : List Char) : Prop :=
  ∃ c tail, text = c :: tail ∧ isSpace c = false ∧ c ≠ ']' ∧ c ≠ '\x7d'

theorem opens_cons {c : Char} (h : isSpace c = false ∧ c ≠ ']' ∧ c ≠ '\x7d') (tail : List Char) :
    Opens (c :: tail) :=
  ⟨c, tail, rfl, h⟩

theorem opens_spread (level : Nat) (document : Json) (rest : List Char) :
    Opens (document.spread level ++ rest) := by
  cases document with
  | null => exact opens_cons (by decide) _
  | bool value => cases value <;> exact opens_cons (by decide) _
  | number n =>
      obtain ⟨c, tail, hdigits, hc⟩ := exists_cons_digits n
      rw [spread, hdigits]
      refine opens_cons ⟨isSpace_of_isDigit hc, ?_, ?_⟩ _
      all_goals
        rintro rfl
        exact absurd hc (by decide)
  | string text => exact opens_cons (by decide) _
  | array items =>
      rw [spread, block_eq]
      exact opens_cons (by decide) _
  | object members =>
      rw [spread, block_eq]
      exact opens_cons (by decide) _

/-! ## Arrays -/

theorem nextItem_first {blank text : List Char} (hblank : Blank blank) (htext : Opens text) :
    nextItem true (blank ++ text) = .ok (some text) := by
  obtain ⟨c, tail, rfl, hspace, hbracket, -⟩ := htext
  rw [nextItem, hblank.skip, skip_cons hspace]
  simp

theorem nextItem_later {blank text : List Char} (hblank : Blank blank) (htext : Opens text) :
    nextItem false (',' :: (blank ++ text)) = .ok (some text) := by
  obtain ⟨c, tail, rfl, hspace, hbracket, -⟩ := htext
  rw [nextItem, skip_cons (by decide)]
  simp [hblank.skip, skip_cons hspace, hbracket]

theorem items_end (read : Reader α) (first : Bool) {blank : List Char} (hblank : Blank blank)
    (rest : List Char) : items read first (blank ++ ']' :: rest) = .ok ([], rest) := by
  have hskip : skip (blank ++ ']' :: rest) = ']' :: rest := hblank.skip _
  rw [items, nextItem, endArray, hskip]
  rfl

theorem items_cons {read : Reader α} {first : Bool} {text item after : List Char} {value : α}
    (hnext : nextItem first text = .ok (some item)) (hread : read item = .ok (value, after))
    (hshort : after.length < text.length) {values : List α} {rest : List Char}
    (hrest : items read false after = .ok (values, rest)) :
    items read first text = .ok (value :: values, rest) := by
  rw [items, hnext]
  simp only [hread, if_pos hshort, hrest]
  rfl

theorem items_further {read : Reader α} {documents : List Json} {values : List α}
    (h : List.Forall₂ (Reads read) documents values) (level : Nat) (rest : List Char) :
    items read false (further level ']' (documents.map (spread (level + 1))) ++ rest) =
      .ok (values, rest) := by
  induction h with
  | nil =>
      rw [List.map_nil, further, List.append_assoc]
      exact items_end read false (blank_margin level) rest
  | @cons document value documents values hread _ ih =>
      rw [List.map_cons, further, List.cons_append, List.cons_append, List.append_assoc,
        List.append_assoc]
      refine items_cons (nextItem_later (blank_margin _) (opens_spread _ document _))
        (hread.start (level + 1) (ends_further level ']' _ rest)) ?_ ih
      simp only [List.length_cons, List.length_append]
      omega

theorem Reads.array {read : Reader α} {documents : List Json} {values : List α}
    (h : List.Forall₂ (Reads read) documents values) :
    Reads (readArray read) (.array documents) values := by
  intro level blank rest hblank hrest
  rw [spread, spreadItems_eq_map, block_eq, readArray, hblank.skip, List.cons_append,
    skip_cons (by decide)]
  cases h with
  | nil => exact items_end read true blank_nil rest
  | @cons document value documents values hread hreads =>
      rw [List.map_cons, inside, List.append_assoc, List.append_assoc]
      refine items_cons (nextItem_first (blank_margin _) (opens_spread _ document _))
        (hread.start (level + 1) (ends_further level ']' _ rest)) ?_
        (items_further hreads level rest)
      simp only [margin, List.length_cons, List.length_append]
      omega

end ParcelDesk.Json
