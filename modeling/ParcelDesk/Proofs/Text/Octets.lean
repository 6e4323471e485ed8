import ParcelDesk.Text.Octets

/-!
# Texts as octets

A file holds the octets that were written to it, and the octets of a text spell the text.
-/

namespace ParcelDesk

namespace Octets

theorem toList_loop (content : ByteArray) (start : Nat) (before : List UInt8) :
    ByteArray.toList.loop content start before =
      before.reverse ++ content.data.toList.drop start := by
  fun_induction ByteArray.toList.loop content start before with
  | case1 start before hlt ih =>
      have hstart : start < content.data.toList.length := hlt
      have hget : content.get! start = content.data.toList[start] :=
        getElem!_pos content.data start hlt
      rw [ih, List.reverse_cons, List.append_assoc, List.singleton_append, hget,
        ← List.drop_eq_getElem_cons hstart]
  | case2 start before hle =>
      have hstart : content.data.toList.length ≤ start := Nat.not_lt.1 hle
      rw [List.drop_eq_nil_of_le hstart, List.append_nil]

theorem toList_eq (content : ByteArray) : content.toList = content.data.toList := by
  rw [ByteArray.toList, toList_loop, List.reverse_nil, List.nil_append, List.drop_zero]

/-- Holds of texts of which every character is one octet, and its own. -/
def IsAscii (text : List Char) : Prop :=
  ∀ c ∈ text, c.toNat < 0x80

instance (text : List Char) : Decidable (IsAscii text) :=
  List.decidableBAll (fun c : Char => c.toNat < 0x80) text

theorem ofUInt8_toUInt8 {c : Char} (h : c.toNat < 0x80) :
    Char.ofUInt8 c.toNat.toUInt8 = c := by
  apply Char.ext
  apply UInt32.toNat_inj.1
  have hval : c.val.toNat < 0x80 := h
  change c.val.toNat.toUInt8.toUInt32.toNat = c.val.toNat
  rw [UInt8.toNat_toUInt32, Nat.toUInt8, UInt8.toNat_ofNat']
  omega

/-- A file holds the octets that were written to it. -/
theorem IsAscii.ofBytes_toBytes {octets : List Char} (h : IsAscii octets) :
    ofBytes (toBytes octets) = octets := by
  rw [ofBytes, toList_eq, toBytes, List.map_map]
  calc octets.map (Char.ofUInt8 ∘ fun c => c.toNat.toUInt8)
      = octets.map id := List.map_congr_left fun c hc => ofUInt8_toUInt8 (h c hc)
    _ = octets := List.map_id octets

theorem IsAscii.append {a b : List Char} (ha : IsAscii a) (hb : IsAscii b) : IsAscii (a ++ b) := by
  intro c hc
  rcases List.mem_append.1 hc with hc | hc
  · exact ha c hc
  · exact hb c hc

theorem IsAscii.cons {c : Char} {text : List Char} (hc : c.toNat < 0x80) (h : IsAscii text) :
    IsAscii (c :: text) := by
  intro d hd
  rcases List.mem_cons.1 hd with rfl | hd
  · exact hc
  · exact h d hd

theorem isAscii_nil : IsAscii [] := by
  intro c hc
  cases hc

/-! ## What octets spell -/

def octet (n : Nat) : Char :=
  Char.ofUInt8 (UInt8.ofNat n)

theorem toNat_octet {n : Nat} (h : n < 256) : (octet n).toNat = n := by
  change (UInt8.ofNat n).toUInt32.toNat = n
  rw [UInt8.toNat_toUInt32, UInt8.toNat_ofNat', Nat.mod_eq_of_lt h]

def ofChar (c : Char) : List Char :=
  (String.utf8EncodeChar c).map Char.ofUInt8

theorem ofString_ofList (text : List Char) :
    ofString (String.ofList text) = text.flatMap ofChar := by
  rw [ofString, String.toUTF8_eq_toByteArray, String.toByteArray_ofList, ofBytes, toList_eq,
    List.utf8Encode, List.data_toByteArray, List.map_flatMap]
  rfl

theorem ofChar_eq (c : Char) : ofChar c =
    if c.toNat ≤ 127 then [octet c.toNat]
    else if c.toNat ≤ 2047 then [octet (c.toNat / 64 % 32 + 192), octet (c.toNat % 64 + 128)]
    else if c.toNat ≤ 65535 then
      [octet (c.toNat / 4096 % 16 + 224), octet (c.toNat / 64 % 64 + 128),
        octet (c.toNat % 64 + 128)]
    else
      [octet (c.toNat / 262144 % 8 + 240), octet (c.toNat / 4096 % 64 + 128),
        octet (c.toNat / 64 % 64 + 128), octet (c.toNat % 64 + 128)] := by
  rw [ofChar, String.utf8EncodeChar]
  change List.map _ (if c.toNat ≤ 127 then _ else _) = _
  split
  · rfl
  · change List.map _ (if c.toNat ≤ 2047 then _ else _) = _
    split
    · rfl
    · change List.map _ (if c.toNat ≤ 65535 then _ else _) = _
      split <;> rfl

theorem ofChar_ascii {c : Char} (h : c.toNat < 0x80) : ofChar c = [c] := by
  rw [ofChar_eq, if_pos (by omega)]
  exact congrArg (fun char => [char]) (ofUInt8_toUInt8 h)

theorem le_of_mem_ofChar {c other : Char} (h : 0x80 ≤ c.toNat) (hmem : other ∈ ofChar c) :
    0x80 ≤ other.toNat := by
  rw [ofChar_eq, if_neg (by omega)] at hmem
  split at hmem
  · simp only [List.mem_cons, List.not_mem_nil, or_false] at hmem
    obtain rfl | rfl := hmem <;> rw [toNat_octet (by omega)] <;> omega
  · split at hmem
    · simp only [List.mem_cons, List.not_mem_nil, or_false] at hmem
      obtain rfl | rfl | rfl := hmem <;> rw [toNat_octet (by omega)] <;> omega
    · simp only [List.mem_cons, List.not_mem_nil, or_false] at hmem
      obtain rfl | rfl | rfl | rfl := hmem <;> rw [toNat_octet (by omega)] <;> omega

theorem ofChar_ne_nil (c : Char) : ofChar c ≠ [] := by
  rw [ofChar_eq]
  split
  · simp
  · split
    · simp
    · split <;> simp

theorem pair?_octets {n : Nat} (hlow : 127 < n) (hhigh : n ≤ 2047) :
    pair? (octet (n / 64 % 32 + 192)) (octet (n % 64 + 128)) = some (Char.ofNat n) := by
  have ha := toNat_octet (show n / 64 % 32 + 192 < 256 by omega)
  have hb := toNat_octet (show n % 64 + 128 < 256 by omega)
  generalize octet (n / 64 % 32 + 192) = a at ha ⊢
  generalize octet (n % 64 + 128) = b at hb ⊢
  have hcode : (a.toNat - 0xC0) * 64 + tailBits b = n := by
    unfold tailBits
    rw [ha, hb]
    omega
  rw [pair?, hcode]
  apply if_pos
  clear hcode
  simp only [isTail, Bool.and_eq_true, decide_eq_true_eq, ha, hb]
  omega

theorem pair?_of_le {a : Char} (h : 0xE0 ≤ a.toNat) (b : Char) : pair? a b = none := by
  apply if_neg
  simp only [Bool.and_eq_true, decide_eq_true_eq]
  omega

theorem triple?_octets {n : Nat} (hlow : 2047 < n) (hhigh : n ≤ 65535)
    (hvalid : n < 0xD800 ∨ 0xDFFF < n) :
    triple? (octet (n / 4096 % 16 + 224)) (octet (n / 64 % 64 + 128)) (octet (n % 64 + 128)) =
      some (Char.ofNat n) := by
  have ha := toNat_octet (show n / 4096 % 16 + 224 < 256 by omega)
  have hb := toNat_octet (show n / 64 % 64 + 128 < 256 by omega)
  have hc := toNat_octet (show n % 64 + 128 < 256 by omega)
  generalize octet (n / 4096 % 16 + 224) = a at ha ⊢
  generalize octet (n / 64 % 64 + 128) = b at hb ⊢
  generalize octet (n % 64 + 128) = c at hc ⊢
  have hcode : (a.toNat - 0xE0) * 4096 + tailBits b * 64 + tailBits c = n := by
    unfold tailBits
    rw [ha, hb, hc]
    omega
  simp only [triple?, hcode]
  apply if_pos
  clear hcode
  simp only [isTail, Bool.and_eq_true, decide_eq_true_eq, Bool.not_eq_true',
    Bool.and_eq_false_imp, decide_eq_false_iff_not, ha, hb, hc]
  omega

theorem triple?_of_le {a : Char} (h : 0xF0 ≤ a.toNat) (b c : Char) : triple? a b c = none := by
  apply if_neg
  simp only [Bool.and_eq_true, decide_eq_true_eq]
  omega

theorem quadruple?_octets {n : Nat} (hlow : 65535 < n) (hhigh : n < 0x110000) :
    quadruple? (octet (n / 262144 % 8 + 240)) (octet (n / 4096 % 64 + 128))
      (octet (n / 64 % 64 + 128)) (octet (n % 64 + 128)) = some (Char.ofNat n) := by
  have ha := toNat_octet (show n / 262144 % 8 + 240 < 256 by omega)
  have hb := toNat_octet (show n / 4096 % 64 + 128 < 256 by omega)
  have hc := toNat_octet (show n / 64 % 64 + 128 < 256 by omega)
  have hd := toNat_octet (show n % 64 + 128 < 256 by omega)
  generalize octet (n / 262144 % 8 + 240) = a at ha ⊢
  generalize octet (n / 4096 % 64 + 128) = b at hb ⊢
  generalize octet (n / 64 % 64 + 128) = c at hc ⊢
  generalize octet (n % 64 + 128) = d at hd ⊢
  have hcode : (a.toNat - 0xF0) * 262144 + tailBits b * 4096 + tailBits c * 64 + tailBits d =
      n := by
    unfold tailBits
    rw [ha, hb, hc, hd]
    omega
  simp only [quadruple?, hcode]
  apply if_pos
  clear hcode
  simp only [isTail, Bool.and_eq_true, decide_eq_true_eq, ha, hb, hc, hd]
  omega

/-- The octets of a character are read as the character. -/
theorem decodeFrom_ofChar (start : Nat) (c : Char) (rest : List Char) :
    ∃ next, decodeFrom start (ofChar c ++ rest) = (decodeFrom next rest).map (c :: ·) := by
  by_cases hone : c.toNat < 0x80
  · refine ⟨start + 1, ?_⟩
    rw [ofChar_ascii hone, List.singleton_append, decodeFrom.eq_def]
    simp only [if_pos hone]
  · rw [ofChar_eq, if_neg (by omega)]
    by_cases htwo : c.toNat ≤ 2047
    · refine ⟨start + 2, ?_⟩
      have hhead : ¬ (octet (c.toNat / 64 % 32 + 192)).toNat < 0x80 := by
        rw [toNat_octet (by omega)]
        omega
      rw [if_pos htwo, decodeFrom.eq_def]
      simp only [List.cons_append, List.nil_append, if_neg hhead, pair?_octets (by omega) htwo,
        Char.ofNat_toNat]
    · by_cases hthree : c.toNat ≤ 65535
      · refine ⟨start + 3, ?_⟩
        have hhead : 0xE0 ≤ (octet (c.toNat / 4096 % 16 + 224)).toNat := by
          rw [toNat_octet (by omega)]
          omega
        have hlong : ¬ (octet (c.toNat / 4096 % 16 + 224)).toNat < 0x80 := by omega
        have hvalid : c.toNat < 0xD800 ∨ 0xDFFF < c.toNat := c.valid.imp_right And.left
        rw [if_neg htwo, if_pos hthree, decodeFrom.eq_def]
        simp only [List.cons_append, List.nil_append, if_neg hlong, pair?_of_le hhead,
          triple?_octets (Nat.lt_of_not_le htwo) hthree hvalid, Char.ofNat_toNat]
      · refine ⟨start + 4, ?_⟩
        have hhead : 0xF0 ≤ (octet (c.toNat / 262144 % 8 + 240)).toNat := by
          rw [toNat_octet (by omega)]
          omega
        have hlong : ¬ (octet (c.toNat / 262144 % 8 + 240)).toNat < 0x80 := by omega
        have hend : c.toNat < 0x110000 := by
          have hvalid : c.toNat < 0xD800 ∨ (0xDFFF < c.toNat ∧ c.toNat < 0x110000) := c.valid
          omega
        rw [if_neg htwo, if_neg hthree, decodeFrom.eq_def]
        simp only [List.cons_append, List.nil_append, if_neg hlong,
          pair?_of_le (Nat.le_trans (by decide) hhead), triple?_of_le hhead,
          quadruple?_octets (Nat.lt_of_not_le hthree) hend, Char.ofNat_toNat]

theorem decode_flatMap_ofChar (text : List Char) : decode (text.flatMap ofChar) = .ok text := by
  have hfrom (start : Nat) : decodeFrom start (text.flatMap ofChar) = .ok text := by
    induction text generalizing start with
    | nil => rfl
    | cons c text ih =>
        obtain ⟨next, hnext⟩ := decodeFrom_ofChar start c (text.flatMap ofChar)
        rw [List.flatMap_cons, hnext, ih]
        rfl
  exact hfrom 0

theorem flatMap_ofChar_eq_nil {text : List Char} : text.flatMap ofChar = [] ↔ text = [] := by
  cases text with
  | nil => simp
  | cons c text => simp [ofChar_ne_nil]

theorem IsAscii.flatMap_ofChar {text : List Char} (h : IsAscii text) :
    text.flatMap ofChar = text := by
  induction text with
  | nil => rfl
  | cons c text ih =>
      rw [List.flatMap_cons, ofChar_ascii (h c List.mem_cons_self),
        ih fun d hd => h d (List.mem_cons_of_mem c hd), List.singleton_append]

theorem head?_flatMap_ofChar (c : Char) (text : List Char) :
    ((c :: text).flatMap ofChar).head? = (ofChar c).head? := by
  obtain ⟨first, rest, hoctets⟩ := List.exists_cons_of_ne_nil (ofChar_ne_nil c)
  rw [List.flatMap_cons, hoctets, List.cons_append, List.head?_cons, List.head?_cons]

theorem head?_ofChar_ne {c : Char} (h : c.toNat < 0xE000) :
    (ofChar c).head? ≠ some '\xef' := by
  have hne {n : Nat} (hn : n < 0xEF) : some (octet n) ≠ some '\xef' := by
    intro heq
    have hvalue := congrArg Char.toNat (Option.some.inj heq)
    rw [toNat_octet (by omega)] at hvalue
    exact absurd hvalue (Nat.ne_of_lt hn)
  rw [ofChar_eq]
  split
  · exact hne (by omega)
  · split
    · exact hne (by omega)
    · rw [if_pos (by omega)]
      exact hne (by omega)

theorem IsAscii.decode_eq {text : List Char} (h : IsAscii text) : decode text = .ok text := by
  have hread := decode_flatMap_ofChar text
  rwa [h.flatMap_ofChar] at hread

end Octets

end ParcelDesk
