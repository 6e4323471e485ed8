/-!
# Maps from identifiers

A finite map from 64-bit identifiers, kept in ascending order of the identifiers, so that two maps
with the same look-ups are the same map (`ext_get?`). `insert` overwrites.
-/

namespace ParcelDesk

/-- A finite map from identifiers, ascending. -/
structure IdMap (α : Type) where
  entries : List (UInt64 × α)
  ascending : entries.Pairwise fun a b => a.1 < b.1

namespace IdMap

def find? (id : UInt64) : List (UInt64 × α) → Option α
  | [] => none
  | (key, value) :: rest => if key = id then some value else find? id rest

def place (id : UInt64) (value : α) : List (UInt64 × α) → List (UInt64 × α)
  | [] => [(id, value)]
  | (key, old) :: rest =>
      if id < key then (id, value) :: (key, old) :: rest
      else if id = key then (id, value) :: rest
      else (key, old) :: place id value rest

theorem mem_place {id : UInt64} {value : α} {entries : List (UInt64 × α)} {entry : UInt64 × α}
    (h : entry ∈ place id value entries) : entry = (id, value) ∨ entry ∈ entries := by
  induction entries with
  | nil => simpa [place] using h
  | cons head rest ih =>
      obtain ⟨key, old⟩ := head
      simp only [place] at h
      split at h
      · simpa using h
      · split at h
        · rcases List.mem_cons.1 h with h | h
          · exact .inl h
          · exact .inr (List.mem_cons_of_mem _ h)
        · rcases List.mem_cons.1 h with h | h
          · exact .inr (h ▸ List.mem_cons_self)
          · exact (ih h).imp_right (List.mem_cons_of_mem _)

theorem ascending_place (id : UInt64) (value : α) {entries : List (UInt64 × α)}
    (h : entries.Pairwise fun a b => a.1 < b.1) :
    (place id value entries).Pairwise fun a b => a.1 < b.1 := by
  induction entries with
  | nil => simp [place]
  | cons head rest ih =>
      obtain ⟨key, old⟩ := head
      have hrest := List.pairwise_cons.1 h
      simp only [place]
      split
      · rename_i hlt
        refine List.pairwise_cons.2 ⟨fun entry hentry => ?_, h⟩
        rcases List.mem_cons.1 hentry with rfl | hentry
        · exact hlt
        · exact UInt64.lt_trans hlt (hrest.1 entry hentry)
      · split
        · rename_i heq
          subst heq
          exact List.pairwise_cons.2 ⟨hrest.1, hrest.2⟩
        · rename_i hge hne
          refine List.pairwise_cons.2 ⟨fun entry hentry => ?_, ih hrest.2⟩
          rcases mem_place hentry with rfl | hentry
          · exact UInt64.lt_of_le_of_ne (UInt64.not_lt.1 hge) (Ne.symm hne)
          · exact hrest.1 entry hentry

def empty : IdMap α := ⟨[], List.Pairwise.nil⟩

instance : Inhabited (IdMap α) := ⟨empty⟩

def get? (map : IdMap α) (id : UInt64) : Option α :=
  find? id map.entries

def contains (map : IdMap α) (id : UInt64) : Bool :=
  (map.get? id).isSome

def insert (map : IdMap α) (id : UInt64) (value : α) : IdMap α :=
  ⟨place id value map.entries, ascending_place id value map.ascending⟩

def erase (map : IdMap α) (id : UInt64) : IdMap α :=
  ⟨map.entries.filter fun entry => entry.1 ≠ id, map.ascending.filter _⟩

theorem find?_place (id key : UInt64) (value : α) (entries : List (UInt64 × α)) :
    find? key (place id value entries) = if key = id then some value else find? key entries := by
  induction entries with
  | nil => simp [place, find?, eq_comm]
  | cons head rest ih =>
      obtain ⟨first, old⟩ := head
      simp only [place]
      split
      · simp [find?, eq_comm]
      · split
        · rename_i heq
          subst heq
          by_cases h : key = id
          · simp [find?, h]
          · simp [find?, h, Ne.symm h]
        · rename_i hne
          simp only [find?, ih]
          by_cases h : key = id
          · subst h
            simp [Ne.symm hne]
          · simp [h]

@[simp] theorem get?_empty (key : UInt64) : (empty : IdMap α).get? key = none := rfl

@[simp] theorem get?_insert (map : IdMap α) (id key : UInt64) (value : α) :
    (map.insert id value).get? key = if key = id then some value else map.get? key :=
  find?_place id key value map.entries

@[simp] theorem get?_erase (map : IdMap α) (id key : UInt64) :
    (map.erase id).get? key = if key = id then none else map.get? key := by
  obtain ⟨entries, _⟩ := map
  simp only [get?, erase]
  induction entries with
  | nil => simp [find?]
  | cons head rest ih =>
      obtain ⟨first, value⟩ := head
      rename_i h
      have ih := ih (List.pairwise_cons.1 h).2
      by_cases hfirst : first = id
      · subst hfirst
        by_cases hkey : key = first
        · simp_all
        · simp_all [find?, eq_comm]
      · by_cases hkey : first = key
        · subst hkey
          simp_all [find?]
        · simp_all [find?]

theorem find?_eq_none {id : UInt64} {entries : List (UInt64 × α)}
    (h : ∀ entry ∈ entries, id < entry.1) : find? id entries = none := by
  induction entries with
  | nil => rfl
  | cons head rest ih =>
      have hhead := h head List.mem_cons_self
      have hne : ¬ head.1 = id := fun heq => by rw [heq] at hhead; exact UInt64.lt_irrefl id hhead
      rw [find?, if_neg hne]
      exact ih fun entry hentry => h entry (List.mem_cons_of_mem _ hentry)

theorem get?_of_mem {map : IdMap α} {entry : UInt64 × α} (h : entry ∈ map.entries) :
    map.get? entry.1 = some entry.2 := by
  obtain ⟨entries, hascending⟩ := map
  change find? entry.1 entries = some entry.2
  change entry ∈ entries at h
  induction entries with
  | nil => cases h
  | cons head rest ih =>
      obtain ⟨hfirst, hrest⟩ := List.pairwise_cons.1 hascending
      rcases List.mem_cons.1 h with rfl | h
      · exact if_pos rfl
      · rw [find?, if_neg (UInt64.ne_of_lt (hfirst entry h))]
        exact ih hrest h

theorem mem_of_get? {map : IdMap α} {id : UInt64} {value : α} (h : map.get? id = some value) :
    (id, value) ∈ map.entries := by
  obtain ⟨entries, hascending⟩ := map
  change find? id entries = some value at h
  change (id, value) ∈ entries
  clear hascending
  induction entries with
  | nil => cases h
  | cons head rest ih =>
      rw [find?] at h
      split at h
      · rename_i heq
        cases h
        exact List.mem_cons.2 (.inl (Prod.ext heq.symm rfl))
      · exact List.mem_cons_of_mem _ (ih h)

/-- Two maps with the same look-ups are the same map. -/
theorem ext_get? {a b : IdMap α} (h : ∀ id, a.get? id = b.get? id) : a = b := by
  obtain ⟨xs, hx⟩ := a
  obtain ⟨ys, hy⟩ := b
  simp only [get?] at h
  suffices xs = ys by subst this; rfl
  induction xs generalizing ys with
  | nil =>
      cases ys with
      | nil => rfl
      | cons head rest => simpa [find?] using h head.1
  | cons x xs ih =>
      cases ys with
      | nil => simpa [find?] using h x.1
      | cons y ys =>
          have hx := List.pairwise_cons.1 hx
          have hy := List.pairwise_cons.1 hy
          have hkey : x.1 = y.1 := by
            have hxy := h x.1
            have hyx := h y.1
            simp only [find?, if_true] at hxy hyx
            rcases Decidable.em (x.1 = y.1) with heq | hne
            · exact heq
            · rw [if_neg (Ne.symm hne)] at hxy
              rw [if_neg hne] at hyx
              have hcases : x.1 < y.1 ∨ y.1 < x.1 := by
                rcases Decidable.em (x.1 < y.1) with hlt | hge
                · exact .inl hlt
                · exact .inr (UInt64.lt_of_le_of_ne (UInt64.not_lt.1 hge) (Ne.symm hne))
              rcases hcases with hlt | hgt
              · rw [find?_eq_none fun entry he => UInt64.lt_trans hlt (hy.1 entry he)] at hxy
                cases hxy
              · rw [find?_eq_none fun entry he => UInt64.lt_trans hgt (hx.1 entry he)] at hyx
                cases hyx
          have hvalue : x.2 = y.2 := by
            have hxy := h x.1
            simpa [find?, hkey] using hxy
          have htail : xs = ys := by
            refine ih hx.2 ys hy.2 fun id => ?_
            have hid := h id
            rcases Decidable.em (x.1 = id) with heq | hne
            · subst heq
              rw [find?_eq_none hx.1, find?_eq_none (hkey ▸ hy.1)]
            · simpa [find?, hne, hkey ▸ hne] using hid
          rw [Prod.ext hkey hvalue, htail]

theorem insert_insert (map : IdMap α) (id : UInt64) (old new : α) :
    (map.insert id old).insert id new = map.insert id new := by
  apply ext_get?
  intro key
  simp only [get?_insert]
  split <;> rfl

theorem insert_comm (map : IdMap α) {first second : UInt64} (h : first ≠ second)
    (one other : α) :
    (map.insert first one).insert second other = (map.insert second other).insert first one := by
  apply ext_get?
  intro key
  simp only [get?_insert]
  split
  · rename_i hkey
    rw [if_neg (hkey ▸ h.symm)]
  · rfl

theorem erase_insert (map : IdMap α) {first second : UInt64} (h : first ≠ second) (value : α) :
    (map.insert first value).erase second = (map.erase second).insert first value := by
  apply ext_get?
  intro key
  simp only [get?_insert, get?_erase]
  split
  · rename_i hkey
    rw [if_neg (hkey ▸ h.symm)]
  · rfl

theorem erase_comm (map : IdMap α) (first second : UInt64) :
    (map.erase first).erase second = (map.erase second).erase first := by
  apply ext_get?
  intro key
  simp only [get?_erase]
  split
  · split <;> rfl
  · rfl

end IdMap

end ParcelDesk
