/-
Finite maps as lists of entries with strictly increasing keys.  A map is what its
look-ups are: `get?_insert` and `get?_erase` say what each operation does to them,
and `ext_get?` that two maps with the same look-ups are equal.
-/

namespace MergedPaging

variable {κ ν : Type} [Ord κ]

/-- A map from keys to values, in key order. -/
structure SortedMap (κ ν : Type) [Ord κ] where
  entries : List (κ × ν)
  increasing : entries.Pairwise fun a b => compare a.1 b.1 = .lt

namespace SortedMap

/-- The value of the first entry with the key. -/
def lookup (key : κ) : List (κ × ν) → Option ν
  | [] => none
  | (k, v) :: rest => if compare key k = .eq then some v else lookup key rest

/-- Puts an entry where its key belongs, in place of one with the same key. -/
def insertEntry (key : κ) (value : ν) : List (κ × ν) → List (κ × ν)
  | [] => [(key, value)]
  | (k, v) :: rest =>
    match compare key k with
    | .lt => (key, value) :: (k, v) :: rest
    | .eq => (key, value) :: rest
    | .gt => (k, v) :: insertEntry key value rest

theorem mem_insertEntry {key : κ} {value : ν} {entry : κ × ν} {entries : List (κ × ν)}
    (h : entry ∈ insertEntry key value entries) : entry = (key, value) ∨ entry ∈ entries := by
  induction entries with
  | nil => exact Or.inl (by simpa [insertEntry] using h)
  | cons head rest ih =>
      obtain ⟨k, v⟩ := head
      simp only [insertEntry] at h
      split at h <;> grind

theorem insertEntry_increasing [Std.TransOrd κ] {key : κ} {value : ν}
    {entries : List (κ × ν)} (h : entries.Pairwise fun a b => compare a.1 b.1 = .lt) :
    (insertEntry key value entries).Pairwise fun a b => compare a.1 b.1 = .lt := by
  induction entries with
  | nil => simp [insertEntry]
  | cons head rest ih =>
      obtain ⟨k, v⟩ := head
      rw [List.pairwise_cons] at h
      simp only [insertEntry]
      split
      · rename_i hlt
        refine List.pairwise_cons.2 ⟨?_, List.pairwise_cons.2 h⟩
        intro entry hentry
        rcases List.mem_cons.1 hentry with rfl | hrest
        · exact hlt
        · exact Std.TransCmp.lt_trans hlt (h.1 entry hrest)
      · rename_i heq
        refine List.pairwise_cons.2 ⟨?_, h.2⟩
        intro entry hentry
        exact Std.TransCmp.lt_of_eq_of_lt heq (h.1 entry hentry)
      · rename_i hgt
        refine List.pairwise_cons.2 ⟨?_, ih h.2⟩
        intro entry hentry
        rcases mem_insertEntry hentry with rfl | hrest
        · exact Std.OrientedCmp.lt_of_gt hgt
        · exact h.1 entry hrest

def empty : SortedMap κ ν :=
  ⟨[], .nil⟩

def get? (m : SortedMap κ ν) (key : κ) : Option ν :=
  lookup key m.entries

def insert [Std.TransOrd κ] (m : SortedMap κ ν) (key : κ) (value : ν) : SortedMap κ ν :=
  ⟨insertEntry key value m.entries, insertEntry_increasing m.increasing⟩

def erase (m : SortedMap κ ν) (key : κ) : SortedMap κ ν :=
  ⟨m.entries.filter fun entry => compare key entry.1 != .eq, m.increasing.filter _⟩

def keys (m : SortedMap κ ν) : List κ :=
  m.entries.map Prod.fst

/-- The values with a key, in key order. -/
def values (m : SortedMap κ ν) : List ν :=
  m.entries.map Prod.snd

/-- Values under a common key are gathered in the order in which they come. -/
def group [Std.TransOrd κ] {α : Type} (key : α → κ) (items : List α) : SortedMap κ (List α) :=
  items.foldl
    (fun groups item => groups.insert (key item) ((groups.get? (key item)).getD [] ++ [item]))
    empty

theorem lookup_eq_none [Std.TransOrd κ] {key : κ} {entries : List (κ × ν)}
    (h : ∀ entry ∈ entries, compare key entry.1 ≠ .eq) : lookup key entries = none := by
  induction entries with
  | nil => rfl
  | cons head rest ih =>
      obtain ⟨k, v⟩ := head
      have hhead : compare key k ≠ .eq := h (k, v) List.mem_cons_self
      simp only [lookup, if_neg hhead]
      exact ih fun entry hentry => h entry (List.mem_cons_of_mem _ hentry)

variable [Std.TransOrd κ] [Std.LawfulEqOrd κ]

omit [Std.TransOrd κ] [Std.LawfulEqOrd κ] in
@[simp] theorem get?_empty (key : κ) : (empty : SortedMap κ ν).get? key = none := rfl

theorem lookup_insertEntry (key key' : κ) (value : ν) (entries : List (κ × ν)) :
    lookup key' (insertEntry key value entries) =
      if compare key' key = .eq then some value else lookup key' entries := by
  induction entries with
  | nil => rfl
  | cons head rest ih =>
      obtain ⟨k, v⟩ := head
      simp only [insertEntry]
      split
      · rfl
      · rename_i heq
        have : key = k := Std.LawfulEqCmp.eq_of_compare heq
        subst this
        by_cases hkey : compare key' key = .eq <;> simp [lookup, hkey]
      · rename_i hgt
        simp only [lookup, ih]
        by_cases hk : compare key' k = .eq
        · have : key' = k := Std.LawfulEqCmp.eq_of_compare hk
          subst this
          have : compare key' key ≠ .eq := by
            intro heq
            rw [Std.OrientedCmp.eq_comm] at heq
            simp [heq] at hgt
          simp [this]
        · simp [hk]

theorem get?_insert [DecidableEq κ] (m : SortedMap κ ν) (key key' : κ) (value : ν) :
    (m.insert key value).get? key' = if key' = key then some value else m.get? key' := by
  simp only [get?, insert, lookup_insertEntry]
  by_cases h : key' = key
  · subst h; simp
  · have : compare key' key ≠ .eq := fun heq => h (Std.LawfulEqCmp.eq_of_compare heq)
    simp [h, this]

omit [Std.TransOrd κ] in
theorem get?_erase [DecidableEq κ] (m : SortedMap κ ν) (key key' : κ) :
    (m.erase key).get? key' = if key' = key then none else m.get? key' := by
  obtain ⟨entries, hincreasing⟩ := m
  simp only [get?, erase]
  clear hincreasing
  induction entries with
  | nil => simp [lookup]
  | cons head rest ih =>
      obtain ⟨k, v⟩ := head
      by_cases hk : compare key k = .eq
      · have : key = k := Std.LawfulEqCmp.eq_of_compare hk
        subst this
        by_cases hkey : key' = key
        · simp_all [List.filter]
        · have : compare key' key ≠ .eq := fun heq => hkey (Std.LawfulEqCmp.eq_of_compare heq)
          simp_all [List.filter, lookup]
      · have hne : (compare key k != .eq) = true := by simpa using hk
        simp only [List.filter_cons, hne, ↓reduceIte, lookup, ih]
        by_cases hkey : key' = key
        · subst hkey; simp [hk]
        · simp [hkey]

/-- Two maps with the same look-ups are equal. -/
theorem ext_get? {m m' : SortedMap κ ν} (h : ∀ key, m.get? key = m'.get? key) : m = m' := by
  obtain ⟨left, hleft⟩ := m
  obtain ⟨right, hright⟩ := m'
  simp only [get?] at h
  simp only [mk.injEq]
  induction left generalizing right with
  | nil =>
      cases right with
      | nil => rfl
      | cons head rest => simpa [lookup] using h head.1
  | cons head rest ih =>
      obtain ⟨k, v⟩ := head
      rw [List.pairwise_cons] at hleft
      cases right with
      | nil => simpa [lookup] using h k
      | cons head' rest' =>
          obtain ⟨k', v'⟩ := head'
          rw [List.pairwise_cons] at hright
          have hkeys : compare k k' = .eq := by
            cases hcmp : compare k k' with
            | eq => rfl
            | lt =>
                have hnone : lookup k ((k', v') :: rest') = none := by
                  apply lookup_eq_none
                  intro entry hentry
                  rcases List.mem_cons.1 hentry with rfl | hrest
                  · simp [hcmp]
                  · simp [Std.TransCmp.lt_trans hcmp (hright.1 entry hrest)]
                have := h k
                rw [hnone] at this
                simp [lookup] at this
            | gt =>
                have hlt := Std.OrientedCmp.lt_of_gt hcmp
                have hnone : lookup k' ((k, v) :: rest) = none := by
                  apply lookup_eq_none
                  intro entry hentry
                  rcases List.mem_cons.1 hentry with rfl | hrest
                  · simp [hlt]
                  · simp [Std.TransCmp.lt_trans hlt (hleft.1 entry hrest)]
                have := h k'
                rw [hnone] at this
                simp [lookup] at this
          have : k = k' := Std.LawfulEqCmp.eq_of_compare hkeys
          subst this
          have hvalues : v = v' := by simpa [lookup] using h k
          subst hvalues
          have hrests : rest = rest' := by
            apply ih hleft.2 rest' hright.2
            intro key
            by_cases hkey : compare key k = .eq
            · have : key = k := Std.LawfulEqCmp.eq_of_compare hkey
              subst this
              rw [lookup_eq_none fun entry hentry => by simp [hleft.1 entry hentry],
                lookup_eq_none fun entry hentry => by simp [hright.1 entry hentry]]
            · simpa [lookup, hkey] using h key
          rw [hrests]

end SortedMap

end MergedPaging
