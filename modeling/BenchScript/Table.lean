set_option autoImplicit false

namespace BenchScript

/-- Keys with their values, in the order of the keys' first insertion. -/
structure Table (κ α : Type) where
  entries : List (κ × α) := []
deriving DecidableEq, Repr

namespace Table

variable {κ α : Type} [DecidableEq κ]

def empty : Table κ α := {}

def keys (t : Table κ α) : List κ := t.entries.map Prod.fst

def get? (t : Table κ α) (key : κ) : Option α :=
  (t.entries.find? fun entry => entry.1 = key).map Prod.snd

def contains (t : Table κ α) (key : κ) : Bool := t.keys.contains key

def insertPair (key : κ) (value : α) : List (κ × α) → List (κ × α)
  | [] => [(key, value)]
  | entry :: rest =>
    if entry.1 = key then (entry.1, value) :: rest else entry :: insertPair key value rest

def insert (t : Table κ α) (key : κ) (value : α) : Table κ α :=
  ⟨insertPair key value t.entries⟩

def size (t : Table κ α) : Nat := t.entries.length

theorem get?_empty (key : κ) : (empty : Table κ α).get? key = none := rfl

theorem contains_eq_isSome (t : Table κ α) (key : κ) : t.contains key = (t.get? key).isSome := by
  obtain ⟨entries⟩ := t
  simp only [contains, keys, get?, Option.isSome_map]
  induction entries with
  | nil => rfl
  | cons entry rest ih =>
    rw [List.map_cons, List.contains_cons, ih]
    by_cases h : entry.1 = key
    · simp [h]
    · have : (key == entry.1) = false := by simpa using fun e => h e.symm
      simp [h, this]

theorem get?_insert (t : Table κ α) (key other : κ) (value : α) :
    (t.insert key value).get? other = if key = other then some value else t.get? other := by
  obtain ⟨entries⟩ := t
  simp only [get?, insert]
  induction entries with
  | nil => by_cases h : key = other <;> simp [insertPair, h]
  | cons entry rest ih =>
    by_cases hk : entry.1 = key
    · by_cases ho : entry.1 = other
      · have : key = other := hk ▸ ho
        simp [insertPair, hk, this]
      · have : key ≠ other := fun e => ho (hk.trans e)
        simp [insertPair, hk, this]
    · by_cases ho : entry.1 = other
      · have : key ≠ other := fun e => hk (ho.trans e.symm)
        rw [insertPair, if_neg hk, List.find?_cons_of_pos (by simpa using ho),
          List.find?_cons_of_pos (by simpa using ho), if_neg this]
      · simpa [insertPair, hk, ho] using ih

theorem insert_of_not_mem {t : Table κ α} {key : κ} (h : key ∉ t.keys) (value : α) :
    t.insert key value = ⟨t.entries ++ [(key, value)]⟩ := by
  obtain ⟨entries⟩ := t
  unfold insert
  congr 1
  induction entries with
  | nil => rfl
  | cons entry rest ih =>
    have hne : entry.1 ≠ key := fun heq => h (by simp [keys, heq])
    have hrest : key ∉ (Table.mk rest).keys := fun hmem => h (List.mem_cons_of_mem _ hmem)
    rw [insertPair, if_neg hne, ih hrest]
    rfl

theorem get?_of_mem {t : Table κ α} (h : t.keys.Nodup) {key : κ} {value : α}
    (hmem : (key, value) ∈ t.entries) : t.get? key = some value := by
  obtain ⟨entries⟩ := t
  unfold get?
  induction entries with
  | nil => cases hmem
  | cons entry rest ih =>
    obtain ⟨hnew, hrest⟩ := List.nodup_cons.1 h
    rcases List.mem_cons.1 hmem with rfl | hmem
    · simp
    · have hne : entry.1 ≠ key := by
        rintro rfl
        exact hnew (List.mem_map.2 ⟨_, hmem, rfl⟩)
      rw [List.find?_cons_of_neg (by simpa using hne)]
      exact ih hrest hmem

theorem mem_of_get? {t : Table κ α} {key : κ} {value : α} (h : t.get? key = some value) :
    (key, value) ∈ t.entries := by
  unfold get? at h
  obtain ⟨⟨key', value'⟩, hfound, hvalue⟩ := Option.map_eq_some_iff.1 h
  have hkey : key' = key := by simpa using List.find?_some hfound
  have hmem := List.mem_of_find?_eq_some hfound
  rw [← hkey, ← hvalue]
  exact hmem

end Table
end BenchScript
