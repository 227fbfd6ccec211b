/-!
# Entries in insertion order

A table whose order can be seen is a list of pairs. Writing a key that is present replaces its
value in place; a new key goes to the end.
-/

namespace ProtocolPages.Ordered

variable {κ ν : Type}

/-- Write `value` at `key`, where `same` decides whether two keys name one entry. The key that was
written first stays. -/
def put (same : κ → κ → Bool) (key : κ) (value : ν) : List (κ × ν) → List (κ × ν)
  | [] => [(key, value)]
  | (k, v) :: rest => if same k key then (k, value) :: rest else (k, v) :: put same key value rest

/-- Whether some entry has the given key. -/
def holds (same : κ → κ → Bool) (key : κ) (entries : List (κ × ν)) : Bool :=
  entries.any fun entry => same entry.1 key

/-- Writing a present key keeps the keys as they are. -/
theorem map_fst_put_of_holds {same : κ → κ → Bool} {key : κ} {value : ν} {entries : List (κ × ν)}
    (h : holds same key entries = true) :
    (put same key value entries).map Prod.fst = entries.map Prod.fst := by
  induction entries with
  | nil => simp [holds] at h
  | cons entry rest ih =>
    by_cases hk : same entry.1 key = true
    · simp [put, hk]
    · have hrest : holds same key rest = true := by
        simpa [holds, hk] using h
      simp [put, hk, ih hrest]

/-- Writing a new key puts it at the end. -/
theorem put_of_not_holds {same : κ → κ → Bool} {key : κ} {value : ν} {entries : List (κ × ν)}
    (h : holds same key entries = false) :
    put same key value entries = entries ++ [(key, value)] := by
  induction entries with
  | nil => rfl
  | cons entry rest ih =>
    have hsplit : same entry.1 key = false ∧ holds same key rest = false := by
      simpa [holds] using h
    simp [put, hsplit.1, ih hsplit.2]

/-- Keys can be renamed before or after writing, if the new names are told apart as the old ones. -/
theorem map_put {μ : Type} {same : κ → κ → Bool} {same' : μ → μ → Bool} {rename : κ → μ} {key : κ}
    {value : ν} {entries : List (κ × ν)}
    (h : ∀ entry ∈ entries, same' (rename entry.1) (rename key) = same entry.1 key) :
    (put same key value entries).map (fun entry => (rename entry.1, entry.2)) =
      put same' (rename key) value (entries.map fun entry => (rename entry.1, entry.2)) := by
  induction entries with
  | nil => rfl
  | cons entry rest ih =>
    obtain ⟨hfirst, hrest⟩ := List.forall_mem_cons.mp h
    by_cases hk : same entry.1 key = true
    · simp [put, hfirst, hk]
    · simp [put, hfirst, hk, ih hrest]

/-- Looking up a key that was written finds its value, and other keys are as before. -/
theorem lookup_put [BEq κ] [LawfulBEq κ] [DecidableEq κ] (k key : κ) (value : ν)
    (entries : List (κ × ν)) :
    (put (· == ·) key value entries).lookup k =
      if k = key then some value else entries.lookup k := by
  have hbeq (a b : κ) (h : a ≠ b) : (a == b) = false := beq_eq_false_iff_ne.mpr h
  induction entries with
  | nil =>
    by_cases hk : k = key
    · simp [put, hk]
    · simp [put, hk, List.lookup_cons, hbeq k key hk]
  | cons entry rest ih =>
    obtain ⟨first, v⟩ := entry
    by_cases hfirst : first = key
    · subst hfirst
      by_cases hk : k = first
      · simp [put, hk]
      · simp [put, hk, List.lookup_cons, hbeq k first hk]
    · by_cases hk : k = first
      · subst hk
        simp [put, hbeq k key hfirst, hfirst]
      · simp [put, hbeq first key hfirst, List.lookup_cons, hbeq k first hk, ih]

end ProtocolPages.Ordered
