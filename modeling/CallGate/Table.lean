/-!
# Tables

A table maps keys to values and keeps its keys in the order in which they were first entered.
Entering a key again replaces its value in place. Main statements: `get?_insert` says what a look-up
sees after an entry, and `keys_insert` which keys there are; the keys are always distinct, so the
number of entries is the number of keys.
-/

namespace CallGate

variable {κ α : Type}

/-- The value that a list of entries holds under a key. -/
def lookupEntry [DecidableEq κ] (k : κ) : List (κ × α) → Option α
  | [] => none
  | (k', v) :: rest => if k' = k then some v else lookupEntry k rest

/-- The entries with `v` under the key `k`, in place of the old value or else at the end. -/
def insertEntry [DecidableEq κ] (k : κ) (v : α) : List (κ × α) → List (κ × α)
  | [] => [(k, v)]
  | (k', v') :: rest => if k' = k then (k, v) :: rest else (k', v') :: insertEntry k v rest

theorem map_fst_insertEntry [DecidableEq κ] (k : κ) (v : α) (entries : List (κ × α)) :
    (insertEntry k v entries).map Prod.fst =
      if k ∈ entries.map Prod.fst then entries.map Prod.fst else entries.map Prod.fst ++ [k] := by
  induction entries with
  | nil => simp [insertEntry]
  | cons entry rest ih =>
    by_cases h : entry.1 = k
    · simp [insertEntry, h]
    · have h' : ¬ k = entry.1 := fun e => h e.symm
      simp only [insertEntry, h, if_false, List.map_cons, ih, List.mem_cons, h', false_or]
      split <;> simp

theorem nodup_insertEntry [DecidableEq κ] (k : κ) (v : α) {entries : List (κ × α)}
    (h : (entries.map Prod.fst).Nodup) : ((insertEntry k v entries).map Prod.fst).Nodup := by
  rw [map_fst_insertEntry]
  split
  · exact h
  · rename_i hk
    exact List.nodup_append.mpr ⟨h, by simp, by
      intro a ha b hb hab
      simp only [List.mem_singleton] at hb
      exact hk (hb ▸ hab ▸ ha)⟩

theorem lookupEntry_insertEntry [DecidableEq κ] (k k' : κ) (v : α) (entries : List (κ × α)) :
    lookupEntry k' (insertEntry k v entries) =
      if k = k' then some v else lookupEntry k' entries := by
  induction entries with
  | nil => simp [insertEntry, lookupEntry]
  | cons entry rest ih =>
    by_cases h : entry.1 = k
    · by_cases h' : k = k' <;> simp [insertEntry, lookupEntry, h, h']
    · by_cases h' : k = k'
      · subst h'
        simp [insertEntry, lookupEntry, h, ih]
      · simp [insertEntry, lookupEntry, h, h', ih]

/-- A finite map that keeps the order in which its keys were first entered. -/
structure Table (κ α : Type) where
  /-- The keys with their values. -/
  entries : List (κ × α)
  /-- No key occurs twice. -/
  nodup : (entries.map Prod.fst).Nodup

namespace Table

/-- The table without entries. -/
def empty : Table κ α := ⟨[], .nil⟩

instance : Inhabited (Table κ α) := ⟨empty⟩

/-- The value under a key. -/
def get? [DecidableEq κ] (t : Table κ α) (k : κ) : Option α := lookupEntry k t.entries

/-- The table with `v` under the key `k`. -/
def insert [DecidableEq κ] (t : Table κ α) (k : κ) (v : α) : Table κ α :=
  ⟨insertEntry k v t.entries, nodup_insertEntry k v t.nodup⟩

/-- The keys in the order in which they were first entered. -/
def keys (t : Table κ α) : List κ := t.entries.map Prod.fst

/-- The number of keys. -/
def size (t : Table κ α) : Nat := t.entries.length

/-- The table that results from entering the pairs one after the other. -/
def ofList [DecidableEq κ] (pairs : List (κ × α)) : Table κ α :=
  pairs.foldl (fun t p => t.insert p.1 p.2) empty

@[simp] theorem get?_empty [DecidableEq κ] (k : κ) : (empty : Table κ α).get? k = none := rfl

@[simp] theorem keys_empty : (empty : Table κ α).keys = [] := rfl

theorem get?_insert [DecidableEq κ] (t : Table κ α) (k k' : κ) (v : α) :
    (t.insert k v).get? k' = if k = k' then some v else t.get? k' :=
  lookupEntry_insertEntry k k' v t.entries

theorem keys_insert [DecidableEq κ] (t : Table κ α) (k : κ) (v : α) :
    (t.insert k v).keys = if k ∈ t.keys then t.keys else t.keys ++ [k] :=
  map_fst_insertEntry k v t.entries

theorem size_eq_length_keys (t : Table κ α) : t.size = t.keys.length := by simp [size, keys]

end Table

end CallGate
