/-!
# Sets of names

A set of names is kept as the list of its members in the order of their code points, so that equal
sets are equal lists and a set is written in one way only. Main statement: `mem_ofList` says that a
set built from a list has the members of the list, whatever their order and number there.
-/

namespace CallGate

/-- The ordered list with `x` added, unless it is there already. -/
def insertName (x : String) : List String → List String
  | [] => [x]
  | y :: ys => if x = y then y :: ys else if x < y then x :: y :: ys else y :: insertName x ys

theorem mem_insertName {x z : String} {ys : List String} :
    z ∈ insertName x ys ↔ z = x ∨ z ∈ ys := by
  induction ys with
  | nil => simp [insertName]
  | cons y ys ih =>
    by_cases h : x = y
    · subst h
      simp [insertName]
    · by_cases h' : x < y
      · simp [insertName, h, h']
      · simp only [insertName, h, h', if_false, List.mem_cons, ih]
        constructor
        · rintro (h | h | h) <;> simp [h]
        · rintro (h | h | h) <;> simp [h]

theorem pairwise_insertName (x : String) {ys : List String} (h : ys.Pairwise (· < ·)) :
    (insertName x ys).Pairwise (· < ·) := by
  induction ys with
  | nil => simp [insertName]
  | cons y ys ih =>
    obtain ⟨hy, hys⟩ := List.pairwise_cons.mp h
    by_cases hxy : x = y
    · simpa [insertName, hxy] using h
    · by_cases hlt : x < y
      · simp only [insertName, hxy, hlt, if_false, if_true]
        refine List.pairwise_cons.mpr ⟨?_, h⟩
        intro z hz
        rcases List.mem_cons.mp hz with rfl | hz
        · exact hlt
        · exact String.lt_trans hlt (hy z hz)
      · simp only [insertName, hxy, hlt, if_false]
        refine List.pairwise_cons.mpr ⟨?_, ih hys⟩
        intro z hz
        rcases mem_insertName.mp hz with rfl | hz
        · exact String.not_le.mp fun hle => hxy (String.le_antisymm hle (String.not_lt.mp hlt))
        · exact hy z hz

/-- A finite set of names. -/
structure NameSet where
  /-- The members in ascending order. -/
  toList : List String
  /-- Every member comes before the ones that follow it. -/
  ascending : toList.Pairwise (· < ·)
deriving DecidableEq

namespace NameSet

/-- The set without members. -/
def empty : NameSet := ⟨[], .nil⟩

instance : Inhabited NameSet := ⟨empty⟩

/-- The set has no members. -/
def isEmpty (s : NameSet) : Bool := s.toList.isEmpty

instance : Membership String NameSet := ⟨fun s x => x ∈ s.toList⟩

instance (x : String) (s : NameSet) : Decidable (x ∈ s) :=
  inferInstanceAs (Decidable (x ∈ s.toList))

/-- The set with `x` as a further member. -/
def insert (s : NameSet) (x : String) : NameSet :=
  ⟨insertName x s.toList, pairwise_insertName x s.ascending⟩

/-- The set with the names of a list as further members. -/
def insertAll (s : NameSet) (xs : List String) : NameSet := xs.foldl insert s

/-- The set of the names in a list. -/
def ofList (xs : List String) : NameSet := empty.insertAll xs

/-- Every member of the first set is in the second. -/
def subset (s t : NameSet) : Bool := s.toList.all fun x => decide (x ∈ t)

theorem mem_insert {s : NameSet} {x z : String} : z ∈ s.insert x ↔ z = x ∨ z ∈ s :=
  mem_insertName

theorem mem_insertAll {s : NameSet} {xs : List String} {z : String} :
    z ∈ s.insertAll xs ↔ z ∈ xs ∨ z ∈ s := by
  induction xs generalizing s with
  | nil => simp [insertAll]
  | cons x xs ih =>
    rw [insertAll, List.foldl_cons, ← insertAll, ih, mem_insert, List.mem_cons]
    constructor
    · rintro (h | h | h) <;> simp [h]
    · rintro ((h | h) | h) <;> simp [h]

theorem mem_ofList {xs : List String} {z : String} : z ∈ ofList xs ↔ z ∈ xs := by
  rw [ofList, mem_insertAll]
  exact or_iff_left (by rintro ⟨⟩)

end NameSet

end CallGate
