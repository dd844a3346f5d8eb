import CallGate.Settings.Basic

/-!
# Methods on the paths of infrastructure calls

A method is on a path if it begins with it, byte by byte and without regard to the case of ASCII
letters. Main statements: `matches?_eq` says that no more bytes are cut off a method than it has,
`isInfrastructure_iff_exists` what it is to be on a path in characters, and `infrastructure_path_law`
which changes of the paths and of a method make no difference.
-/

namespace CallGate

/-- The first `n` bytes, unless there are fewer. -/
def firstBytes? (n : Nat) (bytes : Bytes) : Option Bytes :=
  if n ≤ bytes.length then some (bytes.take n) else none

/-- Compares a path with as many bytes as it has itself, which are cut off a method. If the method is
shorter nothing is cut off, and it does not match. -/
def matches? (path method : Bytes) : Option Bool :=
  if path.length ≤ method.length then
    (firstBytes? path.length method).map fun first => first.map lowerByte == path.map lowerByte
  else some false

/-- Where bytes are cut off a method they are there, whatever characters they belong to. -/
theorem matches?_eq (path method : Bytes) :
    matches? path method = some (beginsIgnoringCase path method) := by
  unfold matches? firstBytes?
  by_cases hle : path.length ≤ method.length
  · rw [if_pos hle, if_pos hle, Option.map_some, Option.some_inj, Bool.eq_iff_iff,
      beginsIgnoringCase_iff, List.prefix_iff_eq_take, List.length_map, ← List.map_take, beq_iff_eq]
    exact eq_comm
  · have hnot : ¬ beginsIgnoringCase path method = true := by
      intro hbegins
      have hlength := (beginsIgnoringCase_iff.mp hbegins).length_le
      simp only [List.length_map] at hlength
      exact hle hlength
    rw [if_neg hle, Bool.eq_false_iff.mpr hnot]

namespace Settings

variable {s s' : Settings} {method method' : String}

/-- The test as it is made: path by path, with bytes cut off the method, until one of them matches. -/
def tests? (s : Settings) (method : String) : Option Bool :=
  s.infrastructurePaths.anyM fun path => matches? (utf8Bytes path) (utf8Bytes method)

theorem tests?_eq (s : Settings) (method : String) : s.tests? method = some (s.isInfrastructure method) := by
  unfold tests? isInfrastructure
  simp only [matches?_eq]
  induction s.infrastructurePaths with
  | nil => rfl
  | cons path paths ih =>
    rw [List.anyM, List.any_cons, ih]
    cases beginsIgnoringCase (utf8Bytes path) (utf8Bytes method) <;> rfl

theorem isInfrastructure_iff_exists : s.isInfrastructure method = true ↔
    ∃ path ∈ s.infrastructurePaths, (lowerAscii path).toList <+: (lowerAscii method).toList := by
  simp only [isInfrastructure, List.any_eq_true, begins_utf8Bytes_iff]

end Settings

/-- The two lists have the same paths but for the case of ASCII letters, in whatever order and however
often. -/
structure SamePaths (paths paths' : List String) : Prop where
  left : ∀ path ∈ paths, ∃ path' ∈ paths', sameIgnoringCase path path' = true
  right : ∀ path' ∈ paths', ∃ path ∈ paths, sameIgnoringCase path' path = true

namespace SamePaths

variable {paths paths' : List String}

theorem of_mem_iff (h : ∀ path, path ∈ paths ↔ path ∈ paths') : SamePaths paths paths' :=
  ⟨fun path hpath => ⟨path, (h path).mp hpath, beq_self_eq_true _⟩,
    fun path hpath => ⟨path, (h path).mpr hpath, beq_self_eq_true _⟩⟩

end SamePaths

namespace Settings

variable {s s' : Settings} {method method' : String}

/-- A method stays on a path if the list has, for each path, one that differs at most in case, and the
method differs at most in case and in what comes after its end. -/
theorem isInfrastructure_mono
    (hpaths : ∀ path ∈ s.infrastructurePaths,
      ∃ path' ∈ s'.infrastructurePaths, sameIgnoringCase path path' = true)
    (hmethod : (lowerAscii method).toList <+: (lowerAscii method').toList)
    (h : s.isInfrastructure method = true) : s'.isInfrastructure method' = true := by
  rw [isInfrastructure_iff_exists] at h ⊢
  obtain ⟨path, hpath, hbegins⟩ := h
  obtain ⟨path', hpath', hsame⟩ := hpaths path hpath
  have hlower : lowerAscii path = lowerAscii path' := congrArg String.ofList (beq_iff_eq.mp hsame)
  exact ⟨path', hpath', hlower ▸ hbegins.trans hmethod⟩

theorem isInfrastructure_congr (hpaths : SamePaths s.infrastructurePaths s'.infrastructurePaths)
    (hmethod : sameIgnoringCase method method' = true) :
    s'.isInfrastructure method' = s.isInfrastructure method := by
  have hlower : lowerAscii method = lowerAscii method' :=
    congrArg String.ofList (beq_iff_eq.mp hmethod)
  rw [Bool.eq_iff_iff]
  constructor
  · exact isInfrastructure_mono hpaths.right (hlower ▸ List.prefix_refl _)
  · exact isInfrastructure_mono hpaths.left (hlower ▸ List.prefix_refl _)

/-- A method is that of an infrastructure call just if it begins with one of the paths once both are in
lower case, which is the same in bytes and in characters; and the bytes that are compared with a path
are always there to be cut off, also where this cuts a character in two. So neither the case of ASCII
letters counts, nor the order of the paths, nor how often they are listed, and with more paths, or with
something after its end, a method that was on a path still is. -/
theorem infrastructure_path_law (s : Settings) (method : String) :
    let lowered (text : String) : Bytes := (utf8Bytes text).map lowerByte
    s.tests? method = some (s.isInfrastructure method) ∧
    (s.isInfrastructure method = true ↔
      ∃ path ∈ s.infrastructurePaths, lowered path <+: lowered method) ∧
    (s.isInfrastructure method = true ↔
      ∃ path ∈ s.infrastructurePaths, (lowerAscii path).toList <+: (lowerAscii method).toList) ∧
    (∀ (s' : Settings) (method' : String),
      SamePaths s.infrastructurePaths s'.infrastructurePaths →
      sameIgnoringCase method method' = true →
      s'.isInfrastructure method' = s.isInfrastructure method) ∧
    (∀ s' : Settings, (∀ path, path ∈ s.infrastructurePaths ↔ path ∈ s'.infrastructurePaths) →
      s'.isInfrastructure method = s.isInfrastructure method) ∧
    ∀ (s' : Settings) (more : String), s.infrastructurePaths ⊆ s'.infrastructurePaths →
      s.isInfrastructure method = true → s'.isInfrastructure (method ++ more) = true := by
  intro lowered
  refine ⟨s.tests?_eq method, ?_, isInfrastructure_iff_exists,
    fun s' method' hpaths hmethod => isInfrastructure_congr hpaths hmethod, fun s' hpaths => ?_,
    fun s' more hpaths hmethod => ?_⟩
  · simp only [isInfrastructure, List.any_eq_true, beginsIgnoringCase_iff, lowered]
  · exact isInfrastructure_congr (.of_mem_iff hpaths) (beq_self_eq_true _)
  · refine isInfrastructure_mono (fun path hpath => ⟨path, hpaths hpath, beq_self_eq_true _⟩) ?_ hmethod
    simp [lowerAscii]

/-- The path `/ab` ends inside the last character of the first method, and the second differs from a path
in the case of a letter beyond ASCII, so neither is on a path. A third method is on one, also when the
paths are listed otherwise and in other case. -/
theorem infrastructure_path_law_cut :
    let paths := ["/\u00C9cho.R", "/ab", "/a"]
    let s : Settings := { standard with infrastructurePaths := paths }
    let s' : Settings := { standard with infrastructurePaths := ["/A", "/\u00C9CHO.r", "/Ab", "/a"] }
    s.tests? "/\u00C9" = some false ∧ s.tests? "/\u00E9cho.r" = some false ∧
      s'.isInfrastructure "/\u00C9CHO.R" = true ∧
      s.isInfrastructure "/\u00C9cho.r/Say/Again" = true := by
  intro paths s s'
  obtain ⟨hcut, -⟩ := infrastructure_path_law s "/\u00C9"
  obtain ⟨hother, -⟩ := infrastructure_path_law s "/\u00E9cho.r"
  obtain ⟨-, -, hiff, hsame, -, hmore⟩ := infrastructure_path_law s "/\u00C9cho.r"
  have hon : s.isInfrastructure "/\u00C9cho.r" = true :=
    hiff.mpr ⟨"/\u00C9cho.R", by decide, by decide⟩
  refine ⟨hcut.trans (by decide +kernel), hother.trans (by decide +kernel), ?_, ?_⟩
  · have hpaths : SamePaths s.infrastructurePaths s'.infrastructurePaths :=
      ⟨by decide, by decide⟩
    exact (hsame s' "/\u00C9CHO.R" hpaths (by decide)).trans hon
  · exact hmore s "/Say/Again" (List.Subset.refl _) hon

end Settings

end CallGate
