/-!
# Blank characters

The characters that count as blank are those with the property `White_Space`. A text is trimmed by
cutting the blank characters at both of its ends; the characters in between stay as they are. Main
statements: `exists_blanks` and `trimmed_trimChars` say that no more and no less than the blank ends is
cut off, and `Trimmed.trimChars_eq` that there is only one text of which this is so.
-/

namespace CallGate

/-- The character has the property `White_Space`: the ASCII controls from tab to carriage return,
the space, and the separators beyond ASCII. The zero-width characters do not have it. -/
def isBlank (c : Char) : Bool :=
  let n := c.toNat
  (9 ≤ n && n ≤ 13) || n == 0x20 || n == 0x85 || n == 0xA0 || n == 0x1680
    || (0x2000 ≤ n && n ≤ 0x200A) || n == 0x2028 || n == 0x2029 || n == 0x202F || n == 0x205F
    || n == 0x3000

/-- The characters without the blank ones at both ends. -/
def trimChars (cs : List Char) : List Char :=
  ((cs.dropWhile isBlank).reverse.dropWhile isBlank).reverse

/-- The text without the blank characters at both ends. -/
def trimText (s : String) : String := String.ofList (trimChars s.toList)

@[simp] theorem toList_trimText (s : String) : (trimText s).toList = trimChars s.toList := by
  simp [trimText]

/-- The characters are all blank. -/
def Blanks (cs : List Char) : Prop := ∀ c ∈ cs, isBlank c = true

instance (cs : List Char) : Decidable (Blanks cs) := List.decidableBAll _ cs

/-- There are characters, and neither the first nor the last of them is blank. -/
structure Trimmed (cs : List Char) : Prop where
  ne_nil : cs ≠ []
  head : ∀ c ∈ cs.head?, isBlank c = false
  last : ∀ c ∈ cs.getLast?, isBlank c = false

instance (cs : List Char) : Decidable (Trimmed cs) :=
  have hall (o : Option Char) : o.all (!isBlank ·) = true ↔ ∀ c ∈ o, isBlank c = false := by
    cases o <;> simp
  decidable_of_iff (cs ≠ [] ∧ cs.head?.all (!isBlank ·) = true ∧ cs.getLast?.all (!isBlank ·) = true)
    ⟨fun h => ⟨h.1, (hall _).mp h.2.1, (hall _).mp h.2.2⟩,
      fun h => ⟨h.ne_nil, (hall _).mpr h.head, (hall _).mpr h.last⟩⟩

/-- A text without blank characters has none at its ends. -/
theorem trimmed_of_forall {cs : List Char} (hne : cs ≠ []) (h : ∀ c ∈ cs, isBlank c = false) :
    Trimmed cs :=
  ⟨hne, fun c hc => h c (List.mem_of_head? hc), fun c hc => h c (List.mem_of_getLast? hc)⟩

/-- Only blank characters are cut off. -/
theorem exists_blanks (cs : List Char) :
    ∃ lead trail, Blanks lead ∧ Blanks trail ∧ cs = lead ++ trimChars cs ++ trail := by
  have hblanks (cs : List Char) : Blanks (cs.takeWhile isBlank) :=
    fun c hc => List.all_eq_true.mp List.all_takeWhile c hc
  let rest := cs.dropWhile isBlank
  refine ⟨cs.takeWhile isBlank, (rest.reverse.takeWhile isBlank).reverse, hblanks cs,
    fun c hc => hblanks rest.reverse c (List.mem_reverse.mp hc), ?_⟩
  have htrail : trimChars cs ++ (rest.reverse.takeWhile isBlank).reverse = rest := by
    rw [trimChars, ← List.reverse_append, List.takeWhile_append_dropWhile, List.reverse_reverse]
  rw [List.append_assoc, htrail, List.takeWhile_append_dropWhile]

/-- What is left begins and ends with characters that are not blank. -/
theorem trimmed_trimChars {cs : List Char} (h : trimChars cs ≠ []) : Trimmed (trimChars cs) := by
  have hhead (cs : List Char) : ∀ c ∈ (cs.dropWhile isBlank).head?, isBlank c = false := by
    intro c hc
    have hnot := List.head?_dropWhile_not isBlank cs
    rw [hc] at hnot
    simpa using hnot
  refine ⟨h, fun c hc => ?_, fun c hc => ?_⟩
  · -- The text that is left is a beginning of the one with its first blanks cut off.
    have hpre : trimChars cs <+: cs.dropWhile isBlank := by
      rw [← List.reverse_suffix, trimChars, List.reverse_reverse]
      exact List.dropWhile_suffix _
    obtain ⟨trail, htrail⟩ := hpre
    refine hhead cs c ?_
    rw [← htrail, List.head?_append, hc]
    rfl
  · rw [trimChars, List.getLast?_reverse] at hc
    exact hhead _ c hc

theorem trimChars_eq_nil_iff {cs : List Char} : trimChars cs = [] ↔ Blanks cs := by
  constructor
  · intro h
    obtain ⟨lead, trail, hlead, htrail, hcs⟩ := exists_blanks cs
    rw [h, List.append_nil] at hcs
    intro c hc
    rw [hcs] at hc
    exact (List.mem_append.mp hc).elim (hlead c) (htrail c)
  · intro h
    have hdrop : (cs ++ []).dropWhile isBlank = [] := List.dropWhile_append_of_pos h
    rw [List.append_nil] at hdrop
    rw [trimChars, hdrop]
    rfl

/-- A text is what is left of it with any blanks around it. -/
theorem Trimmed.trimChars_eq {core lead trail : List Char} (h : Trimmed core) (hlead : Blanks lead)
    (htrail : Blanks trail) : trimChars (lead ++ core ++ trail) = core := by
  have hkept {cs : List Char} (hne : cs ≠ []) (hhead : ∀ c ∈ cs.head?, isBlank c = false)
      (more : List Char) : (cs ++ more).dropWhile isBlank = cs ++ more := by
    cases cs with
    | nil => exact absurd rfl hne
    | cons c cs => exact List.dropWhile_cons_of_neg (by simp [hhead c rfl])
  have hback : ((core ++ trail).reverse).dropWhile isBlank = core.reverse := by
    have hblank : Blanks trail.reverse := fun c hc => htrail c (List.mem_reverse.mp hc)
    have hcore : (core.reverse ++ []).dropWhile isBlank = core.reverse ++ [] :=
      hkept (by simp [h.ne_nil]) (fun c hc => h.last c (by simpa using hc)) []
    rw [List.append_nil] at hcore
    rw [List.reverse_append, List.dropWhile_append_of_pos hblank, hcore]
  rw [trimChars, List.append_assoc, List.dropWhile_append_of_pos hlead, hkept h.ne_nil h.head, hback,
    List.reverse_reverse]

/-- Nothing is cut off a text without blank characters. -/
theorem trimChars_eq_self {cs : List Char} (h : ∀ c ∈ cs, isBlank c = false) : trimChars cs = cs := by
  by_cases hne : cs = []
  · rw [hne]
    rfl
  · have heq : trimChars ([] ++ cs ++ []) = cs :=
      (trimmed_of_forall hne h).trimChars_eq (List.forall_mem_nil _) (List.forall_mem_nil _)
    rwa [List.nil_append, List.append_nil] at heq

end CallGate
