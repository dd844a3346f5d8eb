/-!
# Cutting a text into parts

A text is cut at every separator. Two separators in a row, or one at an end, leave an empty part,
and a text without separators is its own only part. Main statements: `parts_append_cons` says that a
separator ends the part before it, whatever follows, and `nil_mem_parts_iff` when a part is empty.
-/

namespace CallGate

/-- The parts between the characters that are separators. -/
def parts (isSeparator : Char → Bool) : List Char → List (List Char)
  | [] => [[]]
  | c :: cs =>
    if isSeparator c then
      [] :: parts isSeparator cs
    else
      match parts isSeparator cs with
      | [] => [[c]]
      | part :: rest => (c :: part) :: rest

variable {isSeparator : Char → Bool}

/-- A text without separators is one part. -/
theorem parts_eq_singleton {cs : List Char} (h : ∀ c ∈ cs, isSeparator c = false) :
    parts isSeparator cs = [cs] := by
  induction cs with
  | nil => rfl
  | cons c cs ih =>
    have hc : isSeparator c = false := h c (by simp)
    simp [parts, hc, ih fun d hd => h d (by simp [hd])]

/-- A separator after a text without separators ends the first part. -/
theorem parts_append_cons {cs rest : List Char} {d : Char}
    (h : ∀ c ∈ cs, isSeparator c = false) (hd : isSeparator d = true) :
    parts isSeparator (cs ++ d :: rest) = cs :: parts isSeparator rest := by
  induction cs with
  | nil => simp [parts, hd]
  | cons c cs ih =>
    have hc : isSeparator c = false := h c (by simp)
    simp [parts, hc, ih fun e he => h e (by simp [he])]

/-- A text has no separators, or it begins with a part that a separator ends. -/
theorem parts_cases (isSeparator : Char → Bool) (cs : List Char) :
    (∀ c ∈ cs, isSeparator c = false) ∨
      ∃ part d rest, cs = part ++ d :: rest ∧ (∀ c ∈ part, isSeparator c = false) ∧
        isSeparator d = true := by
  induction cs with
  | nil => exact Or.inl (List.forall_mem_nil _)
  | cons c cs ih =>
    cases hc : isSeparator c with
    | true => exact Or.inr ⟨[], c, cs, rfl, List.forall_mem_nil _, hc⟩
    | false =>
      rcases ih with hnone | ⟨part, d, rest, rfl, hpart, hd⟩
      · exact Or.inl (List.forall_mem_cons.mpr ⟨hc, hnone⟩)
      · exact Or.inr ⟨c :: part, d, rest, rfl, List.forall_mem_cons.mpr ⟨hc, hpart⟩, hd⟩

theorem parts_eq_cons (cs : List Char) : parts isSeparator cs =
    cs.takeWhile (fun c => !isSeparator c) :: (parts isSeparator cs).tail := by
  induction cs with
  | nil => rfl
  | cons c cs ih =>
    cases hc : isSeparator c with
    | true => simp [parts, hc]
    | false =>
      rw [parts, ih]
      simp [hc]

/-- A part but the first is empty just if there is a separator at the end or there are two in a
row. -/
theorem nil_mem_tail_parts_iff {d : Char} {cs : List Char} :
    [] ∈ (parts (· == d) cs).tail ↔ cs.getLast? = some d ∨ [d, d] <:+: cs := by
  induction cs with
  | nil => simp [parts]
  | cons c cs ih =>
    by_cases hc : c = d
    · subst hc
      have htail : (parts (· == c) (c :: cs)).tail = parts (· == c) cs := by simp [parts]
      rw [htail, parts_eq_cons, List.mem_cons, ih]
      cases cs with
      | nil => simp
      | cons e es =>
        by_cases he : e = c
        · subst he
          have hpre : [e, e] <:+: e :: e :: es := ⟨[], es, rfl⟩
          simp [hpre]
        · have hpre : ¬ [c, c] <+: c :: e :: es := by
            simp [List.cons_prefix_cons, Ne.symm he]
          have hinfix : [c, c] <:+: c :: e :: es ↔ [c, c] <:+: e :: es := by
            rw [List.infix_cons_iff, or_iff_right hpre]
          simp [he, hinfix]
    · have htail : (parts (· == d) (c :: cs)).tail = (parts (· == d) cs).tail := by
        rw [parts, parts_eq_cons cs]
        simp [hc]
      have hpre : ¬ [d, d] <+: c :: cs := by simp [List.cons_prefix_cons, Ne.symm hc]
      rw [htail, ih, List.infix_cons_iff]
      cases cs with
      | nil => simp [hc]
      | cons e es => simp [hpre]

/-- A part is empty just if the text is, or if there is a separator at an end or there are two in a
row. -/
theorem nil_mem_parts_iff {d : Char} {cs : List Char} : [] ∈ parts (· == d) cs ↔
    cs = [] ∨ cs.head? = some d ∨ cs.getLast? = some d ∨ [d, d] <:+: cs := by
  rw [parts_eq_cons, List.mem_cons, nil_mem_tail_parts_iff, ← or_assoc]
  cases cs with
  | nil => simp
  | cons c cs => by_cases hc : c = d <;> simp [hc]

end CallGate
