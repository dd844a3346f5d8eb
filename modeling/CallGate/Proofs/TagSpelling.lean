import Mathlib
import CallGate.Proofs.TagGrammar

/-!
# Spellings of a locale

A locale can be spelled in many ways, with either separator and in either case, but its tag is one of
them and the same for all. Main statements: `Spells.recased` says that case does not matter,
`folded_trimmed` that a tag which is read differs from that of its locale at most in separators and
case, and `tag_canonical` that two tags are read as the same locale just if they differ in nothing else.
-/

namespace CallGate.Locale

/-! ## Separators -/

/-- The text with hyphens for all separators and its ASCII letters in lower case. -/
def folded (text : List Char) : List Char :=
  (text.map fun c => if c = '_' then '-' else c).map Char.toLower

/-- The parts with a hyphen before each. -/
def hyphenated (parts : List (List Char)) : List Char := parts.flatMap fun part => '-' :: part

theorem joined_hyphenated (parts : List (List Char)) : Joined parts (hyphenated parts) := by
  induction parts with
  | nil => exact .nil
  | cons part parts ih => exact .cons (Or.inl rfl) ih

theorem folded_append (text more : List Char) : folded (text ++ more) = folded text ++ folded more := by
  simp [folded]

theorem folded_of_isSeparator {part : List Char} (h : ∀ c ∈ part, isSeparator c = false) :
    folded part = part.map Char.toLower := by
  have hkept : part.map (fun c => if c = '_' then '-' else c) = part := by
    refine (List.map_congr_left fun c hc => if_neg ?_).trans (List.map_id' part)
    rintro rfl
    cases h _ hc
  rw [folded, hkept]

/-- Folding makes hyphens of separators, and leaves the parts as they are but for their case. -/
theorem Joined.folded_eq {parts : List (List Char)} {text : List Char} (hj : Joined parts text)
    (h : ∀ part ∈ parts, ∀ c ∈ part, isSeparator c = false) :
    folded text = hyphenated (parts.map (List.map Char.toLower)) := by
  induction hj with
  | nil => rfl
  | @cons separator part parts text hyphen _ ih =>
    obtain ⟨hpart, hparts⟩ := List.forall_mem_cons.mp h
    have hseparator : folded (separator :: (part ++ text)) = '-' :: folded (part ++ text) := by
      rcases hyphen with rfl | rfl <;> rfl
    rw [hseparator, folded_append, folded_of_isSeparator hpart, ih hparts]
    rfl

/-! ## Case -/

/-- The parts differ at most in the case of letters. -/
def SameLetters (part part' : List Char) : Prop := part'.map Char.toLower = part.map Char.toLower

theorem isDigit_of_isAlpha {c : Char} (h : c.isAlpha = true) : c.isDigit = false := by
  have hrange : 65 ≤ c.toNat ∧ c.toNat ≤ 90 ∨ 97 ≤ c.toNat ∧ c.toNat ≤ 122 := by
    simpa [Char.isAlpha, Char.isUpper, Char.isLower, UInt32.le_iff_toNat_le] using h
  have hdigit : c.isDigit = true ↔ 48 ≤ c.toNat ∧ c.toNat ≤ 57 := by
    simp [Char.isDigit, UInt32.le_iff_toNat_le]
  rw [← Bool.not_eq_true, hdigit]
  omega

theorem isDigit_toLower (c : Char) : c.toLower.isDigit = c.isDigit := by
  by_cases hc : c.isUpper = true
  · have halpha : c.isAlpha = true := by simp [Char.isAlpha, hc]
    rw [isDigit_of_isAlpha halpha, isDigit_of_isAlpha ((Char.isAlpha_toLower_eq_isAlpha c).trans halpha)]
  · rw [Char.toLower_eq_of_not_isUpper hc]

namespace SameLetters

variable {part part' : List Char}

theorem lower (part : List Char) : SameLetters part (part.map Char.toLower) := by
  simp [SameLetters]

theorem upper (part : List Char) : SameLetters part (part.map Char.toUpper) := by
  simp [SameLetters]

theorem title (part : List Char) : SameLetters part (titleCase part) := by
  cases part <;> simp [SameLetters, titleCase]

theorem eq (h : SameLetters part part') : part'.map Char.toLower = part.map Char.toLower := h

/-- What does not tell a part from the same in lower case does not tell the two apart. -/
theorem congr {β : Sort*} (h : SameLetters part part') {f : List Char → β}
    (hf : ∀ part, f (part.map Char.toLower) = f part) : f part' = f part := by
  rw [← hf part', ← hf part, h.eq]

theorem length (h : SameLetters part part') : part'.length = part.length :=
  h.congr fun _ => List.length_map _

theorem titleCase_eq (h : SameLetters part part') : titleCase part' = titleCase part :=
  h.congr fun part => by cases part <;> simp [titleCase]

theorem upper_eq (h : SameLetters part part') : part'.map Char.toUpper = part.map Char.toUpper :=
  h.congr (f := List.map Char.toUpper) fun part => by simp

theorem forall_iff (h : SameLetters part part') {p : Char → Bool} (hp : ∀ c, p c.toLower = p c) :
    (∀ c ∈ part', p c = true) ↔ ∀ c ∈ part, p c = true :=
  .of_eq (h.congr (f := fun part => ∀ c ∈ part, p c = true) fun part => by simp [hp])

end SameLetters

/-- A text of the form of a tag can be spelled in another case and with hyphens. It still has the form of
a tag, and names the same locale. -/
theorem Spells.recased {text language : List Char} {script region : Option (List Char)}
    (h : Spells text language script region) {f g k : List Char → List Char}
    (hf : ∀ part, SameLetters part (f part)) (hg : ∀ part, SameLetters part (g part))
    (hk : ∀ part, SameLetters part (k part)) :
    Spells (f language ++ hyphenated ((script.map g).toList ++ (region.map k).toList)) (f language)
        (script.map g) (region.map k) ∧
      spelled (f language) (script.map g) (region.map k) = spelled language script region ∧
      (InCatalogue (f language) ↔ InCatalogue language) := by
  have alpha {part part' : List Char} (h : SameLetters part part') :
      (∀ c ∈ part', c.isAlpha = true) ↔ ∀ c ∈ part, c.isAlpha = true :=
    h.forall_iff Char.isAlpha_toLower_eq_isAlpha
  have digits {part part' : List Char} (h : SameLetters part part') :
      (∀ c ∈ part', c.isDigit = true) ↔ ∀ c ∈ part, c.isDigit = true := h.forall_iff isDigit_toLower
  refine ⟨⟨⟨_, rfl, joined_hyphenated _⟩, (alpha (hf language)).mpr h.language, ?_, ?_⟩, ?_, ?_⟩
  · rintro part' hpart'
    obtain ⟨part, hpart, rfl⟩ := Option.map_eq_some_iff.mp hpart'
    rw [(hg part).length, alpha (hg part)]
    exact h.script part hpart
  · rintro part' hpart'
    obtain ⟨part, hpart, rfl⟩ := Option.map_eq_some_iff.mp hpart'
    rw [(hk part).length, alpha (hk part), digits (hk part)]
    exact h.region part hpart
  · have htitle (part : List Char) : titleCase (g part) = titleCase part := (hg part).titleCase_eq
    have hupper (part : List Char) : (k part).map Char.toUpper = part.map Char.toUpper := (hk part).upper_eq
    simp only [spelled_eq, Option.map_map, Function.comp_def, htitle, hupper, (hf language).eq]
  · rw [inCatalogue_iff, inCatalogue_iff, (hf language).eq]

/-! ## Blanks -/

theorem isBlank_of_isAlphanum {c : Char} (h : c.isAlphanum = true) : isBlank c = false := by
  have hrange : (65 ≤ c.toNat ∧ c.toNat ≤ 90 ∨ 97 ≤ c.toNat ∧ c.toNat ≤ 122) ∨
      48 ≤ c.toNat ∧ c.toNat ≤ 57 := by
    simpa [Char.isAlphanum, Char.isAlpha, Char.isUpper, Char.isLower, Char.isDigit,
      UInt32.le_iff_toNat_le] using h
  simp only [isBlank, Bool.or_eq_false_iff, Bool.and_eq_false_imp, decide_eq_true_eq,
    decide_eq_false_iff_not, beq_eq_false_iff_ne]
  omega

theorem Joined.isBlank {parts : List (List Char)} {text : List Char} (hj : Joined parts text)
    (h : ∀ part ∈ parts, ∀ c ∈ part, c.isAlphanum = true) : ∀ c ∈ text, isBlank c = false := by
  induction hj with
  | nil => exact List.forall_mem_nil _
  | @cons separator part parts text hyphen _ ih =>
    obtain ⟨hpart, hparts⟩ := List.forall_mem_cons.mp h
    refine List.forall_mem_cons.mpr ⟨?_, fun c hc => ?_⟩
    · rcases hyphen with rfl | rfl <;> decide
    · rcases List.mem_append.mp hc with hc | hc
      · exact isBlank_of_isAlphanum (hpart c hc)
      · exact ih hparts c hc

/-- There are no blanks in a tag, so there is nothing to cut off. -/
theorem Spells.trimChars_eq {text language : List Char} {script region : Option (List Char)}
    (h : Spells text language script region) : trimChars text = text := by
  obtain ⟨hlanguage, hmore⟩ := h.isAlphanum
  obtain ⟨rest, rfl, hjoined⟩ := h.text
  refine trimChars_eq_self fun c hc => ?_
  rcases List.mem_append.mp hc with hc | hc
  · exact isBlank_of_isAlphanum (hlanguage c hc)
  · exact hjoined.isBlank hmore c hc

/-! ## Reading other spellings -/

section Spelling

variable {text language : List Char} {script region : Option (List Char)}

/-- A locale of the catalogue is read however its letters are spelled. -/
theorem parse_recased (h : Spells text language script region) (hin : InCatalogue language)
    {f g k : List Char → List Char} (hf : ∀ part, SameLetters part (f part))
    (hg : ∀ part, SameLetters part (g part)) (hk : ∀ part, SameLetters part (k part)) :
    parse (String.ofList (f language ++ hyphenated ((script.map g).toList ++ (region.map k).toList))) =
      .ok (spelled language script region) := by
  obtain ⟨hspells, heq, hcatalogue⟩ := h.recased hf hg hk
  refine parse_eq_ok_iff.mpr ⟨f language, script.map g, region.map k, ?_, hcatalogue.mpr hin, heq.symm⟩
  rw [String.toList_ofList, hspells.trimChars_eq]
  exact hspells

theorem tag_spelled (language : List Char) (script region : Option (List Char)) :
    (spelled language script region).tag = String.ofList (language.map Char.toLower ++
      hyphenated ((script.map titleCase).toList ++ (region.map (List.map Char.toUpper)).toList)) := by
  rw [← String.toList_inj]
  cases script <;> cases region <;> simp [tag, spelled_eq, hyphenated]

theorem folded_eq (h : Spells text language script region) :
    folded text = language.map Char.toLower ++ hyphenated
      ((script.map (List.map Char.toLower)).toList ++ (region.map (List.map Char.toLower)).toList) := by
  obtain ⟨hlanguage, hmore⟩ := h.isAlphanum
  obtain ⟨rest, rfl, hjoined⟩ := h.text
  rw [folded_append, folded_of_isSeparator fun c hc => isSeparator_of_isAlphanum (hlanguage c hc),
    hjoined.folded_eq fun part hpart c hc => isSeparator_of_isAlphanum (hmore part hpart c hc),
    List.map_append]
  cases script <;> cases region <;> rfl

end Spelling

section Read

variable {tag : String} {l : Locale}

theorem parse_tag (h : parse tag = .ok l) : parse l.tag = .ok l := by
  obtain ⟨language, script, region, hspells, hin, rfl⟩ := parse_eq_ok_iff.mp h
  rw [tag_spelled]
  exact parse_recased hspells hin .lower .title .upper

theorem parse_folded (h : parse tag = .ok l) :
    parse (String.ofList (folded (trimChars tag.toList))) = .ok l := by
  obtain ⟨language, script, region, hspells, hin, rfl⟩ := parse_eq_ok_iff.mp h
  rw [folded_eq hspells]
  exact parse_recased hspells hin .lower .lower .lower

/-- A tag differs from that of the locale as which it is read at most in separators and case. -/
theorem folded_trimmed (h : parse tag = .ok l) : folded (trimChars tag.toList) = folded l.tag.toList := by
  obtain ⟨language, script, region, hspells, -, rfl⟩ := parse_eq_ok_iff.mp h
  obtain ⟨hspells', -⟩ := hspells.recased .lower .title .upper
  rw [tag_spelled, String.toList_ofList, folded_eq hspells, folded_eq hspells',
    (SameLetters.lower language).eq]
  simp only [Option.map_map, Function.comp_def, (SameLetters.title _).eq, (SameLetters.upper _).eq]

end Read

theorem parseAmong_eq_ok_iff {tag : String} {allowed : List String} {l : Locale} :
    parseAmong tag allowed = .ok l ↔ parse tag = .ok l ∧
      (allowed.isEmpty || allowed.any (sameIgnoringCase · l.language)) = true := by
  unfold parseAmong
  cases parse tag with
  | error e => exact iff_of_false nofun fun hok => nomatch hok.1
  | ok l₁ =>
    simp only [bind, Except.bind]
    split
    · next hallowed =>
      constructor
      · rintro ⟨⟩
        exact ⟨rfl, hallowed⟩
      · rintro ⟨⟨⟩, -⟩
        rfl
    · next hallowed =>
      refine iff_of_false nofun ?_
      rintro ⟨⟨⟩, hallowed'⟩
      exact hallowed hallowed'

/-- Of any two tags that are read. The tag of a locale is read as the locale again, also by a reader that
is restricted to some languages, if it has read the first tag. The two are read as the same locale just
if they differ, apart from blanks around them, in nothing but separators and the case of letters, and
just if the locales have the same tag. -/
theorem tag_canonical {tag tag' : String} {l l' : Locale} (h : parse tag = .ok l)
    (h' : parse tag' = .ok l') :
    parse l.tag = .ok l ∧
    (∀ allowed, (∃ l₁, parseAmong tag allowed = .ok l₁) → parseAmong l.tag allowed = .ok l) ∧
    (l = l' ↔ folded (trimChars tag.toList) = folded (trimChars tag'.toList)) ∧
    (l = l' ↔ l.tag = l'.tag) := by
  refine ⟨parse_tag h, ?_, ⟨?_, fun hfolded => ?_⟩, ⟨congrArg Locale.tag, fun htag => ?_⟩⟩
  · rintro allowed ⟨l₁, h₁⟩
    obtain ⟨hparse, hallowed⟩ := parseAmong_eq_ok_iff.mp h₁
    obtain rfl : l = l₁ := Except.ok.inj (h.symm.trans hparse)
    exact parseAmong_eq_ok_iff.mpr ⟨parse_tag h, hallowed⟩
  · rintro rfl
    rw [folded_trimmed h, folded_trimmed h']
  · have hparse := parse_folded h
    rw [hfolded, parse_folded h'] at hparse
    exact (Except.ok.inj hparse).symm
  · have hparse := parse_tag h
    rw [htag, parse_tag h'] at hparse
    exact (Except.ok.inj hparse).symm

/-- One locale in two spellings, read by a reader of Chinese alone. -/
theorem tag_canonical_variants :
    let l : Locale := ⟨"zh", some "Hant", some "TW"⟩
    parse " ZH_hant-tw" = .ok l ∧ parse "zh-HANT_Tw " = .ok l ∧ parse "zh-Hant-TW" = .ok l ∧
      parseAmong "zh-Hant-TW" ["ZH"] = .ok l ∧
      folded (trimChars " ZH_hant-tw".toList) = folded (trimChars "zh-HANT_Tw ".toList) := by
  intro l
  have h : parse " ZH_hant-tw" = .ok l := by decide +kernel
  have h' : parse "zh-HANT_Tw " = .ok l := by decide +kernel
  obtain ⟨htag, hallowed, hfolded, -⟩ := tag_canonical h h'
  exact ⟨h, h', htag, hallowed ["ZH"] ⟨l, by decide +kernel⟩, hfolded.mp rfl⟩

end CallGate.Locale
