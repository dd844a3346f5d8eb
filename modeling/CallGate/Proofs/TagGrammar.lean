import CallGate.Locale.Basic

/-!
# The grammar of tags

A tag is read from left to right, part by part. What it takes for a tag to be read can also be said of
the tag as a whole: it is a language, then a script or none, then a region or none, with a separator
before each but the first. Main statements: `foldlM_withPart?_iff` says which parts after the language
are read, `ofSubtags_iff` that the parts of a text are read just if the text has this form, and
`parse_grammar` which tags are read, what they are read as, and why the others are refused.
-/

namespace CallGate

namespace Locale

/-! ## The form of a tag -/

/-- The parts, each after a separator, and nothing else. -/
inductive Joined : List (List Char) → List Char → Prop where
  | nil : Joined [] []
  | cons {separator : Char} {part : List Char} {parts : List (List Char)} {text : List Char}
      (hyphen : separator = '-' ∨ separator = '_') (rest : Joined parts text) :
      Joined (part :: parts) (separator :: (part ++ text))

/-- The text is a language in ASCII letters, a script of four ASCII letters or none, and a region of two
ASCII letters or three ASCII digits or none, joined by separators. -/
structure Spells (text language : List Char) (script region : Option (List Char)) : Prop where
  text : ∃ rest, text = language ++ rest ∧ Joined (script.toList ++ region.toList) rest
  language : ∀ c ∈ language, c.isAlpha = true
  script : ∀ part ∈ script, part.length = 4 ∧ ∀ c ∈ part, c.isAlpha = true
  region : ∀ part ∈ region, part.length = 2 ∧ (∀ c ∈ part, c.isAlpha = true) ∨
    part.length = 3 ∧ ∀ c ∈ part, c.isDigit = true

/-- The locale with the language in lower case, the script with a capital first letter and lower case
after it, and the region in upper case. -/
def spelled (language : List Char) (script region : Option (List Char)) : Locale where
  language := String.ofList (language.map Char.toLower)
  script := script.map fun part =>
    String.ofList ((part.take 1).map Char.toUpper ++ (part.drop 1).map Char.toLower)
  region := region.map fun part => String.ofList (part.map Char.toUpper)

theorem spelled_eq (language : List Char) (script region : Option (List Char)) :
    spelled language script region = ⟨String.ofList (language.map Char.toLower),
      script.map fun part => String.ofList (titleCase part),
      region.map fun part => String.ofList (part.map Char.toUpper)⟩ := by
  have htitle (part : List Char) :
      (part.take 1).map Char.toUpper ++ (part.drop 1).map Char.toLower = titleCase part := by
    cases part <;> rfl
  simp only [spelled, htitle]

/-- The language is in the catalogue, if case is ignored. -/
def InCatalogue (language : List Char) : Prop :=
  ∃ code ∈ catalogue, sameIgnoringCase (String.ofList language) code = true

theorem isLanguage_iff {part : List Char} :
    isLanguage part = true ↔
      (part.length = 2 ∨ part.length = 3) ∧ ∀ c ∈ part, c.isAlpha = true := by
  simp [isLanguage]

theorem isScript_iff {part : List Char} :
    isScript part = true ↔ part.length = 4 ∧ ∀ c ∈ part, c.isAlpha = true := by
  simp [isScript]

theorem isRegion_iff {part : List Char} :
    isRegion part = true ↔ part.length = 2 ∧ (∀ c ∈ part, c.isAlpha = true) ∨
      part.length = 3 ∧ ∀ c ∈ part, c.isDigit = true := by
  simp [isRegion]

theorem isSeparator_iff {c : Char} : isSeparator c = true ↔ c = '-' ∨ c = '_' := by
  simp [isSeparator]

/-- Letters and digits do not separate parts. -/
theorem isSeparator_of_isAlphanum {c : Char} (h : c.isAlphanum = true) : isSeparator c = false := by
  rw [← Bool.not_eq_true, isSeparator_iff]
  rintro (rfl | rfl) <;> cases h

/-! ## Reading the parts -/

/-- A part is read as a script or as a region, never as either. -/
theorem withPart?_eq_some_iff {l l' : Locale} {part : List Char} :
    withPart? l part = some l' ↔
      l.script = none ∧ l.region = none ∧ isScript part = true ∧
          l' = { l with script := some (String.ofList (titleCase part)) } ∨
        l.region = none ∧ isRegion part = true ∧
          l' = { l with region := some (String.ofList (part.map Char.toUpper)) } := by
  have hdisjoint (hs : isScript part = true) : isRegion part = false := by
    rw [← Bool.not_eq_true, isRegion_iff]
    rw [isScript_iff] at hs
    omega
  rcases l with ⟨language, _ | script, _ | region⟩ <;> cases hs : isScript part with
  | true => simp [withPart?, hs, hdisjoint hs, @eq_comm _ l']
  | false => simp [withPart?, hs, @eq_comm _ l']

section Fold

variable {language : String} {rest : List (List Char)} {l : Locale}

/-- Nothing is read after a region. -/
theorem foldlM_withPart?_of_region {script : Option String} {region : String} :
    rest.foldlM withPart? ⟨language, script, some region⟩ = some l ↔
      rest = [] ∧ l = ⟨language, script, some region⟩ := by
  cases rest with
  | nil => simp [eq_comm]
  | cons part rest =>
    rw [List.foldlM_cons, Option.bind_eq_bind, Option.bind_eq_some_iff]
    refine iff_of_false ?_ nofun
    rintro ⟨l₁, hpart, -⟩
    rcases withPart?_eq_some_iff.mp hpart with ⟨-, hnone, -⟩ | ⟨hnone, -⟩ <;> cases hnone

/-- After a script only a region is read, if there is one. -/
theorem foldlM_withPart?_of_script {script : String} :
    rest.foldlM withPart? ⟨language, some script, none⟩ = some l ↔
      ∃ region : Option (List Char), rest = region.toList ∧ (∀ part ∈ region, isRegion part = true) ∧
        l = ⟨language, some script, region.map fun part => String.ofList (part.map Char.toUpper)⟩ := by
  cases rest with
  | nil =>
    constructor
    · rintro ⟨⟩
      exact ⟨none, rfl, nofun, rfl⟩
    · rintro ⟨_ | region, heq, -, rfl⟩
      · rfl
      · cases heq
  | cons part rest =>
    rw [List.foldlM_cons, Option.bind_eq_bind, Option.bind_eq_some_iff]
    constructor
    · rintro ⟨l₁, hpart, hrest⟩
      rcases withPart?_eq_some_iff.mp hpart with ⟨hnone, -⟩ | ⟨-, hregion, rfl⟩
      · cases hnone
      · obtain ⟨rfl, rfl⟩ := foldlM_withPart?_of_region.mp hrest
        exact ⟨some part, rfl, by simpa using hregion, rfl⟩
    · rintro ⟨_ | region, heq, hregion, rfl⟩
      · cases heq
      · cases heq
        exact ⟨_, withPart?_eq_some_iff.mpr (Or.inr ⟨rfl, hregion _ rfl, rfl⟩),
          foldlM_withPart?_of_region.mpr ⟨rfl, rfl⟩⟩

/-- After the language a script is read, if there is one, and then a region, if there is one. -/
theorem foldlM_withPart?_iff :
    rest.foldlM withPart? ⟨language, none, none⟩ = some l ↔ ∃ script region : Option (List Char),
      rest = script.toList ++ region.toList ∧ (∀ part ∈ script, isScript part = true) ∧
      (∀ part ∈ region, isRegion part = true) ∧
      l = ⟨language, script.map fun part => String.ofList (titleCase part),
        region.map fun part => String.ofList (part.map Char.toUpper)⟩ := by
  cases rest with
  | nil =>
    constructor
    · rintro ⟨⟩
      exact ⟨none, none, rfl, nofun, nofun, rfl⟩
    · rintro ⟨_ | script, _ | region, heq, -, -, rfl⟩
      · rfl
      all_goals cases heq
  | cons part rest =>
    rw [List.foldlM_cons, Option.bind_eq_bind, Option.bind_eq_some_iff]
    constructor
    · rintro ⟨l₁, hpart, hrest⟩
      rcases withPart?_eq_some_iff.mp hpart with ⟨-, -, hscript, rfl⟩ | ⟨-, hregion, rfl⟩
      · obtain ⟨region, rfl, hregion, rfl⟩ := foldlM_withPart?_of_script.mp hrest
        exact ⟨some part, region, rfl, by simpa using hscript, hregion, rfl⟩
      · obtain ⟨rfl, rfl⟩ := foldlM_withPart?_of_region.mp hrest
        exact ⟨none, some part, rfl, nofun, by simpa using hregion, rfl⟩
    · rintro ⟨_ | script, region, heq, hscript, hregion, rfl⟩
      · cases region with
        | none => cases heq
        | some region =>
          cases heq
          exact ⟨_, withPart?_eq_some_iff.mpr (Or.inr ⟨rfl, hregion _ rfl, rfl⟩),
            foldlM_withPart?_of_region.mpr ⟨rfl, rfl⟩⟩
      · cases heq
        exact ⟨_, withPart?_eq_some_iff.mpr (Or.inl ⟨rfl, rfl, hscript _ rfl, rfl⟩),
          foldlM_withPart?_of_script.mpr ⟨region, rfl, hregion, rfl⟩⟩

end Fold

/-! ## Reading a text -/

/-- The parts of a text are what separators join, if they are letters and digits. -/
theorem parts_eq_cons_iff {text first : List Char} {more : List (List Char)}
    (hfirst : ∀ c ∈ first, c.isAlphanum = true)
    (hmore : ∀ part ∈ more, ∀ c ∈ part, c.isAlphanum = true) :
    parts isSeparator text = first :: more ↔ ∃ rest, text = first ++ rest ∧ Joined more rest := by
  have hnone {part : List Char} (h : ∀ c ∈ part, c.isAlphanum = true) :
      ∀ c ∈ part, isSeparator c = false := fun c hc => isSeparator_of_isAlphanum (h c hc)
  induction more generalizing first text with
  | nil =>
    constructor
    · intro h
      rcases parts_cases isSeparator text with hone | ⟨part, d, rest, rfl, hpart, hd⟩
      · rw [parts_eq_singleton hone] at h
        exact ⟨[], by simpa using h, .nil⟩
      · rw [parts_append_cons hpart hd, parts_eq_cons rest] at h
        cases h
    · rintro ⟨rest, rfl, ⟨⟩⟩
      rw [List.append_nil, parts_eq_singleton (hnone hfirst)]
  | cons second more ih =>
    obtain ⟨hsecond, hmore⟩ := List.forall_mem_cons.mp hmore
    constructor
    · intro h
      rcases parts_cases isSeparator text with hone | ⟨part, d, rest, rfl, hpart, hd⟩
      · rw [parts_eq_singleton hone] at h
        cases h
      · rw [parts_append_cons hpart hd] at h
        obtain ⟨rfl, hrest⟩ := List.cons.inj h
        obtain ⟨rest, rfl, hjoined⟩ := (ih hsecond hmore).mp hrest
        exact ⟨_, rfl, .cons (isSeparator_iff.mp hd) hjoined⟩
    · rintro ⟨rest, rfl, hjoined⟩
      cases hjoined with
      | cons hyphen hjoined =>
        rw [parts_append_cons (hnone hfirst) (isSeparator_iff.mpr hyphen)]
        exact congrArg _ ((ih hsecond hmore).mpr ⟨_, rfl, hjoined⟩)

theorem isAlphanum_of_isAlpha {part : List Char} (h : ∀ c ∈ part, c.isAlpha = true) :
    ∀ c ∈ part, c.isAlphanum = true :=
  fun c hc => by simp [Char.isAlphanum, h c hc]

theorem isAlphanum_of_isScript {part : List Char} (h : isScript part = true) :
    ∀ c ∈ part, c.isAlphanum = true :=
  isAlphanum_of_isAlpha (isScript_iff.mp h).2

theorem isAlphanum_of_isRegion {part : List Char} (h : isRegion part = true) :
    ∀ c ∈ part, c.isAlphanum = true := by
  rcases isRegion_iff.mp h with ⟨-, hletters⟩ | ⟨-, hdigits⟩
  · exact isAlphanum_of_isAlpha hletters
  · exact fun c hc => by simp [Char.isAlphanum, hdigits c hc]

/-- A script and a region are letters and digits. -/
theorem isAlphanum_of_mem {script region : Option (List Char)}
    (hscript : ∀ part ∈ script, isScript part = true) (hregion : ∀ part ∈ region, isRegion part = true) :
    ∀ part ∈ script.toList ++ region.toList, ∀ c ∈ part, c.isAlphanum = true := by
  intro part hpart
  rcases List.mem_append.mp hpart with hpart | hpart
  · exact isAlphanum_of_isScript (hscript part (Option.mem_toList.mp hpart))
  · exact isAlphanum_of_isRegion (hregion part (Option.mem_toList.mp hpart))

namespace Spells

variable {text language : List Char} {script region : Option (List Char)}

theorem isScript_of_mem (h : Spells text language script region) :
    ∀ part ∈ script, isScript part = true :=
  fun part hpart => isScript_iff.mpr (h.script part hpart)

theorem isRegion_of_mem (h : Spells text language script region) :
    ∀ part ∈ region, isRegion part = true :=
  fun part hpart => isRegion_iff.mpr (h.region part hpart)

/-- All parts of a tag are letters and digits. -/
theorem isAlphanum (h : Spells text language script region) :
    (∀ c ∈ language, c.isAlphanum = true) ∧
      ∀ part ∈ script.toList ++ region.toList, ∀ c ∈ part, c.isAlphanum = true :=
  ⟨isAlphanum_of_isAlpha h.language, isAlphanum_of_mem h.isScript_of_mem h.isRegion_of_mem⟩

end Spells

/-- The parts of a text are read just if the text has the form of a tag, with a language of two or three
letters. -/
theorem ofSubtags_iff {text : List Char} {l : Locale} :
    ofSubtags (parts isSeparator text) = some l ↔ ∃ language script region,
      Spells text language script region ∧ (language.length = 2 ∨ language.length = 3) ∧
        l = spelled language script region := by
  constructor
  · intro h
    obtain ⟨language, rest, hparts⟩ : ∃ language rest, parts isSeparator text = language :: rest :=
      ⟨_, _, parts_eq_cons text⟩
    rw [hparts, ofSubtags] at h
    split at h
    · next hlanguage =>
      obtain ⟨hlength, hletters⟩ := isLanguage_iff.mp hlanguage
      obtain ⟨script, region, rfl, hscript, hregion, rfl⟩ := foldlM_withPart?_iff.mp h
      have htext := (parts_eq_cons_iff (isAlphanum_of_isAlpha hletters)
        (isAlphanum_of_mem hscript hregion)).mp hparts
      refine ⟨language, script, region, ⟨htext, hletters, ?_, ?_⟩, hlength, (spelled_eq _ _ _).symm⟩
      · exact fun part hpart => isScript_iff.mp (hscript part hpart)
      · exact fun part hpart => isRegion_iff.mp (hregion part hpart)
    · cases h
  · rintro ⟨language, script, region, hspells, hlength, rfl⟩
    obtain ⟨hlanguage, hmore⟩ := hspells.isAlphanum
    rw [(parts_eq_cons_iff hlanguage hmore).mpr hspells.text, ofSubtags,
      if_pos (isLanguage_iff.mpr ⟨hlength, hspells.language⟩), foldlM_withPart?_iff]
    exact ⟨script, region, rfl, hspells.isScript_of_mem, hspells.isRegion_of_mem, spelled_eq _ _ _⟩

/-! ## The catalogue -/

/-- The languages of the catalogue are two letters in lower case. -/
theorem lower_of_mem_catalogue {code : String} (h : code ∈ catalogue) :
    code.toList.map Char.toLower = code.toList ∧ code.toList.length = 2 := by
  have hall : ∀ code ∈ catalogue,
      code.toList.map Char.toLower = code.toList ∧ code.toList.length = 2 := by decide +kernel
  exact hall code h

theorem inCatalogue_iff {language : List Char} :
    InCatalogue language ↔ String.ofList (language.map Char.toLower) ∈ catalogue := by
  constructor
  · rintro ⟨code, hcode, hsame⟩
    have hlower : language.map Char.toLower = code.toList := by
      simpa [sameIgnoringCase, (lower_of_mem_catalogue hcode).1] using hsame
    rwa [hlower, String.ofList_toList]
  · intro h
    refine ⟨_, h, ?_⟩
    have hlower := (lower_of_mem_catalogue h).1
    rw [String.toList_ofList] at hlower
    simp [sameIgnoringCase, hlower]

theorem InCatalogue.length {language : List Char} (h : InCatalogue language) : language.length = 2 := by
  simpa using (lower_of_mem_catalogue (inCatalogue_iff.mp h)).2

/-! ## Reading a tag -/

/-- What a tag is read as, or why it is refused, is up to its parts and to the catalogue. -/
theorem parse_iff (tag : String) :
    let trimmed := trimChars tag.toList
    let read? := ofSubtags (parts isSeparator trimmed)
    (∀ l, parse tag = .ok l ↔ read? = some l ∧ l.language ∈ catalogue) ∧
    (parse tag = .error .empty ↔ trimmed = []) ∧
    (∀ text, parse tag = .error (.malformed text) ↔
      text = String.ofList trimmed ∧ trimmed ≠ [] ∧ read? = none) ∧
    (∀ text, parse tag = .error (.unsupported text) ↔
      text = tag ∧ ∃ l, read? = some l ∧ l.language ∉ catalogue) := by
  intro trimmed read?
  by_cases hnil : trimmed = []
  · have hparse : parse tag = .error .empty := if_pos (List.isEmpty_iff.mpr hnil)
    have hread : read? = none := by
      simp only [read?, hnil]
      rfl
    simp [hparse, hread, hnil]
  · have hne : trimmed.isEmpty = false := by simpa using hnil
    cases hread : read? with
    | none =>
      have hparse : parse tag = .error (.malformed (String.ofList trimmed)) := by
        simp only [parse, trimmed, read?] at hne hread ⊢
        simp [hne, hread]
      simp [hparse, hnil, eq_comm]
    | some l =>
      have hparse : parse tag =
          if catalogue.contains l.language then .ok l else .error (.unsupported tag) := by
        simp only [parse, trimmed, read?] at hne hread ⊢
        simp [hne, hread]
      by_cases hl : l.language ∈ catalogue
      · simp [hparse, hl, hnil]
      · simp [hparse, hl, hnil, eq_comm]

theorem parse_eq_ok_iff {tag : String} {l : Locale} :
    parse tag = .ok l ↔ ∃ language script region,
      Spells (trimChars tag.toList) language script region ∧ InCatalogue language ∧
        l = spelled language script region := by
  rw [(parse_iff tag).1, ofSubtags_iff]
  constructor
  · rintro ⟨⟨language, script, region, hspells, -, rfl⟩, hmem⟩
    exact ⟨language, script, region, hspells, inCatalogue_iff.mpr hmem, rfl⟩
  · rintro ⟨language, script, region, hspells, hin, rfl⟩
    exact ⟨⟨language, script, region, hspells, Or.inl hin.length, rfl⟩, inCatalogue_iff.mp hin⟩

/-- Which tags are read, and why the others are refused. Blanks around a tag do not matter. What is left
must be a language of the catalogue in either case, then a script or none, then a region or none; they
are read in lower case, in title case and in upper case. A blank tag is empty; a tag that is not of this
form with a language of two or three letters is malformed, and is reported without the blanks; and a tag
of this form whose language is not in the catalogue is unsupported, and is reported as it is. -/
theorem parse_grammar (tag : String) :
    let trimmed := trimChars tag.toList
    let hasForm := ∃ language script region, Spells trimmed language script region ∧
      (language.length = 2 ∨ language.length = 3)
    (∀ l, parse tag = .ok l ↔ ∃ language script region, Spells trimmed language script region ∧
      InCatalogue language ∧ l = spelled language script region) ∧
    (parse tag = .error .empty ↔ trimmed = []) ∧
    (∀ text, parse tag = .error (.malformed text) ↔
      text = String.ofList trimmed ∧ trimmed ≠ [] ∧ ¬ hasForm) ∧
    (∀ text, parse tag = .error (.unsupported text) ↔ text = tag ∧ ∃ language script region,
      Spells trimmed language script region ∧ (language.length = 2 ∨ language.length = 3) ∧
        ¬ InCatalogue language) := by
  intro trimmed hasForm
  obtain ⟨-, hempty, hmalformed, hunsupported⟩ := parse_iff tag
  refine ⟨fun l => parse_eq_ok_iff, hempty, fun text => (hmalformed text).trans ?_,
    fun text => (hunsupported text).trans ?_⟩
  · rw [Option.eq_none_iff_forall_ne_some]
    refine and_congr_right fun _ => and_congr_right fun _ => ?_
    constructor
    · rintro hnone ⟨language, script, region, hspells, hlength⟩
      exact hnone _ (ofSubtags_iff.mpr ⟨language, script, region, hspells, hlength, rfl⟩)
    · rintro hform l hl
      obtain ⟨language, script, region, hspells, hlength, -⟩ := ofSubtags_iff.mp hl
      exact hform ⟨language, script, region, hspells, hlength⟩
  · refine and_congr_right fun _ => ?_
    constructor
    · rintro ⟨l, hl, hmem⟩
      obtain ⟨language, script, region, hspells, hlength, rfl⟩ := ofSubtags_iff.mp hl
      exact ⟨language, script, region, hspells, hlength, mt inCatalogue_iff.mp hmem⟩
    · rintro ⟨language, script, region, hspells, hlength, hout⟩
      exact ⟨_, ofSubtags_iff.mpr ⟨language, script, region, hspells, hlength, rfl⟩,
        mt inCatalogue_iff.mpr hout⟩

/-- A tag between blanks, with both separators and its letters in either case; and a tag for each reason
why one is refused: a blank one, one with a doubled separator, and one with a language that is not in
the catalogue. -/
theorem parse_grammar_spellings :
    let hasForm (tag : String) := ∃ language script region,
      Spells (trimChars tag.toList) language script region ∧
        (language.length = 2 ∨ language.length = 3)
    parse " \tzH_hANT-tw " = .ok ⟨"zh", some "Hant", some "TW"⟩ ∧
      parse " \t" = .error .empty ∧
      (parse "en--US " = .error (.malformed "en--US") ∧ ¬ hasForm "en--US ") ∧
      parse "xx-419 " = .error (.unsupported "xx-419 ") := by
  intro hasForm
  refine ⟨?_, ?_, ?_, ?_⟩
  · obtain ⟨hread, -⟩ := parse_grammar " \tzH_hANT-tw "
    have hspells : Spells (trimChars " \tzH_hANT-tw ".toList) ['z', 'H'] (some ['h', 'A', 'N', 'T'])
        (some ['t', 'w']) := by
      constructor
      · exact ⟨_, rfl, .cons (Or.inr rfl) (.cons (Or.inl rfl) .nil)⟩
      · exact (isLanguage_iff.mp rfl).2
      · rintro _ ⟨⟩
        exact isScript_iff.mp rfl
      · rintro _ ⟨⟩
        exact isRegion_iff.mp rfl
    exact (hread _).mpr ⟨_, _, _, hspells, inCatalogue_iff.mpr (by decide +kernel), rfl⟩
  · obtain ⟨-, hempty, -⟩ := parse_grammar " \t"
    exact hempty.mpr rfl
  · obtain ⟨-, -, hmalformed, -⟩ := parse_grammar "en--US "
    have hparse : parse "en--US " = .error (.malformed "en--US") := rfl
    exact ⟨hparse, ((hmalformed _).mp hparse).2.2⟩
  · obtain ⟨-, -, -, hunsupported⟩ := parse_grammar "xx-419 "
    have hspells : Spells (trimChars "xx-419 ".toList) ['x', 'x'] none (some ['4', '1', '9']) := by
      constructor
      · exact ⟨_, rfl, .cons (Or.inl rfl) .nil⟩
      · exact (isLanguage_iff.mp rfl).2
      · exact nofun
      · rintro _ ⟨⟩
        exact isRegion_iff.mp rfl
    have hout : ¬ InCatalogue ['x', 'x'] := mt inCatalogue_iff.mp (by decide +kernel)
    exact (hunsupported _).mpr ⟨rfl, _, _, _, hspells, Or.inl rfl, hout⟩

end Locale

end CallGate
