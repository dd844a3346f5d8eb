import Mathlib.Data.List.Induction
import CallGate.Settings.Environment

/-!
# Settings from variables

A process has its variables in some order, and each of the four settings can be given by any of many
names. Main statements: `namedBy_iff` says which names are those of a setting, `readSize_eq_ok_iff` and
`readList_eq_iff` what the texts of a size and of a list are, `foldlM_visit_eq_ok_iff` that variables are
read without a fault just if all they give has been read, and `variables_law` which settings variables
give, and that neither their order nor any other variables matter.
-/

namespace CallGate

/-! ## Names -/

/-- A way to write text in lower case. Text in ASCII is written so letter by letter. Where there was a
character beyond ASCII there still is one, or the `k` that the sign for kelvin turns into. -/
structure LowerCase (lower : List Char → List Char) : Prop where
  ascii : ∀ cs, (∀ c ∈ cs, c.toNat ≤ 127) → lower cs = cs.map Char.toLower
  beyond : ∀ cs, ∀ c ∈ cs, 127 < c.toNat → 'k' ∈ lower cs ∨ ∃ d ∈ lower cs, 127 < d.toNat

theorem lowerCase_map_toLower : LowerCase (List.map Char.toLower) where
  ascii _ _ := rfl
  beyond _ c hc hlt := Or.inr ⟨c, List.mem_map.mpr ⟨c, hc, toLower_of_lt hlt⟩, hlt⟩

theorem stripMarks_append (cs : List Char) : stripMarks (variableMark ++ cs) = stripMarks cs := rfl

theorem stripMarks_of_unmarked {cs : List Char} (h : ¬ variableMark <+: cs) : stripMarks cs = cs := by
  unfold stripMarks
  split
  · next rest => exact absurd (List.prefix_append variableMark rest) h
  · rfl

/-- Only marks are cut off. -/
theorem exists_marks (cs : List Char) :
    ∃ n, cs = (List.replicate n variableMark).flatten ++ stripMarks cs := by
  by_cases h : variableMark <+: cs
  · obtain ⟨rest, rfl⟩ := h
    have hlt : rest.length < (variableMark ++ rest).length := by
      rw [List.length_append]
      exact Nat.lt_add_of_pos_left (by decide)
    obtain ⟨n, hn⟩ := exists_marks rest
    refine ⟨n + 1, ?_⟩
    rw [stripMarks_append, List.replicate_succ, List.flatten_cons, List.append_assoc, ← hn]
  · exact ⟨0, by rw [stripMarks_of_unmarked h]; rfl⟩
termination_by cs.length

theorem stripMarks_replicate (n : Nat) (cs : List Char) :
    stripMarks ((List.replicate n variableMark).flatten ++ cs) = stripMarks cs := by
  induction n with
  | zero => rfl
  | succ n ih => rw [List.replicate_succ, List.flatten_cons, List.append_assoc, stripMarks_append, ih]

namespace Setting

/-- The setting that a variable of the given name gives. -/
def ofVariable? (name : String) : Option Setting :=
  if variableMark.isPrefixOf name.toList then
    Setting.ofName? (lowerAscii (String.ofList (stripMarks name.toList)))
  else
    none

theorem ofName?_eq_some_iff {name : String} {setting : Setting} :
    ofName? name = some setting ↔ name = setting.name := by
  constructor
  · intro h
    have hname := List.find?_some h
    simpa using (beq_iff_eq.mp hname).symm
  · rintro rfl
    cases setting <;> rfl

/-- The name of a setting is in ASCII, and has no `k`. -/
theorem name_ascii (setting : Setting) :
    (∀ c ∈ setting.name.toList, c.toNat ≤ 127) ∧ 'k' ∉ setting.name.toList := by
  have hall : setting.name.toList.all (·.toNat ≤ 127) = true := by
    cases setting <;> rfl
  refine ⟨?_, ?_⟩
  · simpa using hall
  · cases setting <;> decide

/-- The name of no setting begins with a mark, in any case. -/
theorem head_name_ne (setting : Setting) : setting.name.toList.head? ≠ some 'a' := by
  cases setting <;> decide

/-- After one or more marks the name is that of the setting, in any case. -/
def NamedBy (lower : List Char → List Char) (setting : Setting) (name : String) : Prop :=
  ∃ n rest, name.toList = (List.replicate (n + 1) variableMark).flatten ++ rest ∧
    lower rest = setting.name.toList

theorem NamedBy.isPrefix {lower : List Char → List Char} {setting : Setting} {name : String}
    (h : setting.NamedBy lower name) : variableMark <+: name.toList := by
  obtain ⟨n, rest, htext, -⟩ := h
  rw [htext, List.replicate_succ, List.flatten_cons, List.append_assoc]
  exact List.prefix_append _ _

/-- A text in lower case is the name of a setting just if its ASCII letters are in lower case. -/
theorem lower_eq_name_iff {lower : List Char → List Char} (hl : LowerCase lower) {setting : Setting}
    {cs : List Char} :
    lower cs = setting.name.toList ↔ cs.map Char.toLower = setting.name.toList := by
  obtain ⟨hascii, hk⟩ := setting.name_ascii
  by_cases hcs : ∀ c ∈ cs, c.toNat ≤ 127
  · rw [hl.ascii cs hcs]
  · obtain ⟨c, hc, hbeyond⟩ : ∃ c ∈ cs, 127 < c.toNat := by simpa using hcs
    constructor
    · intro h
      rcases h ▸ hl.beyond cs c hc hbeyond with hmem | ⟨d, hd, hlt⟩
      · exact absurd hmem hk
      · exact absurd (hascii d hd) (Nat.not_le.mpr hlt)
    · intro h
      have hmem : c ∈ setting.name.toList := h ▸ List.mem_map.mpr ⟨c, hc, toLower_of_lt hbeyond⟩
      exact absurd (hascii c hmem) (Nat.not_le.mpr hbeyond)

/-- The variables that give a setting are those whose names are the setting's, with marks before it. -/
theorem namedBy_iff {lower : List Char → List Char} (hl : LowerCase lower) {setting : Setting}
    {name : String} : setting.NamedBy lower name ↔ ofVariable? name = some setting := by
  have hmarked (cs : List Char) : variableMark.isPrefixOf cs = true ↔ variableMark <+: cs :=
    List.isPrefixOf_iff_prefix
  have hname (cs : List Char) : ofName? (lowerAscii (String.ofList cs)) = some setting ↔
      cs.map Char.toLower = setting.name.toList := by
    rw [ofName?_eq_some_iff, lowerAscii, String.toList_ofList, ← String.toList_inj, String.toList_ofList]
  unfold ofVariable?
  constructor
  · intro h
    have hmark := h.isPrefix
    obtain ⟨n, rest, htext, hlower⟩ := h
    rw [lower_eq_name_iff hl] at hlower
    -- What is left after the marks does not begin with one more, since no name of a setting does.
    have hnone : ¬ variableMark <+: rest := by
      rintro ⟨more, rfl⟩
      exact setting.head_name_ne (hlower ▸ rfl)
    rw [if_pos ((hmarked _).mpr hmark), hname, htext, stripMarks_replicate,
      stripMarks_of_unmarked hnone, hlower]
  · intro h
    split at h
    · next hmark =>
      obtain ⟨rest, hrest⟩ := (hmarked _).mp hmark
      obtain ⟨n, hn⟩ := exists_marks rest
      rw [hname, ← hrest, stripMarks_append] at h
      refine ⟨n, stripMarks rest, ?_, (lower_eq_name_iff hl).mpr h⟩
      rw [List.replicate_succ, List.flatten_cons, List.append_assoc, ← hn, hrest]
    · cases h

end Setting

/-! ## Values -/

/-- The number is written in ASCII digits, of which there is at least one, and fits in 64 bits. -/
structure WritesNumber (digits : List Char) (n : Nat) : Prop where
  nonempty : digits ≠ []
  isDigit : ∀ c ∈ digits, c.isDigit = true
  value : Nat.ofDigitChars 10 digits 0 = n
  lt : n < UInt64.size

/-- The number is written with at most one plus sign before it. -/
def WritesSize (text : String) (n : Nat) : Prop :=
  WritesNumber text.toList n ∨ ∃ digits, text.toList = '+' :: digits ∧ WritesNumber digits n

theorem WritesSize.lt {text : String} {n : Nat} (h : WritesSize text n) : n < UInt64.size := by
  rcases h with h | ⟨_, _, h⟩
  · exact h.lt
  · exact h.lt

theorem not_writesNumber_plus {cs : List Char} {n : Nat} : ¬ WritesNumber ('+' :: cs) n :=
  fun h => absurd (h.isDigit '+' List.mem_cons_self) (by decide)

theorem readDigits_eq_ok_iff {acc : Nat} (hacc : acc < UInt64.size) {digits : List Char} {n : Nat} :
    readDigits acc digits = .ok n ↔ (∀ c ∈ digits, c.isDigit = true) ∧
      Nat.ofDigitChars 10 digits acc = n ∧ n < UInt64.size := by
  have hgrows (digits : List Char) : ∀ acc, acc ≤ Nat.ofDigitChars 10 digits acc := by
    induction digits with
    | nil => exact fun acc => Nat.le_of_eq Nat.ofDigitChars_nil.symm
    | cons c digits ih =>
      intro acc
      rw [Nat.ofDigitChars_cons]
      exact Nat.le_trans (by omega) (ih _)
  induction digits generalizing acc with
  | nil =>
    simp only [readDigits, Except.ok.injEq, Nat.ofDigitChars_nil, List.not_mem_nil, false_implies,
      implies_true, true_and]
    exact ⟨fun h => ⟨h, h ▸ hacc⟩, And.left⟩
  | cons c digits ih =>
    rw [readDigits, Nat.ofDigitChars_cons, List.forall_mem_cons]
    cases hc : c.isDigit with
    | false => simp
    | true =>
      dsimp only [Bool.not_true]
      have hge := hgrows digits (10 * acc + (c.toNat - '0'.toNat))
      generalize 10 * acc + (c.toNat - '0'.toNat) = next at hge ⊢
      by_cases hnext : next < UInt64.size
      · simp [hnext, ih hnext]
      · simp only [hnext, if_false]
        constructor
        · rintro ⟨⟩
        · rintro ⟨-, rfl, hlt⟩
          exact absurd (Nat.lt_of_le_of_lt hge hlt) hnext

theorem readSize_eq_ok_iff {text : String} {size : UInt64} :
    readSize text = .ok size ↔ WritesSize text size.toNat := by
  have hnumber {digits : List Char} (hne : digits ≠ []) :
      UInt64.ofNat <$> readDigits 0 digits = .ok size ↔ WritesNumber digits size.toNat := by
    have hwrites : WritesNumber digits size.toNat ↔ readDigits 0 digits = .ok size.toNat := by
      rw [readDigits_eq_ok_iff (by decide)]
      exact ⟨fun h => ⟨h.isDigit, h.value, h.lt⟩, fun ⟨hdigits, hvalue, hlt⟩ => ⟨hne, hdigits, hvalue, hlt⟩⟩
    rw [hwrites]
    cases hdigits : readDigits 0 digits with
    | error e => exact ⟨(nomatch ·), (nomatch ·)⟩
    | ok n =>
      obtain ⟨-, -, hlt⟩ := (readDigits_eq_ok_iff (by decide)).mp hdigits
      constructor
      · intro h
        rw [← Except.ok.inj h, UInt64.toNat_ofNat_of_lt' hlt]
      · intro h
        rw [Except.ok.inj h]
        exact congrArg Except.ok UInt64.ofNat_toNat
  have hsigned (digits : List Char) : (WritesNumber ('+' :: digits) size.toNat ∨
      ∃ digits', '+' :: digits = '+' :: digits' ∧ WritesNumber digits' size.toNat) ↔
        WritesNumber digits size.toNat := by
    simp [not_writesNumber_plus]
  unfold readSize WritesSize
  split
  · next htext =>
    rw [htext]
    refine ⟨(nomatch ·), ?_⟩
    rintro (h | ⟨digits, hcons, -⟩)
    · exact absurd rfl h.nonempty
    · cases hcons
  · next htext =>
    rw [htext, hsigned]
    exact ⟨(nomatch ·), fun h => absurd rfl h.nonempty⟩
  · next digits hne htext => rw [htext, hsigned, hnumber hne]
  · next hne _ hplus =>
    rw [hnumber hne]
    refine ⟨Or.inl, ?_⟩
    rintro (h | ⟨digits, hcons, -⟩)
    · exact h
    · exact absurd hcons (hplus digits)

/-- The items of the list are written in the text, with commas between them; a list without items is
written as the empty text, and any other is not. -/
structure WritesList (text : String) (items : List String) : Prop where
  joined : ",".intercalate items = text
  commas : ∀ item ∈ items, ',' ∉ item.toList
  empty : items ≠ [""]

theorem parts_eq_splitOn (d : Char) (cs : List Char) : parts (· == d) cs = cs.splitOn d := by
  induction cs with
  | nil => rfl
  | cons c cs ih =>
    rw [List.splitOn_cons_eq_if_modifyHead, parts, ih]
    split
    · rfl
    · cases h : cs.splitOn d with
      | nil => exact absurd h (List.splitOn_ne_nil d cs)
      | cons part rest => rfl

theorem not_mem_of_mem_splitOn {d : Char} {cs : List Char} : ∀ part ∈ cs.splitOn d, d ∉ part := by
  induction cs with
  | nil => simp
  | cons c cs ih =>
    rw [List.splitOn_cons_eq_if_modifyHead]
    split
    · exact List.forall_mem_cons.mpr ⟨List.not_mem_nil, ih⟩
    · next hc =>
      cases h : cs.splitOn d with
      | nil => exact List.forall_mem_nil _
      | cons part rest =>
        rw [h] at ih
        obtain ⟨hpart, hrest⟩ := List.forall_mem_cons.mp ih
        refine List.forall_mem_cons.mpr ⟨?_, hrest⟩
        rw [List.mem_cons, not_or]
        exact ⟨fun h => hc (beq_iff_eq.mpr h.symm), hpart⟩

theorem readList_eq_iff {text : String} {items : List String} :
    readList text = items ↔ WritesList text items := by
  have hempty : text.isEmpty = true ↔ text = "" := String.isEmpty_iff
  unfold readList
  rw [parts_eq_splitOn]
  constructor
  · rintro rfl
    by_cases h : text = ""
    · rw [if_pos (hempty.mpr h), h]
      exact ⟨String.intercalate_nil, List.forall_mem_nil _, (List.cons_ne_nil _ _).symm⟩
    · have hjoined : ",".intercalate ((text.toList.splitOn ',').map String.ofList) = text := by
        have htoList : String.toList ∘ String.ofList = id := funext fun _ => String.toList_ofList
        rw [← String.toList_inj, String.toList_intercalate, List.map_map, htoList, List.map_id]
        exact List.intercalate_splitOn ','
      rw [if_neg (mt hempty.mp h)]
      refine ⟨hjoined, fun item hitem => ?_, fun hone => h ?_⟩
      · obtain ⟨part, hpart, rfl⟩ := List.mem_map.mp hitem
        rw [String.toList_ofList]
        exact not_mem_of_mem_splitOn part hpart
      · rw [← hjoined, hone, String.intercalate_singleton]
  · rintro ⟨rfl, hcommas, hone⟩
    by_cases hitems : items = []
    · rw [hitems, String.intercalate_nil]
      rfl
    · have hparts : (",".intercalate items).toList.splitOn ',' = items.map String.toList := by
        rw [String.toList_intercalate]
        refine List.splitOn_intercalate ',' (fun part hpart => ?_) (by simpa using hitems)
        obtain ⟨item, hitem, rfl⟩ := List.mem_map.mp hpart
        exact hcommas item hitem
      have hback : (items.map String.toList).map String.ofList = items := by
        simp
      have hne : ",".intercalate items ≠ "" := by
        -- The only part of the empty text is empty, and would be the only item.
        intro h
        rw [h] at hparts
        refine hone ?_
        rw [← hback, ← hparts]
        rfl
      rw [if_neg (mt hempty.mp hne), hparts, hback]

/-! ## Reading variables one after the other -/

/-- The texts that variables give for a setting. -/
def Setting.texts (setting : Setting) (environment : List (String × String)) : List String :=
  environment.filterMap fun entry =>
    if ofVariable? entry.1 = some setting then some entry.2 else none

theorem Setting.mem_texts_iff {setting : Setting} {environment : List (String × String)} {text : String} :
    text ∈ setting.texts environment ↔
      ∃ entry ∈ environment, ofVariable? entry.1 = some setting ∧ entry.2 = text := by
  simp [texts]

theorem Setting.texts_concat (setting : Setting) (environment : List (String × String))
    (entry : String × String) : setting.texts (environment ++ [entry]) =
      setting.texts environment ++ if ofVariable? entry.1 = some setting then [entry.2] else [] := by
  unfold texts
  rw [List.filterMap_append]
  by_cases h : ofVariable? entry.1 = some setting <;> simp [h]

/-- The value was read from the one text that there is, or there is neither a value nor a text. -/
def IsRead {α : Type} (read : String → Except SizeError α) (texts : List String) (value : Option α) :
    Prop :=
  texts.map read = value.toList.map .ok

namespace IsRead

variable {α : Type} {read : String → Except SizeError α} {texts : List String} {text : String}
  {value : Option α}

theorem nil_iff : IsRead read [] value ↔ value = none := by
  cases value <;> simp [IsRead]

theorem singleton_iff : IsRead read [text] value ↔ ∃ x, read text = .ok x ∧ value = some x := by
  cases value <;> simp [IsRead]

theorem concat_iff : IsRead read (texts ++ [text]) value ↔
    IsRead read texts none ∧ ∃ x, read text = .ok x ∧ value = some x := by
  unfold IsRead
  cases value with
  | none => simp
  | some x =>
    cases texts with
    | nil => simp
    | cons first rest => simp

theorem exists_of_length_le (hlength : texts.length ≤ 1)
    (hread : ∀ text ∈ texts, ∃ x, read text = .ok x) : ∃ value, IsRead read texts value := by
  cases texts with
  | nil => exact ⟨none, rfl⟩
  | cons text rest =>
    obtain ⟨x, hx⟩ := hread text List.mem_cons_self
    obtain rfl : rest = [] := by
      simpa using hlength
    exact ⟨some x, by simp [IsRead, hx]⟩

theorem length_le (h : IsRead read texts value) : texts.length ≤ 1 := by
  have hlength := congrArg List.length h
  rw [List.length_map, List.length_map] at hlength
  rw [hlength]
  exact Option.length_toList_le

theorem map_eq {f : String → α} (h : IsRead (.ok ∘ f) texts value) : texts.map f = value.toList := by
  unfold IsRead at h
  rw [← List.map_map] at h
  exact (List.map_inj_right fun _ _ => Except.ok.inj).mp h

theorem exists_of_mem (h : IsRead read texts value) (hmem : text ∈ texts) : ∃ x, read text = .ok x := by
  have hread : read text ∈ texts.map read := List.mem_map_of_mem hmem
  rw [h] at hread
  obtain ⟨x, -, hx⟩ := List.mem_map.mp hread
  exact ⟨x, hx.symm⟩

theorem perm {texts' : List String} (h : IsRead read texts value) (hperm : texts.Perm texts') :
    IsRead read texts' value := by
  have hmap := (hperm.map read).symm
  rw [h] at hmap
  cases value with
  | none => exact List.perm_nil.mp hmap
  | some x => exact List.perm_singleton.mp hmap

end IsRead

namespace Given

theorem visit_of_eq_none (g : Given) {entry : String × String}
    (h : Setting.ofVariable? entry.1 = none) : g.visit entry = .ok g := by
  unfold Setting.ofVariable? at h
  unfold visit
  by_cases hm : variableMark.isPrefixOf entry.1.toList = true
  · rw [if_pos hm] at h
    simp only [hm, if_true, h]
  · rw [if_neg hm]

theorem visit_of_eq_some (g : Given) {entry : String × String} {setting : Setting}
    (h : Setting.ofVariable? entry.1 = some setting) :
    g.visit entry = g.take setting (String.ofList (stripMarks entry.1.toList)) entry.2 := by
  unfold Setting.ofVariable? at h
  unfold visit
  by_cases hm : variableMark.isPrefixOf entry.1.toList = true
  · rw [if_pos hm] at h
    simp only [hm, if_true, h]
  · rw [if_neg hm] at h
    cases h

/-- What has been given is what the variables give, each setting at most once. -/
structure Holds (g : Given) (environment : List (String × String)) : Prop where
  cultureHeader : IsRead .ok (Setting.texts .cultureHeader environment) g.cultureHeader
  infrastructurePaths : IsRead (.ok ∘ readList) (Setting.texts .infrastructurePaths environment)
    g.infrastructurePaths
  streamBuffer : IsRead readSize (Setting.texts .streamBuffer environment) g.streamBuffer
  supportedLanguages : IsRead (.ok ∘ readList) (Setting.texts .supportedLanguages environment)
    g.supportedLanguages

theorem holds_iff {g : Given} {environment : List (String × String)} :
    g.Holds environment ↔ IsRead .ok (Setting.texts .cultureHeader environment) g.cultureHeader ∧
      IsRead (.ok ∘ readList) (Setting.texts .infrastructurePaths environment) g.infrastructurePaths ∧
      IsRead readSize (Setting.texts .streamBuffer environment) g.streamBuffer ∧
      IsRead (.ok ∘ readList) (Setting.texts .supportedLanguages environment) g.supportedLanguages :=
  ⟨fun h => ⟨h.1, h.2, h.3, h.4⟩, fun h => ⟨h.1, h.2.1, h.2.2.1, h.2.2.2⟩⟩

/-- What has been given but for one setting. -/
def without (g : Given) : Setting → Given
  | .cultureHeader => { g with cultureHeader := none }
  | .infrastructurePaths => { g with infrastructurePaths := none }
  | .streamBuffer => { g with streamBuffer := none }
  | .supportedLanguages => { g with supportedLanguages := none }

/-- What has been given of the setting is what the text says. -/
def HasRead (g : Given) (text : String) : Setting → Prop
  | .cultureHeader => g.cultureHeader = some text
  | .infrastructurePaths => g.infrastructurePaths = some (readList text)
  | .streamBuffer => ∃ size, readSize text = .ok size ∧ g.streamBuffer = some size
  | .supportedLanguages => g.supportedLanguages = some (readList text)

theorem take_eq_ok_iff {g g' : Given} {setting : Setting} {name text : String} :
    g.take setting name text = .ok g' ↔ g = g'.without setting ∧ g'.HasRead text setting := by
  obtain ⟨header, paths, buffer, languages⟩ := g
  obtain ⟨header', paths', buffer', languages'⟩ := g'
  cases setting with
  | cultureHeader => cases header <;> grind [take, has, without, HasRead]
  | infrastructurePaths => cases paths <;> grind [take, has, without, HasRead]
  | streamBuffer => cases buffer <;> grind [take, has, without, HasRead]
  | supportedLanguages => cases languages <;> grind [take, has, without, HasRead]

theorem holds_concat_of_eq_some {environment : List (String × String)} {entry : String × String}
    {setting : Setting} (h : Setting.ofVariable? entry.1 = some setting) {g : Given} :
    g.Holds (environment ++ [entry]) ↔ (g.without setting).Holds environment ∧ g.HasRead entry.2 setting := by
  have htexts (other : Setting) := other.texts_concat environment entry
  simp only [h] at htexts
  cases setting <;>
    simp only [holds_iff, htexts, reduceCtorEq, Option.some.injEq, if_true, if_false, List.append_nil,
      IsRead.concat_iff, Function.comp_apply, Except.ok.injEq, exists_eq_left', without, HasRead] <;>
    grind

theorem holds_concat_iff {environment : List (String × String)} {entry : String × String} {g' : Given} :
    g'.Holds (environment ++ [entry]) ↔ ∃ g : Given, g.Holds environment ∧ g.visit entry = .ok g' := by
  have htexts (setting : Setting) := setting.texts_concat environment entry
  cases hs : Setting.ofVariable? entry.1 with
  | none =>
    simp only [hs, reduceCtorEq, if_false, List.append_nil] at htexts
    simp only [visit_of_eq_none _ hs, Except.ok.injEq, exists_eq_right, holds_iff, htexts]
  | some setting =>
    simp only [visit_of_eq_some _ hs, take_eq_ok_iff, holds_concat_of_eq_some hs]
    constructor
    · rintro ⟨hholds, hread⟩
      exact ⟨_, hholds, rfl, hread⟩
    · rintro ⟨_, hholds, rfl, hread⟩
      exact ⟨hholds, hread⟩

/-- Variables are read without a fault just if what they give has been read. -/
theorem foldlM_visit_eq_ok_iff {environment : List (String × String)} {g : Given} :
    environment.foldlM visit {} = .ok g ↔ g.Holds environment := by
  induction environment using List.reverseRecOn generalizing g with
  | nil =>
    obtain ⟨header, paths, buffer, languages⟩ := g
    simp only [holds_iff, Setting.texts, List.filterMap_nil, IsRead.nil_iff, List.foldlM_nil, pure,
      Except.pure, Except.ok.injEq, mk.injEq, eq_comm]
  | append_singleton environment entry ih =>
    rw [List.foldlM_append, holds_concat_iff]
    simp only [List.foldlM_cons, List.foldlM_nil, bind_pure, ← ih]
    cases environment.foldlM visit {} with
    | error e => simp [bind, Except.bind]
    | ok g' => simp [bind, Except.bind]

theorem Holds.unique {environment : List (String × String)} {g g' : Given} (h : g.Holds environment)
    (h' : g'.Holds environment) : g = g' := by
  have hfold := foldlM_visit_eq_ok_iff.mpr h
  rw [foldlM_visit_eq_ok_iff.mpr h'] at hfold
  exact (Except.ok.inj hfold).symm

theorem holds_perm {environment environment' : List (String × String)}
    (h : environment.Perm environment') {g : Given} (hg : g.Holds environment) : g.Holds environment' :=
  ⟨hg.1.perm (h.filterMap _), hg.2.perm (h.filterMap _), hg.3.perm (h.filterMap _),
    hg.4.perm (h.filterMap _)⟩

end Given

/-- The fault of the settings that were read, if they were read. -/
def EnvironmentError.fault? : EnvironmentError → Option SettingsFault
  | .unusable cause => some cause
  | _ => none

namespace Given

variable {g : Given} {environment : List (String × String)} {e : EnvironmentError}

theorem fault?_of_take {setting : Setting} {name text : String} (h : g.take setting name text = .error e) :
    e.fault? = none := by
  unfold take at h
  split at h
  · cases h
    rfl
  · cases setting with
    | streamBuffer =>
      dsimp only at h
      split at h
      · cases h
      · cases h
        rfl
    | cultureHeader | infrastructurePaths | supportedLanguages => cases h

theorem fault?_of_visit {entry : String × String} (h : g.visit entry = .error e) : e.fault? = none := by
  cases hs : Setting.ofVariable? entry.1 with
  | none =>
    rw [visit_of_eq_none g hs] at h
    cases h
  | some setting =>
    rw [visit_of_eq_some g hs] at h
    exact fault?_of_take h

/-- Whatever keeps variables from being read, it is not a fault of settings. -/
theorem fault?_of_foldlM_visit (h : environment.foldlM visit g = .error e) : e.fault? = none := by
  induction environment generalizing g with
  | nil => cases h
  | cons entry environment ih =>
    rw [List.foldlM_cons] at h
    cases hv : g.visit entry with
    | error e' =>
      rw [hv] at h
      cases h
      exact fault?_of_visit hv
    | ok next =>
      rw [hv] at h
      exact ih h

end Given

namespace Settings

variable {environment : List (String × String)} {s : Settings}

/-- What becomes of variables is decided by whether, and as what, they can be read. -/
theorem ofVariables_cases (environment : List (String × String)) :
    (∃ e, ofVariables environment = .error e ∧ e.fault? = none ∧ ∀ g : Given, ¬ g.Holds environment) ∨
      ∃ g : Given, g.Holds environment ∧ ofVariables environment =
        match g.settings.fault? with
        | some cause => .error (.unusable cause)
        | none => .ok g.settings := by
  unfold ofVariables
  cases h : environment.foldlM Given.visit {} with
  | error e =>
    refine Or.inl ⟨e, rfl, Given.fault?_of_foldlM_visit h, fun g hg => ?_⟩
    rw [Given.foldlM_visit_eq_ok_iff.mpr hg] at h
    cases h
  | ok g => exact Or.inr ⟨g, Given.foldlM_visit_eq_ok_iff.mp h, rfl⟩

theorem ofVariables_eq_ok_iff : ofVariables environment = .ok s ↔
    ∃ g : Given, g.Holds environment ∧ g.settings = s ∧ s.fault? = none := by
  rcases ofVariables_cases environment with ⟨e, he, -, hno⟩ | ⟨g, hg, hread⟩
  · rw [he]
    exact ⟨(nomatch ·), fun ⟨g, hg, _⟩ => absurd hg (hno g)⟩
  · rw [hread]
    constructor
    · intro h
      split at h
      · cases h
      · next hfault =>
        cases h
        exact ⟨g, hg, rfl, hfault⟩
    · rintro ⟨g', hg', rfl, hfault⟩
      rw [hg.unique hg', hfault]

theorem ofVariables_eq_unusable_iff {cause : SettingsFault} :
    ofVariables environment = .error (.unusable cause) ↔
      ∃ g : Given, g.Holds environment ∧ g.settings.fault? = some cause := by
  rcases ofVariables_cases environment with ⟨e, he, hnone, hno⟩ | ⟨g, hg, hread⟩
  · rw [he]
    constructor
    · rintro ⟨⟩
      cases hnone
    · exact fun ⟨g, hg, _⟩ => absurd hg (hno g)
  · rw [hread]
    constructor
    · intro h
      split at h
      · next hfault =>
        cases h
        exact ⟨g, hg, hfault⟩
      · cases h
    · rintro ⟨g', hg', hfault⟩
      rw [hg.unique hg', hfault]

/-- A variable that names no setting can be left out. -/
theorem ofVariables_remove {before after : List (String × String)} {entry : String × String}
    (h : Setting.ofVariable? entry.1 = none) :
    ofVariables (before ++ entry :: after) = ofVariables (before ++ after) := by
  unfold ofVariables
  simp only [List.foldlM_append, List.foldlM_cons, Given.visit_of_eq_none _ h]
  rfl

theorem fault?_ofVariables_perm {environment' : List (String × String)}
    (h : environment.Perm environment') :
    (ofVariables environment').mapError EnvironmentError.fault? =
      (ofVariables environment).mapError EnvironmentError.fault? := by
  rcases ofVariables_cases environment with ⟨e, he, hnone, hno⟩ | ⟨g, hg, hread⟩ <;>
    rcases ofVariables_cases environment' with ⟨e', he', hnone', hno'⟩ | ⟨g', hg', hread'⟩
  · rw [he, he', Except.mapError, Except.mapError, hnone, hnone']
  · exact absurd (Given.holds_perm h.symm hg') (hno g')
  · exact absurd (Given.holds_perm h hg) (hno' g)
  · rw [hread, hread', (Given.holds_perm h hg).unique hg']

end Settings

/-! ## What variables give -/

variable {lower : List Char → List Char} {environment : List (String × String)}

theorem Setting.mem_texts_iff_namedBy (hl : LowerCase lower) {setting : Setting} {text : String} :
    text ∈ setting.texts environment ↔
      ∃ entry ∈ environment, setting.NamedBy lower entry.1 ∧ entry.2 = text := by
  simp only [mem_texts_iff, namedBy_iff hl]

/-- No two variables give the same setting, and what one gives for a size is one. -/
structure Readable (lower : List Char → List Char) (environment : List (String × String)) : Prop where
  once : environment.Pairwise fun entry entry' =>
    ∀ setting : Setting, setting.NamedBy lower entry.1 → ¬ setting.NamedBy lower entry'.1
  size : ∀ entry ∈ environment, Setting.streamBuffer.NamedBy lower entry.1 → ∃ n, WritesSize entry.2 n

theorem once_iff (hl : LowerCase lower) :
    (environment.Pairwise fun entry entry' =>
      ∀ setting : Setting, setting.NamedBy lower entry.1 → ¬ setting.NamedBy lower entry'.1) ↔
      ∀ setting : Setting, (setting.texts environment).length ≤ 1 := by
  have hlength (texts : List String) : texts.length ≤ 1 ↔ texts.Pairwise fun _ _ => False := by
    match texts with
    | [] | [_] => simp
    | _ :: text :: _ =>
      exact ⟨fun h => absurd h (by simp),
        fun h => ((List.pairwise_cons.mp h).1 text List.mem_cons_self).elim⟩
  have htexts (setting : Setting) : (setting.texts environment).length ≤ 1 ↔
      environment.Pairwise fun entry entry' =>
        setting.NamedBy lower entry.1 → ¬ setting.NamedBy lower entry'.1 := by
    simp [hlength, Setting.texts, List.pairwise_filterMap, Setting.namedBy_iff hl]
  simp only [htexts, List.pairwise_iff_getElem]
  exact ⟨fun h setting i j hi hj hij => h i j hi hj hij setting,
    fun h i j hi hj hij setting => h setting i j hi hj hij⟩

/-- What is given for the setting: what a variable says, or the standard value if none gives it. -/
def Setting.Gives {α : Type} (lower : List Char → List Char) (environment : List (String × String))
    (setting : Setting) (Says : String → α → Prop) (standard value : α) : Prop :=
  (∃ entry ∈ environment, setting.NamedBy lower entry.1 ∧ Says entry.2 value) ∨
    (∀ entry ∈ environment, ¬ setting.NamedBy lower entry.1) ∧ value = standard

/-- Of settings that are given at most once, that is the value which is read. -/
theorem Setting.exists_isRead_iff {α : Type} (hl : LowerCase lower) {setting : Setting}
    (hlength : (setting.texts environment).length ≤ 1) {read : String → Except SizeError α}
    {Says : String → α → Prop} (hread : ∀ text x, read text = .ok x ↔ Says text x) (standard x : α) :
    (∃ value, IsRead read (setting.texts environment) value ∧ value.getD standard = x) ↔
      setting.Gives lower environment Says standard x := by
  have hgiven : (∃ entry ∈ environment, setting.NamedBy lower entry.1 ∧ Says entry.2 x) ↔
      ∃ text ∈ setting.texts environment, Says text x := by
    simp only [mem_texts_iff_namedBy hl]
    grind
  have hnone : (∀ entry ∈ environment, ¬ setting.NamedBy lower entry.1) ↔
      setting.texts environment = [] := by
    simp only [List.eq_nil_iff_forall_not_mem, mem_texts_iff_namedBy hl]
    grind
  unfold Gives
  rw [hgiven, hnone]
  cases htexts : setting.texts environment with
  | nil => simp [IsRead.nil_iff, eq_comm]
  | cons text rest =>
    obtain rfl : rest = [] := by
      simpa [htexts] using hlength
    simp [IsRead.singleton_iff, hread]

namespace Settings

/-- Every setting has the value that a variable gives for it, or the standard one. -/
structure LoadedFrom (s : Settings) (lower : List Char → List Char)
    (environment : List (String × String)) : Prop where
  cultureHeader : Setting.cultureHeader.Gives lower environment (fun text value => text = value)
    standard.cultureHeader s.cultureHeader
  infrastructurePaths : Setting.infrastructurePaths.Gives lower environment WritesList
    standard.infrastructurePaths s.infrastructurePaths
  streamBuffer : Setting.streamBuffer.Gives lower environment (fun text size => WritesSize text size.toNat)
    standard.streamBuffer s.streamBuffer
  supportedLanguages : Setting.supportedLanguages.Gives lower environment WritesList
    standard.supportedLanguages s.supportedLanguages

end Settings

namespace Given

theorem exists_holds_iff (hl : LowerCase lower) :
    (∃ g : Given, g.Holds environment) ↔ Readable lower environment := by
  constructor
  · rintro ⟨g, header, paths, buffer, languages⟩
    refine ⟨(once_iff hl).mpr fun setting => ?_, fun entry hentry hnamed => ?_⟩
    · cases setting with
      | cultureHeader => exact header.length_le
      | infrastructurePaths => exact paths.length_le
      | streamBuffer => exact buffer.length_le
      | supportedLanguages => exact languages.length_le
    · obtain ⟨size, hsize⟩ :=
        buffer.exists_of_mem ((Setting.mem_texts_iff_namedBy hl).mpr ⟨entry, hentry, hnamed, rfl⟩)
      exact ⟨size.toNat, readSize_eq_ok_iff.mp hsize⟩
  · rintro ⟨honce, hsize⟩
    rw [once_iff hl] at honce
    have hread : ∀ text ∈ Setting.texts .streamBuffer environment, ∃ size, readSize text = .ok size := by
      intro text htext
      obtain ⟨entry, hentry, hnamed, rfl⟩ := (Setting.mem_texts_iff_namedBy hl).mp htext
      obtain ⟨n, hn⟩ := hsize entry hentry hnamed
      have hlt := hn.lt
      refine ⟨UInt64.ofNat n, readSize_eq_ok_iff.mpr ?_⟩
      rwa [UInt64.toNat_ofNat_of_lt' hlt]
    obtain ⟨_, header⟩ := IsRead.exists_of_length_le (honce .cultureHeader) fun text _ => ⟨text, rfl⟩
    obtain ⟨_, paths⟩ := IsRead.exists_of_length_le (honce .infrastructurePaths)
      fun text _ => ⟨readList text, rfl⟩
    obtain ⟨_, buffer⟩ := IsRead.exists_of_length_le (honce .streamBuffer) hread
    obtain ⟨_, languages⟩ := IsRead.exists_of_length_le (honce .supportedLanguages)
      fun text _ => ⟨readList text, rfl⟩
    exact ⟨⟨_, _, _, _⟩, header, paths, buffer, languages⟩

/-- The settings that have been read are those which the variables give. -/
theorem exists_settings_iff (hl : LowerCase lower) (h : Readable lower environment) {s : Settings} :
    (∃ g : Given, g.Holds environment ∧ g.settings = s) ↔ s.LoadedFrom lower environment := by
  have honce := (once_iff hl).mp h.once
  have hlist (text : String) (items : List String) :
      (Except.ok ∘ readList : String → Except SizeError (List String)) text = .ok items ↔
        WritesList text items := by
    rw [Function.comp_apply, Except.ok.injEq, readList_eq_iff]
  have htext (text value : String) : (.ok text : Except SizeError String) = .ok value ↔ text = value := by
    rw [Except.ok.injEq]
  have hsize (text : String) (size : UInt64) : readSize text = .ok size ↔ WritesSize text size.toNat :=
    readSize_eq_ok_iff
  have header := Setting.exists_isRead_iff hl (honce .cultureHeader) htext
    Settings.standard.cultureHeader s.cultureHeader
  have paths := Setting.exists_isRead_iff hl (honce .infrastructurePaths) hlist
    Settings.standard.infrastructurePaths s.infrastructurePaths
  have buffer := Setting.exists_isRead_iff hl (honce .streamBuffer) hsize
    Settings.standard.streamBuffer s.streamBuffer
  have languages := Setting.exists_isRead_iff hl (honce .supportedLanguages) hlist
    Settings.standard.supportedLanguages s.supportedLanguages
  constructor
  · rintro ⟨g, hg, rfl⟩
    exact ⟨header.mp ⟨_, hg.1, rfl⟩, paths.mp ⟨_, hg.2, rfl⟩, buffer.mp ⟨_, hg.3, rfl⟩,
      languages.mp ⟨_, hg.4, rfl⟩⟩
  · rintro ⟨hheader, hpaths, hbuffer, hlanguages⟩
    obtain ⟨_, h1, e1⟩ := header.mpr hheader
    obtain ⟨_, h2, e2⟩ := paths.mpr hpaths
    obtain ⟨_, h3, e3⟩ := buffer.mpr hbuffer
    obtain ⟨_, h4, e4⟩ := languages.mpr hlanguages
    refine ⟨⟨_, _, _, _⟩, ⟨h1, h2, h3, h4⟩, ?_⟩
    unfold settings
    rw [e1, e2, e3, e4]

end Given

namespace Settings

/-- Variables give usable settings just if they are readable and the settings that they give pass the
check, and they are refused for a fault of settings just if they are readable and give settings that
have this fault. Readable variables give exactly one value for each setting. A variable whose name does
not begin with the mark or is the name of no setting does not matter, and neither does the order, but
for which of several faults of the variables themselves is reported. -/
theorem variables_law (hl : LowerCase lower) (environment : List (String × String)) :
    (∀ s, ofVariables environment = .ok s ↔
      Readable lower environment ∧ s.LoadedFrom lower environment ∧ s.fault? = none) ∧
    (∀ cause, ofVariables environment = .error (.unusable cause) ↔
      Readable lower environment ∧ ∃ s : Settings, s.LoadedFrom lower environment ∧ s.fault? = some cause) ∧
    (Readable lower environment → ∃ s, ∀ s' : Settings, s'.LoadedFrom lower environment ↔ s' = s) ∧
    (∀ before entry after, environment = before ++ entry :: after →
      (¬ variableMark <+: entry.1.toList ∨ ∀ setting : Setting, ¬ setting.NamedBy lower entry.1) →
        ofVariables environment = ofVariables (before ++ after)) ∧
    ∀ environment', environment.Perm environment' →
      (ofVariables environment').mapError EnvironmentError.fault? =
        (ofVariables environment).mapError EnvironmentError.fault? := by
  refine ⟨?_, ?_, ?_, ?_, ?_⟩
  · intro s
    rw [ofVariables_eq_ok_iff]
    constructor
    · rintro ⟨g, hg, hs, hfault⟩
      have hreadable := (Given.exists_holds_iff hl).mp ⟨g, hg⟩
      exact ⟨hreadable, (Given.exists_settings_iff hl hreadable).mp ⟨g, hg, hs⟩, hfault⟩
    · rintro ⟨hreadable, hs, hfault⟩
      obtain ⟨g, hg, hs⟩ := (Given.exists_settings_iff hl hreadable).mpr hs
      exact ⟨g, hg, hs, hfault⟩
  · intro cause
    rw [ofVariables_eq_unusable_iff]
    constructor
    · rintro ⟨g, hg, hfault⟩
      have hreadable := (Given.exists_holds_iff hl).mp ⟨g, hg⟩
      exact ⟨hreadable, g.settings, (Given.exists_settings_iff hl hreadable).mp ⟨g, hg, rfl⟩, hfault⟩
    · rintro ⟨hreadable, s, hs, hfault⟩
      obtain ⟨g, hg, rfl⟩ := (Given.exists_settings_iff hl hreadable).mpr hs
      exact ⟨g, hg, hfault⟩
  · intro hreadable
    obtain ⟨g, hg⟩ := (Given.exists_holds_iff hl).mpr hreadable
    refine ⟨g.settings, fun s' => ?_⟩
    rw [← Given.exists_settings_iff hl hreadable]
    constructor
    · rintro ⟨g', hg', rfl⟩
      rw [hg'.unique hg]
    · rintro rfl
      exact ⟨g, hg, rfl⟩
  · rintro before entry after rfl hnone
    refine ofVariables_remove ?_
    have hnamed : ∀ setting : Setting, ¬ setting.NamedBy lower entry.1 := by
      rcases hnone with hmark | hnamed
      · exact fun setting hnamed => hmark hnamed.isPrefix
      · exact hnamed
    exact Option.eq_none_iff_forall_ne_some.mpr fun setting hsetting =>
      hnamed setting ((Setting.namedBy_iff hl).mpr hsetting)
  · intro environment' hperm
    exact fault?_ofVariables_perm hperm

/-- Of three variables two give settings, one of them with two marks before a name in mixed case. They
give the same in another order. -/
theorem variables_law_of_three :
    let lower := List.map Char.toLower
    let environment := [("AUTHZ_CULTURE_HEADER", "x-lang"), ("STREAM_BUFFER", "0"),
      ("AUTHZ_AUTHZ_Stream_Buffer", "+64")]
    let s : Settings := { standard with cultureHeader := "x-lang", streamBuffer := 64 }
    LowerCase lower ∧ Readable lower environment ∧ s.LoadedFrom lower environment ∧
      (ofVariables environment.reverse).mapError EnvironmentError.fault? = .ok s := by
  intro lower environment s
  have hl : LowerCase lower := lowerCase_map_toLower
  have hread : ofVariables environment = .ok s := rfl
  obtain ⟨hok, -, -, -, hperm⟩ := variables_law hl environment
  obtain ⟨hreadable, hs, -⟩ := (hok s).mp hread
  refine ⟨hl, hreadable, hs, ?_⟩
  rw [hperm environment.reverse (List.reverse_perm environment).symm, hread]
  rfl

end Settings

end CallGate
