import CallGate.Proofs.StringList
import CallGate.Text.Utf8

/-!
# How a string can be written

A character of a JSON string can be written as it is, by a letter after a backslash, or by its UTF-16
units in hexadecimal digits of either case; a character may have several of these forms, and half of a
pair of units is a form of none. Main statements: `readEscape_eq_some_iff` says that an escape is read
just if it is a form of a character, and `readString_eq_some_iff` that a string is read just if it is
made of such forms, whatever comes behind it.
-/

namespace CallGate.StringList

/-! ## The forms of a character -/

/-- The character is the hexadecimal digit of the number, in lower or upper case. -/
def IsDigit (n : Nat) (digit : Char) : Prop :=
  n < 16 ∧ (digit = hexDigit n ∨ digit = (hexDigit n).toUpper)

instance (n : Nat) (digit : Char) : Decidable (IsDigit n digit) := inferInstanceAs (Decidable (_ ∧ _))

/-- The text is the four hexadecimal digits of a unit. -/
inductive WritesUnit (u : Nat) : List Char → Prop where
  | digits {i j k l : Nat} {a b c d : Char} (ha : IsDigit i a) (hb : IsDigit j b) (hc : IsDigit k c)
      (hd : IsDigit l d) (hu : u = i * 0x1000 + j * 0x100 + k * 0x10 + l) : WritesUnit u [a, b, c, d]

/-- The letters that stand for characters after a backslash. -/
def letters : List (Char × Char) :=
  [('"', '"'), ('\\', '\\'), ('/', '/'), ('b', '\x08'), ('f', '\x0c'), ('n', '\n'), ('r', '\r'), ('t', '\t')]

/-- The text is a form of the character. -/
inductive Writes (c : Char) : List Char → Prop where
  | plain (hquote : c ≠ '"') (hslash : c ≠ '\\') (hcontrol : 0x20 ≤ c.toNat) : Writes c [c]
  | letter {letter : Char} (h : (letter, c) ∈ letters) : Writes c ['\\', letter]
  | unit {w : List Char} (h : WritesUnit c.toNat w) : Writes c ('\\' :: 'u' :: w)
  | pair {high low : Nat} {v w : List Char} (hhigh : high < 0x400) (hlow : low < 0x400)
      (hv : WritesUnit (0xD800 + high) v) (hw : WritesUnit (0xDC00 + low) w)
      (h : c.toNat = 0x10000 + high * 0x400 + low) :
      Writes c ('\\' :: 'u' :: (v ++ '\\' :: 'u' :: w))

/-- The text is forms of the characters, one after the other. -/
inductive WritesAll : List Char → List Char → Prop where
  | nil : WritesAll [] []
  | cons {c : Char} {cs w rest : List Char} (h : Writes c w) (hrest : WritesAll cs rest) :
      WritesAll (c :: cs) (w ++ rest)

/-! ## Units -/

theorem hexValue?_eq_some_iff {d : Char} {n : Nat} : hexValue? d = some n ↔ IsDigit n d := by
  have hlower : ∀ n < 16, hexValue? (hexDigit n) = some n := hexValue?_hexDigit
  have hupper : ∀ n < 16, hexValue? (hexDigit n).toUpper = some n := by decide
  have hdecimal : ∀ n < 10, hexDigit n = Char.ofNat (n + 48) := by decide
  have hsmall : ∀ n < 6, hexDigit (n + 10) = Char.ofNat (n + 97) := by decide
  have hcapital : ∀ n < 6, (hexDigit (n + 10)).toUpper = Char.ofNat (n + 65) := by decide
  have heq {k : Nat} (hk : k ≤ d.toNat) : d = Char.ofNat (d.toNat - k + k) := by
    rw [Nat.sub_add_cancel hk, Char.ofNat_toNat]
  constructor
  · intro h
    simp only [hexValue?, Bool.and_eq_true, decide_eq_true_eq, Char.le_def, UInt32.le_iff_toNat_le,
      Char.toNat_val] at h
    split at h
    · next hrange =>
      obtain rfl : d.toNat - 48 = n := Option.some.inj h
      have hle : 48 ≤ d.toNat := hrange.1
      have hge : d.toNat ≤ 57 := hrange.2
      exact ⟨by omega, Or.inl ((heq hle).trans (hdecimal _ (by omega)).symm)⟩
    · split at h
      · next hrange =>
        obtain rfl : d.toNat - 97 + 10 = n := Option.some.inj h
        have hle : 97 ≤ d.toNat := hrange.1
        have hge : d.toNat ≤ 102 := hrange.2
        exact ⟨by omega, Or.inl ((heq hle).trans (hsmall _ (by omega)).symm)⟩
      · split at h
        · next hrange =>
          obtain rfl : d.toNat - 65 + 10 = n := Option.some.inj h
          have hle : 65 ≤ d.toNat := hrange.1
          have hge : d.toNat ≤ 70 := hrange.2
          exact ⟨by omega, Or.inr ((heq hle).trans (hcapital _ (by omega)).symm)⟩
        · cases h
  · rintro ⟨hn, rfl | rfl⟩
    · exact hlower n hn
    · exact hupper n hn

theorem readUnit_eq_some_iff {cs rest : List Char} {u : Nat} :
    readUnit cs = some (u, rest) ↔ ∃ w, WritesUnit u w ∧ cs = w ++ rest := by
  constructor
  · intro h
    unfold readUnit at h
    split at h
    · next a b c d rest' =>
      simp only [Option.bind_eq_bind, Option.bind_eq_some_iff, Option.pure_def, Option.some.injEq,
        Prod.mk.injEq] at h
      obtain ⟨i, hi, j, hj, k, hk, l, hl, hu, rfl⟩ := h
      refine ⟨[a, b, c, d], .digits (hexValue?_eq_some_iff.mp hi) (hexValue?_eq_some_iff.mp hj)
        (hexValue?_eq_some_iff.mp hk) (hexValue?_eq_some_iff.mp hl) ?_, rfl⟩
      omega
    · cases h
  · rintro ⟨w, ⟨ha, hb, hc, hd, rfl⟩, rfl⟩
    have hvalue {n : Nat} {digit : Char} (h : IsDigit n digit) : hexValue? digit = some n :=
      hexValue?_eq_some_iff.mpr h
    simp only [List.cons_append, List.nil_append, readUnit, hvalue ha, hvalue hb, hvalue hc, hvalue hd,
      Option.bind_eq_bind, Option.bind_some, Option.pure_def, Option.some.injEq, Prod.mk.injEq, and_true]
    omega

theorem WritesUnit.lt {u : Nat} {w : List Char} (h : WritesUnit u w) : u < 0x10000 := by
  obtain ⟨⟨ha, -⟩, ⟨hb, -⟩, ⟨hc, -⟩, ⟨hd, -⟩, rfl⟩ := h
  omega

theorem isLeading_iff {u : Nat} : isLeading u = true ↔ 0xD800 ≤ u ∧ u < 0xDC00 := by
  simp [isLeading]

theorem isTrailing_iff {u : Nat} : isTrailing u = true ↔ 0xDC00 ≤ u ∧ u < 0xE000 := by
  simp [isTrailing]

/-- No character is half of a pair. -/
theorem toNat_not_half (c : Char) : isLeading c.toNat = false ∧ isTrailing c.toNat = false := by
  have hvalid : c.toNat < 0xD800 ∨ 0xDFFF < c.toNat ∧ c.toNat < 0x110000 := c.valid
  rw [← Bool.not_eq_true, ← Bool.not_eq_true, isLeading_iff, isTrailing_iff]
  omega

/-! ## Escapes -/

/-- What is read after a backslash and a `u` is one unit or a pair of them. -/
theorem readUnits_eq_some_iff {cs rest : List Char} {c : Char} :
    readUnits cs = some (c, rest) ↔ ∃ w, Writes c ('\\' :: 'u' :: w) ∧ cs = w ++ rest := by
  constructor
  · intro h
    simp only [readUnits, Option.bind_eq_bind, Option.bind_eq_some_iff, Prod.exists] at h
    obtain ⟨u, more, hu, h⟩ := h
    obtain ⟨v, hv, rfl⟩ := readUnit_eq_some_iff.mp hu
    have hlt := hv.lt
    split at h
    · next hleading =>
      rw [isLeading_iff] at hleading
      split at h
      · next more' =>
        obtain ⟨⟨u', rest'⟩, hu', hpair⟩ := Option.bind_eq_some_iff.mp h
        obtain ⟨w, hw, rfl⟩ := readUnit_eq_some_iff.mp hu'
        split at hpair
        · next htrailing =>
          replace htrailing : 0xDC00 ≤ u' ∧ u' < 0xE000 := isTrailing_iff.mp htrailing
          obtain ⟨rfl, rfl⟩ := Prod.mk.inj (Option.some.inj hpair)
          have hhigh : u - 0xD800 < 0x400 := (Nat.sub_lt_iff_lt_add hleading.1).mpr hleading.2
          have hlow : u' - 0xDC00 < 0x400 := (Nat.sub_lt_iff_lt_add htrailing.1).mpr htrailing.2
          refine ⟨v ++ '\\' :: 'u' :: w, .pair hhigh hlow ?_ ?_ (toNat_ofNat (by omega)), by simp⟩
          · rwa [Nat.add_sub_cancel' hleading.1]
          · rwa [Nat.add_sub_cancel' htrailing.1]
        · cases hpair
      · cases h
    · next hleading =>
      split at h
      · cases h
      · next htrailing =>
        obtain ⟨rfl, rfl⟩ := Prod.mk.inj (Option.some.inj h)
        rw [isLeading_iff] at hleading
        rw [isTrailing_iff] at htrailing
        refine ⟨v, .unit ?_, rfl⟩
        rwa [toNat_ofNat (by omega)]
  · rintro ⟨w, hw, rfl⟩
    cases hw with
    | letter h =>
      have hletter : ∀ entry ∈ letters, entry.1 ≠ 'u' := by decide
      exact absurd rfl (hletter _ h)
    | unit h =>
      have hread : readUnit (w ++ rest) = some (c.toNat, rest) := readUnit_eq_some_iff.mpr ⟨w, h, rfl⟩
      obtain ⟨hleading, htrailing⟩ := toNat_not_half c
      simp [readUnits, hread, hleading, htrailing]
    | @pair high low v w hhigh hlow hv hw h =>
      have hread : readUnit (v ++ ('\\' :: 'u' :: (w ++ rest))) =
          some (0xD800 + high, '\\' :: 'u' :: (w ++ rest)) := readUnit_eq_some_iff.mpr ⟨v, hv, rfl⟩
      have hread' : readUnit (w ++ rest) = some (0xDC00 + low, rest) :=
        readUnit_eq_some_iff.mpr ⟨w, hw, rfl⟩
      have hleading : isLeading (0xD800 + high) = true := isLeading_iff.mpr (by omega)
      have htrailing : isTrailing (0xDC00 + low) = true := isTrailing_iff.mpr (by omega)
      have hc : Char.ofNat (0x10000 + high * 0x400 + low) = c := by rw [← h, Char.ofNat_toNat]
      simp [readUnits, hread, hread', hleading, htrailing, hc]

theorem readEscape_eq_some_iff {cs rest : List Char} {c : Char} :
    readEscape cs = some (c, rest) ↔ ∃ w, Writes c ('\\' :: w) ∧ cs = w ++ rest := by
  constructor
  · intro h
    unfold readEscape at h
    split at h
    case h_9 rest' =>
      obtain ⟨w, hw, rfl⟩ := readUnits_eq_some_iff.mp h
      exact ⟨'u' :: w, hw, rfl⟩
    case h_10 => cases h
    all_goals
      obtain ⟨rfl, rfl⟩ := Prod.mk.inj (Option.some.inj h)
      exact ⟨[_], .letter (by decide), rfl⟩
  · rintro ⟨w, hw, rfl⟩
    cases hw with
    | plain hquote hslash => exact absurd rfl hslash
    | letter h =>
      simp only [letters, List.mem_cons, Prod.mk.injEq, List.not_mem_nil, or_false] at h
      rcases h with ⟨rfl, rfl⟩ | ⟨rfl, rfl⟩ | ⟨rfl, rfl⟩ | ⟨rfl, rfl⟩ | ⟨rfl, rfl⟩ | ⟨rfl, rfl⟩ |
        ⟨rfl, rfl⟩ | ⟨rfl, rfl⟩ <;> rfl
    | unit h => exact readUnits_eq_some_iff.mpr ⟨_, .unit h, rfl⟩
    | pair hhigh hlow hv hw h => exact readUnits_eq_some_iff.mpr ⟨_, .pair hhigh hlow hv hw h, rfl⟩

/-! ## Strings -/

theorem readString_of_writes {c : Char} {w : List Char} (h : Writes c w) (rest : List Char) :
    readString (w ++ rest) = (readString rest).map fun r => (c :: r.1, r.2) := by
  have hescape {w : List Char} (h : Writes c ('\\' :: w)) :
      readString ('\\' :: w ++ rest) = (readString rest).map fun r => (c :: r.1, r.2) :=
    readString_escape (readEscape_eq_some_iff.mpr ⟨w, h, rfl⟩)
  cases h with
  | plain hquote hslash hcontrol => exact readString_plain hquote hslash (by omega) rest
  | letter h => exact hescape (.letter h)
  | unit h => exact hescape (.unit h)
  | pair hhigh hlow hv hw h => exact hescape (.pair hhigh hlow hv hw h)

theorem readString_of_writesAll {cs w : List Char} (h : WritesAll cs w) (rest : List Char) :
    readString (w ++ rest) = (readString rest).map fun r => (cs ++ r.1, r.2) := by
  induction h with
  | nil => simp
  | cons h _ ih =>
    rw [List.append_assoc, readString_of_writes h, ih, Option.map_map]
    rfl

/-- A string is read up to its closing quote, just if it is made of forms of its characters. -/
theorem readString_eq_some_iff {text cs rest : List Char} :
    readString text = some (cs, rest) ↔ ∃ w, WritesAll cs w ∧ text = w ++ '"' :: rest := by
  constructor
  · intro h
    fun_induction readString text generalizing cs with
    | case1 => cases h
    | case2 rest' =>
      obtain ⟨rfl, rfl⟩ := Prod.mk.inj (Option.some.inj h)
      exact ⟨[], .nil, rfl⟩
    | case3 => cases h
    | case4 rest' c more hesc _ ih =>
      obtain ⟨⟨cs', rest''⟩, hread, heq⟩ := Option.map_eq_some_iff.mp h
      obtain ⟨rfl, rfl⟩ := Prod.mk.inj heq
      obtain ⟨v, hv, rfl⟩ := readEscape_eq_some_iff.mp hesc
      obtain ⟨w, hw, rfl⟩ := ih hread
      exact ⟨'\\' :: v ++ w, .cons hv hw, by simp⟩
    | case5 => cases h
    | case6 c rest' hquote hslash hcontrol ih =>
      obtain ⟨⟨cs', rest''⟩, hread, heq⟩ := Option.map_eq_some_iff.mp h
      obtain ⟨rfl, rfl⟩ := Prod.mk.inj heq
      obtain ⟨w, hw, rfl⟩ := ih hread
      exact ⟨[c] ++ w, .cons (.plain hquote hslash (by omega)) hw, rfl⟩
  · rintro ⟨w, hw, rfl⟩
    rw [readString_of_writesAll hw]
    simp [readString]

end CallGate.StringList
