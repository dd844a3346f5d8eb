import CallGate.Json.StringList

/-!
# Reading a list of texts back

A list of texts that was written as a JSON array is read as the same list. The induction is on what
was written: a character at a time, then a string, then the strings of the array, each with anything
behind it. Main statement: `decode?_encode`.
-/

namespace CallGate.StringList

/-! ## One character -/

theorem hexValue?_hexDigit : ∀ n < 16, hexValue? (hexDigit n) = some n := by decide

/-- A byte is read from its two digits. -/
theorem readUnit_byte {n : Nat} (h : n < 256) (rest : List Char) :
    readUnit ('0' :: '0' :: hexDigit (n / 16) :: hexDigit (n % 16) :: rest) = some (n, rest) := by
  have hzero : hexValue? '0' = some 0 := by decide
  have hhigh := hexValue?_hexDigit (n / 16) (by omega)
  have hlow := hexValue?_hexDigit (n % 16) (by omega)
  have hn : ((0 * 16 + 0) * 16 + n / 16) * 16 + n % 16 = n := by omega
  simp only [readUnit, hzero, hhigh, hlow, Option.bind_eq_bind, Option.bind_some, hn]
  rfl

theorem readEscape_byte {c : Char} (h : c.toNat < 0x20) (rest : List Char) :
    readEscape ('u' :: '0' :: '0' :: hexDigit (c.toNat / 16) :: hexDigit (c.toNat % 16) :: rest) =
      some (c, rest) := by
  have hlead : isLeading c.toNat = false := by
    simp only [isLeading, Bool.and_eq_false_iff, decide_eq_false_iff_not]
    omega
  have htrail : isTrailing c.toNat = false := by
    simp only [isTrailing, Bool.and_eq_false_iff, decide_eq_false_iff_not]
    omega
  simp only [readEscape, readUnits, readUnit_byte (show c.toNat < 256 by omega),
    Option.bind_eq_bind, Option.bind_some, hlead, htrail, Bool.false_eq_true, if_false,
    Char.ofNat_toNat]

theorem readString_escape {rest more : List Char} {c : Char} (h : readEscape rest = some (c, more)) :
    readString ('\\' :: rest) = (readString more).map fun r => (c :: r.1, r.2) := by
  rw [readString]
  split
  · rename_i hnone
    rw [h] at hnone
    cases hnone
  · rename_i c' more' hsome
    rw [h] at hsome
    cases hsome
    rfl

theorem readString_plain {c : Char} (hquote : c ≠ '"') (hslash : c ≠ '\\') (h : ¬ c.toNat < 0x20)
    (rest : List Char) :
    readString (c :: rest) = (readString rest).map fun r => (c :: r.1, r.2) := by
  rw [readString.eq_4 _ _ hquote hslash, if_neg h]

/-- However a character is written, it is read back, and the string goes on behind it. -/
theorem readString_writeChar (c : Char) (rest : List Char) :
    readString (writeChar c ++ rest) = (readString rest).map fun r => (c :: r.1, r.2) := by
  unfold writeChar
  split
  case h_8 c hquote hslash _ _ _ _ _ =>
    split
    · rename_i h
      exact readString_escape (readEscape_byte h rest)
    · rename_i h
      exact readString_plain hquote hslash h rest
  -- The other characters have an escape of one letter.
  all_goals exact readString_escape rfl

/-! ## Strings and arrays -/

theorem readString_flatMap (cs rest : List Char) :
    readString (cs.flatMap writeChar ++ '"' :: rest) = some (cs, rest) := by
  induction cs with
  | nil => simp [readString]
  | cons c cs ih =>
    rw [List.flatMap_cons, List.append_assoc, readString_writeChar, ih]
    rfl

theorem skipSpace_of_not_isSpace {c : Char} (h : isSpace c = false) (rest : List Char) :
    skipSpace (c :: rest) = c :: rest :=
  List.dropWhile_cons_of_neg (by simp [h])

/-- A string is read up to its end, and how the array goes on depends on what is behind it. -/
theorem readItems_writeString (s : String) (rest : List Char) :
    readItems (writeString s ++ rest) =
      match skipSpace rest with
      | ',' :: next => (readItems next).map fun r => (s :: r.1, r.2)
      | ']' :: next => some ([s], next)
      | _ => none := by
  have hstart : skipSpace (writeString s ++ rest) =
      '"' :: (s.toList.flatMap writeChar ++ '"' :: rest) := by
    simp only [writeString, List.cons_append, List.append_assoc, List.nil_append]
    exact skipSpace_of_not_isSpace (by decide) _
  rw [readItems]
  split
  · rename_i rest' hrest
    obtain rfl : s.toList.flatMap writeChar ++ '"' :: rest = rest' := by
      rw [hstart] at hrest
      exact (List.cons.inj hrest).2
    split
    · rename_i hnone
      rw [readString_flatMap] at hnone
      cases hnone
    · rename_i cs more hsome
      rw [readString_flatMap] at hsome
      cases hsome
      rw [String.ofList_toList]
      split <;> simp [*]
  · rename_i hne
    exact absurd hstart (hne _)

/-- The strings of an array are read up to its end. -/
theorem readItems_writeItems {items : List String} (h : items ≠ []) (rest : List Char) :
    readItems (writeItems items ++ ']' :: rest) = some (items, rest) := by
  induction items with
  | nil => exact absurd rfl h
  | cons s items ih =>
    cases items with
    | nil =>
      rw [writeItems, readItems_writeString, skipSpace_of_not_isSpace (by decide)]
      rfl
    | cons s' items =>
      have hne : s' :: items ≠ [] := List.cons_ne_nil s' items
      have hwrite : writeItems (s :: s' :: items) = writeString s ++ ',' :: writeItems (s' :: items) :=
        rfl
      rw [hwrite, List.append_assoc, readItems_writeString, List.cons_append,
        skipSpace_of_not_isSpace (by decide)]
      simp only [ih hne, Option.map_some]

theorem readArray_writeItems (items : List String) (rest : List Char) :
    readArray (writeItems items ++ ']' :: rest) = some (items, rest) := by
  cases items with
  | nil => rfl
  | cons s items =>
    have hne : s :: items ≠ [] := List.cons_ne_nil s items
    obtain ⟨more, hmore⟩ : ∃ more, writeItems (s :: items) ++ ']' :: rest = '"' :: more := by
      cases items <;> exact ⟨_, rfl⟩
    have hread := readItems_writeItems hne rest
    rw [hmore] at hread ⊢
    unfold readArray
    rw [skipSpace_of_not_isSpace (by decide)]
    exact hread

/-- What is written is read back. -/
theorem decode?_encode (items : List String) : decode? (encode items) = some items := by
  have harray : (encode items).toList = '[' :: (writeItems items ++ [']']) := by
    rw [encode, String.toList_ofList]
    rfl
  unfold decode?
  rw [harray, skipSpace_of_not_isSpace (by decide)]
  simp only [readArray_writeItems]
  rfl

end CallGate.StringList
