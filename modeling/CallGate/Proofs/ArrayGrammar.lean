import CallGate.Failure.Complaint
import CallGate.Proofs.StringGrammar

/-!
# How a list of texts can be written

A list of texts is denoted by every JSON array of strings that are the texts, however they are written,
with spaces anywhere between the tokens. Main statements: `decode?_eq_some_iff` says that a text is read
just if it denotes a list, `closes_unique` that an array ends at its closing bracket,
`not_denotes_of_malformed` that some texts cannot be mended by anything that follows, and
`complaint_read_iff` which statuses carry a complaint, and which.
-/

namespace CallGate.StringList

/-! ## The form of an array -/

/-- The text consists of characters that may stand between tokens. -/
def Spaces (w : List Char) : Prop := ∀ c ∈ w, c = ' ' ∨ c = '\t' ∨ c = '\n' ∨ c = '\r'

instance (w : List Char) : Decidable (Spaces w) := List.decidableBAll _ w

/-- The text is the string in quotes, with nothing but spaces around it. -/
inductive WritesItem (s : String) : List Char → Prop where
  | quoted {v w x : List Char} (hv : Spaces v) (hw : WritesAll s.toList w) (hx : Spaces x) :
      WritesItem s (v ++ '"' :: (w ++ '"' :: x))

/-- The text is the strings, with commas between them. -/
inductive WritesItems : List String → List Char → Prop where
  | last {s : String} {w : List Char} (h : WritesItem s w) : WritesItems [s] w
  | cons {s : String} {items : List String} {w rest : List Char} (h : WritesItem s w)
      (hrest : WritesItems items rest) : WritesItems (s :: items) (w ++ ',' :: rest)

/-- The text is what stands between the brackets of the array of the strings. -/
inductive WritesArray : List String → List Char → Prop where
  | empty {w : List Char} (hw : Spaces w) : WritesArray [] w
  | items {items : List String} {w : List Char} (h : WritesItems items w) : WritesArray items w

/-- The text denotes the strings: it is their array, with nothing but spaces around it. -/
def Denotes (text : List Char) (items : List String) : Prop :=
  ∃ v w x, Spaces v ∧ WritesArray items w ∧ Spaces x ∧ text = v ++ '[' :: (w ++ ']' :: x)

/-! ## Spaces -/

theorem isSpace_iff {c : Char} : isSpace c = true ↔ c = ' ' ∨ c = '\t' ∨ c = '\n' ∨ c = '\r' := by
  simp [isSpace, or_assoc]

theorem skipSpace_append {v : List Char} (hv : Spaces v) (rest : List Char) :
    skipSpace (v ++ rest) = skipSpace rest :=
  List.dropWhile_append_of_pos fun c hc => isSpace_iff.mpr (hv c hc)

theorem exists_spaces (cs : List Char) : ∃ v, Spaces v ∧ cs = v ++ skipSpace cs := by
  refine ⟨cs.takeWhile isSpace, fun c hc => ?_, List.takeWhile_append_dropWhile.symm⟩
  exact isSpace_iff.mp (List.all_eq_true.mp List.all_takeWhile c hc)

theorem skipSpace_eq_nil_iff {cs : List Char} : skipSpace cs = [] ↔ Spaces cs := by
  constructor
  · intro h
    obtain ⟨v, hv, hcs⟩ := exists_spaces cs
    rw [h, List.append_nil] at hcs
    rwa [hcs]
  · intro h
    have hskip := skipSpace_append h []
    rwa [List.append_nil] at hskip

theorem skipSpace_eq_cons_iff {cs rest : List Char} {c : Char} :
    skipSpace cs = c :: rest ↔ isSpace c = false ∧ ∃ v, Spaces v ∧ cs = v ++ c :: rest := by
  constructor
  · intro h
    have hhead := List.head?_dropWhile_not isSpace cs
    rw [← skipSpace, h] at hhead
    obtain ⟨v, hv, hcs⟩ := exists_spaces cs
    exact ⟨by simpa using hhead, v, hv, h ▸ hcs⟩
  · rintro ⟨hc, v, hv, rfl⟩
    rw [skipSpace_append hv, skipSpace_of_not_isSpace hc]

/-! ## Reading an array -/

/-- The strings from one of them on, read without regard to the spaces before it. -/
theorem readItems_eq (cs : List Char) : readItems cs =
    match skipSpace cs with
    | '"' :: inner =>
      match readString inner with
      | none => none
      | some (s, more) =>
        match skipSpace more with
        | ',' :: next => (readItems next).map fun r => (String.ofList s :: r.1, r.2)
        | ']' :: next => some ([String.ofList s], next)
        | _ => none
    | _ => none := by
  rw [readItems]
  split
  · next hs =>
    split
    · next hr => simp only [hs, hr]
    · next hr =>
      simp only [hs, hr]
      split <;> simp [*]
  · next hne =>
    split
    · next hs => exact absurd hs (hne _)
    · rfl

theorem readItems_of_writesItem {s : String} {w : List Char} (h : WritesItem s w) (rest : List Char) :
    readItems (w ++ rest) =
      match skipSpace rest with
      | ',' :: next => (readItems next).map fun r => (s :: r.1, r.2)
      | ']' :: next => some ([s], next)
      | _ => none := by
  obtain @⟨v, w, x, hv, hw, hx⟩ := h
  have hs : skipSpace (v ++ '"' :: (w ++ '"' :: x) ++ rest) = '"' :: (w ++ '"' :: (x ++ rest)) :=
    skipSpace_eq_cons_iff.mpr ⟨by decide, v, hv, by simp⟩
  have hr : readString (w ++ '"' :: (x ++ rest)) = some (s.toList, x ++ rest) :=
    readString_eq_some_iff.mpr ⟨w, hw, rfl⟩
  rw [readItems_eq, hs]
  simp only [hr, skipSpace_append hx, String.ofList_toList]

theorem readItems_of_writesItems {items : List String} {w : List Char} (h : WritesItems items w)
    (rest : List Char) : readItems (w ++ ']' :: rest) = some (items, rest) := by
  have hbracket := skipSpace_of_not_isSpace (c := ']') (by decide) rest
  induction h with
  | last h =>
    rw [readItems_of_writesItem h, hbracket]
    rfl
  | @cons s items w more h _ ih =>
    have hcomma := skipSpace_of_not_isSpace (c := ',') (by decide) (more ++ ']' :: rest)
    rw [List.append_assoc, readItems_of_writesItem h, List.cons_append, hcomma]
    simp only [ih, Option.map_some]

/-- Where a string is read, there is a string, and what is looked at next comes behind the spaces that
follow it. -/
theorem writesItem_of_readString {cs inner more s : List Char} (hs : skipSpace cs = '"' :: inner)
    (hr : readString inner = some (s, more)) :
    ∃ w, WritesItem (String.ofList s) w ∧ cs = w ++ skipSpace more := by
  obtain ⟨-, v, hv, rfl⟩ := skipSpace_eq_cons_iff.mp hs
  obtain ⟨w, hw, rfl⟩ := readString_eq_some_iff.mp hr
  obtain ⟨x, hx, hmore⟩ := exists_spaces more
  refine ⟨v ++ '"' :: (w ++ '"' :: x), .quoted hv (by simpa using hw) hx, ?_⟩
  generalize skipSpace more = next at hmore ⊢
  simp [hmore]

/-- The strings of an array are read up to its closing bracket, just if they have the form. -/
theorem readItems_eq_some_iff {cs rest : List Char} {items : List String} :
    readItems cs = some (items, rest) ↔ ∃ w, WritesItems items w ∧ cs = w ++ ']' :: rest := by
  constructor
  · intro h
    fun_induction readItems cs generalizing items with
    | case1 => cases h
    | case2 cs inner hs s more hr next hm _ _ _ ih =>
      obtain ⟨⟨items', rest'⟩, hread, heq⟩ := Option.map_eq_some_iff.mp h
      obtain ⟨rfl, rfl⟩ := Prod.mk.inj heq
      obtain ⟨v, hv, hcs⟩ := writesItem_of_readString hs hr
      obtain ⟨w, hw, rfl⟩ := ih hread
      exact ⟨v ++ ',' :: w, .cons hv hw, by simp [hcs, hm]⟩
    | case3 cs inner hs s more hr next hm =>
      obtain ⟨rfl, rfl⟩ := Prod.mk.inj (Option.some.inj h)
      obtain ⟨w, hw, hcs⟩ := writesItem_of_readString hs hr
      exact ⟨w, .last hw, by rw [hcs, hm]⟩
    | case4 => cases h
    | case5 => cases h
  · rintro ⟨w, hw, rfl⟩
    exact readItems_of_writesItems hw rest

theorem WritesItems.skipSpace_eq {items : List String} {w : List Char} (h : WritesItems items w)
    (rest : List Char) : ∃ more, skipSpace (w ++ rest) = '"' :: more := by
  have hitem {s : String} {w : List Char} (h : WritesItem s w) (rest : List Char) :
      ∃ more, skipSpace (w ++ rest) = '"' :: more := by
    obtain @⟨v, w, x, hv, -, -⟩ := h
    exact ⟨w ++ '"' :: x ++ rest, skipSpace_eq_cons_iff.mpr ⟨by decide, v, hv, by simp⟩⟩
  cases h with
  | last h => exact hitem h rest
  | cons h hrest =>
    rw [List.append_assoc]
    exact hitem h _

theorem readArray_eq_some_iff {cs rest : List Char} {items : List String} :
    readArray cs = some (items, rest) ↔ ∃ w, WritesArray items w ∧ cs = w ++ ']' :: rest := by
  constructor
  · intro h
    unfold readArray at h
    split at h
    · next rest' hs =>
      obtain ⟨rfl, rfl⟩ := Prod.mk.inj (Option.some.inj h)
      obtain ⟨-, w, hw, rfl⟩ := skipSpace_eq_cons_iff.mp hs
      exact ⟨w, .empty hw, rfl⟩
    · obtain ⟨w, hw, rfl⟩ := readItems_eq_some_iff.mp h
      exact ⟨w, .items hw, rfl⟩
  · rintro ⟨w, hw, rfl⟩
    cases hw with
    | empty hw =>
      have hs : skipSpace (w ++ ']' :: rest) = ']' :: rest :=
        skipSpace_eq_cons_iff.mpr ⟨by decide, w, hw, rfl⟩
      simp [readArray, hs]
    | items hw =>
      obtain ⟨more, hmore⟩ := hw.skipSpace_eq (']' :: rest)
      have hread := readItems_of_writesItems hw rest
      unfold readArray
      split
      · next hs => cases hmore.symm.trans hs
      · exact hread

/-- What a text denotes is read from it, and nothing is read from any other text. -/
theorem decode?_eq_some_iff {text : String} {items : List String} :
    decode? text = some items ↔ Denotes text.toList items := by
  constructor
  · intro h
    unfold decode? at h
    split at h
    · next rest hs =>
      obtain ⟨-, v, hv, htext⟩ := skipSpace_eq_cons_iff.mp hs
      split at h
      · next items' x hread =>
        split at h
        · next hmore =>
          cases h
          obtain ⟨w, hw, rfl⟩ := readArray_eq_some_iff.mp hread
          have hx : Spaces x := skipSpace_eq_nil_iff.mp (List.isEmpty_iff.mp hmore)
          exact ⟨v, w, x, hv, hw, hx, htext⟩
        · cases h
      · cases h
    · cases h
  · rintro ⟨v, w, x, hv, hw, hx, htext⟩
    have hs : skipSpace text.toList = '[' :: (w ++ ']' :: x) :=
      skipSpace_eq_cons_iff.mpr ⟨by decide, v, hv, htext⟩
    have hread : readArray (w ++ ']' :: x) = some (items, x) := readArray_eq_some_iff.mpr ⟨w, hw, rfl⟩
    unfold decode?
    rw [hs]
    simp only [hread, skipSpace_eq_nil_iff.mpr hx]
    rfl

/-! ## Where an array ends -/

/-- The text ends with the closing bracket of the array of the strings. -/
def Closes (text : List Char) (items : List String) : Prop :=
  ∃ v w, Spaces v ∧ WritesArray items w ∧ text = v ++ '[' :: (w ++ [']'])

/-- The first array in a text and what comes behind it are up to the text alone. -/
theorem closes_unique {text text' more more' : List Char} {items items' : List String}
    (h : Closes text items) (h' : Closes text' items') (heq : text ++ more = text' ++ more') :
    items = items' ∧ more = more' := by
  obtain ⟨v, w, hv, hw, rfl⟩ := h
  obtain ⟨v', w', hv', hw', rfl⟩ := h'
  have hs : skipSpace (v ++ '[' :: (w ++ [']']) ++ more) = '[' :: (w ++ ']' :: more) :=
    skipSpace_eq_cons_iff.mpr ⟨by decide, v, hv, by simp⟩
  have hs' : skipSpace (v' ++ '[' :: (w' ++ [']']) ++ more') = '[' :: (w' ++ ']' :: more') :=
    skipSpace_eq_cons_iff.mpr ⟨by decide, v', hv', by simp⟩
  have hinner : w ++ ']' :: more = w' ++ ']' :: more' := by
    rw [heq, hs'] at hs
    exact (List.cons.inj hs).2.symm
  have hread : readArray (w ++ ']' :: more) = some (items, more) := readArray_eq_some_iff.mpr ⟨w, hw, rfl⟩
  have hread' : readArray (w' ++ ']' :: more') = some (items', more') :=
    readArray_eq_some_iff.mpr ⟨w', hw', rfl⟩
  rw [hinner, hread'] at hread
  obtain ⟨rfl, rfl⟩ := Prod.mk.inj (Option.some.inj hread)
  exact ⟨rfl, rfl⟩

theorem Denotes.exists_closes {text : List Char} {items : List String} (h : Denotes text items) :
    ∃ array x, Closes array items ∧ Spaces x ∧ text = array ++ x := by
  obtain ⟨v, w, x, hv, hw, hx, rfl⟩ := h
  exact ⟨v ++ '[' :: (w ++ [']']), x, ⟨v, w, hv, hw, rfl⟩, hx, by simp⟩

/-- Behind the closing bracket nothing but spaces may stand. -/
theorem Closes.spaces_of_denotes {array more : List Char} {items items' : List String}
    (h : Closes array items) (hd : Denotes (array ++ more) items') : Spaces more := by
  obtain ⟨array', x, h', hx, heq⟩ := hd.exists_closes
  obtain ⟨-, rfl⟩ := closes_unique h h' heq
  exact hx

/-- A text that is cut off before the closing bracket denotes nothing. -/
theorem Closes.eq_of_prefix {array text : List Char} {items items' : List String}
    (h : Closes array items) (hd : Denotes text items') (hpre : text <+: array) : text = array := by
  obtain ⟨array', x, h', -, rfl⟩ := hd.exists_closes
  obtain ⟨rest, hrest⟩ := hpre
  have heq : array ++ [] = array' ++ (x ++ rest) := by
    rw [List.append_nil, ← hrest, List.append_assoc]
  obtain ⟨-, hnil⟩ := closes_unique h h' heq
  obtain ⟨-, rfl⟩ := List.append_eq_nil_iff.mp hnil.symm
  rw [← hrest, List.append_nil]

/-! ## Texts that cannot be mended -/

/-- The text is the beginning of an array, up to where one of its strings may begin. -/
inductive OpensItem : List Char → Prop where
  | first {v x : List Char} (hv : Spaces v) (hx : Spaces x) : OpensItem (v ++ '[' :: x)
  | next {w inner x y cs : List Char} (hw : OpensItem w) (hinner : WritesAll cs inner) (hx : Spaces x)
      (hy : Spaces y) : OpensItem (w ++ '"' :: (inner ++ '"' :: (x ++ ',' :: y)))

/-- The unit is half of a pair, and the text that follows does not begin with the other half. -/
def IsLoneHalf (u : Nat) (rest : List Char) : Prop :=
  0xD800 ≤ u ∧ u < 0xE000 ∧ ∀ u' w more, u < 0xDC00 → rest = '\\' :: 'u' :: (w ++ more) →
    WritesUnit u' w → ¬ (0xDC00 ≤ u' ∧ u' < 0xE000)

/-- The text has something in the place of a string that is no string, or a control character or half of a
pair within a string. -/
inductive Malformed : List Char → Prop where
  | notString {w rest : List Char} {c : Char} (hw : OpensItem w) (hquote : c ≠ '"') (hbracket : c ≠ ']')
      (hspace : isSpace c = false) : Malformed (w ++ c :: rest)
  | control {w inner rest cs : List Char} {c : Char} (hw : OpensItem w) (hinner : WritesAll cs inner)
      (hc : c.toNat < 0x20) : Malformed (w ++ '"' :: (inner ++ c :: rest))
  | loneHalf {w inner v rest cs : List Char} {u : Nat} (hw : OpensItem w) (hinner : WritesAll cs inner)
      (hv : WritesUnit u v) (hu : IsLoneHalf u rest) :
      Malformed (w ++ '"' :: (inner ++ '\\' :: 'u' :: (v ++ rest)))

theorem readItems_append {x : List Char} (hx : Spaces x) (rest : List Char) :
    readItems (x ++ rest) = readItems rest := by
  rw [readItems_eq, readItems_eq rest, skipSpace_append hx]

/-- Where no strings can be read from some place on, the text denotes nothing. -/
theorem not_denotes_of_readItems {w rest : List Char} {c : Char} (hw : OpensItem w)
    (hspace : isSpace c = false) (hbracket : c ≠ ']') (hread : readItems (c :: rest) = none)
    (items : List String) : ¬ Denotes (w ++ c :: rest) items := by
  -- Back from string to string: where none can be read from a string on, none can be from the one before.
  induction hw generalizing c rest with
  | @first v x hv hx =>
    rintro ⟨v', w', x', hv', hw', -, heq⟩
    have hs : skipSpace (v ++ '[' :: x ++ c :: rest) = '[' :: (x ++ c :: rest) :=
      skipSpace_eq_cons_iff.mpr ⟨by decide, v, hv, by simp⟩
    have hs' : skipSpace (v' ++ '[' :: (w' ++ ']' :: x')) = '[' :: (w' ++ ']' :: x') :=
      skipSpace_eq_cons_iff.mpr ⟨by decide, v', hv', rfl⟩
    rw [heq, hs'] at hs
    have harray : readArray (x ++ c :: rest) = some (items, x') := by
      rw [← (List.cons.inj hs).2]
      exact readArray_eq_some_iff.mpr ⟨w', hw', rfl⟩
    unfold readArray at harray
    rw [skipSpace_append hx, skipSpace_of_not_isSpace hspace] at harray
    split at harray
    · next hcons => exact hbracket (List.cons.inj hcons).1
    · rw [readItems_append hx, hread] at harray
      cases harray
  | @next w inner x y cs hw hinner hx hy ih =>
    have hstring : readString (inner ++ '"' :: (x ++ ',' :: (y ++ c :: rest))) =
        some (cs, x ++ ',' :: (y ++ c :: rest)) := readString_eq_some_iff.mpr ⟨inner, hinner, rfl⟩
    have hitems : readItems ('"' :: (inner ++ '"' :: (x ++ ',' :: (y ++ c :: rest)))) = none := by
      rw [readItems_eq, skipSpace_of_not_isSpace (by decide)]
      simp only [hstring, skipSpace_append hx, skipSpace_of_not_isSpace (c := ',') (by decide),
        readItems_append hy, hread, Option.map_none]
    have hnot := ih (by decide) (by decide) hitems
    rw [List.append_assoc]
    simpa using hnot

theorem readString_control {c : Char} (hc : c.toNat < 0x20) (rest : List Char) :
    readString (c :: rest) = none := by
  have hquote : c ≠ '"' := by
    rintro rfl
    exact absurd hc (by decide)
  have hslash : c ≠ '\\' := by
    rintro rfl
    exact absurd hc (by decide)
  rw [readString.eq_4 _ _ hquote hslash, if_pos hc]

theorem readString_loneHalf {u : Nat} {v rest : List Char} (hv : WritesUnit u v)
    (hu : IsLoneHalf u rest) : readString ('\\' :: 'u' :: (v ++ rest)) = none := by
  obtain ⟨hge, hlt, hlone⟩ := hu
  have hunit : readUnit (v ++ rest) = some (u, rest) := readUnit_eq_some_iff.mpr ⟨v, hv, rfl⟩
  have hescape : readEscape ('u' :: (v ++ rest)) = none := by
    refine Option.eq_none_iff_forall_ne_some.mpr fun ⟨c, more⟩ hread => ?_
    obtain ⟨w, hw, heq⟩ := readUnits_eq_some_iff.mp hread
    rw [heq] at hunit
    -- No form of a character begins with the unit: not the short one, for a unit that is half of a pair,
    -- and not the long one, for want of the other half.
    cases hw with
    | letter h =>
      have hletter : ∀ entry ∈ letters, entry.1 ≠ 'u' := by decide
      exact absurd rfl (hletter _ h)
    | unit h =>
      have hunit' : readUnit (w ++ more) = some (c.toNat, more) := readUnit_eq_some_iff.mpr ⟨w, h, rfl⟩
      obtain ⟨rfl, -⟩ := Prod.mk.inj (Option.some.inj (hunit.symm.trans hunit'))
      obtain ⟨hleading, htrailing⟩ := toNat_not_half c
      rw [← Bool.not_eq_true, isLeading_iff] at hleading
      rw [← Bool.not_eq_true, isTrailing_iff] at htrailing
      omega
    | @pair high low v' w' hhigh hlow hv' hw' h =>
      have hunit' : readUnit (v' ++ '\\' :: 'u' :: (w' ++ more)) =
          some (0xD800 + high, '\\' :: 'u' :: (w' ++ more)) := readUnit_eq_some_iff.mpr ⟨v', hv', rfl⟩
      rw [List.append_assoc] at hunit
      obtain ⟨rfl, hrest⟩ := Prod.mk.inj (Option.some.inj (hunit.symm.trans hunit'))
      exact hlone (0xDC00 + low) w' more (by omega) hrest hw' (by omega)
  rw [readString]
  split
  · rfl
  · next hsome => cases hescape.symm.trans hsome

/-- No text goes on in a way that would make a list of texts of what is malformed. -/
theorem not_denotes_of_malformed {text : List Char} (h : Malformed text) (items : List String) :
    ¬ Denotes text items := by
  have hquote {w inner rest cs : List Char} (hw : OpensItem w) (hinner : WritesAll cs inner)
      (hread : readString rest = none) : ¬ Denotes (w ++ '"' :: (inner ++ rest)) items := by
    refine not_denotes_of_readItems hw (by decide) (by decide) ?_ items
    rw [readItems_eq, skipSpace_of_not_isSpace (by decide)]
    simp only [readString_of_writesAll hinner, hread, Option.map_none]
  cases h with
  | notString hw hne hbracket hspace =>
    refine not_denotes_of_readItems hw hspace hbracket ?_ items
    rw [readItems_eq, skipSpace_of_not_isSpace hspace]
    split
    · next hcons => exact absurd (List.cons.inj hcons).1 hne
    · rfl
  | control hw hinner hc => exact hquote hw hinner (readString_control hc _)
  | loneHalf hw hinner hv hu => exact hquote hw hinner (readString_loneHalf hv hu)

end CallGate.StringList

namespace CallGate

/-! ## What a status carries -/

/-- The bytes of the characters that may stand between tokens. -/
def spaceBytes : Bytes := [0x20, 0x09, 0x0a, 0x0d]

theorem mem_spaceBytes {cs : List Char} (h : StringList.Spaces cs) :
    ∀ b ∈ utf8Bytes (String.ofList cs), b ∈ spaceBytes := by
  induction cs with
  | nil => exact fun b hb => absurd hb List.not_mem_nil
  | cons c cs ih =>
    obtain ⟨hc, hcs⟩ := List.forall_mem_cons.mp h
    have hall : (utf8Bytes (String.ofList [c])).all (spaceBytes.contains ·) = true := by
      obtain rfl | rfl | rfl | rfl := hc <;> decide
    have hhead : ∀ b ∈ utf8Bytes (String.ofList [c]), b ∈ spaceBytes :=
      fun b hb => List.contains_iff_mem.mp (List.all_eq_true.mp hall b hb)
    intro b hb
    rw [← List.singleton_append, String.ofList_append, utf8Bytes_append] at hb
    exact (List.mem_append.mp hb).elim (hhead b) (ih hcs b)

namespace Complaint

theorem ofStatus?_eq_some_iff {status : Status} {c : Complaint} :
    ofStatus? status = some c ↔ status.code = .internal ∧
      ∃ text, status.details = utf8Bytes text ∧ StringList.Denotes text.toList c.messages := by
  constructor
  · intro h
    unfold ofStatus? at h
    split at h
    · next hcond =>
      obtain ⟨hcode, -⟩ := Bool.and_eq_true_iff.mp hcond
      obtain ⟨text, htext, h⟩ := Option.bind_eq_some_iff.mp h
      obtain ⟨messages, hmessages, h⟩ := Option.bind_eq_some_iff.mp h
      cases h
      exact ⟨of_decide_eq_true hcode, text, ofUtf8?_eq_some_iff.mp htext,
        StringList.decode?_eq_some_iff.mp hmessages⟩
    · cases h
  · rintro ⟨hcode, text, hdetails, hd⟩
    have hne : status.details ≠ [] := by
      intro hnil
      have hempty : ofUtf8? [] = some text := ofUtf8?_eq_some_iff.mpr (hnil.symm.trans hdetails)
      have htext : text = "" := Option.some.inj (hempty.symm.trans (ofUtf8?_utf8Bytes ""))
      obtain ⟨v, w, x, -, -, -, heq⟩ := htext ▸ hd
      exact List.append_ne_nil_of_right_ne_nil v (List.cons_ne_nil _ _) heq.symm
    unfold ofStatus?
    rw [if_pos (by simp [hcode, hne]), ofUtf8?_eq_some_iff.mpr hdetails]
    simp [StringList.decode?_eq_some_iff.mpr hd]

/-- The bytes carry no list of texts: there are none, they are no text, the text is malformed, or it is an
array without its end or with more than spaces behind it. -/
inductive Garbled : Bytes → Prop where
  | empty : Garbled []
  | notText {bytes : Bytes} (h : ∀ text, bytes ≠ utf8Bytes text) : Garbled bytes
  | malformed {text : String} (h : StringList.Malformed text.toList) : Garbled (utf8Bytes text)
  | truncated {array : String} {items : List String} {bytes : Bytes}
      (h : StringList.Closes array.toList items) (hpre : bytes <+: utf8Bytes array)
      (hne : bytes ≠ utf8Bytes array) : Garbled bytes
  | trailing {array : String} {items : List String} {more : Bytes}
      (h : StringList.Closes array.toList items) (hmore : ∃ b ∈ more, b ∉ spaceBytes) :
      Garbled (utf8Bytes array ++ more)

/-- Nothing is read from an array that is cut off. -/
theorem ofStatus?_of_prefix {status : Status} {array : String} {items : List String}
    (h : StringList.Closes array.toList items) (hpre : status.details <+: utf8Bytes array)
    (hne : status.details ≠ utf8Bytes array) : ofStatus? status = none := by
  refine Option.eq_none_iff_forall_ne_some.mpr fun c hc => ?_
  obtain ⟨-, text, hdetails, hd⟩ := ofStatus?_eq_some_iff.mp hc
  rw [hdetails] at hpre hne
  have heq : text.toList = array.toList := h.eq_of_prefix hd (prefix_of_utf8Bytes hpre)
  exact hne (congrArg utf8Bytes (String.toList_inj.mp heq))

/-- Nothing is read from an array that is followed by more than spaces. -/
theorem ofStatus?_of_trailing {status : Status} {array : String} {items : List String} {more : Bytes}
    (h : StringList.Closes array.toList items) (hdetails : status.details = utf8Bytes array ++ more)
    (hmore : ∃ b ∈ more, b ∉ spaceBytes) : ofStatus? status = none := by
  refine Option.eq_none_iff_forall_ne_some.mpr fun c hc => ?_
  obtain ⟨-, text, htext, hd⟩ := ofStatus?_eq_some_iff.mp hc
  have heq : utf8Bytes array ++ more = utf8Bytes text := hdetails.symm.trans htext
  obtain ⟨rest, hrest⟩ := prefix_of_utf8Bytes ⟨more, heq⟩
  have htail : more = utf8Bytes (String.ofList rest) := by
    have hsplit : text = array ++ String.ofList rest := by
      rw [← String.ofList_toList (s := text), ← hrest, String.ofList_append, String.ofList_toList]
    rw [hsplit, utf8Bytes_append] at heq
    exact List.append_cancel_left heq
  obtain ⟨b, hb, hout⟩ := hmore
  rw [htail] at hb
  exact hout (mem_spaceBytes (h.spaces_of_denotes (hrest ▸ hd)) b hb)

/-- A complaint is read from a status just if the code is the internal one and the details are the bytes of a
text that denotes the messages, however it writes them. So nothing is read from a status of another code or
from garbled details. -/
theorem complaint_read_iff (status : Status) :
    (∀ c, ofStatus? status = some c ↔ status.code = .internal ∧
      ∃ text, status.details = utf8Bytes text ∧ StringList.Denotes text.toList c.messages) ∧
    (status.code ≠ .internal ∨ Garbled status.details → ofStatus? status = none) := by
  refine ⟨fun c => ofStatus?_eq_some_iff, ?_⟩
  have hnone (h : ∀ c, ofStatus? status ≠ some c) : ofStatus? status = none :=
    Option.eq_none_iff_forall_ne_some.mpr h
  rintro (hcode | hgarbled)
  · exact hnone fun c hc => hcode (ofStatus?_eq_some_iff.mp hc).1
  · generalize hdetails : status.details = bytes at hgarbled
    cases hgarbled with
    | empty => simp [ofStatus?, hdetails]
    | notText h =>
      refine hnone fun c hc => ?_
      obtain ⟨-, text, htext, -⟩ := ofStatus?_eq_some_iff.mp hc
      exact h text (hdetails.symm.trans htext)
    | @malformed text h =>
      refine hnone fun c hc => ?_
      obtain ⟨-, text', htext, hd⟩ := ofStatus?_eq_some_iff.mp hc
      have hread : some text' = some text := by
        rw [← ofUtf8?_utf8Bytes text', ← htext, hdetails, ofUtf8?_utf8Bytes]
      cases hread
      exact StringList.not_denotes_of_malformed h c.messages hd
    | truncated h hpre hne => exact ofStatus?_of_prefix h (hdetails ▸ hpre) (hdetails ▸ hne)
    | trailing h hmore => exact ofStatus?_of_trailing h hdetails hmore

open StringList in
/-- One message written in two ways, between spaces; the array without its end; half of a pair. -/
theorem complaint_read_iff_two_ways :
    let array := "[ \"\\u00e9\\uD83D\\uDE00\\/\" ,\n\"é😀/\"]"
    ofStatus? ⟨.internal, "", utf8Bytes (array ++ "\t\r"), .empty⟩ = some ⟨["é😀/", "é😀/"]⟩ ∧
    ofStatus? ⟨.internal, "", (utf8Bytes array).dropLast, .empty⟩ = none ∧
    ofStatus? ⟨.internal, "", utf8Bytes array ++ [0x2c], .empty⟩ = none ∧
    ofStatus? ⟨.internal, "", utf8Bytes "[\"\\uD83D\"]", .empty⟩ = none := by
  intro array
  have hunit : WritesUnit 'é'.toNat ['0', '0', 'e', '9'] :=
    @WritesUnit.digits _ 0 0 14 9 _ _ _ _ (by decide) (by decide) (by decide) (by decide) (by decide)
  have hhigh : WritesUnit (0xD800 + 0x3D) ['D', '8', '3', 'D'] :=
    @WritesUnit.digits _ 13 8 3 13 _ _ _ _ (by decide) (by decide) (by decide) (by decide) (by decide)
  have hlow : WritesUnit (0xDC00 + 0x200) ['D', 'E', '0', '0'] :=
    @WritesUnit.digits _ 13 14 0 0 _ _ _ _ (by decide) (by decide) (by decide) (by decide) (by decide)
  have hescaped : WritesAll "é😀/".toList "\\u00e9\\uD83D\\uDE00\\/".toList :=
    .cons (.unit hunit) (.cons (.pair (by decide) (by decide) hhigh hlow (by decide))
      (.cons (.letter (by decide)) .nil))
  have hplain : WritesAll "é😀/".toList "é😀/".toList :=
    .cons (.plain (by decide) (by decide) (by decide)) (.cons (.plain (by decide) (by decide) (by decide))
      (.cons (.plain (by decide) (by decide) (by decide)) .nil))
  have hspace : Spaces [' '] := by decide
  have hbreak : Spaces ['\n'] := by decide
  have hnone : Spaces [] := by decide
  have hitems : WritesItems ["é😀/", "é😀/"]
      " \"\\u00e9\\uD83D\\uDE00\\/\" ,\n\"é😀/\"".toList :=
    .cons (.quoted hspace hescaped hspace) (.last (.quoted hbreak hplain hnone))
  have hclose : Closes array.toList ["é😀/", "é😀/"] := ⟨[], _, hnone, .items hitems, by decide⟩
  have hdenotes : Denotes (array ++ "\t\r").toList ["é😀/", "é😀/"] :=
    ⟨[], _, ['\t', '\r'], hnone, .items hitems, by decide, by decide⟩
  have hhalf : Malformed "[\"\\uD83D\"]".toList :=
    .loneHalf (.first hnone hnone) .nil hhigh ⟨by decide, by decide, fun _ _ _ _ heq => by cases heq⟩
  refine ⟨?_, ?_, ?_, ?_⟩
  · exact ((complaint_read_iff _).1 _).mpr ⟨rfl, _, rfl, hdenotes⟩
  · exact (complaint_read_iff _).2 (.inr (.truncated hclose (List.dropLast_prefix _) (by decide)))
  · exact (complaint_read_iff _).2 (.inr (.trailing hclose ⟨0x2c, by decide, by decide⟩))
  · exact (complaint_read_iff _).2 (.inr (.malformed hhalf))

end Complaint

end CallGate
