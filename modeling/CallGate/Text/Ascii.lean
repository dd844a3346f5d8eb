import CallGate.Text.Utf8

/-!
# ASCII letters, ignoring case

Names of languages, headers and methods are compared without regard to the case of ASCII letters.
Every other character, and every byte of a character beyond ASCII, stands for itself. Main statements:
`map_lowerByte_utf8Bytes` says that lower case is the same in bytes and in characters, and
`beginsIgnoringCase_iff` and `begins_utf8Bytes_iff` what it is to begin with a text ignoring case, in bytes
and in characters.
-/

namespace CallGate

/-- The lower-case form of a byte that is an ASCII capital letter; other bytes stay. -/
def lowerByte (b : UInt8) : UInt8 := if 65 ≤ b && b ≤ 90 then b + 32 else b

/-- The text with its ASCII letters in lower case. -/
def lowerAscii (s : String) : String := String.ofList (s.toList.map Char.toLower)

/-- The text with its ASCII letters in upper case. -/
def upperAscii (s : String) : String := String.ofList (s.toList.map Char.toUpper)

/-- The two texts differ at most in the case of ASCII letters. -/
def sameIgnoringCase (s t : String) : Bool :=
  s.toList.map Char.toLower == t.toList.map Char.toLower

/-- The bytes of the second argument begin with those of the first, ignoring the case of ASCII
letters. -/
def beginsIgnoringCase : Bytes → Bytes → Bool
  | [], _ => true
  | _ :: _, [] => false
  | p :: ps, b :: bs => lowerByte p == lowerByte b && beginsIgnoringCase ps bs

theorem lowerByte_of_le {b : UInt8} (h : 128 ≤ b.toNat) : lowerByte b = b := by
  have hle : ¬ b ≤ 90 := by
    rw [UInt8.le_iff_toNat_le]
    exact fun h90 => absurd (Nat.le_trans h h90) (by decide)
  simp [lowerByte, hle]

theorem toLower_of_lt {c : Char} (hc : 127 < c.toNat) : c.toLower = c := by
  have hval : 127 < c.val.toNat := hc
  have hnot : ¬ (c.val ≥ 'A'.val ∧ c.val ≤ 'Z'.val) := by
    rintro ⟨-, hle⟩
    rw [UInt32.le_iff_toNat_le] at hle
    exact absurd (Nat.lt_of_lt_of_le hval hle) (by decide)
  exact dif_neg hnot

theorem map_lowerByte_utf8EncodeChar (c : Char) :
    (String.utf8EncodeChar c).map lowerByte = String.utf8EncodeChar c.toLower := by
  by_cases hc : 127 < c.toNat
  · have hbytes : ∀ b ∈ String.utf8EncodeChar c, lowerByte b = id b :=
      fun b hb => lowerByte_of_le (le_toNat_of_mem_utf8EncodeChar hc b hb)
    rw [toLower_of_lt hc, List.map_congr_left hbytes, List.map_id]
  · have hascii : ∀ n < 128, (String.utf8EncodeChar (Char.ofNat n)).map lowerByte =
        String.utf8EncodeChar (Char.ofNat n).toLower := by decide
    have hchar := hascii c.toNat (by omega)
    rwa [Char.ofNat_toNat] at hchar

/-- The bytes of a text in lower case are those of the text, in lower case. -/
theorem map_lowerByte_utf8Bytes (s : String) :
    (utf8Bytes s).map lowerByte = utf8Bytes (lowerAscii s) := by
  rw [utf8Bytes_eq_flatMap, utf8Bytes_eq_flatMap, List.map_flatMap, lowerAscii, String.toList_ofList,
    List.flatMap_map]
  simp only [map_lowerByte_utf8EncodeChar]

/-- One sequence of bytes begins with another, ignoring the case of ASCII letters, if it does so once
both are in lower case. -/
theorem beginsIgnoringCase_iff {start bytes : Bytes} :
    beginsIgnoringCase start bytes = true ↔ start.map lowerByte <+: bytes.map lowerByte := by
  induction start generalizing bytes with
  | nil => simp [beginsIgnoringCase]
  | cons b start ih =>
    cases bytes with
    | nil => simp [beginsIgnoringCase]
    | cons b' bytes => simp [beginsIgnoringCase, ih, List.cons_prefix_cons]

theorem begins_utf8Bytes_iff {s t : String} :
    beginsIgnoringCase (utf8Bytes s) (utf8Bytes t) = true ↔
      (lowerAscii s).toList <+: (lowerAscii t).toList := by
  rw [beginsIgnoringCase_iff, map_lowerByte_utf8Bytes, map_lowerByte_utf8Bytes, utf8Bytes_prefix_iff]

end CallGate
