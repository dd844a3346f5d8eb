/-!
# Texts as bytes

Over the wire a text is the sequence of its UTF-8 bytes. Every text has its bytes, but not every
sequence of bytes is a text. Main statements: `ofUtf8?_eq_some_iff` says that reading bytes as a text
is the inverse of writing the text as bytes, and `utf8Bytes_prefix_iff` that one text begins with another
just if its bytes do.
-/

namespace CallGate

/-- A sequence of bytes. -/
abbrev Bytes := List UInt8

/-- The UTF-8 bytes of a text. -/
def utf8Bytes (s : String) : Bytes := s.toUTF8.data.toList

/-- The text with the given UTF-8 bytes, if there is one. -/
def ofUtf8? (bytes : Bytes) : Option String := String.fromUTF8? ⟨bytes.toArray⟩

theorem toNat_ofNat {n : Nat} (h : n < 0xD800 ∨ 0xDFFF < n ∧ n < 0x110000) :
    (Char.ofNat n).toNat = n := by
  rw [Char.ofNat, dif_pos h]
  rfl

theorem ofUtf8?_utf8Bytes (s : String) : ofUtf8? (utf8Bytes s) = some s := by
  unfold ofUtf8? utf8Bytes String.fromUTF8?
  rw [Array.toArray_toList, String.toUTF8_eq_toByteArray]
  exact dif_pos s.isValidUTF8

theorem ofUtf8?_eq_some_iff {bytes : Bytes} {s : String} :
    ofUtf8? bytes = some s ↔ bytes = utf8Bytes s := by
  constructor
  · intro h
    unfold ofUtf8? String.fromUTF8? at h
    split at h
    · cases h
      rfl
    · cases h
  · rintro rfl
    exact ofUtf8?_utf8Bytes s

theorem utf8Bytes_append (s t : String) : utf8Bytes (s ++ t) = utf8Bytes s ++ utf8Bytes t := by
  simp [utf8Bytes, String.toByteArray_append]

theorem prefix_of_utf8Bytes {s t : String} (h : utf8Bytes s <+: utf8Bytes t) :
    s.toList <+: t.toList := by
  obtain ⟨rest, hrest⟩ := h
  have hs : s.toList.utf8Encode = s.toByteArray := by simp
  have ht : t.toList.utf8Encode = t.toByteArray := by simp
  refine List.isPrefix_of_utf8Encode_append_eq_utf8Encode rest.toByteArray ?_
  rw [hs, ht]
  apply ByteArray.ext
  apply Array.toList_inj.mp
  simpa [utf8Bytes] using hrest

theorem utf8Bytes_prefix_iff {s t : String} : utf8Bytes s <+: utf8Bytes t ↔ s.toList <+: t.toList := by
  refine ⟨prefix_of_utf8Bytes, ?_⟩
  rintro ⟨rest, hrest⟩
  refine ⟨utf8Bytes (String.ofList rest), ?_⟩
  rw [← utf8Bytes_append]
  exact congrArg utf8Bytes (String.toList_inj.mp (by simpa using hrest))

theorem utf8Bytes_eq_flatMap (s : String) :
    utf8Bytes s = s.toList.flatMap String.utf8EncodeChar := by
  have hs : s.toByteArray = s.toList.utf8Encode := by simp
  rw [utf8Bytes, String.toUTF8_eq_toByteArray, hs, List.utf8Encode, List.data_toByteArray]

/-- The bytes of a character beyond ASCII are all beyond ASCII. -/
theorem le_toNat_of_mem_utf8EncodeChar {c : Char} (hc : 127 < c.toNat) :
    ∀ b ∈ String.utf8EncodeChar c, 128 ≤ b.toNat := by
  have hval : ¬ c.val.toNat ≤ 127 := Nat.not_le.mpr hc
  unfold String.utf8EncodeChar
  simp only [hval, if_false]
  split
  · simp
    omega
  · split
    · simp
      omega
    · simp
      omega

end CallGate
