/-!
# Lists of texts in JSON

A list of texts travels as a JSON array of strings. It is written without blanks, and with as few
escapes as the format allows: only quotes, backslashes and the controls below the space are escaped.
Every text that the format allows for such an array is read, with blanks between its tokens and any
mixture of escapes; everything else is refused, as are trailing characters and surrogates that do
not come in pairs.
-/

namespace CallGate.StringList

/-! ## Writing -/

/-- The lower-case hexadecimal digit of a number below 16. -/
def hexDigit (n : Nat) : Char := Nat.digitChar n

/-- The written form of one character of a string. -/
def writeChar (c : Char) : List Char :=
  match c with
  | '"' => ['\\', '"']
  | '\\' => ['\\', '\\']
  | '\x08' => ['\\', 'b']
  | '\x0c' => ['\\', 'f']
  | '\n' => ['\\', 'n']
  | '\r' => ['\\', 'r']
  | '\t' => ['\\', 't']
  | c =>
    if c.toNat < 0x20 then
      ['\\', 'u', '0', '0', hexDigit (c.toNat / 16), hexDigit (c.toNat % 16)]
    else
      [c]

/-- The written form of a string, with its quotes. -/
def writeString (s : String) : List Char := '"' :: s.toList.flatMap writeChar ++ ['"']

/-- The written forms of the strings, with commas between them. -/
def writeItems : List String → List Char
  | [] => []
  | [s] => writeString s
  | s :: rest => writeString s ++ ',' :: writeItems rest

/-- The compact form of a list of texts. -/
def encode (items : List String) : String := String.ofList ('[' :: writeItems items ++ [']'])

/-! ## Reading -/

/-- The characters that may stand between tokens. -/
def isSpace (c : Char) : Bool := c == ' ' || c == '\t' || c == '\n' || c == '\r'

/-- The value of a hexadecimal digit in either case. -/
def hexValue? (c : Char) : Option Nat :=
  if '0' ≤ c && c ≤ '9' then some (c.toNat - '0'.toNat)
  else if 'a' ≤ c && c ≤ 'f' then some (c.toNat - 'a'.toNat + 10)
  else if 'A' ≤ c && c ≤ 'F' then some (c.toNat - 'A'.toNat + 10)
  else none

/-- Reads a unit of four hexadecimal digits. -/
def readUnit : List Char → Option (Nat × List Char)
  | a :: b :: c :: d :: rest => do
    let a ← hexValue? a
    let b ← hexValue? b
    let c ← hexValue? c
    let d ← hexValue? d
    return (((a * 16 + b) * 16 + c) * 16 + d, rest)
  | _ => none

/-- The unit is the first half of a pair. -/
def isLeading (u : Nat) : Bool := 0xD800 ≤ u && u < 0xDC00

/-- The unit is the second half of a pair. -/
def isTrailing (u : Nat) : Bool := 0xDC00 ≤ u && u < 0xE000

/-- Reads the units of one character after `\u`: one unit, or the two halves of a pair. -/
def readUnits (cs : List Char) : Option (Char × List Char) := do
  let (u, rest) ← readUnit cs
  if isLeading u then
    match rest with
    | '\\' :: 'u' :: more => do
      let (v, more) ← readUnit more
      if isTrailing v then
        some (Char.ofNat (0x10000 + (u - 0xD800) * 0x400 + (v - 0xDC00)), more)
      else
        none
    | _ => none
  else if isTrailing u then
    none
  else
    some (Char.ofNat u, rest)

/-- Reads an escape after its backslash. -/
def readEscape : List Char → Option (Char × List Char)
  | '"' :: rest => some ('"', rest)
  | '\\' :: rest => some ('\\', rest)
  | '/' :: rest => some ('/', rest)
  | 'b' :: rest => some ('\x08', rest)
  | 'f' :: rest => some ('\x0c', rest)
  | 'n' :: rest => some ('\n', rest)
  | 'r' :: rest => some ('\r', rest)
  | 't' :: rest => some ('\t', rest)
  | 'u' :: rest => readUnits rest
  | _ => none

theorem length_readUnit {cs rest : List Char} {u : Nat} (h : readUnit cs = some (u, rest)) :
    rest.length + 4 = cs.length := by
  unfold readUnit at h
  split at h
  · simp only [Option.bind_eq_bind, Option.bind_eq_some_iff, Option.pure_def, Option.some.injEq,
      Prod.mk.injEq] at h
    obtain ⟨_, _, _, _, _, _, _, _, _, rfl⟩ := h
    simp
  · cases h

theorem length_readUnits {cs rest : List Char} {c : Char} (h : readUnits cs = some (c, rest)) :
    rest.length < cs.length := by
  unfold readUnits at h
  simp only [Option.bind_eq_bind, Option.bind_eq_some_iff, Prod.exists] at h
  obtain ⟨u, rest', hu, h⟩ := h
  have := length_readUnit hu
  split at h
  · split at h
    · simp only [Option.bind_eq_some_iff, Prod.exists] at h
      obtain ⟨v, more, hv, h⟩ := h
      have := length_readUnit hv
      simp only [List.length_cons] at *
      split at h
      · simp only [Option.some.injEq, Prod.mk.injEq] at h
        obtain ⟨-, rfl⟩ := h
        omega
      · cases h
    · cases h
  · split at h
    · cases h
    · simp only [Option.some.injEq, Prod.mk.injEq] at h
      obtain ⟨-, rfl⟩ := h
      omega

theorem length_readEscape {cs rest : List Char} {c : Char} (h : readEscape cs = some (c, rest)) :
    rest.length < cs.length := by
  unfold readEscape at h
  split at h
  case h_9 =>
    have := length_readUnits h
    simp only [List.length_cons]
    omega
  all_goals
    cases h
    try simp

/-- Reads a string after its opening quote, up to and with the closing one. -/
def readString (cs : List Char) : Option (List Char × List Char) :=
  match cs with
  | [] => none
  | '"' :: rest => some ([], rest)
  | '\\' :: rest =>
    match h : readEscape rest with
    | none => none
    | some (c, more) =>
      have := length_readEscape h
      (readString more).map fun r => (c :: r.1, r.2)
  | c :: rest =>
    if c.toNat < 0x20 then none else (readString rest).map fun r => (c :: r.1, r.2)
termination_by cs.length

theorem length_readString {cs rest s : List Char} (h : readString cs = some (s, rest)) :
    rest.length < cs.length := by
  fun_induction readString cs generalizing s with
  | case1 => cases h
  | case2 => simp_all
  | case3 => cases h
  | case4 _ c more hesc _ ih =>
    simp only [Option.map_eq_some_iff, Prod.mk.injEq, Prod.exists] at h
    obtain ⟨s', more', hs, -, rfl⟩ := h
    have := ih hs
    have := length_readEscape hesc
    simp only [List.length_cons]
    omega
  | case5 => cases h
  | case6 _ _ _ _ _ ih =>
    simp only [Option.map_eq_some_iff, Prod.mk.injEq, Prod.exists] at h
    obtain ⟨s', more', hs, -, rfl⟩ := h
    have := ih hs
    simp only [List.length_cons]
    omega

/-- The text from the next token on. -/
def skipSpace (cs : List Char) : List Char := cs.dropWhile isSpace

theorem length_of_skipSpace {cs rest : List Char} {c : Char} (h : skipSpace cs = c :: rest) :
    rest.length < cs.length := by
  have := (List.dropWhile_sublist (l := cs) isSpace).length_le
  rw [← skipSpace, h, List.length_cons] at this
  omega

/-- Reads the strings of an array from one of them on, up to and with the closing bracket. -/
def readItems (cs : List Char) : Option (List String × List Char) :=
  match hs : skipSpace cs with
  | '"' :: rest =>
    match hr : readString rest with
    | none => none
    | some (s, more) =>
      match hm : skipSpace more with
      | ',' :: next =>
        have := length_of_skipSpace hs
        have := length_readString hr
        have := length_of_skipSpace hm
        (readItems next).map fun r => (String.ofList s :: r.1, r.2)
      | ']' :: next => some ([String.ofList s], next)
      | _ => none
  | _ => none
termination_by cs.length

/-- Reads an array of strings after its opening bracket. -/
def readArray (cs : List Char) : Option (List String × List Char) :=
  match skipSpace cs with
  | ']' :: rest => some ([], rest)
  | _ => readItems cs

/-- The texts that a JSON array of strings denotes. -/
def decode? (s : String) : Option (List String) :=
  match skipSpace s.toList with
  | '[' :: rest =>
    match readArray rest with
    | some (items, more) => if (skipSpace more).isEmpty then some items else none
    | none => none
  | _ => none

end CallGate.StringList
