import CallGate.Settings.Basic
import CallGate.Text.Ascii
import CallGate.Text.Quoted

/-!
# Metadata of a call

Metadata are values under header names, in the order in which they were added; a name may have
several values. Names are kept in lower case and looked up without regard to case. A value is a
sequence of bytes, and is text only if all of its bytes are visible ASCII characters, spaces or
tabs. Headers whose names end in `-bin` are binary: a look-up by such a name finds no text.
-/

namespace CallGate

/-- The values of a call under header names. -/
structure Metadata where
  /-- The names in lower case, each with one value, in the order in which they were added. -/
  entries : List (String × Bytes)
deriving DecidableEq

namespace Metadata

/-- No values. -/
def empty : Metadata := ⟨[]⟩

instance : Inhabited Metadata := ⟨empty⟩

/-- The metadata with one more value. -/
def add (m : Metadata) (name : String) (value : Bytes) : Metadata :=
  ⟨m.entries ++ [(lowerAscii name, value)]⟩

/-- The metadata with the given values, added one after the other. -/
def ofList (values : List (String × Bytes)) : Metadata :=
  values.foldl (fun m v => m.add v.1 v.2) empty

/-- The number of values. -/
def size (m : Metadata) : Nat := m.entries.length

/-- The character may occur in the name of a header. -/
def isNameChar (c : Char) : Bool := c.isAlphanum || "!#$%&'*+-.^_`|~".toList.contains c

/-- The text is the name of a header. -/
def isName (name : String) : Bool := !name.isEmpty && name.toList.all isNameChar

/-- The name, as it is written, is one of a binary header. -/
def isBinaryName (name : String) : Bool := binarySuffix.isSuffixOf name.toList

/-- The first value under the name of a header that is not binary. -/
def get? (m : Metadata) (name : String) : Option Bytes :=
  if isName name && !isBinaryName name then
    (m.entries.find? fun entry => entry.1 == lowerAscii name).map Prod.snd
  else
    none

/-- The byte is a visible ASCII character, a space or a tab. -/
def isTextByte (b : UInt8) : Bool := (0x20 ≤ b && b ≤ 0x7E) || b == 9

/-- The text of a value that consists of text bytes. -/
def textOf? (value : Bytes) : Option String :=
  if value.all isTextByte then some (String.ofList (value.map fun b => Char.ofNat b.toNat))
  else none

/-- The text of the first value under the name of a header that is not binary. -/
def text? (m : Metadata) (name : String) : Option String := (m.get? name).bind textOf?

/-- The entries in groups of equal names, each group where its name was first added. -/
def grouped (m : Metadata) : List (String × Bytes) :=
  let names := (m.entries.map Prod.fst).eraseDups
  names.flatMap fun name => m.entries.filter fun entry => entry.1 == name

/-- The entries in the order of their names; values of one name keep their order. -/
def sorted (m : Metadata) : List (String × Bytes) :=
  m.entries.mergeSort fun a b => a.1 ≤ b.1

/-- The written form of a byte of a value: text bytes as they are, and others as a number. -/
def describeByte (b : UInt8) : List Char :=
  if b == 0x22 then ['\\', '"']
  else if isTextByte b then [Char.ofNat b.toNat]
  else '\\' :: 'x' :: hexText b.toNat

/-- The value between double quotes. -/
def describeValue (value : Bytes) : String :=
  String.ofList ('"' :: value.flatMap describeByte ++ ['"'])

/-- The names and values, as messages show them. -/
def description (m : Metadata) : String :=
  "MetadataMap \x7b headers: \x7b"
    ++ commaSeparated (m.grouped.map fun entry => quoted entry.1 ++ ": " ++ describeValue entry.2)
    ++ "\x7d \x7d"

end Metadata

end CallGate
