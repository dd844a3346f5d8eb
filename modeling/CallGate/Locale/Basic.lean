import CallGate.Text.Ascii
import CallGate.Text.Blank
import CallGate.Text.Parts
import CallGate.Locale.Catalogue

/-!
# Locales

A locale names a language and, if wanted, a script and a region. Its tag joins the three with
separators: `zh-Hant-TW`, `fr_be`, `es-419`. Tags are read without regard to case and to which
separator is used, and a locale is written in one way only: the language in lower case, the script
with a capital first letter, the region in capitals, with hyphens between them.

A tag is refused for one of three reasons. Blank tags are empty; tags that do not have the form
above are malformed; and well-formed tags whose language is not in the catalogue, or not among the
languages that the reader is restricted to, are unsupported.
-/

namespace CallGate

/-- A language with an optional script and an optional region. -/
structure Locale where
  /-- The language, in lower case. -/
  language : String
  /-- The script, with a capital first letter. -/
  script : Option String
  /-- The region, in capitals or digits. -/
  region : Option String
deriving DecidableEq, Repr

/-- Why a tag is refused. -/
inductive TagError where
  /-- The tag is blank. -/
  | empty
  /-- The tag, here without its surrounding blanks, does not have the form of a locale. -/
  | malformed (trimmed : String)
  /-- The tag, here as it was given, names a language that is not available. -/
  | unsupported (tag : String)
deriving DecidableEq, Repr

/-- The text that reports the refusal. -/
def TagError.message : TagError → String
  | .empty => "Locale tag is empty"
  | .malformed trimmed => "Malformed locale tag: " ++ trimmed
  | .unsupported tag => "Unsupported locale: " ++ tag

namespace Locale

/-- The characters that separate the parts of a tag. -/
def isSeparator (c : Char) : Bool := c == '-' || c == '_'

/-- A language is two or three ASCII letters. -/
def isLanguage (part : List Char) : Bool :=
  (part.length == 2 || part.length == 3) && part.all Char.isAlpha

/-- A script is four ASCII letters. -/
def isScript (part : List Char) : Bool := part.length == 4 && part.all Char.isAlpha

/-- A region is two ASCII letters or three ASCII digits. -/
def isRegion (part : List Char) : Bool :=
  (part.length == 2 && part.all Char.isAlpha) || (part.length == 3 && part.all Char.isDigit)

/-- The script with a capital first letter and the others in lower case. -/
def titleCase : List Char → List Char
  | [] => []
  | c :: cs => c.toUpper :: cs.map Char.toLower

/-- The locale with one more part of its tag: a script, if it has neither a script nor a region yet, or
a region, if it has none yet. -/
def withPart? (l : Locale) (part : List Char) : Option Locale :=
  if l.script.isNone && l.region.isNone && isScript part then
    some { l with script := some (String.ofList (titleCase part)) }
  else if l.region.isNone && isRegion part then
    some { l with region := some (String.ofList (part.map Char.toUpper)) }
  else
    none

/-- The locale that the parts of a tag spell, if the first is a language and each of the others can be
added to those before it. -/
def ofSubtags : List (List Char) → Option Locale
  | [] => none
  | language :: rest =>
    if isLanguage language then
      rest.foldlM withPart? ⟨String.ofList (language.map Char.toLower), none, none⟩
    else
      none

/-- Reads a tag of any language in the catalogue. -/
def parse (tag : String) : Except TagError Locale :=
  let trimmed := trimChars tag.toList
  if trimmed.isEmpty then
    .error .empty
  else
    match ofSubtags (parts isSeparator trimmed) with
    | none => .error (.malformed (String.ofList trimmed))
    | some locale =>
      if catalogue.contains locale.language then .ok locale else .error (.unsupported tag)

/-- Reads a tag of one of the languages in `allowed`, compared without regard to ASCII case. An
empty list allows the whole catalogue. -/
def parseAmong (tag : String) (allowed : List String) : Except TagError Locale := do
  let locale ← parse tag
  if allowed.isEmpty || allowed.any (sameIgnoringCase · locale.language) then
    .ok locale
  else
    .error (.unsupported tag)

/-- The one written form of a locale. -/
def tag (l : Locale) : String :=
  let part := fun
    | some s => "-" ++ s
    | none => ""
  l.language ++ part l.script ++ part l.region

end Locale

end CallGate
