import CallGate.Document
import CallGate.Settings.Basic

/-!
# Settings in a configuration document

A document gives settings as a record, in which the names `culture_header`, `bypass_prefixes`,
`stream_buffer` and `supported_languages` count and all others are passed over, or as a list of the
four values in this order. What is not given keeps its standard value. The fields of a record are
read in alphabetical order and those of a list one after the other, and the first wrong one is
reported.
-/

namespace CallGate

/-- What a value of a configuration should have been. -/
inductive Expectation where
  /-- One text. -/
  | text
  /-- A list. -/
  | list
  /-- A natural number that 64 bits hold. -/
  | size
  /-- A record or list of settings. -/
  | settings
deriving DecidableEq

/-- The words for what was expected. -/
def Expectation.words : Expectation → String
  | .text => "a string"
  | .list => "a sequence"
  | .size => "usize"
  | .settings => "struct InterceptorConfig"

/-- Why a document is refused. -/
inductive DocumentError where
  /-- A value is not of the expected kind. -/
  | wrongKind (found : Document) (expected : Expectation)
  /-- A number is below zero where a size is expected. -/
  | negativeSize (found : Int)
  /-- A list of settings has more than four values. -/
  | tooManyValues (count : Nat)

/-- The text that reports the refusal. -/
def DocumentError.message : DocumentError → String
  | .wrongKind found expected =>
    "invalid type: " ++ found.description ++ ", expected " ++ expected.words
  | .negativeSize found =>
    "invalid value: integer `" ++ toString found ++ "`, expected " ++ Expectation.size.words
  | .tooManyValues count =>
    "invalid length " ++ toString count ++ ", expected fewer elements in array"

namespace Document

/-- The text that the document is. -/
def asText : Document → Except DocumentError String
  | text value => .ok value
  | other => .error (.wrongKind other .text)

/-- The list of texts that the document is. -/
def asTexts : Document → Except DocumentError (List String)
  | list items => items.mapM asText
  | other => .error (.wrongKind other .list)

/-- The size that the document is. -/
def asSize : Document → Except DocumentError UInt64
  | number value =>
    match value.integer? with
    | some (.ofNat n) => .ok (UInt64.ofNat n)
    | some n => .error (.negativeSize n)
    | none => .error (.wrongKind (number value) .size)
  | other => .error (.wrongKind other .size)

end Document

namespace Settings

/-- The value that a document gives, or else the standard value. -/
def givenOr {α : Type} (standard : α) (read : Document → Except DocumentError α) :
    Option Document → Except DocumentError α
  | none => .ok standard
  | some document => read document

/-- The settings in the fields of a record. -/
def ofFields (fields : List (String × Document)) : Except DocumentError Settings := do
  let field := Document.field? fields
  let bypass ← givenOr standard.infrastructurePaths Document.asTexts (field "bypass_prefixes")
  let header ← givenOr standard.cultureHeader Document.asText (field "culture_header")
  let buffer ← givenOr standard.streamBuffer Document.asSize (field "stream_buffer")
  let languages ← givenOr standard.supportedLanguages Document.asTexts (field "supported_languages")
  return ⟨header, bypass, buffer, languages⟩

/-- The settings in a list of values. -/
def ofItems (items : List Document) : Except DocumentError Settings := do
  let header ← givenOr standard.cultureHeader Document.asText items[0]?
  let bypass ← givenOr standard.infrastructurePaths Document.asTexts items[1]?
  let buffer ← givenOr standard.streamBuffer Document.asSize items[2]?
  let languages ← givenOr standard.supportedLanguages Document.asTexts items[3]?
  if items.length ≤ 4 then
    return ⟨header, bypass, buffer, languages⟩
  else
    throw (.tooManyValues items.length)

/-- The settings that a document gives. -/
def ofDocument : Document → Except DocumentError Settings
  | .record fields => ofFields fields
  | .list items => ofItems items
  | other => .error (.wrongKind other .settings)

end Settings

end CallGate
