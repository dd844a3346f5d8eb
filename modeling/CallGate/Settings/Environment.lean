import CallGate.Settings.Basic
import CallGate.Table
import CallGate.Text.Parts

/-!
# Settings in environment variables

Variables whose names start with `AUTHZ_` can give settings. What is left of a name, when every
`AUTHZ_` at its start is cut off and its letters are in lower case, is the name of a setting;
variables that name no setting are passed over. The variables are visited in order, and the first
fault is reported: a setting that is given twice, or a size that is not one. Settings that are read
without a fault must also be usable.
-/

namespace CallGate

/-- One of the four settings. -/
inductive Setting where
  /-- The metadata header that carries the culture of a call. -/
  | cultureHeader
  /-- The beginnings of the method paths of infrastructure calls. -/
  | infrastructurePaths
  /-- How many unread elements a response stream holds. -/
  | streamBuffer
  /-- The languages that a culture may ask for. -/
  | supportedLanguages
deriving DecidableEq

/-- The name of a setting. -/
def Setting.name : Setting → String
  | .cultureHeader => "culture_header"
  | .infrastructurePaths => "bypass_prefixes"
  | .streamBuffer => "stream_buffer"
  | .supportedLanguages => "supported_languages"

/-- The setting of a given name. -/
def Setting.ofName? (name : String) : Option Setting :=
  [Setting.cultureHeader, .infrastructurePaths, .streamBuffer, .supportedLanguages].find?
    fun setting => setting.name == name

/-- Why a text is not a size. -/
inductive SizeError where
  /-- The text is empty. -/
  | empty
  /-- A character is not a digit. -/
  | invalidDigit
  /-- The digits so far exceed 64 bits. -/
  | tooLarge
deriving DecidableEq

/-- The reason in words. -/
def SizeError.message : SizeError → String
  | .empty => "cannot parse integer from empty string"
  | .invalidDigit => "invalid digit found in string"
  | .tooLarge => "number too large to fit in target type"

/-- Reads digits after the value `acc` of those before them. The first character that is not a digit
or makes the number too large decides. -/
def readDigits (acc : Nat) : List Char → Except SizeError Nat
  | [] => .ok acc
  | c :: cs =>
    if !c.isDigit then .error .invalidDigit
    else
      let next := 10 * acc + (c.toNat - '0'.toNat)
      if next < UInt64.size then readDigits next cs else .error .tooLarge

/-- Reads a size: ASCII digits, after at most one plus sign. -/
def readSize (text : String) : Except SizeError UInt64 :=
  UInt64.ofNat <$>
    match text.toList with
    | [] => .error .empty
    | ['+'] => .error .invalidDigit
    | '+' :: digits => readDigits 0 digits
    | digits => readDigits 0 digits

/-- The items of a list in a variable, which is cut at every comma. An empty text is a list without
items. -/
def readList (text : String) : List String :=
  if text.isEmpty then [] else (parts (· == ',') text.toList).map String.ofList

/-- The start of the names of the variables that can give settings. -/
def variableMark : List Char := "AUTHZ_".toList

/-- The name without the marks at its start. -/
def stripMarks : List Char → List Char
  | 'A' :: 'U' :: 'T' :: 'H' :: 'Z' :: '_' :: rest => stripMarks rest
  | name => name

/-- Why the variables are refused. -/
inductive EnvironmentError where
  /-- A setting is given by two variables. -/
  | duplicate (setting : Setting)
  /-- The value of a variable is not a size; the name is the one without marks. -/
  | size (cause : SizeError) (value : String) (name : String)
  /-- The settings were read, but cannot be used. -/
  | unusable (cause : SettingsFault)
deriving DecidableEq

/-- The text that reports the refusal. -/
def EnvironmentError.message : EnvironmentError → String
  | .duplicate setting =>
    "Failed to read interceptor configuration from environment: duplicate field `"
      ++ setting.name ++ "`"
  | .size cause value name =>
    "Failed to read interceptor configuration from environment: " ++ cause.message
      ++ " while parsing value '" ++ value ++ "' provided by " ++ name
  | .unusable cause => cause.message

/-- The settings that variables have given so far. -/
structure Given where
  /-- The culture header. -/
  cultureHeader : Option String := none
  /-- The beginnings of infrastructure paths. -/
  infrastructurePaths : Option (List String) := none
  /-- The size of response streams. -/
  streamBuffer : Option UInt64 := none
  /-- The languages. -/
  supportedLanguages : Option (List String) := none

namespace Given

/-- The setting has been given. -/
def has (g : Given) : Setting → Bool
  | .cultureHeader => g.cultureHeader.isSome
  | .infrastructurePaths => g.infrastructurePaths.isSome
  | .streamBuffer => g.streamBuffer.isSome
  | .supportedLanguages => g.supportedLanguages.isSome

/-- Takes the value of a variable for a setting. The name is the one without marks. -/
def take (g : Given) (setting : Setting) (name value : String) : Except EnvironmentError Given :=
  if g.has setting then
    .error (.duplicate setting)
  else
    match setting with
    | .cultureHeader => .ok { g with cultureHeader := some value }
    | .infrastructurePaths => .ok { g with infrastructurePaths := some (readList value) }
    | .streamBuffer =>
      match readSize value with
      | .ok size => .ok { g with streamBuffer := some size }
      | .error cause => .error (.size cause value name)
    | .supportedLanguages => .ok { g with supportedLanguages := some (readList value) }

/-- Takes one variable. The only letters that have an ASCII letter as their lower case, but are not
ASCII themselves, are a dotted capital I, which leaves a combining mark behind, and the sign for
kelvin, which becomes a `k`; neither occurs in the name of a setting, so lower case is taken of
ASCII letters alone. -/
def visit (g : Given) (entry : String × String) : Except EnvironmentError Given :=
  if variableMark.isPrefixOf entry.1.toList then
    let name := String.ofList (stripMarks entry.1.toList)
    match Setting.ofName? (lowerAscii name) with
    | some setting => g.take setting name entry.2
    | none => .ok g
  else
    .ok g

/-- The settings, with the standard values for those that have not been given. -/
def settings (g : Given) : Settings where
  cultureHeader := g.cultureHeader.getD Settings.standard.cultureHeader
  infrastructurePaths := g.infrastructurePaths.getD Settings.standard.infrastructurePaths
  streamBuffer := g.streamBuffer.getD Settings.standard.streamBuffer
  supportedLanguages := g.supportedLanguages.getD Settings.standard.supportedLanguages

end Given

namespace Settings

/-- The usable settings that variables with distinct names give. -/
def ofVariables (environment : List (String × String)) : Except EnvironmentError Settings := do
  let given ← environment.foldlM Given.visit {}
  match given.settings.fault? with
  | some cause => throw (.unusable cause)
  | none => return given.settings

/-- The usable settings after variables have been set one after the other. Setting a variable again
replaces its value and keeps its place. -/
def ofAssignments (assignments : List (String × String)) : Except EnvironmentError Settings :=
  ofVariables (Table.ofList assignments).entries

end Settings

end CallGate
