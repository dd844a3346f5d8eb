import CallGate.Text.Ascii
import CallGate.Text.Blank

/-!
# Settings of a gate

The settings name the metadata header that carries a caller's culture, the languages a culture may
ask for, the paths of infrastructure calls, and how many elements a response stream holds for a
caller that has not read them yet.
-/

namespace CallGate

/-- The settings of a gate. -/
structure Settings where
  /-- The metadata header that carries the culture of a call. -/
  cultureHeader : String
  /-- The beginnings of the method paths of infrastructure calls. -/
  infrastructurePaths : List String
  /-- How many unread elements a response stream holds. -/
  streamBuffer : UInt64
  /-- The languages that a culture may ask for; all of the catalogue if there are none. -/
  supportedLanguages : List String
deriving DecidableEq

/-- Why settings are refused. -/
inductive SettingsFault where
  /-- The culture header is blank. -/
  | cultureHeaderBlank
  /-- The culture header names a binary header, which holds no text. -/
  | cultureHeaderBinary
  /-- A response stream could hold no element at all. -/
  | streamBufferZero
deriving DecidableEq

/-- The reason in words. -/
def SettingsFault.reason : SettingsFault → String
  | .cultureHeaderBlank => "culture_header must not be empty"
  | .cultureHeaderBinary => "culture_header must name an ASCII metadata key"
  | .streamBufferZero => "stream_buffer must be greater than 0"

/-- The text that reports the refusal. -/
def SettingsFault.message (fault : SettingsFault) : String :=
  "Invalid interceptor configuration: " ++ fault.reason

/-- The ending of the names of binary headers. -/
def binarySuffix : List Char := "-bin".toList

namespace Settings

/-- The beginning of the paths of the reflection service. -/
def reflectionPath : String := "/grpc.reflection"

/-- The settings of a gate for which nothing else is said. -/
def standard : Settings where
  cultureHeader := "culture"
  infrastructurePaths := [reflectionPath]
  streamBuffer := 32
  supportedLanguages := []

instance : Inhabited Settings := ⟨standard⟩

/-- The first reason, if there is one, for which the settings cannot be used. -/
def fault? (s : Settings) : Option SettingsFault :=
  if (trimChars s.cultureHeader.toList).isEmpty then some .cultureHeaderBlank
  else if binarySuffix.isSuffixOf s.cultureHeader.toList then some .cultureHeaderBinary
  else if s.streamBuffer == 0 then some .streamBufferZero
  else none

/-- The method path belongs to an infrastructure call: it begins with one of the listed texts, byte
by byte and without regard to the case of ASCII letters. -/
def isInfrastructure (s : Settings) (method : String) : Bool :=
  s.infrastructurePaths.any fun path => beginsIgnoringCase (utf8Bytes path) (utf8Bytes method)

end Settings

end CallGate
