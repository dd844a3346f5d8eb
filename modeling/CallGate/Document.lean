import CallGate.Decimal.Shortest
import CallGate.Text.Quoted

/-!
# Documents

A document is a value as configuration files and call payloads hold it: nothing, a truth value, a
number, a text, a list or a record. Numbers keep the form in which they were written, because a
number with a fraction or an exponent is never taken for a whole number, however large it is.
-/

namespace CallGate

/-- A number as it was written: a sign, digits, and a power of ten. -/
structure Numeral where
  /-- The number was written with a minus sign. -/
  negative : Bool
  /-- All digits, read as one natural number. -/
  digits : Nat
  /-- The power of ten of the last digit. -/
  exponent : Int
  /-- The number was written without a decimal point and without an exponent. -/
  whole : Bool
deriving DecidableEq

/-- A value of a configuration or of a call. -/
inductive Document where
  /-- No value. -/
  | null
  /-- A truth value. -/
  | bool (value : Bool)
  /-- A number. -/
  | number (value : Numeral)
  /-- A text. -/
  | text (value : String)
  /-- A list of values. -/
  | list (items : List Document)
  /-- Values under names. -/
  | record (fields : List (String × Document))

instance : Inhabited Document := ⟨.null⟩

namespace Numeral

/-- The whole number that the numeral stands for, if 64 bits can hold it. A zero with a minus sign
is not whole, since only numbers with a fraction have two zeros. -/
def integer? (n : Numeral) : Option Int :=
  if !n.whole then none
  else if n.negative then
    if n.digits = 0 || n.digits > UInt64.size / 2 then none else some (-n.digits)
  else if n.digits < UInt64.size then some n.digits else none

/-- The text of a number that is not whole. -/
def fractionText (n : Numeral) : String :=
  (if n.negative then "-" else "") ++ (Binary64.ofDecimal n.digits n.exponent).shortest.text

end Numeral

namespace Document

/-- What a message calls the document. -/
def description : Document → String
  | null => "null"
  | bool value => "boolean `" ++ (if value then "true" else "false") ++ "`"
  | number value =>
    match value.integer? with
    | some n => "integer `" ++ toString n ++ "`"
    | none => "floating point `" ++ value.fractionText ++ "`"
  | text value => "string " ++ quoted value
  | list _ => "sequence"
  | record _ => "map"

/-- The value under a name; of several under the same name, the last. -/
def field? (fields : List (String × Document)) (name : String) : Option Document :=
  (fields.reverse.find? fun field => field.1 == name).map Prod.snd

end Document

end CallGate
