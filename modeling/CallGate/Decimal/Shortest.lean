import CallGate.Decimal.Binary64

/-!
# The shortest decimal text of a number

A number is written with the fewest decimal digits that read back as the same number, and among
those with the digits nearest to it. The text is positional, however large or small the number is,
and always has a decimal point.
-/

namespace CallGate

/-- The decimal number `digits * 10 ^ exponent`. -/
structure DecimalNumber where
  /-- The digits, read as one natural number. -/
  digits : Nat
  /-- The power of ten of the last digit. -/
  exponent : Int
deriving DecidableEq

namespace Binary64

/-- The decimal number reads back as `b`: it lies between the midpoints to the neighbours of `b`,
which themselves go to the number with an even last digit. Below a power of two the neighbour is
nearer. -/
def readsAs (b : Binary64) (d : DecimalNumber) : Bool :=
  let below := if b.significand = leastNormal && b.exponent > -1074 then 1 else 2
  let low := Ratio.scaled (4 * b.significand - below) 2 (b.exponent - 2)
  let high := Ratio.scaled (4 * b.significand + 2) 2 (b.exponent - 2)
  let value := Ratio.scaled d.digits 10 d.exponent
  if b.significand % 2 = 0 then low.le value && value.le high else low.lt value && value.lt high

/-- The exponent `k` with `10 ^ (k - 1) ≤ a < 10 ^ k`, for a positive number `a` above the smallest
number that `Binary64` holds. -/
def decimalWidth (a : Ratio) : Int :=
  if a.den ≤ a.num then
    (Nat.toDigits 10 a.floor).length
  else
    match (List.range 400).find? fun z => a.den ≤ a.num * Nat.pow 10 z with
    | some z => 1 - z
    | none => 1

/-- The nearest decimal number of `n` digits that reads back as `b`. -/
def withDigits (b : Binary64) (n : Nat) : Option DecimalNumber :=
  let value := b.toRatio
  let exponent := decimalWidth value - n
  let lower := (value.div (.scaled 1 10 exponent)).floor
  let gap := fun digits => value.distance (.scaled digits 10 exponent)
  let hits := [lower, lower + 1].filter fun digits => b.readsAs ⟨digits, exponent⟩
  match hits with
  | [] => none
  | [digits] => some ⟨digits, exponent⟩
  | first :: second :: _ =>
    some ⟨if (gap second).lt (gap first) then second else first, exponent⟩

/-- The shortest decimal number that reads back as `b`; seventeen digits are always enough. -/
def shortest (b : Binary64) : DecimalNumber :=
  if b.significand = 0 then
    ⟨0, 0⟩
  else
    ((List.range' 1 17).findSome? b.withDigits).getD ⟨b.significand, 0⟩

end Binary64

/-- The positional text: a whole part, a decimal point, and at least one digit after it. -/
def DecimalNumber.text (d : DecimalNumber) : String :=
  let digits := Nat.toDigits 10 d.digits
  if 0 ≤ d.exponent then
    String.ofList (digits ++ List.replicate d.exponent.toNat '0' ++ ['.', '0'])
  else
    let places := (-d.exponent).toNat
    let padded := List.replicate (places + 1 - digits.length) '0' ++ digits
    let whole := padded.take (padded.length - places)
    let fraction := padded.drop (padded.length - places)
    let trimmed := (fraction.reverse.dropWhile (· == '0')).reverse
    String.ofList (whole ++ '.' :: if trimmed.isEmpty then ['0'] else trimmed)

end CallGate
