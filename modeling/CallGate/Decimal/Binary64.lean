/-!
# Numbers in binary floating point

A number with a fraction or an exponent is kept as the nearest number with 53 binary digits, and of
two equally near ones as the one whose last digit is even. Everything here is exact arithmetic on
natural numbers: a positive rational is a numerator over a denominator.
-/

namespace CallGate

/-- A non-negative rational number. -/
structure Ratio where
  /-- The numerator. -/
  num : Nat
  /-- The denominator, which is not zero. -/
  den : Nat

namespace Ratio

/-- The number `n * base ^ e`. -/
def scaled (n base : Nat) (e : Int) : Ratio := ⟨n * base.pow e.toNat, base.pow (-e).toNat⟩

/-- The first number is smaller than the second. -/
def lt (a b : Ratio) : Bool := a.num * b.den < b.num * a.den

/-- The first number is at most the second. -/
def le (a b : Ratio) : Bool := a.num * b.den ≤ b.num * a.den

/-- The quotient of two numbers, the second of which is not zero. -/
def div (a b : Ratio) : Ratio := ⟨a.num * b.den, a.den * b.num⟩

/-- The distance between two numbers. -/
def distance (a b : Ratio) : Ratio :=
  let x := a.num * b.den
  let y := b.num * a.den
  ⟨(x - y) + (y - x), a.den * b.den⟩

/-- The largest natural number that is not above the number. -/
def floor (a : Ratio) : Nat := a.num / a.den

/-- The nearest natural number; halfway, the even one. -/
def round (a : Ratio) : Nat :=
  let q := a.num / a.den
  let twice := 2 * (a.num % a.den)
  if twice < a.den || (twice == a.den && q % 2 == 0) then q else q + 1

/-- The exponent `k` with `2 ^ k ≤ a < 2 ^ (k + 1)`, for a positive number `a`. -/
def log2 (a : Ratio) : Int :=
  let k := (Nat.log2 a.num : Int) - Nat.log2 a.den
  if (scaled 1 2 k).le a then k else k - 1

end Ratio

/-- The number `significand * 2 ^ exponent`. -/
structure Binary64 where
  /-- The binary digits, at most 53 of them. -/
  significand : Nat
  /-- The power of two of the last digit, at least -1074. -/
  exponent : Int
deriving DecidableEq

namespace Binary64

/-- The least significand with 53 binary digits. -/
def leastNormal : Nat := 4503599627370496

/-- The number as a rational. -/
def toRatio (b : Binary64) : Ratio := .scaled b.significand 2 b.exponent

/-- The nearest number to `n * 10 ^ e`. -/
def ofDecimal (n : Nat) (e : Int) : Binary64 :=
  if n = 0 then
    ⟨0, -1074⟩
  else
    let value := Ratio.scaled n 10 e
    let exponent := max (value.log2 - 52) (-1074)
    let significand := (value.div (.scaled 1 2 exponent)).round
    if significand = 2 * leastNormal then ⟨leastNormal, exponent + 1⟩
    else ⟨significand, exponent⟩

end Binary64

end CallGate
