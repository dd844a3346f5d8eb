/-!
# Random identifiers

An identifier drawn at random holds 122 random bits. It is written as 32 hexadecimal digits in
groups of 8, 4, 4, 4 and 12; six of the 128 bits are fixed, and mark the identifier as a random one.
-/

namespace CallGate

/-- The number of random identifiers: two to the power of 122. -/
def uuidCount : Nat := 5316911983139663491615228241121378304

/-- A random identifier. -/
structure Uuid where
  /-- The random bits. -/
  bits : Fin uuidCount
deriving DecidableEq

namespace Uuid

/-- The hexadecimal digit of a number below 16. -/
def hexDigit (n : Nat) : Char := "0123456789abcdef".toList.getD (n % 16) '0'

/-- The last `width` hexadecimal digits of `n`, the most significant one first. -/
def hexDigits : (width : Nat) → (n : Nat) → List Char
  | 0, _ => []
  | width + 1, n => hexDigits width (n / 16) ++ [hexDigit n]

/-- The written form: the third group starts with the digit 4, and the fourth with one of 8, 9, a
and b. -/
def chars (id : Uuid) : List Char :=
  let n := id.bits.val
  hexDigits 8 (n >>> 90) ++ '-' :: hexDigits 4 (n >>> 74)
    ++ '-' :: '4' :: hexDigits 3 (n >>> 62)
    ++ '-' :: hexDigit (8 + (n >>> 60) % 4) :: hexDigits 3 (n >>> 48)
    ++ '-' :: hexDigits 12 n

/-- The written form as a text. -/
def text (id : Uuid) : String := String.ofList id.chars

/-- The identifier that holds the last 122 bits of `n`. -/
def ofNat (n : Nat) : Uuid := ⟨⟨n % uuidCount, Nat.mod_lt _ (by decide)⟩⟩

end Uuid

end CallGate
