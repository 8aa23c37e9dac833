/-!
# Decimal digits and line numbers

The decimal digits of all scripts (general category Nd), and the numbers that a text can name: an
optional plus sign and then ASCII digits, for a value below `2 ^ 64`. A digit of another script is a
digit for the shape of an identifier, but no number is read from it. And when a decimal number is
too large for a float.
-/

namespace ScenarioAtlas.Text

set_option autoImplicit false

/-- The code points of the zeros; each is followed by the other nine digits of its script. -/
def zeroDigits : List Nat :=
  [0x0030, 0x0660, 0x06f0, 0x07c0, 0x0966, 0x09e6, 0x0a66, 0x0ae6, 0x0b66, 0x0be6, 0x0c66, 0x0ce6,
    0x0d66, 0x0de6, 0x0e50, 0x0ed0, 0x0f20, 0x1040, 0x1090, 0x17e0, 0x1810, 0x1946, 0x19d0, 0x1a80,
    0x1a90, 0x1b50, 0x1bb0, 0x1c40, 0x1c50, 0xa620, 0xa8d0, 0xa900, 0xa9d0, 0xa9f0, 0xaa50, 0xabf0,
    0xff10, 0x104a0, 0x10d30, 0x10d40, 0x11066, 0x110f0, 0x11136, 0x111d0, 0x112f0, 0x11450,
    0x114d0, 0x11650, 0x116c0, 0x116d0, 0x116da, 0x11730, 0x118e0, 0x11950, 0x11bf0, 0x11c50,
    0x11d50, 0x11da0, 0x11f50, 0x16130, 0x16a60, 0x16ac0, 0x16b50, 0x16d70, 0x1ccf0, 0x1d7ce,
    0x1d7d8, 0x1d7e2, 0x1d7ec, 0x1d7f6, 0x1e140, 0x1e2f0, 0x1e4f0, 0x1e5f1, 0x1e950, 0x1fbf0]

def isDecimalDigit (c : Char) : Bool :=
  zeroDigits.any fun first => first ≤ c.toNat && c.toNat ≤ first + 9

def isDigitRun (s : List Char) : Bool := !s.isEmpty && s.all isDecimalDigit

/-- The least number that is too large to be read, `2 ^ 64`. -/
def numberBound : Nat := 18446744073709551616

def digitsValue (s : List Char) : Nat := s.foldl (fun n c => 10 * n + (c.toNat - '0'.toNat)) 0

/-- The number written by ASCII digits alone, if it is below the bound. -/
def readDigits? (s : List Char) : Option Nat :=
  if !s.isEmpty && s.all Char.isDigit && digitsValue s < numberBound then some (digitsValue s)
  else none

def readNumber? : List Char → Option Nat
  | '+' :: s => readDigits? s
  | s => readDigits? s

/-- The decimal digits of a number, without leading zeros. -/
def writeNumber (n : Nat) : List Char := Nat.toDigits 10 n

/-- Whether `mantissa * 10 ^ exponent` is nearer to infinity than to a float: it reaches the middle
between the largest float and the next power of two. The number of its digits settles all but a few
cases. -/
def overflows (mantissa : Nat) (exponent : Int) : Bool :=
  let size := exponent + (Nat.toDigits 10 mantissa).length
  if mantissa = 0 ∨ size < 300 then false
  else if 320 < size then true
  else
    Nat.pow 2 1024 - Nat.pow 2 970
      ≤ (mantissa * Nat.pow 10 exponent.toNat) / Nat.pow 10 (-exponent).toNat

theorem readNumber?_lt {s : List Char} {n : Nat} (h : readNumber? s = some n) :
    n < numberBound := by
  have digits : ∀ t : List Char, readDigits? t = some n → n < numberBound := by
    intro t ht
    unfold readDigits? at ht
    split at ht
    · rename_i hc
      simp only [Bool.and_eq_true, decide_eq_true_eq] at hc
      cases ht
      exact hc.2
    · cases ht
  unfold readNumber? at h
  split at h <;> exact digits _ h

end ScenarioAtlas.Text
