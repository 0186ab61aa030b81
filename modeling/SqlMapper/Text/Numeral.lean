/-!
# Numeral — decimal integers

Writing natural numbers and integers, with or without a fixed width, and reading signed 64-bit integers.  A reader that
refuses says why; it reads from the left and stops at the first character at which the text cannot be a number in range.
-/
namespace SqlMapper

/-- The decimal digits of a number, without leading zeros. -/
def digits (n : Nat) : List Char := Nat.toDigits 10 n

/-- The last `width` decimal digits of a number, with leading zeros. -/
def fixedDigits : Nat → Nat → List Char
  | 0, _ => []
  | width + 1, n => fixedDigits width (n / 10) ++ [Nat.digitChar (n % 10)]

@[simp] theorem length_fixedDigits : ∀ width n, (fixedDigits width n).length = width
  | 0, _ => rfl
  | width + 1, n => by simp [fixedDigits, length_fixedDigits width]

def signedDigits (n : Int) : List Char :=
  if n < 0 then '-' :: digits n.natAbs else digits n.natAbs

/-! ## Reading -/

inductive NumeralFault where
  | empty
  | invalidDigit
  | tooLarge
  | tooSmall
  deriving DecidableEq, Repr

def NumeralFault.message : NumeralFault → String
  | .empty => "cannot parse integer from empty string"
  | .invalidDigit => "invalid digit found in string"
  | .tooLarge => "number too large to fit in target type"
  | .tooSmall => "number too small to fit in target type"

def digitValue? (c : Char) : Option Nat :=
  if c.isDigit then some (c.toNat - '0'.toNat) else none

/-- Reads digits after the number `sign * n`. -/
def readDigits (negative : Bool) (n : Nat) : List Char → Except NumeralFault Int64
  | [] => .ok (Int64.ofInt (if negative then -n else n))
  | c :: cs =>
    match digitValue? c with
    | none => .error .invalidDigit
    | some d =>
      let m := n * 10 + d
      if negative then if 2 ^ 63 < m then .error .tooSmall else readDigits true m cs
      else if 2 ^ 63 ≤ m then .error .tooLarge else readDigits false m cs

/-- An optional sign and one or more digits. -/
def readInt64 : List Char → Except NumeralFault Int64
  | [] => .error .empty
  | '+' :: [] => .error .invalidDigit
  | '-' :: [] => .error .invalidDigit
  | '+' :: cs => readDigits false 0 cs
  | '-' :: cs => readDigits true 0 cs
  | cs => readDigits false 0 cs

end SqlMapper
