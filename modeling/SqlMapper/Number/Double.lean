/-!
# Double — binary64 numbers by their bits

A double is its 64 bits, so two of them are equal exactly when their bits are: zeros of different sign differ and a NaN
equals itself.  Integers are rounded to the nearest double, a tie to the even one; single precision is widened exactly.
-/
namespace SqlMapper

structure Double where
  bits : UInt64
  deriving DecidableEq, Repr

namespace Double

def isNegative (x : Double) : Bool := 0x8000000000000000 ≤ x.bits

/-- The biased exponent, eleven bits. -/
def exponentField (x : Double) : Nat := (x.bits.toNat >>> 52) % 2048

/-- The fraction, fifty-two bits. -/
def fractionField (x : Double) : Nat := x.bits.toNat % (1 <<< 52)

def isNaN (x : Double) : Bool := x.exponentField == 2047 && x.fractionField != 0

def isInfinite (x : Double) : Bool := x.exponentField == 2047 && x.fractionField == 0

def isFinite (x : Double) : Bool := x.exponentField != 2047

/-- The whole number `m` in the magnitude `m * 2 ^ e` of a finite double. -/
def significand (x : Double) : Nat :=
  if x.exponentField = 0 then x.fractionField else (1 <<< 52) + x.fractionField

/-- The exponent `e` in the magnitude `m * 2 ^ e` of a finite double. -/
def exponent (x : Double) : Int := (max x.exponentField 1 : Nat) - 1075

/-- A number divided by a power of two, rounded to the nearest whole number and on a tie to the even one. -/
def roundShift (n shift : Nat) : Nat :=
  let q := n >>> shift
  let r := n % (1 <<< shift)
  if 1 <<< shift < 2 * r ∨ (2 * r = 1 <<< shift ∧ q % 2 = 1) then q + 1 else q

/-- The bits of the double nearest to a whole number below `2 ^ 1000`. -/
def magnitudeBits (n : Nat) : Nat :=
  if n = 0 then 0 else
  let e := n.log2
  let m := if e ≤ 52 then n <<< (52 - e) else roundShift n (e - 52)
  ((e + 1022) <<< 52) + m

def ofInt64 (n : Int64) : Double :=
  ⟨.ofNat ((if n < 0 then 1 <<< 63 else 0) + magnitudeBits n.toInt.natAbs)⟩

/-- Widens the 32 bits of a single precision number.  A NaN keeps its payload and becomes quiet. -/
def ofSingleBits (bits : UInt32) : Double :=
  let b := bits.toNat
  let sign := (b >>> 31) <<< 63
  let e := (b >>> 23) % 256
  let f := b % (1 <<< 23)
  let magnitude :=
    if e = 255 then
      (2047 <<< 52) + (if f = 0 then 0 else if f < 1 <<< 22 then (1 <<< 51) + (f <<< 29) else f <<< 29)
    else if e = 0 then
      if f = 0 then 0 else magnitudeBits f - (149 <<< 52)
    else ((e + 896) <<< 52) + (f <<< 29)
  ⟨.ofNat (sign + magnitude)⟩

end Double

end SqlMapper
