/-!
# Saturating — row counts that stop at the largest

Limits and offsets are unsigned 64-bit numbers.  Their sums and products stay at the largest one instead of wrapping.
-/
namespace SqlMapper

/-- The number, or the largest unsigned 64-bit one. -/
def saturate (n : Nat) : UInt64 := .ofNat (min n (UInt64.size - 1))

def addSaturating (a b : UInt64) : UInt64 := saturate (a.toNat + b.toNat)

def mulSaturating (a b : UInt64) : UInt64 := saturate (a.toNat * b.toNat)

@[simp] theorem toNat_saturate (n : Nat) : (saturate n).toNat = min n (UInt64.size - 1) := by
  simp only [saturate, UInt64.toNat_ofNat', UInt64.size]
  omega

theorem saturate_toNat (a : UInt64) : saturate a.toNat = a := by
  apply UInt64.toNat.inj
  have := a.toNat_lt
  simp only [toNat_saturate, UInt64.size]
  omega

end SqlMapper
