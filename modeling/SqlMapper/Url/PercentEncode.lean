/-!
# PercentEncode — characters that a URL writes as bytes

Every part of a URL has a set of ASCII characters that it cannot hold as they are.  Those, and all characters outside
ASCII, are written as the percent-encoded bytes of their UTF-8 form.  A percent sign itself is kept, so text that is
encoded already does not change.
-/
namespace SqlMapper.Url

def hexDigit (n : Nat) : Char := (Nat.digitChar n).toUpper

def encodedByte (b : UInt8) : List Char := ['%', hexDigit (b.toNat / 16), hexDigit (b.toNat % 16)]

/-- Encodes the characters outside ASCII, the control characters and those of the given set. -/
def percentEncode (set : List Char) (cs : List Char) : List Char :=
  cs.flatMap fun c =>
    if c.toNat < 0x20 ∨ 0x7F ≤ c.toNat ∨ c ∈ set then (String.utf8EncodeChar c).flatMap encodedByte else [c]

def querySet : List Char := [' ', '"', '#', '<', '>']

def fragmentSet : List Char := [' ', '"', '<', '>', '`']

def pathSet : List Char := fragmentSet ++ ['#', '?', '{', '}']

def credentialSet : List Char := pathSet ++ ['/', ':', ';', '=', '@', '[', '\\', ']', '^', '|']

/-- Text without control characters and characters of the set is kept. -/
theorem percentEncode_eq_self {set cs : List Char}
    (h : ∀ c ∈ cs, 0x20 ≤ c.toNat ∧ c.toNat < 0x7F ∧ c ∉ set) : percentEncode set cs = cs := by
  induction cs with
  | nil => rfl
  | cons c cs ih =>
    obtain ⟨h₁, h₂, h₃⟩ := h c List.mem_cons_self
    have hc : ¬(c.toNat < 0x20 ∨ 0x7F ≤ c.toNat ∨ c ∈ set) := by
      simp only [not_or, Nat.not_lt, Nat.not_le]
      exact ⟨h₁, h₂, h₃⟩
    have := ih fun d hd => h d (List.mem_cons_of_mem _ hd)
    rw [percentEncode, List.flatMap_cons, if_neg hc]
    rw [percentEncode] at this
    rw [this]
    rfl

end SqlMapper.Url
