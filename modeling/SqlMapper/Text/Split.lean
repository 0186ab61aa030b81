/-!
# Split — cutting a text at separators

`splitWhere p` cuts at every character that satisfies `p` and drops it; the parts may be empty and there is always at
least one.  Joining the parts with a separator is its inverse.
-/
namespace SqlMapper

/-- The parts between the characters that satisfy `p`. -/
def splitWhere (p : Char → Bool) : List Char → List (List Char)
  | [] => [[]]
  | c :: cs =>
    if p c then [] :: splitWhere p cs
    else match splitWhere p cs with
      | [] => [[c]]
      | part :: parts => (c :: part) :: parts

/-- The parts of a text between the occurrences of one separator. -/
def splitAtChar (separator : Char) (s : String) : List String :=
  (splitWhere (· == separator) s.toList).map String.ofList

theorem splitWhere_ne_nil (p : Char → Bool) : ∀ cs, splitWhere p cs ≠ []
  | [] => by simp [splitWhere]
  | c :: cs => by
    rw [splitWhere]
    split
    · simp
    · split <;> simp

/-- No part holds a separator. -/
theorem not_of_mem_splitWhere (p : Char → Bool) :
    ∀ (cs : List Char), ∀ part ∈ splitWhere p cs, ∀ c ∈ part, p c = false
  | [], part, h, c, hc => by simp only [splitWhere, List.mem_singleton] at h; subst h; cases hc
  | d :: cs, part, h, c, hc => by
    have ih := not_of_mem_splitWhere p cs
    rw [splitWhere] at h
    split at h
    · rcases List.mem_cons.1 h with rfl | h
      · cases hc
      · exact ih part h c hc
    · rename_i hd
      cases hs : splitWhere p cs with
      | nil => exact absurd hs (splitWhere_ne_nil p cs)
      | cons q qs =>
        rw [hs] at h
        rcases List.mem_cons.1 h with rfl | h
        · rcases List.mem_cons.1 hc with rfl | hc
          · simpa using hd
          · exact ih q (by simp [hs]) c hc
        · exact ih part (by simp [hs, h]) c hc

/-- Joining the parts with the separator gives the text back. -/
theorem intercalate_splitWhere (separator : Char) :
    ∀ cs, List.intercalate [separator] (splitWhere (· == separator) cs) = cs
  | [] => rfl
  | c :: cs => by
    have ih := intercalate_splitWhere separator cs
    rw [splitWhere]
    cases hs : splitWhere (· == separator) cs with
    | nil => exact absurd hs (splitWhere_ne_nil _ cs)
    | cons part parts =>
      rw [hs] at ih
      split
      · rename_i hc
        have : c = separator := by simpa using hc
        subst this
        simp_all [List.intercalate, List.intersperse]
      · cases parts <;> simp_all [List.intercalate, List.intersperse]

end SqlMapper
