import Mathlib.Data.List.TakeWhile
import SqlMapper.Text.Blank
/-!
# Trim — texts without outer blanks

A text is cut at its start and at its end, in the same way.  It is left as it is exactly if it neither starts nor ends
in a character that is cut off (`dropEnds_eq_self_iff`), so two trimmed texts make a trimmed text.
-/
namespace SqlMapper

section

variable {p : Char → Bool} {cs : List Char}

theorem dropWhile_eq_self_iff_head? : cs.dropWhile p = cs ↔ ∀ c ∈ cs.head?, p c = false := by
  rw [List.dropWhile_eq_self_iff]
  cases cs <;> simp

/-- A text is cut at neither end when it neither starts nor ends in a character that is cut off. -/
theorem dropEnds_eq_self_iff :
    ((cs.dropWhile p).reverse.dropWhile p).reverse = cs ↔
      (∀ c ∈ cs.head?, p c = false) ∧ ∀ c ∈ cs.getLast?, p c = false := by
  rw [← List.head?_reverse, ← dropWhile_eq_self_iff_head?, ← dropWhile_eq_self_iff_head?]
  constructor
  · intro h
    have hleft : cs.dropWhile p = cs := by
      refine (List.dropWhile_suffix p).eq_of_length_le ?_
      have hlength := congrArg List.length h
      have hle := (List.dropWhile_suffix (l := (cs.dropWhile p).reverse) p).length_le
      rw [List.length_reverse] at hlength hle
      omega
    rw [hleft] at h
    exact ⟨hleft, List.reverse_eq_iff.1 h⟩
  · rintro ⟨hleft, hright⟩
    rw [hleft, hright, List.reverse_reverse]

end

theorem trimChars_eq_self_iff {cs : List Char} :
    trimChars cs = cs ↔ (∀ c ∈ cs.head?, isBlank c = false) ∧ ∀ c ∈ cs.getLast?, isBlank c = false :=
  dropEnds_eq_self_iff

/-- The text neither starts nor ends in a blank. -/
def IsTrimmed (s : String) : Prop :=
  (∀ c ∈ s.toList.head?, isBlank c = false) ∧ ∀ c ∈ s.toList.getLast?, isBlank c = false

theorem isTrimmed_iff {s : String} : IsTrimmed s ↔ trim s = s := by
  rw [← String.toList_inj, toList_trim]
  exact trimChars_eq_self_iff.symm

instance (s : String) : Decidable (IsTrimmed s) := decidable_of_iff _ isTrimmed_iff.symm

theorem trimChars_append {before after : List Char} (hb : trimChars before = before) (ha : trimChars after = after) :
    trimChars (before ++ after) = before ++ after := by
  rw [trimChars_eq_self_iff] at hb ha ⊢
  rw [List.head?_append, List.getLast?_append]
  constructor
  · intro c hc
    cases hhead : before.head? with
    | some first => exact hb.1 c (by rwa [hhead] at hc ⊢)
    | none => exact ha.1 c (by rwa [hhead] at hc)
  · intro c hc
    cases hlast : after.getLast? with
    | some last => exact ha.2 c (by rwa [hlast] at hc ⊢)
    | none => exact hb.2 c (by rwa [hlast] at hc)

theorem length_trimChars_le (cs : List Char) : (trimChars cs).length ≤ cs.length := by
  have hleft := (List.dropWhile_suffix (l := cs) isBlank).length_le
  have hright := (List.dropWhile_suffix (l := (cs.dropWhile isBlank).reverse) isBlank).length_le
  rw [List.length_reverse] at hright
  rw [trimChars, List.length_reverse]
  omega

end SqlMapper
