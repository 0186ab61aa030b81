import SqlMapper.Proofs.Text.Trim
import SqlMapper.Proofs.Text.Utf8
import SqlMapper.Query.Column
/-!
# Alias — a name and its alias, written into one text and read back

A column with an alias is handed on as one text, the name and the alias with ` as ` between them, and the text is read
again.  A name that reads as a name is read back in this way exactly if it does not end in ` as`
(`Column.parse_as_iff`): with that end it has no separator in it, but the blank behind it makes one.
-/
namespace SqlMapper

namespace Column

/-- The name that a result shows the column under, if there is an alias. -/
def shownAs? : Column → Option String
  | aliased _ shownAs => some shownAs
  | _ => none

/-! ## The separator -/

theorem startsWithAs_iff {cs : List Char} :
    startsWithAs cs = true ↔
      ∃ a s rest, cs = ' ' :: a :: s :: ' ' :: rest ∧ (a = 'a' ∨ a = 'A') ∧ (s = 's' ∨ s = 'S') := by
  constructor
  · intro h
    unfold startsWithAs at h
    split at h
    · rename_i a s rest
      simp only [Bool.and_eq_true, Bool.or_eq_true, beq_iff_eq] at h
      exact ⟨a, s, rest, rfl, h.1, h.2⟩
    · cases h
  · rintro ⟨a, s, rest, rfl, ha, hs⟩
    simp only [startsWithAs, Bool.and_eq_true, Bool.or_eq_true, beq_iff_eq]
    exact ⟨ha, hs⟩

/-- A spelling of the separator, in any letter case. -/
def IsSeparator (cs : List Char) : Prop := cs.map Char.toLower = " as ".toList

instance (cs : List Char) : Decidable (IsSeparator cs) := inferInstanceAs (Decidable (_ = _))

theorem isSeparator_iff {cs : List Char} :
    IsSeparator cs ↔ ∃ a s, cs = [' ', a, s, ' '] ∧ (a = 'a' ∨ a = 'A') ∧ (s = 's' ∨ s = 'S') := by
  constructor
  · intro h
    obtain ⟨before, letters, rfl, hbefore, h⟩ := List.map_eq_cons_iff.1 h
    obtain ⟨a, letters, rfl, ha, h⟩ := List.map_eq_cons_iff.1 h
    obtain ⟨s, letters, rfl, hs, h⟩ := List.map_eq_cons_iff.1 h
    obtain ⟨after, rfl, hafter⟩ := List.map_eq_singleton_iff.1 h
    obtain rfl := eq_of_toLower hbefore (by decide)
    obtain rfl := eq_of_toLower hafter (by decide)
    exact ⟨a, s, rfl, eq_or_eq_of_toLower ha rfl, eq_or_eq_of_toLower hs rfl⟩
  · rintro ⟨a, s, rfl, rfl | rfl, rfl | rfl⟩ <;> rfl

theorem startsWithAs_iff_separator {cs : List Char} :
    startsWithAs cs = true ↔ ∃ separator rest, cs = separator ++ rest ∧ IsSeparator separator := by
  rw [startsWithAs_iff]
  constructor
  · rintro ⟨a, s, rest, rfl, has⟩
    exact ⟨[' ', a, s, ' '], rest, rfl, isSeparator_iff.2 ⟨a, s, rfl, has⟩⟩
  · rintro ⟨separator, rest, rfl, h⟩
    obtain ⟨a, s, rfl, has⟩ := isSeparator_iff.1 h
    exact ⟨a, s, rest, rfl, has⟩

/-- A separator stands somewhere in the text. -/
def HasSeparator (cs : List Char) : Prop :=
  ∃ before separator after, cs = before ++ separator ++ after ∧ IsSeparator separator

/-- The text ends in ` as`, in any letter case: a blank behind its last three characters makes them a separator. -/
def EndsInAs (cs : List Char) : Prop := startsWithAs (cs.drop (cs.length - 3) ++ [' ']) = true

instance (cs : List Char) : Decidable (EndsInAs cs) := by unfold EndsInAs; infer_instance

theorem endsInAs_iff {cs : List Char} :
    EndsInAs cs ↔ ∃ before a s, cs = before ++ [' ', a, s] ∧ (a = 'a' ∨ a = 'A') ∧ (s = 's' ∨ s = 'S') := by
  unfold EndsInAs
  rw [startsWithAs_iff]
  constructor
  · rintro ⟨a, s, rest, h, ha, hs⟩
    have hlast : cs.drop (cs.length - 3) = [' ', a, s] := by
      have hlength : (cs.drop (cs.length - 3)).length ≤ 3 := by rw [List.length_drop]; omega
      match cs.drop (cs.length - 3), h, hlength with
      | [_, _, _], h, _ =>
        cases h
        rfl
    exact ⟨cs.take (cs.length - 3), a, s, by rw [← hlast, List.take_append_drop], ha, hs⟩
  · rintro ⟨before, a, s, rfl, ha, hs⟩
    refine ⟨a, s, [], ?_, ha, hs⟩
    rw [List.length_append, List.drop_left' (by simp)]
    rfl

theorem splitAs?_cons_eq_none_iff {c : Char} {cs : List Char} :
    splitAs? (c :: cs) = none ↔ startsWithAs (c :: cs) = false ∧ splitAs? cs = none := by
  rw [splitAs?]
  cases startsWithAs (c :: cs) <;> simp

/-- A dot ends every separator that has begun. -/
theorem splitAs?_dot {qualifier name : List Char} (hq : splitAs? qualifier = none) (hn : splitAs? name = none) :
    splitAs? (qualifier ++ '.' :: name) = none := by
  induction qualifier with
  | nil => exact splitAs?_cons_eq_none_iff.2 ⟨rfl, hn⟩
  | cons c qualifier ih =>
    obtain ⟨hc, hq⟩ := splitAs?_cons_eq_none_iff.1 hq
    refine splitAs?_cons_eq_none_iff.2 ⟨?_, ih hq⟩
    rw [← Bool.not_eq_true, startsWithAs_iff] at hc ⊢
    rintro ⟨a, s, rest, h, ha, hs⟩
    -- the dot is in the separator, or the separator was there without it
    match qualifier, h with
    | [], h => rcases ha with rfl | rfl <;> cases h
    | [_], h => rcases hs with rfl | rfl <;> cases h
    | [_, _], h => cases h
    | _ :: _ :: _ :: _, h =>
      cases h
      exact hc ⟨a, s, _, rfl, ha, hs⟩

/-- A blank completes a separator only behind ` as`. -/
theorem splitAs?_blank {name : List Char} (h : splitAs? name = none) (he : ¬ EndsInAs name) :
    splitAs? (name ++ [' ']) = none := by
  induction name with
  | nil => rfl
  | cons c name ih =>
    obtain ⟨hc, hn⟩ := splitAs?_cons_eq_none_iff.1 h
    have hend : ¬ EndsInAs name := by
      rw [endsInAs_iff] at he ⊢
      rintro ⟨before, a, s, rfl, has⟩
      exact he ⟨c :: before, a, s, rfl, has⟩
    refine splitAs?_cons_eq_none_iff.2 ⟨?_, ih hn hend⟩
    rw [← Bool.not_eq_true, startsWithAs_iff] at hc ⊢
    rintro ⟨a, s, rest, h, ha, hs⟩
    match name, h with
    | [], h => cases h
    | [_], h => cases h
    | [_, _], h =>
      cases h
      exact he (endsInAs_iff.2 ⟨[], a, s, rfl, ha, hs⟩)
    | _ :: _ :: _ :: _, h =>
      cases h
      exact hc ⟨a, s, _, rfl, ha, hs⟩

/-- A text is split at the separator behind a name that has none, even if a blank follows it. -/
theorem splitAs?_append {name separator : List Char} (shownAs : List Char) (hs : IsSeparator separator)
    (h : splitAs? (name ++ [' ']) = none) : splitAs? (name ++ separator ++ shownAs) = some (name, shownAs) := by
  obtain ⟨a', s', rfl, has⟩ := isSeparator_iff.1 hs
  induction name with
  | nil =>
    have hstarts : startsWithAs (' ' :: a' :: s' :: ' ' :: shownAs) = true :=
      startsWithAs_iff.2 ⟨a', s', shownAs, rfl, has⟩
    exact if_pos hstarts
  | cons c name ih =>
    obtain ⟨hc, hn⟩ := splitAs?_cons_eq_none_iff.1 h
    have hfalse : startsWithAs (c :: (name ++ [' ', a', s', ' '] ++ shownAs)) = false := by
      rw [← Bool.not_eq_true, startsWithAs_iff] at hc ⊢
      rintro ⟨a, s, rest, h, ha, hs⟩
      match name, h with
      | [], h => rcases ha with rfl | rfl <;> cases h
      | [_], h => rcases hs with rfl | rfl <;> cases h
      | [_, _], h =>
        cases h
        exact hc ⟨a, s, [], rfl, ha, hs⟩
      | _ :: _ :: _ :: _, h =>
        cases h
        exact hc ⟨a, s, _, rfl, ha, hs⟩
    show splitAs? (c :: (name ++ [' ', a', s', ' '] ++ shownAs)) = _
    rw [splitAs?, hfalse, ih hn]
    rfl

/-- Wherever a separator starts, the text is split there or before. -/
theorem exists_splitAs?_append {rest : List Char} (h : startsWithAs rest = true) :
    ∀ before : List Char, ∃ name shownAs, splitAs? (before ++ rest) = some (name, shownAs) ∧ name.length ≤ before.length
  | [] => by
    obtain ⟨a, s, rest, rfl, -⟩ := startsWithAs_iff.1 h
    exact ⟨[], _, by rw [List.nil_append, splitAs?, if_pos h], Nat.le_refl 0⟩
  | c :: before => by
    obtain ⟨name, shownAs, hsplit, hlength⟩ := exists_splitAs?_append h before
    rw [List.cons_append, splitAs?]
    split
    · exact ⟨[], _, rfl, Nat.zero_le _⟩
    · exact ⟨c :: name, shownAs, by rw [hsplit]; rfl, Nat.succ_le_succ hlength⟩

/-- A text that is split consists of the two parts and a separator. -/
theorem exists_separator_of_splitAs? {cs : List Char} :
    ∀ {name shownAs}, splitAs? cs = some (name, shownAs) →
      ∃ separator, IsSeparator separator ∧ cs = name ++ separator ++ shownAs := by
  induction cs with
  | nil => exact fun h => nomatch h
  | cons c cs ih =>
    intro name shownAs h
    rw [splitAs?] at h
    split at h
    · rename_i hstarts
      obtain ⟨separator, rest, hcs, hseparator⟩ := startsWithAs_iff_separator.1 hstarts
      obtain ⟨a, s, rfl, -⟩ := isSeparator_iff.1 hseparator
      cases hcs
      cases h
      exact ⟨_, hseparator, rfl⟩
    · obtain ⟨⟨before, after⟩, hsplit, hparts⟩ := Option.map_eq_some_iff.1 h
      cases hparts
      obtain ⟨separator, hseparator, rfl⟩ := ih hsplit
      exact ⟨separator, hseparator, rfl⟩

theorem splitAs?_eq_none_iff {cs : List Char} : splitAs? cs = none ↔ ¬ HasSeparator cs := by
  constructor
  · rintro h ⟨before, separator, after, rfl, hseparator⟩
    have hstarts := startsWithAs_iff_separator.2 ⟨separator, after, rfl, hseparator⟩
    obtain ⟨name, shownAs, hsplit, -⟩ := exists_splitAs?_append hstarts before
    rw [List.append_assoc, hsplit] at h
    cases h
  · intro h
    cases hsplit : splitAs? cs with
    | none => rfl
    | some parts =>
      obtain ⟨separator, hseparator, hcs⟩ := exists_separator_of_splitAs? hsplit
      exact absurd ⟨parts.1, separator, parts.2, hcs, hseparator⟩ h

/-! ## Reading -/

theorem parse_eq_name_iff {name : String} :
    parse name = .name name ↔ splitAs? name.toList = none ∧ trimChars name.toList = name.toList := by
  unfold parse
  cases splitAs? name.toList with
  | some parts => simp
  | none =>
    dsimp only
    rw [Column.name.injEq, ← String.toList_inj, toList_trim]
    exact (and_iff_right rfl).symm

/-- A name and an alias are read behind one another, if no separator is in the name with a blank behind it. -/
theorem parse_append {name separator shownAs : String} (hn : trim name = name) (ha : trim shownAs = shownAs)
    (hs : IsSeparator separator.toList) (h : splitAs? (name.toList ++ [' ']) = none) :
    parse (name ++ separator ++ shownAs) = .aliased name shownAs := by
  have hboth : splitAs? (name ++ separator ++ shownAs).toList = some (name.toList, shownAs.toList) := by
    rw [String.toList_append, String.toList_append]
    exact splitAs?_append shownAs.toList hs h
  unfold parse
  rw [hboth]
  dsimp only
  rw [← toList_trim, ← toList_trim, hn, ha, String.ofList_toList, String.ofList_toList]

/-- **A name and its alias are read as they were written, unless the name ends in ` as`.** -/
theorem parse_as_iff {name shownAs : String} (hn : parse name = .name name) (ha : trim shownAs = shownAs) :
    parse (name ++ " as " ++ shownAs) = .aliased name shownAs ↔ ¬ EndsInAs name.toList := by
  obtain ⟨hsplit, htrim⟩ := parse_eq_name_iff.1 hn
  constructor
  · intro h he
    obtain ⟨before, a, s, hname, has⟩ := endsInAs_iff.1 he
    -- the blank of ` as ` behind the name completes a separator, so that the name is cut
    obtain ⟨found, rest, hfound, hlength⟩ := exists_splitAs?_append
      (startsWithAs_iff.2 ⟨a, s, "as ".toList ++ shownAs.toList, rfl, has⟩) before
    have htext : (name ++ " as " ++ shownAs).toList = before ++ ' ' :: a :: s :: ' ' :: ("as ".toList ++ shownAs.toList) := by
      rw [String.toList_append, String.toList_append, hname]
      simp
    unfold parse at h
    rw [htext, hfound] at h
    injection h with hcut _
    have hle := length_trimChars_le found
    rw [← String.toList_inj, String.toList_ofList, hname] at hcut
    rw [hcut, List.length_append] at hle
    simp only [List.length_cons, List.length_nil] at hle
    omega
  · intro he
    have hname : trim name = name := by rw [trim, htrim, String.ofList_toList]
    exact parse_append hname ha rfl (splitAs?_blank hsplit he)

/-- A qualified name reads as a name if its two parts do. -/
theorem parse_dot {qualifier name : String} (hq : parse qualifier = .name qualifier) (hn : parse name = .name name) :
    parse (qualifier ++ "." ++ name) = .name (qualifier ++ "." ++ name) := by
  obtain ⟨hqs, hqt⟩ := parse_eq_name_iff.1 hq
  obtain ⟨hns, hnt⟩ := parse_eq_name_iff.1 hn
  rw [parse_eq_name_iff, String.toList_append, String.toList_append]
  refine ⟨?_, trimChars_append (trimChars_append hqt (by decide)) hnt⟩
  rw [List.append_assoc]
  exact splitAs?_dot hqs hns

/-- Behind a dot a name ends in ` as` only if it does so alone. -/
theorem endsInAs_dot {qualifier name : List Char} (h : EndsInAs (qualifier ++ '.' :: name)) : EndsInAs name := by
  obtain ⟨before, a, s, h, ha, hs⟩ := endsInAs_iff.1 h
  rcases List.append_eq_append_iff.1 h with ⟨t, -, hname⟩ | ⟨t, -, hend⟩
  · cases t with
    | nil => cases hname
    | cons c t =>
      cases hname
      exact endsInAs_iff.2 ⟨t, a, s, rfl, ha, hs⟩
  · have hdot : '.' ∈ [' ', a, s] := hend ▸ List.mem_append_right t List.mem_cons_self
    rcases ha with rfl | rfl <;> rcases hs with rfl | rfl <;> exact absurd hdot (by decide)

end Column

end SqlMapper
