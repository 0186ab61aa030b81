import SqlMapper.Sql.Token
/-!
# Lexeme — SQL text as a database reads it

A reader goes over the text from the left.  It takes a quoted segment off as a whole, where a closing quote that stands
twice is one character of the segment, and it takes the mark of a placeholder off together with the number behind it.
Every other character stands for itself.  The reader knows nothing of tokens: that it finds the values of a token list
where layout put them (`lex_layout`) is a theorem about legible lists, in which no fixed word holds a quote or a mark
and nothing runs on from a segment or from a number.
-/
namespace SqlMapper

inductive Lexeme where
  | char (c : Char)
  /-- A quoted segment, its doubled quotes read as one. -/
  | quoted (segment : List Char)
  /-- The mark of a placeholder, and the number behind it if there is one. -/
  | placeholder (mark : List Char) (number : Option Nat)
  deriving DecidableEq, Repr

namespace Lexeme

/-! ## Reading -/

/-- What stands before the first closing quote that is not doubled, and what comes after that quote. -/
def readQuoted (close : Char) : List Char → Option (List Char × List Char)
  | [] => none
  | [c] => if c = close then some ([], []) else none
  | c :: c' :: rest =>
    if c ≠ close then (readQuoted close (c' :: rest)).map fun (segment, after) => (c :: segment, after)
    else if c' = close then (readQuoted close rest).map fun (segment, after) => (close :: segment, after)
    else some ([], c' :: rest)

/-- The mark of a placeholder of any dialect. -/
def readMark : List Char → Option (List Char × List Char)
  | '?' :: rest => some (['?'], rest)
  | '$' :: rest => some (['$'], rest)
  | '@' :: 'P' :: rest => some (['@', 'P'], rest)
  | _ => none

def readNumber (text : List Char) : Option Nat × List Char :=
  match text.takeWhile Char.isDigit with
  | [] => (none, text)
  | ds => (some (Nat.ofDigitChars 10 ds 0), text.dropWhile Char.isDigit)

theorem length_readQuoted {close : Char} {text segment after : List Char}
    (h : readQuoted close text = some (segment, after)) : after.length < text.length := by
  fun_induction readQuoted close text generalizing segment after with
  | case1 => cases h
  | case2 => cases h; simp
  | case3 => cases h
  | case4 c c' rest hc ih =>
    obtain ⟨⟨s, a⟩, hr, he⟩ := Option.map_eq_some_iff.1 h
    cases he
    have := ih hr
    simp only [List.length_cons] at this ⊢
    omega
  | case5 _ rest _ ih =>
    obtain ⟨⟨s, a⟩, hr, he⟩ := Option.map_eq_some_iff.1 h
    cases he
    have := ih hr
    simp only [List.length_cons]
    omega
  | case6 c c' rest hc => cases h; simp

theorem length_readMark {text mark after : List Char} (h : readMark text = some (mark, after)) :
    after.length < text.length := by
  unfold readMark at h
  split at h <;> cases h <;> simp only [List.length_cons] <;> omega

theorem length_readNumber (text : List Char) : (readNumber text).2.length ≤ text.length := by
  unfold readNumber
  split
  · exact Nat.le_refl _
  · exact (List.dropWhile_suffix _).length_le

/-- The lexemes of a text, by the quotes of a dialect. -/
def lex (d : Dialect) : List Char → List Lexeme
  | [] => []
  | c :: rest =>
    if c = d.openQuote then
      match _h : readQuoted d.closeQuote rest with
      | some (segment, after) => quoted segment :: lex d after
      | none => char c :: lex d rest
    else
      match _h : readMark (c :: rest) with
      | some (mark, after) => placeholder mark (readNumber after).1 :: lex d (readNumber after).2
      | none => char c :: lex d rest
termination_by text => text.length
decreasing_by
  · have := length_readQuoted _h
    simp only [List.length_cons]
    omega
  · simp
  · have := length_readMark _h
    have := length_readNumber after
    omega
  · simp

theorem lex_of_readQuoted {d : Dialect} {rest segment after : List Char}
    (h : readQuoted d.closeQuote rest = some (segment, after)) :
    lex d (d.openQuote :: rest) = quoted segment :: lex d after := by
  rw [lex, if_pos rfl]
  split
  · rename_i he
    cases h.symm.trans he
    rfl
  · rename_i he
    cases h.symm.trans he

theorem lex_of_readMark {d : Dialect} {c : Char} {rest mark after : List Char} (hc : c ≠ d.openQuote)
    (h : readMark (c :: rest) = some (mark, after)) :
    lex d (c :: rest) = placeholder mark (readNumber after).1 :: lex d (readNumber after).2 := by
  rw [lex, if_neg hc]
  split
  · rename_i he
    cases h.symm.trans he
    rfl
  · rename_i he
    cases h.symm.trans he

theorem lex_of_char {d : Dialect} {c : Char} {rest : List Char} (hc : c ≠ d.openQuote)
    (h : readMark (c :: rest) = none) : lex d (c :: rest) = char c :: lex d rest := by
  rw [lex, if_neg hc]
  split
  · rename_i he
    cases h.symm.trans he
  · rfl

/-! ## Writing -/

def text (d : Dialect) : Lexeme → List Char
  | char c => [c]
  | quoted segment => Token.quoted d.openQuote d.closeQuote segment
  | placeholder mark number => mark ++ (number.map digits).getD []

/-- Counts a numbered placeholder on. -/
def shift (k : Nat) : Lexeme → Lexeme
  | placeholder mark number => placeholder mark (number.map (· + k))
  | l => l

/-- The placeholder by which a dialect means the value at a position, counted from one. -/
def atPosition (d : Dialect) (position : Nat) : Lexeme :=
  match d with
  | .generic | .mysql => placeholder ['?'] none
  | .postgresql => placeholder ['$'] (some position)
  | .sqlite => placeholder ['?'] (some position)
  | .sqlServer => placeholder ['@', 'P'] (some position)

def isPlaceholder : Lexeme → Bool
  | placeholder .. => true
  | _ => false

def quoted? : Lexeme → Option (List Char)
  | quoted segment => some segment
  | _ => none

@[simp] theorem text_atPosition (d : Dialect) (n : Nat) : (atPosition d n).text d = Token.placeholder d n := by
  cases d <;> rfl

theorem shift_atPosition (d : Dialect) (n k : Nat) : (atPosition d n).shift k = atPosition d (n + k) := by
  cases d <;> rfl

@[simp] theorem isPlaceholder_atPosition (d : Dialect) (n : Nat) : (atPosition d n).isPlaceholder = true := by
  cases d <;> rfl

@[simp] theorem quoted?_atPosition (d : Dialect) (n : Nat) : (atPosition d n).quoted? = none := by cases d <;> rfl

/-! ## Reading what was written -/

/-- A character that starts neither a quoted segment nor a placeholder, in any dialect. -/
def isPlain (c : Char) : Bool := c ∉ ['"', '`', '[', '?', '$', '@']

theorem ne_openQuote_of_isPlain {c : Char} (d : Dialect) (h : isPlain c = true) : c ≠ d.openQuote := by
  rintro rfl
  cases d <;> exact absurd h (by decide)

theorem readMark_of_isPlain {c : Char} (rest : List Char) (h : isPlain c = true) : readMark (c :: rest) = none := by
  unfold readMark
  split
  · rename_i he; cases he; exact absurd h (by decide)
  · rename_i he; cases he; exact absurd h (by decide)
  · rename_i he; cases he; exact absurd h (by decide)
  · rfl

theorem isPlain_of_isDigit {c : Char} (h : c.isDigit = true) : isPlain c = true := by
  simp only [isPlain, decide_eq_true_eq]
  intro hc
  simp only [List.mem_cons, List.not_mem_nil, or_false] at hc
  rcases hc with rfl | rfl | rfl | rfl | rfl | rfl <;> exact absurd h (by decide)

theorem lex_plain (d : Dialect) (rest : List Char) :
    ∀ cs : List Char, cs.all isPlain = true → lex d (cs ++ rest) = cs.map char ++ lex d rest
  | [], _ => rfl
  | c :: cs, h => by
    rw [List.all_cons, Bool.and_eq_true] at h
    rw [List.cons_append, lex_of_char (ne_openQuote_of_isPlain d h.1) (readMark_of_isPlain _ h.1),
      lex_plain d rest cs h.2]
    rfl

/-- The text does not go on with a character of the kind. -/
def Ends (p : Char → Prop) (text : List Char) : Prop := ∀ c rest, text = c :: rest → ¬ p c

theorem readQuoted_append (close : Char) (after : List Char) (h : Ends (· = close) after) :
    ∀ segment : List Char,
      readQuoted close (segment.flatMap (fun c => if c = close then [c, c] else [c]) ++ close :: after) =
        some (segment, after)
  | [] => by
    cases after with
    | nil => simp [readQuoted]
    | cons c rest => simp [readQuoted, h c rest rfl]
  | c :: segment => by
    have ih := readQuoted_append close after h segment
    by_cases hc : c = close
    · subst hc
      simp [readQuoted, ih]
    · -- what follows `c` is not empty, so the reader sees two characters
      rw [List.flatMap_cons, if_neg hc, List.append_assoc, List.singleton_append]
      cases hs : segment.flatMap (fun c => if c = close then [c, c] else [c]) ++ close :: after with
      | nil => simp at hs
      | cons c' rest =>
        rw [hs] at ih
        rw [readQuoted, if_pos hc, ih]
        rfl

/-- A quoted segment is read back, whatever it holds. -/
theorem lex_quoted (d : Dialect) (segment after : List Char) (h : Ends (· = d.closeQuote) after) :
    lex d (Token.quoted d.openQuote d.closeQuote segment ++ after) = quoted segment :: lex d after := by
  rw [Token.quoted, List.cons_append, List.cons_append, List.append_assoc, List.singleton_append]
  exact lex_of_readQuoted (readQuoted_append d.closeQuote after h segment)

theorem readNumber_digits (n : Nat) (after : List Char) (h : Ends (Char.isDigit · = true) after) :
    readNumber (digits n ++ after) = (some n, after) := by
  have hd : ∀ c ∈ digits n, c.isDigit = true := fun c hc => Nat.isDigit_of_mem_toDigits (by decide) (by decide) hc
  have ht : after.takeWhile Char.isDigit = [] := by
    cases after with
    | nil => rfl
    | cons c rest => simp [h c rest rfl]
  have hw : after.dropWhile Char.isDigit = after := by
    cases after with
    | nil => rfl
    | cons c rest => simp [h c rest rfl]
  unfold readNumber
  rw [List.takeWhile_append_of_pos hd, ht, List.append_nil]
  split
  · rename_i he
    exact absurd he Nat.toDigits_ne_nil
  · rw [List.dropWhile_append_of_pos hd, hw, digits, Nat.ofDigitChars_ten_toDigits]

theorem readNumber_of_ends (after : List Char) (h : Ends (Char.isDigit · = true) after) :
    readNumber after = (none, after) := by
  cases after with
  | nil => rfl
  | cons c rest => simp [readNumber, h c rest rfl]

theorem lex_placeholder (d : Dialect) (n : Nat) (after : List Char) (h : Ends (Char.isDigit · = true) after) :
    lex d (Token.placeholder d n ++ after) = atPosition d n :: lex d after := by
  have hn := readNumber_digits n after h
  have h0 := readNumber_of_ends after h
  cases d with
  | generic | mysql =>
    rw [Token.placeholder, List.singleton_append, lex_of_readMark (by decide) rfl, h0]
    rfl
  | postgresql | sqlite | sqlServer =>
    simp only [Token.placeholder, List.cons_append]
    rw [lex_of_readMark (by decide) rfl, hn]
    rfl

end Lexeme

end SqlMapper
