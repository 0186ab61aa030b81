import SqlMapper.Proofs.Query.Normal
import SqlMapper.Proofs.Sql.Identifier
import SqlMapper.Proofs.Sql.Sign
/-!
# Unambiguous — lists of predicates that are written alike

A list of predicates can be told from its text and its bindings, up to what is not written.  Every part of it ends where
the signs themselves say so: a name where no dot follows, a test by its keyword, since no keyword begins another one, a
list of values or predicates at its closing parenthesis.  So two lists that are written alike are taken apart in step,
and each part of the one is a part of the other (`Filter.rendered_eq_iff`).
-/
namespace SqlMapper

open Token (signs word bound separated)
open Sign (chars)

/-! ## Signs with a separator between them -/

namespace Sign

def listed (separator : String) : List Sign → List Sign
  | [] => []
  | [s] => [s]
  | s :: next :: rest => s :: (chars separator ++ listed separator (next :: rest))

/-- Where the separator does not follow, the list has ended. -/
theorem listed_append_inj {separator : String} {c : Char} {cs : List Char} (hs : separator.toList = c :: cs) :
    ∀ {items items' rest rest' : List Sign}, items ≠ [] → items' ≠ [] → rest.head? ≠ some (char c) →
      rest'.head? ≠ some (char c) → listed separator items ++ rest = listed separator items' ++ rest' →
        items = items' ∧ rest = rest'
  | [], _, _, _, hi, _, _, _, _ => absurd rfl hi
  | _, [], _, _, _, hi', _, _, _ => absurd rfl hi'
  | [s], [s'], rest, rest', _, _, _, _, h => by
    obtain ⟨rfl, rfl⟩ := List.cons.inj h
    exact ⟨rfl, rfl⟩
  | [s], s' :: next' :: items', rest, rest', _, _, hr, _, h => by
    have hrest : rest = chars separator ++ (listed separator (next' :: items') ++ rest') := by
      rw [← List.append_assoc]
      exact (List.cons.inj h).2
    rw [hrest, char_of_chars_append hs] at hr
    exact absurd rfl hr
  | s :: next :: items, [s'], rest, rest', _, _, _, hr', h => by
    have hrest : chars separator ++ (listed separator (next :: items) ++ rest) = rest' := by
      rw [← List.append_assoc]
      exact (List.cons.inj h).2
    rw [← hrest, char_of_chars_append hs] at hr'
    exact absurd rfl hr'
  | s :: next :: items, s' :: next' :: items', rest, rest', _, _, hr, hr', h => by
    obtain ⟨rfl, -⟩ := List.cons.inj h
    have hmore : chars separator ++ (listed separator (next :: items) ++ rest) =
        chars separator ++ (listed separator (next' :: items') ++ rest') := by
      rw [← List.append_assoc, ← List.append_assoc]
      exact (List.cons.inj h).2
    obtain ⟨hitems, rfl⟩ := listed_append_inj hs (List.cons_ne_nil _ _) (List.cons_ne_nil _ _) hr hr'
      (List.append_cancel_left hmore)
    exact ⟨congrArg (s :: ·) hitems, rfl⟩

/-- A segment of a name; the wildcard is written bare. -/
def ofSegment (text : String) : Sign := if text = "*" then char '*' else segment text.toList

theorem ofSegment_injective : Function.Injective ofSegment := by
  intro s s' h
  unfold ofSegment at h
  split at h <;> split at h
  · rename_i hs hs'
    rw [hs, hs']
  · cases h
  · cases h
  · exact String.toList_inj.1 (Sign.segment.inj h)

end Sign

variable {d : Dialect}

theorem Token.sign_segment (s : String) : Token.sign d (Token.segment s) = [.ofSegment s] := by
  unfold Token.segment Sign.ofSegment
  split <;> rfl

theorem Token.signs_separated {α : Type} {separator : String} {token : α → Token} {sign : α → Sign}
    (h : ∀ a, Token.sign d (token a) = [sign a]) :
    ∀ as : List α, signs d (separated separator (as.map fun a => [token a])) = Sign.listed separator (as.map sign)
  | [] => rfl
  | [a] => by
    rw [List.map_cons, List.map_nil, Token.separated, List.intercalate_singleton, signs_cons, h, signs_nil]
    rfl
  | a :: b :: as => by
    have ih : signs d (separated separator ([token b] :: as.map fun a => [token a])) =
        Sign.listed separator (sign b :: as.map sign) := signs_separated h (b :: as)
    rw [List.map_cons, List.map_cons, Token.separated_cons_cons, signs_append, signs_cons, signs_cons, h, ih]
    rfl

/-! ## Columns -/

def Sign.name (name : String) : List Sign := listed "." ((splitAtChar '.' name).map ofSegment)

theorem Token.signs_name (s : String) : signs d (Token.name s) = Sign.name s :=
  Token.signs_separated Token.sign_segment (splitAtChar '.' s)

theorem Sign.name_append_inj {name name' : String} {rest rest' : List Sign} (h : rest.head? ≠ some (char '.'))
    (h' : rest'.head? ≠ some (char '.')) (he : Sign.name name ++ rest = Sign.name name' ++ rest') :
    name = name' ∧ rest = rest' := by
  have hne : ∀ n : String, (splitAtChar '.' n).map ofSegment ≠ [] := fun n =>
    mt List.map_eq_nil_iff.1 (splitAtChar_ne_nil '.' n)
  have hdot : ".".toList = ['.'] := by decide
  obtain ⟨hparts, rfl⟩ := listed_append_inj hdot (hne name) (hne name') h h' he
  exact ⟨splitAtChar_injective '.' (List.map_injective_iff.2 ofSegment_injective hparts), rfl⟩

/-! ## Tests -/

/-- What is asked of a column. -/
inductive Test where
  | null (negated : Bool)
  | compare (op : Comparison)
  | among (negated : Bool)
  | between (negated : Bool)
  deriving DecidableEq

namespace Test

def keyword : Test → String
  | null negated => if negated then " IS NOT NULL" else " IS NULL"
  | compare op => " " ++ op.symbol ++ " "
  | among negated => if negated then " NOT IN (" else " IN ("
  | between negated => if negated then " NOT BETWEEN " else " BETWEEN "

def all : List Test :=
  [false, true].flatMap (fun negated => [null negated, among negated, between negated]) ++
    [.eq, .ne, .lt, .le, .gt, .ge, .like, .notLike].map compare

theorem mem_all (t : Test) : t ∈ all := by
  cases t with
  | compare op => cases op <;> decide
  | null negated | among negated | between negated => cases negated <;> decide

/-- No keyword begins another one. -/
theorem eq_of_isPrefix (t t' : Test) (h : t.keyword.toList <+: t'.keyword.toList) : t = t' := by
  have hall : ∀ t ∈ all, ∀ t' ∈ all, t.keyword.toList <+: t'.keyword.toList → t = t' := by decide
  exact hall t t.mem_all t' t'.mem_all h

theorem keyword_append_inj {t t' : Test} {rest rest' : List Sign}
    (h : chars t.keyword ++ rest = chars t'.keyword ++ rest') : t = t' ∧ rest = rest' := by
  have ht : t = t' := by
    rcases Sign.isPrefix_of_chars_append h with hp | hp
    · exact eq_of_isPrefix t t' hp
    · exact (eq_of_isPrefix t' t hp).symm
  subst ht
  exact ⟨rfl, List.append_cancel_left h⟩

/-- A keyword is not taken for the start of an alias. -/
theorem keyword_append_ne (t : Test) (rest rest' : List Sign) : chars t.keyword ++ rest ≠ chars " AS " ++ rest' := by
  have hall : ∀ t ∈ all, ¬ t.keyword.toList <+: " AS ".toList ∧ ¬ " AS ".toList <+: t.keyword.toList := by decide
  intro h
  rcases Sign.isPrefix_of_chars_append h with hp | hp
  · exact (hall t t.mem_all).1 hp
  · exact (hall t t.mem_all).2 hp

theorem head?_keyword_append (t : Test) (rest : List Sign) : (chars t.keyword ++ rest).head? = some (.char ' ') := by
  cases t with
  | compare op => cases op <;> rfl
  | null negated | among negated | between negated => cases negated <;> rfl

end Test

theorem Column.signs_name_append (n : String) (rest : List Sign) :
    signs d (Column.name n).tokens ++ rest = Sign.name n ++ rest := by
  rw [Column.tokens, Token.signs_name]

theorem Column.signs_aliased_append (n a : String) (rest : List Sign) :
    signs d (Column.aliased n a).tokens ++ rest = Sign.name n ++ (chars " AS " ++ (Sign.ofSegment a :: rest)) := by
  rw [Column.tokens, Token.signs_append, Token.signs_name, Token.signs_cons, Token.signs_cons, Token.sign_segment,
    List.append_assoc, List.append_assoc]
  rfl

/-- A column is told from what is written before the keyword of a test. -/
theorem Column.signs_append_inj {column column' : Column} (hr : column.isRaw = false) (hr' : column'.isRaw = false)
    {t t' : Test} {rest rest' : List Sign}
    (h : signs d column.tokens ++ (chars t.keyword ++ rest) = signs d column'.tokens ++ (chars t'.keyword ++ rest')) :
    column = column' ∧ t = t' ∧ rest = rest' := by
  have htest : ∀ (t : Test) (rest : List Sign), (chars t.keyword ++ rest).head? ≠ some (.char '.') := by
    intro t rest
    rw [t.head?_keyword_append]
    decide
  have halias : ∀ rest : List Sign, (chars " AS " ++ rest).head? ≠ some (.char '.') := by
    intro rest hd
    cases hd
  cases column with
  | raw sql => cases hr
  | name n =>
    rw [Column.signs_name_append] at h
    cases column' with
    | raw sql => cases hr'
    | name n' =>
      rw [Column.signs_name_append] at h
      obtain ⟨rfl, hafter⟩ := Sign.name_append_inj (htest t rest) (htest t' rest') h
      exact ⟨rfl, Test.keyword_append_inj hafter⟩
    | aliased n' a' =>
      rw [Column.signs_aliased_append] at h
      obtain ⟨-, hafter⟩ := Sign.name_append_inj (htest t rest) (halias _) h
      exact absurd hafter (t.keyword_append_ne _ _)
  | aliased n a =>
    rw [Column.signs_aliased_append] at h
    cases column' with
    | raw sql => cases hr'
    | name n' =>
      rw [Column.signs_name_append] at h
      obtain ⟨-, hafter⟩ := Sign.name_append_inj (halias _) (htest t' rest') h
      exact absurd hafter.symm (t'.keyword_append_ne _ _)
    | aliased n' a' =>
      rw [Column.signs_aliased_append] at h
      obtain ⟨rfl, hafter⟩ := Sign.name_append_inj (halias _) (halias _) h
      obtain ⟨ha, hkeywords⟩ := List.cons.inj (List.append_cancel_left hafter)
      obtain rfl := Sign.ofSegment_injective ha
      exact ⟨rfl, Test.keyword_append_inj hkeywords⟩

/-! ## Conditions -/

/-- A test with the values that it compares with. -/
inductive Condition where
  | null (negated : Bool)
  | compare (op : Comparison) (v : Value)
  | among (first : Value) (others : List Value) (negated : Bool)
  | between (low high : Value) (negated : Bool)

namespace Condition

def test : Condition → Test
  | null negated => .null negated
  | compare op _ => .compare op
  | among _ _ negated => .among negated
  | between _ _ negated => .between negated

/-- What is written after the keyword. -/
def arguments : Condition → List Sign
  | null _ => []
  | compare _ v => [.value v]
  | among first others _ => Sign.listed ", " ((first :: others).map .value) ++ chars ")"
  | between low high _ => .value low :: (chars " AND " ++ [.value high])

def predicate (column : Column) : Condition → Predicate
  | null negated => .isNull column negated
  | compare op v => .compare column op (.value v)
  | among first others negated => .isIn column ((first :: others).map .value) negated
  | between low high negated => .between column (.value low) (.value high) negated

theorem arguments_append_inj {c c' : Condition} (ht : c.test = c'.test) {rest rest' : List Sign}
    (h : c.arguments ++ rest = c'.arguments ++ rest') : c = c' ∧ rest = rest' := by
  cases c with
  | null negated =>
    cases c' <;> cases ht
    exact ⟨rfl, h⟩
  | compare op v =>
    cases c' <;> cases ht
    rename_i v'
    obtain ⟨rfl, rfl⟩ : v = v' ∧ rest = rest' := by simpa [arguments] using h
    exact ⟨rfl, rfl⟩
  | among first others negated =>
    cases c' <;> cases ht
    rename_i first' others'
    rw [arguments, arguments, List.append_assoc, List.append_assoc] at h
    have hclose : ∀ rest : List Sign, (chars ")" ++ rest).head? ≠ some (.char ',') := by
      intro rest hd
      cases hd
    have hcomma : ", ".toList = [',', ' '] := by decide
    obtain ⟨hvalues, hrest⟩ := Sign.listed_append_inj hcomma (List.cons_ne_nil _ _) (List.cons_ne_nil _ _)
      (hclose rest) (hclose rest') h
    obtain ⟨rfl, rfl⟩ := List.cons.inj (List.map_injective_iff.2 Sign.value_injective hvalues)
    exact ⟨rfl, List.append_cancel_left hrest⟩
  | between low high negated =>
    cases c' <;> cases ht
    rename_i low' high'
    obtain ⟨rfl, rfl, rfl⟩ : low = low' ∧ high = high' ∧ rest = rest' := by simpa [arguments] using h
    exact ⟨rfl, rfl⟩

end Condition

/-- A predicate that is not a group, as it is written. -/
inductive Clause where
  /-- A membership in no values, which has no column. -/
  | always (negated : Bool)
  | asks (column : Column) (c : Condition)

namespace Clause

def predicate : Clause → Predicate
  | always negated => .isIn (.name "") [] negated
  | asks column c => c.predicate column

def signs (d : Dialect) : Clause → List Sign
  | always negated => chars (if negated then "1 = 1" else "0 = 1")
  | asks column c => Token.signs d column.tokens ++ (chars c.test.keyword ++ c.arguments)

def rawFree : Clause → Bool
  | always _ => true
  | asks column _ => !column.isRaw

end Clause

/-- A name starts with a segment. -/
theorem Sign.exists_name_cons (name : String) : ∃ segment rest, Sign.name name = ofSegment segment :: rest := by
  obtain ⟨segment, segments, hparts⟩ := List.exists_cons_of_ne_nil (splitAtChar_ne_nil '.' name)
  rw [Sign.name, hparts]
  cases segments with
  | nil => exact ⟨segment, [], rfl⟩
  | cons next segments => exact ⟨segment, _, rfl⟩

theorem Column.exists_signs_cons {column : Column} (h : column.isRaw = false) :
    ∃ segment rest, signs d column.tokens = Sign.ofSegment segment :: rest := by
  cases column with
  | raw sql => cases h
  | name n =>
    obtain ⟨segment, rest, hn⟩ := Sign.exists_name_cons n
    exact ⟨segment, rest, by rw [Column.tokens, Token.signs_name, hn]⟩
  | aliased n a =>
    obtain ⟨segment, rest, hn⟩ := Sign.exists_name_cons n
    exact ⟨segment, _, by rw [Column.tokens, Token.signs_append, Token.signs_name, hn]; rfl⟩

theorem Sign.ofSegment_ne {c : Char} (h : c ≠ '*') (segment : String) : ofSegment segment ≠ char c := by
  unfold ofSegment
  split
  · intro hc
    exact h (Sign.char.inj hc).symm
  · intro hc
    cases hc

namespace Clause

/-- A clause starts with a digit or with its column. -/
theorem exists_signs_cons {c : Clause} (h : c.rawFree = true) :
    ∃ first rest, c.signs d = first :: rest ∧ first ≠ .char '(' ∧ first ≠ .char ')' := by
  cases c with
  | always negated => cases negated <;> exact ⟨_, _, rfl, by decide, by decide⟩
  | asks column c =>
    obtain ⟨segment, rest, hc⟩ := Column.exists_signs_cons (d := d) (Bool.not_eq_true' _ ▸ h)
    exact ⟨_, _, by rw [signs, hc, List.cons_append], Sign.ofSegment_ne (by decide) segment,
      Sign.ofSegment_ne (by decide) segment⟩

theorem always_append_ne {negated : Bool} {column : Column} (h : column.isRaw = false) {c : Condition}
    {rest rest' : List Sign} : (always negated).signs d ++ rest ≠ (asks column c).signs d ++ rest' := by
  obtain ⟨segment, more, hs⟩ := Column.exists_signs_cons (d := d) h
  intro he
  rw [signs, signs, hs] at he
  cases negated with
  | false => exact Sign.ofSegment_ne (by decide) segment (List.cons.inj he).1.symm
  | true => exact Sign.ofSegment_ne (by decide) segment (List.cons.inj he).1.symm

/-- A clause is told from what is written, whatever follows it. -/
theorem signs_append_inj {c c' : Clause} (hc : c.rawFree = true) (hc' : c'.rawFree = true) {rest rest' : List Sign}
    (h : c.signs d ++ rest = c'.signs d ++ rest') : c = c' ∧ rest = rest' := by
  cases c with
  | always negated =>
    cases c' with
    | always negated' =>
      have hn : negated = negated' := by
        cases negated <;> cases negated' <;> first | rfl | cases h
      subst hn
      exact ⟨rfl, List.append_cancel_left h⟩
    | asks column' c' => exact absurd h (always_append_ne (Bool.not_eq_true' _ ▸ hc'))
  | asks column c =>
    cases c' with
    | always negated' => exact absurd h.symm (always_append_ne (Bool.not_eq_true' _ ▸ hc))
    | asks column' c' =>
      simp only [signs, List.append_assoc] at h
      obtain ⟨rfl, ht, harguments⟩ := Column.signs_append_inj (Bool.not_eq_true' _ ▸ hc) (Bool.not_eq_true' _ ▸ hc') h
      obtain ⟨rfl, rfl⟩ := Condition.arguments_append_inj ht harguments
      exact ⟨rfl, rfl⟩

/-- The clause says what the predicate is up to what is not written, and how it is written. -/
structure Writes (d : Dialect) (c : Clause) (p : Predicate) : Prop where
  rawFree : c.rawFree = true
  normal : p.normal d = c.predicate
  signs : Token.signs d (p.tokens d) = c.signs d

end Clause

/-! ## Predicates as clauses -/

theorem signs_exprList (vs : List Value) :
    signs d (exprList (vs.map .value)) = Sign.listed ", " ((vs.map (Token.binding d)).map .value) := by
  rw [exprList, List.map_map, List.map_map]
  exact Token.signs_separated (fun _ => rfl) vs

theorem Predicate.exists_clause_isNull {column : Column} (h : column.isRaw = false) (negated : Bool) :
    ∃ c : Clause, c.Writes d (.isNull column negated) := by
  refine ⟨.asks column (.null negated), by simpa [Clause.rawFree] using h, rfl, ?_⟩
  rw [Predicate.tokens, Token.signs_append]
  rfl

theorem Predicate.exists_clause_compare {column : Column} (h : column.isRaw = false) (op : Comparison) (v : Value) :
    ∃ c : Clause, c.Writes d (.compare column op (.value v)) := by
  by_cases hasks : v = .null ∧ (op = .eq ∨ op = .ne)
  · -- The comparison is written as a test for null.
    obtain ⟨rfl, rfl | rfl⟩ := hasks
    · obtain ⟨c, hraw, hnormal, hsigns⟩ := Predicate.exists_clause_isNull (d := d) h false
      exact ⟨c, hraw, hnormal, hsigns⟩
    · obtain ⟨c, hraw, hnormal, hsigns⟩ := Predicate.exists_clause_isNull (d := d) h true
      exact ⟨c, hraw, hnormal, hsigns⟩
  · refine ⟨.asks column (.compare op (Token.binding d v)), by simpa [Clause.rawFree] using h,
      Predicate.normal_compare hasks, ?_⟩
    rw [Predicate.tokens, comparisonTokens_value hasks, Token.signs_append]
    rfl

theorem Predicate.exists_clause_isIn {column : Column} (h : column.isRaw = false) (vs : List Value) (negated : Bool) :
    ∃ c : Clause, c.Writes d (.isIn column (vs.map .value) negated) := by
  cases vs with
  | nil =>
    refine ⟨.always negated, rfl, rfl, ?_⟩
    cases negated <;> rfl
  | cons v vs =>
    have hne : (v :: vs).map Expr.value ≠ [] := List.cons_ne_nil _ _
    have hkeyword : ∀ rest, signs d (word (if negated then " NOT IN (" else " IN (") :: rest) =
        chars (Test.keyword (.among negated)) ++ signs d rest := fun _ => rfl
    refine ⟨.asks column (.among (Token.binding d v) (vs.map (Token.binding d)) negated),
      by simpa [Clause.rawFree] using h, ?_, ?_⟩
    · rw [Predicate.normal_isIn hne, List.map_map]
      simp only [Clause.predicate, Condition.predicate, List.map_cons, List.map_map]
      rfl
    · rw [Predicate.tokens, membershipTokens, if_neg hne, Token.signs_append, Token.signs_append, hkeyword,
        signs_exprList, List.append_assoc, List.append_assoc]
      rfl

theorem Predicate.exists_clause_between {column : Column} (h : column.isRaw = false) (low high : Value) (negated : Bool) :
    ∃ c : Clause, c.Writes d (.between column (.value low) (.value high) negated) := by
  refine ⟨.asks column (.between (Token.binding d low) (Token.binding d high) negated),
    by simpa [Clause.rawFree] using h, rfl, ?_⟩
  rw [Predicate.tokens, Token.signs_append]
  rfl

/-- A predicate without raw SQL is a clause, unless it is a group. -/
theorem Predicate.exists_clause (d : Dialect) :
    ∀ p : Predicate, p.isSimple = true → (∃ filters, p = .group filters) ∨ ∃ c : Clause, c.Writes d p
  | .group filters, _ => .inl ⟨filters, rfl⟩
  | .isNull column negated, h => by
    rw [Predicate.isSimple, Bool.not_eq_true'] at h
    exact .inr (Predicate.exists_clause_isNull h negated)
  | .compare column op value, h => by
    simp only [Predicate.isSimple, Bool.and_eq_true, Bool.not_eq_true'] at h
    obtain ⟨v, rfl⟩ := Expr.exists_value h.2
    exact .inr (Predicate.exists_clause_compare h.1 op v)
  | .isIn column values negated, h => by
    rw [Predicate.isSimple, Bool.and_eq_true, Bool.not_eq_true'] at h
    obtain ⟨vs, rfl⟩ := Expr.exists_values h.2
    exact .inr (Predicate.exists_clause_isIn h.1 vs negated)
  | .between column low high negated, h => by
    simp only [Predicate.isSimple, Bool.and_eq_true, Bool.not_eq_true'] at h
    obtain ⟨l, rfl⟩ := Expr.exists_value h.1.2
    obtain ⟨u, rfl⟩ := Expr.exists_value h.2
    exact .inr (Predicate.exists_clause_between h.1.1 l u negated)
  | .hasRow .., h => by cases h
  | .raw _, h => by cases h

/-! ## Lists of predicates -/

theorem Token.signs_group_append (filters : List Filter) (rest : List Sign) :
    signs d ((Predicate.group filters).tokens d) ++ rest =
      chars "(" ++ (signs d (Filter.listTokens d filters) ++ (chars ")" ++ rest)) := by
  rw [Predicate.tokens, List.cons_append, Token.signs_cons, Token.signs_append, List.append_assoc, List.append_assoc]
  rfl

/-- Nothing follows, or a parenthesis that closes. -/
def Sign.Closed (rest : List Sign) : Prop := rest = [] ∨ rest.head? = some (char ')')

theorem Sign.closed_close (rest : List Sign) : Closed (chars ")" ++ rest) := .inr rfl

theorem Sign.not_closed_cons {s : Sign} (h : s ≠ char ')') (rest : List Sign) : ¬ Closed (s :: rest) := by
  rintro (hnil | hhead)
  · cases hnil
  · exact h (Option.some.inj hhead)

theorem Predicate.not_closed_signs_append {p : Predicate} (h : p.isSimple = true) (rest : List Sign) :
    ¬ Sign.Closed (signs d (p.tokens d) ++ rest) := by
  rcases p.exists_clause d h with ⟨filters, rfl⟩ | ⟨c, hc⟩
  · rw [Token.signs_group_append]
    exact Sign.not_closed_cons (by decide) _
  · obtain ⟨first, more, hs, -, hfirst⟩ := Clause.exists_signs_cons (d := d) hc.rawFree
    rw [hc.signs, hs]
    exact Sign.not_closed_cons hfirst _

theorem Connector.not_closed_symbol_append (c : Connector) (rest : List Sign) :
    ¬ Sign.Closed (chars (" " ++ c.symbol ++ " ") ++ rest) := by
  cases c <;> exact Sign.not_closed_cons (by decide) _

theorem Connector.symbol_append_inj {c c' : Connector} {rest rest' : List Sign}
    (h : chars (" " ++ c.symbol ++ " ") ++ rest = chars (" " ++ c'.symbol ++ " ") ++ rest') : c = c' ∧ rest = rest' := by
  have hc : c = c' := by
    have hneither : ¬ (" " ++ Connector.and.symbol ++ " ").toList <+: (" " ++ Connector.or.symbol ++ " ").toList ∧
        ¬ (" " ++ Connector.or.symbol ++ " ").toList <+: (" " ++ Connector.and.symbol ++ " ").toList := by decide
    rcases Sign.isPrefix_of_chars_append h with hp | hp <;> cases c <;> cases c' <;>
      first | rfl | exact absurd hp hneither.1 | exact absurd hp hneither.2
  subst hc
  exact ⟨rfl, List.append_cancel_left h⟩

theorem Token.signs_listTokens_append (connector : Connector) (p : Predicate) (filters : List Filter) (rest : List Sign) :
    signs d (Filter.listTokens d (⟨connector, p⟩ :: filters)) ++ rest =
      signs d (p.tokens d) ++ (signs d (Filter.moreTokens d filters) ++ rest) := by
  rw [Filter.listTokens, Token.signs_append, List.append_assoc]

theorem Token.signs_moreTokens_append (connector : Connector) (p : Predicate) (filters : List Filter) (rest : List Sign) :
    signs d (Filter.moreTokens d (⟨connector, p⟩ :: filters)) ++ rest =
      chars (" " ++ connector.symbol ++ " ") ++
        (signs d (p.tokens d) ++ (signs d (Filter.moreTokens d filters) ++ rest)) := by
  rw [Filter.moreTokens, List.cons_append, Token.signs_cons, Token.signs_append, List.append_assoc, List.append_assoc]
  rfl

/-- A predicate that is not a group is told from what is written. -/
theorem Predicate.signs_append_inj_of_writes {c : Clause} {p p' : Predicate} (hc : c.Writes d p)
    (h' : p'.isSimple = true) {rest rest' : List Sign}
    (h : signs d (p.tokens d) ++ rest = signs d (p'.tokens d) ++ rest') : p.normal d = p'.normal d ∧ rest = rest' := by
  rcases p'.exists_clause d h' with ⟨filters', rfl⟩ | ⟨c', hc'⟩
  · obtain ⟨first, more, hs, hfirst, -⟩ := Clause.exists_signs_cons (d := d) hc.rawFree
    rw [hc.signs, hs, Token.signs_group_append] at h
    exact absurd (List.cons.inj h).1 hfirst
  · rw [hc.signs, hc'.signs] at h
    obtain ⟨rfl, rfl⟩ := Clause.signs_append_inj hc.rawFree hc'.rawFree h
    exact ⟨hc.normal.trans hc'.normal.symm, rfl⟩

mutual

/-- A predicate is told from what is written, whatever follows it. -/
theorem Predicate.signs_append_inj (d : Dialect) :
    ∀ (p p' : Predicate), p.isSimple = true → p'.isSimple = true → ∀ {rest rest' : List Sign},
      signs d (p.tokens d) ++ rest = signs d (p'.tokens d) ++ rest' → p.normal d = p'.normal d ∧ rest = rest'
  | .group filters, p', h, h', rest, rest', he => by
    rcases p'.exists_clause d h' with ⟨filters', rfl⟩ | ⟨c', hc'⟩
    · rw [Token.signs_group_append, Token.signs_group_append] at he
      obtain ⟨hnormal, hrest⟩ := Filter.signs_list_append_inj d filters filters' h h' (Sign.closed_close rest)
        (Sign.closed_close rest') (List.append_cancel_left he)
      refine ⟨?_, List.append_cancel_left hrest⟩
      rw [Predicate.normal, Predicate.normal, hnormal]
    · obtain ⟨hnormal, hrest⟩ := Predicate.signs_append_inj_of_writes hc' h he.symm
      exact ⟨hnormal.symm, hrest.symm⟩
  | .compare column op value, p', h, h', rest, rest', he => by
    rcases Predicate.exists_clause d _ h with ⟨_, hg⟩ | ⟨c, hc⟩
    · cases hg
    · exact Predicate.signs_append_inj_of_writes hc h' he
  | .isIn column values negated, p', h, h', rest, rest', he => by
    rcases Predicate.exists_clause d _ h with ⟨_, hg⟩ | ⟨c, hc⟩
    · cases hg
    · exact Predicate.signs_append_inj_of_writes hc h' he
  | .between column low high negated, p', h, h', rest, rest', he => by
    rcases Predicate.exists_clause d _ h with ⟨_, hg⟩ | ⟨c, hc⟩
    · cases hg
    · exact Predicate.signs_append_inj_of_writes hc h' he
  | .isNull column negated, p', h, h', rest, rest', he => by
    rcases Predicate.exists_clause d _ h with ⟨_, hg⟩ | ⟨c, hc⟩
    · cases hg
    · exact Predicate.signs_append_inj_of_writes hc h' he
  | .hasRow .., _, h, _, _, _, _ => by cases h
  | .raw _, _, h, _, _, _, _ => by cases h

theorem Filter.signs_list_append_inj (d : Dialect) :
    ∀ (fs gs : List Filter), Filter.listSimple fs = true → Filter.listSimple gs = true → ∀ {rest rest' : List Sign},
      Sign.Closed rest → Sign.Closed rest' →
        signs d (Filter.listTokens d fs) ++ rest = signs d (Filter.listTokens d gs) ++ rest' →
          Filter.listNormal d fs = Filter.listNormal d gs ∧ rest = rest'
  | [], [], _, _, _, _, _, _, he => ⟨rfl, he⟩
  | [], ⟨connector', p'⟩ :: gs, _, h', rest, rest', hr, _, he => by
    rw [Filter.listSimple, Bool.and_eq_true] at h'
    rw [Filter.listTokens, Token.signs_nil, List.nil_append, Token.signs_listTokens_append] at he
    rw [he] at hr
    exact absurd hr (Predicate.not_closed_signs_append h'.1 _)
  | ⟨connector, p⟩ :: fs, [], h, _, rest, rest', _, hr', he => by
    rw [Filter.listSimple, Bool.and_eq_true] at h
    rw [Token.signs_listTokens_append, Filter.listTokens, Token.signs_nil, List.nil_append] at he
    rw [← he] at hr'
    exact absurd hr' (Predicate.not_closed_signs_append h.1 _)
  | ⟨connector, p⟩ :: fs, ⟨connector', p'⟩ :: gs, h, h', rest, rest', hr, hr', he => by
    rw [Filter.listSimple, Bool.and_eq_true] at h h'
    rw [Token.signs_listTokens_append, Token.signs_listTokens_append] at he
    obtain ⟨hp, hmore⟩ := Predicate.signs_append_inj d p p' h.1 h'.1 he
    obtain ⟨hfs, hrest⟩ := Filter.signs_more_append_inj d fs gs h.2 h'.2 hr hr' hmore
    exact ⟨by rw [Filter.listNormal, Filter.listNormal, hp, hfs], hrest⟩

theorem Filter.signs_more_append_inj (d : Dialect) :
    ∀ (fs gs : List Filter), Filter.listSimple fs = true → Filter.listSimple gs = true → ∀ {rest rest' : List Sign},
      Sign.Closed rest → Sign.Closed rest' →
        signs d (Filter.moreTokens d fs) ++ rest = signs d (Filter.moreTokens d gs) ++ rest' →
          Filter.moreNormal d fs = Filter.moreNormal d gs ∧ rest = rest'
  | [], [], _, _, _, _, _, _, he => ⟨rfl, he⟩
  | [], ⟨connector', p'⟩ :: gs, _, _, rest, rest', hr, _, he => by
    rw [Filter.moreTokens, Token.signs_nil, List.nil_append, Token.signs_moreTokens_append] at he
    rw [he] at hr
    exact absurd hr (connector'.not_closed_symbol_append _)
  | ⟨connector, p⟩ :: fs, [], _, _, rest, rest', _, hr', he => by
    rw [Token.signs_moreTokens_append, Filter.moreTokens, Token.signs_nil, List.nil_append] at he
    rw [← he] at hr'
    exact absurd hr' (connector.not_closed_symbol_append _)
  | ⟨connector, p⟩ :: fs, ⟨connector', p'⟩ :: gs, h, h', rest, rest', hr, hr', he => by
    rw [Filter.listSimple, Bool.and_eq_true] at h h'
    rw [Token.signs_moreTokens_append, Token.signs_moreTokens_append] at he
    obtain ⟨rfl, hafter⟩ := Connector.symbol_append_inj he
    obtain ⟨hp, hmore⟩ := Predicate.signs_append_inj d p p' h.1 h'.1 hafter
    obtain ⟨hfs, hrest⟩ := Filter.signs_more_append_inj d fs gs h.2 h'.2 hr hr' hmore
    exact ⟨by rw [Filter.moreNormal, Filter.moreNormal, hp, hfs], hrest⟩

end

end SqlMapper
