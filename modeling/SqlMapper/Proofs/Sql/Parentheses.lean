import SqlMapper.Proofs.Query.Built
import SqlMapper.Proofs.Sql.Identifier
import SqlMapper.Proofs.Sql.Paging
import SqlMapper.Proofs.Sql.Placeholders
/-!
# Parentheses — what stands between them

The parentheses of a query are written in pairs, and something stands between them: a predicate, a value, a select.
The text is put together from parts without parentheses, from pairs around a part that is written as something, and from
such parts side by side (`Token.Grouped`).  The one pair around nothing stands behind the function with which SQL Server
numbers the rows of a query with an offset (`Query.Built.parenthesized`).
-/
namespace SqlMapper

/-! ## Parentheses in a text -/

namespace Lexeme

/-- How much deeper in parentheses the text is behind the lexeme. -/
def nesting (l : Lexeme) : Int := if l = char '(' then 1 else if l = char ')' then -1 else 0

def depth : List Lexeme → Int
  | [] => 0
  | l :: text => nesting l + depth text

/-- Every parenthesis that is opened is closed again, and none is closed before. -/
structure Balanced (text : List Lexeme) : Prop where
  opened : ∀ before, before <+: text → 0 ≤ depth before
  closed : depth text = 0

def chars (text : String) : List Lexeme := text.toList.map char

/-- Text whose parentheses enclose something, the ones behind the function that numbers rows apart. -/
structure Grouped (numbers : Prop) (text : List Lexeme) : Prop extends Balanced text where
  starts : text.head? ≠ some (char ')')
  ends : text.getLast? ≠ some (char '(')
  empties : ∀ l r, text = l ++ char '(' :: char ')' :: r →
    numbers ∧ chars ", ROW_NUMBER" <:+ l ∧ chars " OVER " <+: r

theorem depth_append (a b : List Lexeme) : depth (a ++ b) = depth a + depth b := by
  induction a with
  | nil => exact (Int.zero_add _).symm
  | cons l a ih => rw [List.cons_append, depth, depth, ih, Int.add_assoc]

theorem depth_of_flat {text : List Lexeme} (h : ∀ l ∈ text, l ≠ char '(' ∧ l ≠ char ')') : depth text = 0 := by
  induction text with
  | nil => rfl
  | cons l text ih =>
    obtain ⟨ho, hc⟩ := h l List.mem_cons_self
    rw [depth, nesting, if_neg ho, if_neg hc, ih fun m hm => h m (List.mem_cons_of_mem l hm), Int.zero_add]

theorem Balanced.append {a b : List Lexeme} (ha : Balanced a) (hb : Balanced b) : Balanced (a ++ b) := by
  refine ⟨fun before h => ?_, by rw [depth_append, ha.closed, hb.closed]; rfl⟩
  rcases List.prefix_or_prefix_of_prefix h (List.prefix_append a b) with h' | ⟨rest, rfl⟩
  · exact ha.opened before h'
  · rw [depth_append, ha.closed, Int.zero_add]
    exact hb.opened rest ((List.prefix_append_right_inj a).1 h)

theorem Balanced.enclosed {inner : List Lexeme} (h : Balanced inner) :
    Balanced (char '(' :: (inner ++ [char ')'])) := by
  have hopen : nesting (char '(') = 1 := rfl
  have hclose : depth [char ')'] = -1 := rfl
  refine ⟨fun before hbefore => ?_, by rw [depth, depth_append, h.closed, hopen, hclose]; rfl⟩
  cases before with
  | nil => exact Int.le_refl 0
  | cons l before =>
    obtain ⟨rfl, hrest⟩ := List.cons_prefix_cons.1 hbefore
    rw [depth, hopen]
    rcases List.prefix_concat_iff.1 hrest with rfl | hinner
    · rw [depth_append, h.closed, hclose]
      decide
    · have := h.opened before hinner
      omega

namespace Grouped

variable {numbers : Prop}

theorem of_flat {text : List Lexeme} (h : ∀ l ∈ text, l ≠ char '(' ∧ l ≠ char ')') : Grouped numbers text where
  opened before hbefore := Int.le_of_eq (depth_of_flat fun l hl => h l (hbefore.subset hl)).symm
  closed := depth_of_flat h
  starts hs := (h _ (List.mem_of_head? hs)).2 rfl
  ends he := (h _ (List.mem_of_getLast? he)).1 rfl
  empties l r heq := absurd rfl (h (char '(') (by rw [heq]; simp)).1

theorem append {a b : List Lexeme} (ha : Grouped numbers a) (hb : Grouped numbers b) : Grouped numbers (a ++ b) where
  toBalanced := ha.toBalanced.append hb.toBalanced
  starts := by
    rw [List.head?_append]
    cases a with
    | nil => exact hb.starts
    | cons l a => exact ha.starts
  ends := by
    rw [List.getLast?_append]
    cases h : b.getLast? with
    | none => exact ha.ends
    | some l => exact fun he => hb.ends (h.trans he)
  empties l r heq := by
    rcases List.append_eq_append_iff.1 heq with ⟨s, rfl, hs⟩ | ⟨s, rfl, hs⟩
    · obtain ⟨hn, hl, hr⟩ := hb.empties s r hs
      exact ⟨hn, hl.trans (List.suffix_append a s), hr⟩
    · -- the pair does not fall apart between the texts, for the first one does not end in an opening parenthesis
      cases s with
      | nil =>
        obtain ⟨hn, hl, hr⟩ := hb.empties [] r hs.symm
        exact ⟨hn, hl.trans (List.nil_suffix), hr⟩
      | cons m s =>
        obtain ⟨rfl, hrest⟩ := List.cons.inj hs
        cases s with
        | nil => exact absurd List.getLast?_concat ha.ends
        | cons m s =>
          obtain ⟨rfl, rfl⟩ := List.cons.inj hrest
          obtain ⟨hn, hl, hr⟩ := ha.empties l s rfl
          exact ⟨hn, hl, hr.trans (List.prefix_append s b)⟩

theorem enclosed {inner : List Lexeme} (h : Grouped numbers inner) (hne : inner ≠ []) :
    Grouped numbers (char '(' :: (inner ++ [char ')'])) where
  toBalanced := h.toBalanced.enclosed
  starts := by simp
  ends := by
    rw [List.getLast?_cons, List.getLast?_concat]
    simp
  empties l r heq := by
    cases l with
    | nil =>
      obtain ⟨m, inner, rfl⟩ := List.exists_cons_of_ne_nil hne
      obtain ⟨rfl, -⟩ := List.cons.inj (List.cons.inj heq).2
      exact absurd rfl h.starts
    | cons m l =>
      have hinner := (List.cons.inj heq).2
      rcases List.eq_nil_or_concat' r with rfl | ⟨r, m', rfl⟩
      · have hend : inner ++ [char ')'] = (l ++ [char '(']) ++ [char ')'] := by rw [hinner, List.append_assoc]; rfl
        rw [List.append_cancel_right hend] at h
        exact absurd List.getLast?_concat h.ends
      · have hend : inner ++ [char ')'] = (l ++ char '(' :: char ')' :: r) ++ [m'] := by
          rw [hinner]
          exact (List.append_assoc l (char '(' :: char ')' :: r) [m']).symm
        obtain ⟨hn, hl, hr⟩ := h.empties l r (List.append_inj_left' hend rfl)
        exact ⟨hn, hl.trans (List.suffix_cons m l), hr.trans (List.prefix_append r _)⟩

/-- The call of the function that numbers rows. -/
theorem rowNumber (h : numbers) : Grouped numbers (chars ", ROW_NUMBER() OVER ") := by
  have hcall : chars ", ROW_NUMBER() OVER " =
      chars ", ROW_NUMBER" ++ (char '(' :: ([] ++ [char ')']) ++ chars " OVER ") := by
    decide
  have hbefore : Grouped numbers (chars ", ROW_NUMBER") := of_flat (by decide)
  have hbehind : Grouped numbers (chars " OVER ") := of_flat (by decide)
  have hnothing : Grouped numbers [] := of_flat nofun
  have hpair : Balanced (char '(' :: ([] ++ [char ')'])) := hnothing.toBalanced.enclosed
  refine ⟨?_, by decide, by decide, fun l r heq => ?_⟩
  · rw [hcall]
    exact hbefore.toBalanced.append (hpair.append hbehind.toBalanced)
  · rw [hcall] at heq
    obtain ⟨rfl, -, hr⟩ := (List.append_cons_inj_of_notMem (by decide) (by decide)).1 heq
    obtain ⟨-, rfl⟩ := List.cons.inj hr
    exact ⟨h, List.suffix_refl _, List.prefix_refl _⟩

end Grouped

end Lexeme

/-! ## Parentheses in token lists -/

namespace Token

open Lexeme (char chars)

/-- A token without parentheses. -/
def flat : Token → Bool
  | word text => text.toList.all fun c => c ≠ '(' && c ≠ ')'
  | raw _ => false
  | ident _ | number _ | bound _ => true

/-- A token that is written as something. -/
def shown : Token → Bool
  | word text => text ≠ ""
  | raw sql => sql ≠ ""
  | ident _ | number _ | bound _ => true

/-- The word ends in an opening parenthesis, and has no other. -/
def opens (text : String) : Bool :=
  text.toList.getLast? = some '(' && text.toList.dropLast.all fun c => c ≠ '(' && c ≠ ')'

/-- The word starts with a closing parenthesis, and has no other. -/
def closes (text : String) : Bool :=
  text.toList.head? = some ')' && text.toList.tail.all fun c => c ≠ '(' && c ≠ ')'

/-- The tokens are grouped, wherever they are laid out. -/
def Grouped (d : Dialect) (numbers : Prop) (tokens : List Token) : Prop :=
  ∀ before, Lexeme.Grouped numbers (lexemes d before tokens)

theorem flat_chars {cs : List Char} (h : (cs.all fun c => c ≠ '(' && c ≠ ')') = true) :
    ∀ l ∈ cs.map char, l ≠ char '(' ∧ l ≠ char ')' := by
  intro l hl
  obtain ⟨c, hc, rfl⟩ := List.mem_map.1 hl
  have hflat := List.all_eq_true.1 h c hc
  simp only [ne_eq, decide_not, Bool.and_eq_true, Bool.not_eq_true', decide_eq_false_iff_not] at hflat
  exact ⟨fun he => hflat.1 (Lexeme.char.inj he), fun he => hflat.2 (Lexeme.char.inj he)⟩

variable {d : Dialect} {numbers : Prop}

theorem flat_lexemes : ∀ {tokens : List Token}, tokens.all flat = true → ∀ before,
    ∀ l ∈ lexemes d before tokens, l ≠ char '(' ∧ l ≠ char ')'
  | [], _, _, l, hl => by cases hl
  | word text :: rest, h, before, l, hl => by
    rw [List.all_cons, Bool.and_eq_true] at h
    rcases List.mem_append.1 hl with hl | hl
    · exact flat_chars h.1 l hl
    · exact flat_lexemes h.2 before l hl
  | raw _ :: _, h, _, _, _ => by cases h
  | number n :: rest, h, before, l, hl => by
    rcases List.mem_append.1 hl with hl | hl
    · refine flat_chars (List.all_eq_true.2 fun c hc => ?_) l hl
      have hdigit := Nat.isDigit_of_mem_toDigits (by decide) (by decide) hc
      simp only [ne_eq, decide_not, Bool.and_eq_true, Bool.not_eq_true', decide_eq_false_iff_not]
      constructor <;> rintro rfl <;> cases hdigit
    · exact flat_lexemes (show rest.all flat = true from h) before l hl
  | ident _ :: rest, h, before, l, hl => by
    rcases List.mem_cons.1 hl with rfl | hl
    · exact ⟨nofun, nofun⟩
    · exact flat_lexemes (show rest.all flat = true from h) before l hl
  | bound _ :: rest, h, before, l, hl => by
    rcases List.mem_cons.1 hl with rfl | hl
    · cases d <;> exact ⟨nofun, nofun⟩
    · exact flat_lexemes (show rest.all flat = true from h) (before + 1) l hl

theorem lexemes_append (b : List Token) : ∀ (a : List Token) (before : Nat),
    lexemes d before (a ++ b) = lexemes d before a ++ lexemes d (before + (bindings d a).length) b
  | [], _ => rfl
  | word _ :: a, before | raw _ :: a, before | number _ :: a, before => by
    rw [List.cons_append, lexemes, lexemes, lexemes_append b a before, List.append_assoc]
    rfl
  | ident _ :: a, before => by
    rw [List.cons_append, lexemes, lexemes, lexemes_append b a before]
    rfl
  | bound v :: a, before => by
    rw [List.cons_append, lexemes, lexemes, lexemes_append b a (before + 1), bindings_bound, List.length_cons,
      List.cons_append, Nat.add_assoc, Nat.add_comm 1]

theorem lexemes_ne_nil {tokens : List Token} (h : tokens.any shown = true) (before : Nat) :
    lexemes d before tokens ≠ [] := by
  obtain ⟨t, ht, hshown⟩ := List.any_eq_true.1 h
  obtain ⟨a, b, rfl⟩ := List.append_of_mem ht
  rw [lexemes_append]
  refine List.append_ne_nil_of_right_ne_nil _ ?_
  cases t with
  | word text | raw text =>
    have htext : text.toList ≠ [] := mt String.toList_eq_nil_iff.1 (of_decide_eq_true hshown)
    exact List.append_ne_nil_of_left_ne_nil (mt List.map_eq_nil_iff.1 htext) _
  | ident _ | bound _ => exact List.cons_ne_nil _ _
  | number n => exact List.append_ne_nil_of_left_ne_nil (mt List.map_eq_nil_iff.1 Nat.toDigits_ne_nil) _

namespace Grouped

theorem of_flat {tokens : List Token} (h : tokens.all flat = true) : Grouped d numbers tokens := fun before =>
  .of_flat (flat_lexemes h before)

theorem append {a b : List Token} (ha : Grouped d numbers a) (hb : Grouped d numbers b) :
    Grouped d numbers (a ++ b) := fun before => by
  rw [lexemes_append]
  exact (ha before).append (hb _)

theorem cons {t : Token} {rest : List Token} (ht : t.flat = true) (h : Grouped d numbers rest) :
    Grouped d numbers (t :: rest) :=
  append (a := [t]) (of_flat (by rw [List.all_cons, ht]; rfl)) h

theorem separated {separator : String} (hs : (word separator).flat = true) {parts : List (List Token)}
    (h : ∀ part ∈ parts, Grouped d numbers part) : Grouped d numbers (Token.separated separator parts) :=
  separated_induction (P := Grouped d numbers) (of_flat rfl) (fun ha hb => ha.append (hb.cons hs)) h

/-- What stands between parentheses has to be written as something. -/
theorem enclosed_behind {opening closing : String} {o : List Lexeme} (hopening : chars opening = o ++ [char '('])
    (ho : Lexeme.Grouped numbers o) (hclosing : closes closing = true) {inner : List Token}
    (h : Grouped d numbers inner) (hshown : inner.any shown = true) :
    Grouped d numbers (word opening :: (inner ++ [word closing])) := fun before => by
  rw [closes, Bool.and_eq_true, decide_eq_true_eq] at hclosing
  obtain ⟨c, hc⟩ := List.head?_eq_some_iff.1 hclosing.1
  have hclosed : lexemes d (before + (bindings d inner).length) [word closing] = [char ')'] ++ c.map char := by
    rw [lexemes, lexemes, List.append_nil, hc]
    rfl
  have hlexemes : lexemes d before (word opening :: (inner ++ [word closing])) =
      o ++ ((char '(' :: (lexemes d before inner ++ [char ')'])) ++ c.map char) := by
    rw [lexemes, lexemes_append, hclosed]
    show chars opening ++ _ = _
    rw [hopening]
    simp
  rw [hlexemes]
  rw [hc] at hclosing
  exact ho.append (((h before).enclosed (lexemes_ne_nil hshown before)).append (.of_flat (flat_chars hclosing.2)))

theorem enclosed (opening closing : String) (hopening : opens opening = true) (hclosing : closes closing = true)
    {inner : List Token} (h : Grouped d numbers inner) (hshown : inner.any shown = true) :
    Grouped d numbers (word opening :: (inner ++ [word closing])) := by
  rw [opens, Bool.and_eq_true, decide_eq_true_eq] at hopening
  refine enclosed_behind (o := opening.toList.dropLast.map char) ?_ (.of_flat (flat_chars hopening.2)) hclosing h hshown
  obtain ⟨o, ho⟩ := List.getLast?_eq_some_iff.1 hopening.1
  rw [chars, ho, List.dropLast_concat, List.map_append]
  rfl

end Grouped

end Token

/-! ## Parts without parentheses -/

open Token (word number bound separated flat shown Grouped legible)
open PagedSelect (isArgument)

theorem Token.flat_of_isArgument {t : Token} (h : isArgument t = true) (hl : legible [t] = true) : flat t = true := by
  cases t with
  | word text =>
    simp only [isArgument, List.contains_eq_mem, decide_eq_true_eq, List.mem_cons, List.not_mem_nil, or_false] at h
    rcases h with rfl | rfl | rfl | rfl | rfl | rfl <;> decide
  | raw sql => cases hl
  | _ => rfl

theorem Token.legible_of_mem : ∀ {tokens : List Token}, legible tokens = true → ∀ t ∈ tokens, legible [t] = true
  | [], _, t, ht => by cases ht
  | word text :: rest, h, t, ht => by
    rw [legible, Bool.and_eq_true] at h
    rcases List.mem_cons.1 ht with rfl | ht
    · rw [legible, h.1]
      rfl
    · exact legible_of_mem h.2 t ht
  | .raw _ :: _, h, _, _ => by cases h
  | number n :: rest, h, t, ht => by
    rcases List.mem_cons.1 ht with rfl | ht
    · rfl
    · exact legible_of_mem (show legible rest = true from h) t ht
  | .ident _ :: rest, h, t, ht | bound _ :: rest, h, t, ht => by
    rw [legible, Bool.and_eq_true] at h
    rcases List.mem_cons.1 ht with rfl | ht
    · rfl
    · exact legible_of_mem h.2 t ht

theorem all_flat_of_arguments {tokens : List Token} (h : tokens.all isArgument = true) (hl : legible tokens = true) :
    tokens.all flat = true :=
  List.all_eq_true.2 fun t ht => Token.flat_of_isArgument (List.all_eq_true.1 h t ht) (Token.legible_of_mem hl t ht)

theorem all_flat_name (s : String) : (Token.name s).all flat = true :=
  all_flat_of_arguments (all_isArgument_name s) (Token.legible_name s)

theorem Column.all_flat {c : Column} (h : (!c.isRaw) = true) : c.tokens.all flat = true :=
  all_flat_of_arguments c.all_isArgument (Column.legible_tokens h)

theorem all_flat_columnList {columns : List Column} (h : columns.all (!·.isRaw) = true) :
    (columnList columns).all flat = true :=
  all_flat_of_arguments (all_isArgument_columnList columns) (legible_columnList h)

theorem Expr.flat_token {e : Expr} (h : (!e.isRaw) = true) : e.token.flat = true := by
  cases e with
  | value v => rfl
  | raw sql => cases h

theorem all_flat_exprList {values : List Expr} (h : values.all (!·.isRaw) = true) :
    (exprList values).all flat = true := by
  refine all_separated (by decide) fun p hp => ?_
  obtain ⟨v, hv, rfl⟩ := List.mem_map.1 hp
  rw [List.all_cons, Expr.flat_token (List.all_eq_true.1 h v hv)]
  rfl

theorem Source.all_flat {s : Source} (h : s.rawFree = true) : s.tokens.all flat = true := by
  cases s with
  | table name =>
    refine Column.all_flat ?_
    unfold Column.parse
    split <;> rfl
  | raw sql => cases h

theorem JoinClause.all_flat {c : JoinClause} (h : c.rawFree = true) : c.tokens.all flat = true := by
  rw [JoinClause.rawFree, Bool.and_eq_true] at h
  rw [JoinClause.tokens, List.all_append, List.all_cons, Column.all_flat h.1, Column.all_flat h.2]
  cases c.op <;> decide

theorem JoinClause.all_flat_moreTokens :
    ∀ {clauses : List JoinClause}, clauses.all JoinClause.rawFree = true → (moreTokens clauses).all flat = true
  | [], _ => rfl
  | c :: rest, h => by
    rw [List.all_cons, Bool.and_eq_true] at h
    rw [moreTokens, List.cons_append, List.all_cons, List.all_append, JoinClause.all_flat h.1, all_flat_moreTokens h.2]
    cases c.connector <;> decide

theorem Join.all_flat {j : Join} (h : j.rawFree = true) : j.tokens.all flat = true := by
  have hkind : (word (j.kind.symbol ++ " ")).flat = true := by cases j.kind <;> decide
  have hon : (word " ON ").flat = true := by decide
  rw [Join.rawFree] at h
  rw [Join.tokens, List.cons_append, List.all_cons, List.all_append, List.all_cons, hkind, hon, all_flat_name]
  cases hc : j.clauses with
  | nil => decide
  | cons c rest =>
    rw [hc, List.all_cons, Bool.and_eq_true] at h
    show (c.tokens ++ JoinClause.moreTokens rest).all flat = true
    rw [List.all_append, JoinClause.all_flat h.1, JoinClause.all_flat_moreTokens h.2]
    rfl

theorem SortKey.all_flat {k : SortKey} (h : (!k.column.isRaw) = true) : k.tokens.all flat = true :=
  all_flat_of_arguments k.all_isArgument (SortKey.legible_tokens h)

theorem all_flat_topTokens (d : Dialect) (limit offset : Option UInt64) :
    (topTokens d limit offset).all flat = true := by
  unfold topTokens
  split <;> rfl

theorem all_flat_limitTokens (d : Dialect) (limit offset : Option UInt64) :
    (limitTokens d limit offset).all flat = true := by
  unfold limitTokens
  split <;> rfl

theorem all_flat_offsetTokens (d : Dialect) (offset : Option UInt64) : (offsetTokens d offset).all flat = true := by
  unfold offsetTokens
  split <;> rfl

theorem all_flat_rowRange (offset : UInt64) (limit : Option UInt64) : (rowRange offset limit).all flat = true := by
  cases limit <;> rfl

theorem all_flat_comparisonTokens {column : Column} (op : Comparison) {value : Expr} (hc : (!column.isRaw) = true)
    (hv : (!value.isRaw) = true) : (comparisonTokens column op value).all flat = true := by
  unfold comparisonTokens
  split
  · rw [List.all_append, Column.all_flat hc]
    decide
  · rw [List.all_append, Column.all_flat hc]
    decide
  · rw [List.all_append, Column.all_flat hc, List.all_cons, List.all_cons, Expr.flat_token hv]
    cases op <;> decide

/-! ## Parts that are written as something -/

theorem any_separated {p : Token → Bool} {separator : String} :
    ∀ {parts : List (List Token)}, (parts.any fun part => part.any p) = true → (separated separator parts).any p = true
  | [], h => by cases h
  | [part], h => by
    rw [List.any_cons, List.any_nil, Bool.or_false] at h
    rwa [separated, List.intercalate_singleton]
  | part :: next :: parts, h => by
    rw [List.any_cons, Bool.or_eq_true] at h
    rw [Token.separated_cons_cons, List.any_append, List.any_cons, Bool.or_eq_true, Bool.or_eq_true]
    exact h.imp id fun hmore => .inr (any_separated hmore)

theorem any_shown_name (s : String) : (Token.name s).any shown = true := by
  obtain ⟨part, parts, hparts⟩ := List.exists_cons_of_ne_nil (splitAtChar_ne_nil '.' s)
  refine any_separated ?_
  rw [hparts, List.map_cons, List.any_cons, List.any_cons]
  unfold Token.segment
  split <;> rfl

theorem Column.any_shown {c : Column} (h : (!c.isRaw) = true) : c.tokens.any shown = true := by
  cases c with
  | name n => exact any_shown_name n
  | aliased n a => rw [Column.tokens, List.any_append, any_shown_name]; rfl
  | raw sql => cases h

theorem any_shown_columnList {columns : List Column} (hne : columns ≠ []) (h : columns.all (!·.isRaw) = true) :
    (columnList columns).any shown = true := by
  obtain ⟨c, rest, rfl⟩ := List.exists_cons_of_ne_nil hne
  rw [List.all_cons, Bool.and_eq_true] at h
  refine any_separated ?_
  rw [List.map_cons, List.any_cons, Column.any_shown h.1]
  rfl

theorem any_shown_exprList {values : List Expr} (hne : values ≠ []) (h : values.all (!·.isRaw) = true) :
    (exprList values).any shown = true := by
  obtain ⟨vs, rfl⟩ := Expr.exists_values h
  obtain ⟨v, rest, rfl⟩ := List.exists_cons_of_ne_nil (mt List.map_eq_nil_iff.2 hne)
  exact any_separated rfl

theorem Query.any_shown_selectClause (d : Dialect) (q : Query) : (q.selectClause d).any shown = true := by
  unfold Query.selectClause selectTokens
  split
  · rename_i a _
    rw [Aggregate.tokens, List.cons_append, List.any_cons]
    cases a.function <;> rfl
  · rfl

theorem Query.any_shown_tokens (d : Dialect) (q : Query) : (q.tokens d).any shown = true := by
  by_cases h : d = .sqlServer ∧ q.offset ≠ none
  · obtain ⟨rfl, hoffset⟩ := h
    obtain ⟨start, hstart⟩ := Option.ne_none_iff_exists'.1 hoffset
    rw [Query.tokens_numbered hstart]
    rfl
  · have hcut : d ≠ .sqlServer ∨ q.offset = none := by
      rwa [not_and_or, not_not] at h
    rw [Query.tokens_cut hcut]
    simp only [List.any_append, Query.any_shown_selectClause, Bool.true_or]

theorem Predicate.any_shown (d : Dialect) {p : Predicate} (h : p.rawFree = true) : (p.tokens d).any shown = true := by
  cases p with
  | compare column op value =>
    unfold Predicate.tokens comparisonTokens
    split
    · rw [List.any_append, Bool.or_eq_true]; exact .inr rfl
    · rw [List.any_append, Bool.or_eq_true]; exact .inr rfl
    · rw [List.any_append, Bool.or_eq_true]
      cases op <;> exact .inr rfl
  | isIn column values negated =>
    unfold Predicate.tokens membershipTokens
    cases negated <;> split <;> simp [shown]
  | between column low high negated => cases negated <;> simp [Predicate.tokens, shown]
  | isNull column negated => cases negated <;> simp [Predicate.tokens, shown]
  | hasRow query negated => cases negated <;> rfl
  | raw sql => cases h
  | group filters => rfl

theorem Filter.any_shown_listTokens (d : Dialect) {filters : List Filter} (hne : filters ≠ [])
    (h : Filter.listRawFree filters = true) : (Filter.listTokens d filters).any shown = true := by
  cases filters with
  | nil => exact absurd rfl hne
  | cons f rest =>
    obtain ⟨connector, predicate⟩ := f
    rw [Filter.listRawFree, Bool.and_eq_true] at h
    rw [Filter.listTokens, List.any_append, Predicate.any_shown d h.1]
    rfl

/-! ## Queries -/

section

variable {d : Dialect} {numbers : Prop}

theorem grouped_membershipTokens {column : Column} {values : List Expr} (negated : Bool) (hc : (!column.isRaw) = true)
    (hv : values.all (!·.isRaw) = true) : Grouped d numbers (membershipTokens column values negated) := by
  unfold membershipTokens
  split
  · cases negated <;> exact .of_flat (by decide)
  · rename_i hne
    rw [List.append_assoc]
    refine (Grouped.of_flat (Column.all_flat hc)).append (Grouped.enclosed _ _ ?_ (by decide)
      (.of_flat (all_flat_exprList hv)) (any_shown_exprList hne hv))
    cases negated <;> decide

theorem Aggregate.grouped_tokens {a : Aggregate} (distinct : Bool) (h : a.rawFree = true) :
    Grouped d numbers (a.tokens distinct) := by
  have hopens : Token.opens ("SELECT " ++ a.function.symbol ++ "(") = true := by cases a.function <;> decide
  have htokens : a.tokens distinct = word ("SELECT " ++ a.function.symbol ++ "(") ::
      ((if a.isOverRows then [word "*"] else (if distinct then [word "DISTINCT "] else []) ++ columnList a.columns) ++
        [word ") AS "]) ++ [.ident "aggregate"] := by
    simp [Aggregate.tokens]
  rw [htokens]
  refine Grouped.append (Grouped.enclosed _ _ hopens (by decide) ?_ ?_) (.of_flat rfl)
  · split
    · exact .of_flat (by decide)
    · exact Grouped.append (by cases distinct <;> exact .of_flat (by decide)) (.of_flat (all_flat_columnList h))
  · split
    · decide
    · rename_i hover
      have hne : a.columns ≠ [] := fun hnil => hover (by rw [Aggregate.isOverRows, hnil]; rfl)
      rw [List.any_append, any_shown_columnList hne h, Bool.or_true]

theorem grouped_following {tokens : List Token} (h : Grouped d numbers tokens) :
    Grouped d numbers (following tokens) := by
  unfold following
  split
  · exact .of_flat rfl
  · exact h.cons (by decide)

theorem grouped_optionalClause {keyword : String} (hk : (word keyword).flat = true) (isEmpty : Bool)
    {body : List Token} (h : Grouped d numbers body) : Grouped d numbers (optionalClause keyword isEmpty body) := by
  unfold optionalClause
  split
  · exact .of_flat rfl
  · exact h.cons hk

theorem grouped_selectTokens {columns : List Column} {aggregate : Option Aggregate} (distinct : Bool)
    (limit offset : Option UInt64) (hc : columns.all (!·.isRaw) = true) (ha : aggregate.all Aggregate.rawFree = true) :
    Grouped d numbers (selectTokens d columns aggregate distinct limit offset) := by
  cases aggregate with
  | some a => exact Aggregate.grouped_tokens distinct ha
  | none =>
    refine Grouped.append ((Grouped.of_flat ?_).append (.of_flat (all_flat_topTokens d limit offset))) ?_
    · cases distinct <;> decide
    · split
      · exact .of_flat (by decide)
      · exact .of_flat (all_flat_columnList hc)

/-- The clauses of a query without raw SQL are grouped if its predicates are. -/
structure Query.PartsGrouped (d : Dialect) (numbers : Prop) (q : Query) : Prop where
  rawFree : q.rawFree = true
  filters : Grouped d numbers (Filter.listTokens d q.filters)
  havings : Grouped d numbers (Filter.listTokens d q.havings)
  /-- SQL Server numbers the rows of a query with an offset. -/
  numbered : d = .sqlServer → q.offset.isSome = true → numbers

namespace Query.PartsGrouped

variable {q : Query} (h : q.PartsGrouped d numbers)

include h

theorem selectClause : Grouped d numbers (q.selectClause d) := by
  have hraw := h.rawFree
  obtain ⟨source, columns, aggregate, joins, filters, groupings, havings, orderings, limit, offset, distinct⟩ := q
  simp only [Query.rawFree, Bool.and_eq_true] at hraw
  exact grouped_selectTokens distinct limit offset hraw.1.1.1.1.1.1.2 hraw.1.1.1.1.1.2

theorem sourceTokens : Grouped d numbers (q.sourceTokens d) := by
  obtain ⟨hraw, hfilters, hhavings, -⟩ := h
  obtain ⟨source, columns, aggregate, joins, filters, groupings, havings, orderings, limit, offset, distinct⟩ := q
  simp only [Query.rawFree, Bool.and_eq_true] at hraw
  obtain ⟨⟨⟨⟨⟨⟨⟨hsource, -⟩, -⟩, hjoins⟩, -⟩, hgroupings⟩, -⟩, -⟩ := hraw
  refine Grouped.append (.append (.append (.append (grouped_following ?_) (grouped_following ?_))
    (grouped_following ?_)) (grouped_following ?_)) (grouped_following ?_)
  · cases source with
    | none => exact .of_flat rfl
    | some s => exact (Grouped.of_flat (Source.all_flat hsource)).cons (by decide)
  · refine Grouped.separated (by decide) fun part hp => ?_
    obtain ⟨j, hj, rfl⟩ := List.mem_map.1 hp
    exact .of_flat (Join.all_flat (List.all_eq_true.1 hjoins j hj))
  · exact grouped_optionalClause (by decide) _ hfilters
  · exact grouped_optionalClause (by decide) _ (.of_flat (all_flat_columnList hgroupings))
  · exact grouped_optionalClause (by decide) _ hhavings

theorem orderTokens : q.orderTokens.all flat = true := by
  have hraw := h.rawFree
  obtain ⟨source, columns, aggregate, joins, filters, groupings, havings, orderings, limit, offset, distinct⟩ := q
  simp only [Query.rawFree, Bool.and_eq_true] at hraw
  refine all_separated (by decide) fun part hp => ?_
  obtain ⟨k, hk, rfl⟩ := List.mem_map.1 hp
  exact SortKey.all_flat (List.all_eq_true.1 hraw.2 k hk)

theorem numberOrder : Grouped d numbers q.numberOrder ∧ q.numberOrder.any shown = true := by
  unfold Query.numberOrder
  split
  · have hconstant : Grouped d numbers (word "ORDER BY (SELECT 0)" :: []) := fun before => by
      have hinner : Lexeme.Grouped numbers (Lexeme.chars "SELECT 0") := .of_flat (by decide)
      have hbefore : Lexeme.Grouped numbers (Lexeme.chars "ORDER BY ") := .of_flat (by decide)
      exact hbefore.append (hinner.enclosed (by decide))
    exact ⟨hconstant, rfl⟩
  · exact ⟨(Grouped.of_flat h.orderTokens).cons (by decide), rfl⟩

/-- The one pair of parentheses around nothing is behind the function that numbers rows. -/
theorem tokens : Grouped d numbers (q.tokens d) := by
  by_cases hd : d = .sqlServer ∧ q.offset ≠ none
  · obtain ⟨rfl, hoffset⟩ := hd
    obtain ⟨start, hstart⟩ := Option.ne_none_iff_exists'.1 hoffset
    have hnumbers : numbers := h.numbered rfl (by rw [hstart]; rfl)
    obtain ⟨horder, hshown⟩ := h.numberOrder
    have hcall : Grouped .sqlServer numbers (word ", ROW_NUMBER() OVER (" :: (q.numberOrder ++ [word ") AS RowNum"])) :=
      Grouped.enclosed_behind (by decide) (.rowNumber hnumbers) (by decide) horder hshown
    have hselect := Grouped.enclosed "SELECT * FROM (" ") AS TempTable WHERE RowNum " (by decide) (by decide)
      (h.selectClause.append (hcall.append h.sourceTokens))
      (by rw [List.any_append, q.any_shown_selectClause]; rfl)
    have hrange := hselect.append (.of_flat (all_flat_rowRange start q.limit))
    rw [Query.tokens_numbered hstart]
    simpa using hrange
  · have hcut : d ≠ .sqlServer ∨ q.offset = none := by
      rwa [not_and_or, not_not] at hd
    rw [Query.tokens_cut hcut]
    have horder : Grouped d numbers q.orderClause := grouped_optionalClause (by decide) _ (.of_flat h.orderTokens)
    have hlimit : Grouped d numbers (limitTokens d q.limit q.offset) := .of_flat (all_flat_limitTokens d _ _)
    have hoffset : Grouped d numbers (offsetTokens d q.offset) := .of_flat (all_flat_offsetTokens d _)
    exact (((h.selectClause.append h.sourceTokens).append (grouped_following horder)).append
      (grouped_following hlimit)).append (grouped_following hoffset)

end Query.PartsGrouped

mutual

theorem Predicate.grouped_tokens (d : Dialect) (numbers : Prop) :
    ∀ p : Predicate, p.rawFree = true → p.groupsFilled = true → (d = .sqlServer → p.hasOffset = true → numbers) →
      Grouped d numbers (p.tokens d)
  | .compare column op value, hraw, _, _ => by
    rw [Predicate.rawFree, Bool.and_eq_true] at hraw
    exact .of_flat (all_flat_comparisonTokens op hraw.1 hraw.2)
  | .isIn column values negated, hraw, _, _ => by
    rw [Predicate.rawFree, Bool.and_eq_true] at hraw
    exact grouped_membershipTokens negated hraw.1 hraw.2
  | .between column low high negated, hraw, _, _ => by
    simp only [Predicate.rawFree, Bool.and_eq_true] at hraw
    refine .of_flat ?_
    rw [Predicate.tokens, List.all_append, Column.all_flat hraw.1.1, List.all_cons, List.all_cons, List.all_cons,
      List.all_cons, Expr.flat_token hraw.1.2, Expr.flat_token hraw.2]
    cases negated <;> decide
  | .isNull column negated, hraw, _, _ => by
    refine .of_flat ?_
    rw [Predicate.tokens, List.all_append, Column.all_flat hraw]
    cases negated <;> decide
  | .hasRow query negated, hraw, hfilled, hnumbers => by
    refine Grouped.enclosed _ _ ?_ (by decide) (Query.grouped_tokens d numbers query hraw hfilled hnumbers)
      (query.any_shown_tokens d)
    cases negated <;> decide
  | .group filters, hraw, hfilled, hnumbers => by
    rw [Predicate.groupsFilled, Bool.and_eq_true, Bool.not_eq_true', List.isEmpty_eq_false_iff] at hfilled
    have hfilters := Filter.grouped_listTokens d numbers filters hraw hfilled.2 hnumbers
    exact hfilters.enclosed _ _ (by decide) (by decide) (Filter.any_shown_listTokens d hfilled.1 hraw)
  | .raw _, hraw, _, _ => by cases hraw

theorem Filter.grouped_listTokens (d : Dialect) (numbers : Prop) :
    ∀ filters : List Filter, Filter.listRawFree filters = true → Filter.listGroupsFilled filters = true →
      (d = .sqlServer → Filter.listHasOffset filters = true → numbers) →
        Grouped d numbers (Filter.listTokens d filters)
  | [], _, _, _ => .of_flat rfl
  | ⟨_, predicate⟩ :: rest, hraw, hfilled, hnumbers => by
    rw [Filter.listRawFree, Bool.and_eq_true] at hraw
    rw [Filter.listGroupsFilled, Bool.and_eq_true] at hfilled
    simp only [Filter.listHasOffset, Bool.or_eq_true] at hnumbers
    exact (Predicate.grouped_tokens d numbers predicate hraw.1 hfilled.1 fun hd h => hnumbers hd (.inl h)).append
      (Filter.grouped_moreTokens d numbers rest hraw.2 hfilled.2 fun hd h => hnumbers hd (.inr h))

theorem Filter.grouped_moreTokens (d : Dialect) (numbers : Prop) :
    ∀ filters : List Filter, Filter.listRawFree filters = true → Filter.listGroupsFilled filters = true →
      (d = .sqlServer → Filter.listHasOffset filters = true → numbers) →
        Grouped d numbers (Filter.moreTokens d filters)
  | [], _, _, _ => .of_flat rfl
  | ⟨connector, predicate⟩ :: rest, hraw, hfilled, hnumbers => by
    rw [Filter.listRawFree, Bool.and_eq_true] at hraw
    rw [Filter.listGroupsFilled, Bool.and_eq_true] at hfilled
    simp only [Filter.listHasOffset, Bool.or_eq_true] at hnumbers
    have hpredicate := Predicate.grouped_tokens d numbers predicate hraw.1 hfilled.1 fun hd h => hnumbers hd (.inl h)
    refine (hpredicate.cons ?_).append
      (Filter.grouped_moreTokens d numbers rest hraw.2 hfilled.2 fun hd h => hnumbers hd (.inr h))
    cases connector <;> decide

theorem Query.grouped_tokens (d : Dialect) (numbers : Prop) :
    ∀ q : Query, q.rawFree = true → q.groupsFilled = true → (d = .sqlServer → q.hasOffset = true → numbers) →
      Grouped d numbers (q.tokens d)
  | ⟨source, columns, aggregate, joins, filters, groupings, havings, orderings, limit, offset, distinct⟩, hraw, hfilled,
      hnumbers => by
    rw [Query.groupsFilled, Bool.and_eq_true] at hfilled
    simp only [Query.hasOffset, Bool.or_eq_true] at hnumbers
    refine Query.PartsGrouped.tokens ⟨hraw, ?_, ?_, fun hd h => hnumbers hd (.inl (.inl h))⟩
    · simp only [Query.rawFree, Bool.and_eq_true] at hraw
      exact Filter.grouped_listTokens d numbers filters hraw.1.1.1.2 hfilled.1 fun hd h => hnumbers hd (.inl (.inr h))
    · simp only [Query.rawFree, Bool.and_eq_true] at hraw
      exact Filter.grouped_listTokens d numbers havings hraw.1.2 hfilled.2 fun hd h => hnumbers hd (.inr h)

end

end

/-- **What the builder methods make has no empty group.**  A query that they make from one without clauses, and that
holds no raw SQL, has no empty group of predicates at any depth, compiles in every dialect, and its text outside the
quoted names has balanced parentheses.  A pair of them with nothing between follows the function that numbers rows, and
that is written on SQL Server alone, for a query with an offset. -/
theorem Query.Built.parenthesized {source : Option Source} {q : Query} (h : Built { empty with source } q)
    (hraw : q.rawFree = true) (d : Dialect) (before : List Value) :
    q.groupsFilled = true ∧
      ∃ c, (Statement.query q).compileAfter d before = .ok c ∧
        Lexeme.Balanced (Lexeme.lex d c.sql.toList) ∧
        ∀ l r, Lexeme.lex d c.sql.toList = l ++ Lexeme.char '(' :: Lexeme.char ')' :: r →
          (d = .sqlServer ∧ q.hasOffset = true) ∧
            Lexeme.chars ", ROW_NUMBER" <:+ l ∧ Lexeme.chars " OVER " <+: r := by
  have hfilled := h.groupsFilled rfl
  have hgrouped := Query.grouped_tokens d (d = .sqlServer ∧ q.hasOffset = true) q hraw hfilled (fun hd ho => ⟨hd, ho⟩)
    before.length
  have hcompiles := Statement.compileAfter_eq (d := d) (s := .query q) rfl before
  have hlex := lex_compileAfter (s := .query q) hraw hcompiles
  exact ⟨hfilled, _, hcompiles, by rw [hlex]; exact hgrouped.toBalanced, by rw [hlex]; exact hgrouped.empties⟩

/-- A group of an empty group and a membership in nothing, in a column whose name holds parentheses, and a page of an
inner query. -/
def nestedQuery : Query :=
  (((Query.table "users").filterGroup fun q =>
    (q.filterGroup fun q => q.leftJoin "teams" (.name "a") .eq (.name "b")).filterIn (.name "x()") [.value (.int 1)])
    |>.filterExists ((Query.table "posts").skip 2)).aggregateBy .count []

theorem parenthesized_nestedQuery :
    Query.Built (Query.table "users") nestedQuery ∧ nestedQuery.rawFree = true ∧ nestedQuery.groupsFilled = true ∧
      ∃ c, (Statement.query nestedQuery).compileAfter .sqlServer [.int 7] = .ok c ∧
        c.sql = "SELECT COUNT(*) AS [aggregate] FROM [users] WHERE ([x()] IN (@P2)) AND EXISTS (" ++
          "SELECT * FROM (SELECT *, ROW_NUMBER() OVER (ORDER BY (SELECT 0)) AS RowNum FROM [posts]) " ++
          "AS TempTable WHERE RowNum >= 3)" ∧
        Lexeme.Balanced (Lexeme.lex .sqlServer c.sql.toList) := by
  have hinner : Query.Built .empty (Query.empty.leftJoin "teams" (.name "a") .eq (.name "b")) :=
    Query.Built.refl.join _ _ _
  have hgroup : Query.Built .empty
      ((Query.empty.filterGroup fun q => q.leftJoin "teams" (.name "a") .eq (.name "b")).filterIn (.name "x()")
        [.value (.int 1)]) :=
    (Query.Built.refl.group .and hinner).isIn _ _ _ _
  have hbuilt : Query.Built (Query.table "users") nestedQuery :=
    ((Query.Built.refl.group .and hgroup).hasRow .and (Query.Built.refl.skip 2) false).aggregateBy _ _
  have hraw : nestedQuery.rawFree = true := by decide
  obtain ⟨hfilled, c, hcompiles, hbalanced, -⟩ :=
    @Query.Built.parenthesized (some (.table "users")) nestedQuery hbuilt hraw .sqlServer [.int 7]
  refine ⟨hbuilt, hraw, hfilled, c, hcompiles, ?_, hbalanced⟩
  rw [Statement.compileAfter_eq rfl] at hcompiles
  rw [← congrArg Compiled.sql (Except.ok.inj hcompiles)]
  decide +kernel

/-- **SQL Server calls a function without arguments** where a query has an offset. -/
theorem offset_writes_empty_parentheses :
    Query.Built (Query.table "users") ((Query.table "users").skip 10) ∧
      ∃ c, (Statement.query ((Query.table "users").skip 10)).compile .sqlServer = .ok c ∧
        c.sql = "SELECT * FROM (SELECT *, ROW_NUMBER() OVER (ORDER BY (SELECT 0)) AS RowNum FROM [users]) " ++
          "AS TempTable WHERE RowNum >= 11" ∧
        ∃ l r, Lexeme.lex .sqlServer c.sql.toList = l ++ Lexeme.char '(' :: Lexeme.char ')' :: r := by
  have hcompiles := Statement.compileAfter_eq (d := .sqlServer) (s := .query ((Query.table "users").skip 10)) rfl []
  refine ⟨Query.Built.refl.skip 10, _, hcompiles, by decide +kernel, Lexeme.chars "SELECT * FROM (SELECT *, ROW_NUMBER",
    Lexeme.chars " OVER (ORDER BY (SELECT 0)) AS RowNum FROM " ++ Lexeme.quoted "users".toList ::
      Lexeme.chars ") AS TempTable WHERE RowNum >= 11", ?_⟩
  rw [lex_compileAfter (by decide) hcompiles]
  decide +kernel

end SqlMapper
