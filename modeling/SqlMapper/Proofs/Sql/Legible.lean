import SqlMapper.Proofs.Query.RawFree
import SqlMapper.Proofs.Sql.Lexeme
import SqlMapper.Sql.Compile
/-!
# Legible — token lists that are read back from their text

The words of the grammar hold no quote and no mark, and after a segment or a value there is always a word that starts
with a blank or a punctuation mark.  Lists with these two properties are legible: their text is read back token by token
(`lex_layout`).  Statements without raw SQL have legible tokens (`Statement.legible_tokens`), by one induction over
predicates and queries.
-/
namespace SqlMapper

open Lexeme (lex lex_plain lex_quoted lex_placeholder Ends isPlain atPosition)

namespace Token

/-! ## Legible lists -/

/-- A text that neither lengthens a number nor doubles a quote before it. -/
def separates (text : String) : Bool :=
  match text.toList with
  | [] => false
  | c :: _ => !c.isDigit && c ∉ ['"', '`', ']']

def startsApart : List Token → Bool
  | [] => true
  | word text :: _ => separates text
  | _ => false

def legible : List Token → Bool
  | [] => true
  | word text :: rest => text.toList.all isPlain && legible rest
  | raw _ :: _ => false
  | number _ :: rest => legible rest
  | ident _ :: rest => startsApart rest && legible rest
  | bound _ :: rest => startsApart rest && legible rest

/-- The lexemes that stand for tokens after `before` bound values. -/
def lexemes (d : Dialect) (before : Nat) : List Token → List Lexeme
  | [] => []
  | word text :: rest => text.toList.map .char ++ lexemes d before rest
  | raw sql :: rest => sql.toList.map .char ++ lexemes d before rest
  | number n :: rest => (digits n.toNat).map .char ++ lexemes d before rest
  | ident segment :: rest => .quoted segment.toList :: lexemes d before rest
  | bound _ :: rest => atPosition d (before + 1) :: lexemes d (before + 1) rest

def segment? : Token → Option (List Char)
  | ident segment => some segment.toList
  | _ => none

theorem ends_layout {p : Char → Prop} (d : Dialect) (before : Nat) {rest : List Token} (h : startsApart rest = true)
    (hp : ∀ c, p c → c.isDigit = true ∨ c ∈ ['"', '`', ']']) : Ends p (layout d before rest) := by
  intro c cs he hc
  match rest, h with
  | [], _ => cases he
  | word text :: rest, h =>
    rw [startsApart, separates] at h
    rw [layout] at he
    cases ht : text.toList with
    | nil => simp [ht] at h
    | cons c' cs' =>
      rw [ht, List.cons_append, List.cons.injEq] at he
      rw [ht, he.1] at h
      simp only [Bool.and_eq_true, Bool.not_eq_true', decide_eq_true_eq] at h
      rcases hp c hc with hd | hm
      · rw [hd] at h
        exact Bool.noConfusion h.1
      · exact h.2 hm

/-- **The text of a legible list is read back token by token.** -/
theorem lex_layout (d : Dialect) :
    ∀ (tokens : List Token) (before : Nat), legible tokens = true →
      lex d (layout d before tokens) = lexemes d before tokens
  | [], _, _ => by rw [layout, lex, lexemes]
  | word text :: rest, before, h => by
    rw [legible, Bool.and_eq_true] at h
    rw [layout, lexemes, lex_plain d _ _ h.1, lex_layout d rest before h.2]
  | raw _ :: _, _, h => by cases h
  | number n :: rest, before, h => by
    have hp : (digits n.toNat).all isPlain = true :=
      List.all_eq_true.2 fun c hc => Lexeme.isPlain_of_isDigit (Nat.isDigit_of_mem_toDigits (by decide) (by decide) hc)
    rw [layout, lexemes, lex_plain d _ _ hp, lex_layout d rest before h]
  | ident segment :: rest, before, h => by
    rw [legible, Bool.and_eq_true] at h
    have he : Ends (· = d.closeQuote) (layout d before rest) :=
      ends_layout d before h.1 fun c hc => .inr (by cases d <;> rw [hc] <;> decide)
    rw [layout, lexemes, lex_quoted d _ _ he, lex_layout d rest before h.2]
  | bound _ :: rest, before, h => by
    rw [legible, Bool.and_eq_true] at h
    have he : Ends (Char.isDigit · = true) (layout d (before + 1) rest) :=
      ends_layout d (before + 1) h.1 fun c hc => .inl hc
    rw [layout, lexemes, lex_placeholder d _ _ he, lex_layout d rest (before + 1) h.2]

/-! ## What the lexemes say -/

theorem flatMap_text_lexemes (d : Dialect) :
    ∀ (tokens : List Token) (before : Nat), (lexemes d before tokens).flatMap (Lexeme.text d) = layout d before tokens
  | [], _ => rfl
  | word _ :: rest, before | raw _ :: rest, before | number _ :: rest, before => by
    simp [lexemes, layout, List.flatMap_map, Lexeme.text, flatMap_text_lexemes d rest before]
  | ident _ :: rest, before => by simp [lexemes, layout, Lexeme.text, flatMap_text_lexemes d rest before]
  | bound _ :: rest, before => by simp [lexemes, layout, flatMap_text_lexemes d rest (before + 1)]

/-- Values that are bound before count every placeholder on, and change nothing else. -/
theorem lexemes_add (d : Dialect) (k : Nat) :
    ∀ (tokens : List Token) (before : Nat), lexemes d (before + k) tokens = (lexemes d before tokens).map (.shift k)
  | [], _ => rfl
  | word _ :: rest, before | raw _ :: rest, before | number _ :: rest, before => by
    simp [lexemes, Lexeme.shift, Function.comp_def, lexemes_add d k rest before]
  | ident _ :: rest, before => by simp [lexemes, Lexeme.shift, lexemes_add d k rest before]
  | bound _ :: rest, before => by
    have ih := lexemes_add d k rest (before + 1)
    rw [show before + 1 + k = before + k + 1 by omega] at ih
    rw [lexemes, lexemes, List.map_cons, Lexeme.shift_atPosition, ih, show before + 1 + k = before + k + 1 by omega]

theorem filter_isPlaceholder_lexemes (d : Dialect) :
    ∀ (tokens : List Token) (before : Nat),
      (lexemes d before tokens).filter Lexeme.isPlaceholder =
        (List.range (bindings d tokens).length).map fun i => atPosition d (before + (i + 1))
  | [], _ => rfl
  | word _ :: rest, before | raw _ :: rest, before | number _ :: rest, before => by
    have ih := filter_isPlaceholder_lexemes d rest before
    simp only [bindings] at ih
    simp [lexemes, bindings, List.filter_map, Function.comp_def, Lexeme.isPlaceholder, ih]
  | ident _ :: rest, before => by
    have ih := filter_isPlaceholder_lexemes d rest before
    simp only [bindings] at ih
    simp [lexemes, bindings, Lexeme.isPlaceholder, ih]
  | bound _ :: rest, before => by
    have ih := filter_isPlaceholder_lexemes d rest (before + 1)
    simp only [bindings] at ih
    simp [lexemes, bindings, ih, List.range_succ_eq_map, Function.comp_def, Nat.add_assoc, Nat.add_comm 1]

theorem filterMap_quoted?_lexemes (d : Dialect) :
    ∀ (tokens : List Token) (before : Nat),
      (lexemes d before tokens).filterMap Lexeme.quoted? = tokens.filterMap segment?
  | [], _ => rfl
  | word _ :: rest, before | raw _ :: rest, before | number _ :: rest, before => by
    have hc : ∀ cs : List Char, (cs.map Lexeme.char).filterMap Lexeme.quoted? = [] := fun cs => by
      rw [List.filterMap_map]
      exact List.filterMap_eq_nil_iff.2 fun _ _ => rfl
    rw [lexemes, List.filterMap_append, hc, List.nil_append, filterMap_quoted?_lexemes d rest before]
    rfl
  | ident _ :: rest, before => by
    simp [lexemes, Lexeme.quoted?, segment?, filterMap_quoted?_lexemes d rest before]
  | bound _ :: rest, before => by
    rw [lexemes, List.filterMap_cons_none (Lexeme.quoted?_atPosition d _), filterMap_quoted?_lexemes d rest (before + 1)]
    rfl

/-! ## Building legible lists -/

theorem startsApart_append {a b : List Token} (ha : startsApart a = true) (hb : startsApart b = true) :
    startsApart (a ++ b) = true := by
  cases a with
  | nil => exact hb
  | cons t a => cases t <;> exact ha

/-- What follows a legible list has to stand apart from it. -/
theorem legible_append {b : List Token} (hb : legible b = true) (hs : startsApart b = true) :
    ∀ {a : List Token}, legible a = true → legible (a ++ b) = true
  | [], _ => hb
  | word _ :: a, ha => by
    rw [legible, Bool.and_eq_true] at ha
    rw [List.cons_append, legible, ha.1, legible_append hb hs ha.2]
    rfl
  | raw _ :: _, ha => by cases ha
  | number _ :: a, ha => by
    rw [List.cons_append, legible]
    exact legible_append hb hs ha
  | ident _ :: a, ha | bound _ :: a, ha => by
    rw [legible, Bool.and_eq_true] at ha
    rw [List.cons_append, legible, startsApart_append ha.1 hs, legible_append hb hs ha.2]
    rfl

theorem legible_word {text : String} {rest : List Token} (ht : text.toList.all isPlain = true)
    (h : legible rest = true) : legible (word text :: rest) = true := by
  rw [legible, ht, h]
  rfl

theorem legible_separated {separator : String} (hp : separator.toList.all isPlain = true)
    (hs : separates separator = true) {parts : List (List Token)} (h : ∀ p ∈ parts, legible p = true) :
    legible (separated separator parts) = true :=
  separated_induction (P := fun tokens => legible tokens = true) rfl
    (fun ha hb => legible_append (legible_word hp hb) hs ha) h

theorem legible_clauses {parts : List (List Token)} (h : ∀ p ∈ parts, legible p = true) :
    legible (clauses parts) = true :=
  legible_separated (by decide) (by decide) fun p hp => h p (List.mem_filter.1 hp).1

theorem legible_segment (s : String) : legible [segment s] = true := by
  unfold segment
  split <;> rfl

theorem legible_name (s : String) : legible (name s) = true := by
  refine legible_separated (by decide) (by decide) fun p hp => ?_
  obtain ⟨part, -, rfl⟩ := List.mem_map.1 hp
  exact legible_segment part

end Token

/-! ## Statements without raw SQL -/

open Token (word legible legible_append legible_word legible_name legible_segment legible_separated legible_clauses)

theorem Column.legible_tokens {c : Column} (h : (!c.isRaw) = true) : legible c.tokens = true := by
  cases c with
  | name n => exact legible_name n
  | aliased n a => exact legible_append (legible_word (by decide) (legible_segment a)) rfl (legible_name n)
  | raw sql => cases h

theorem Expr.legible_token {e : Expr} (h : (!e.isRaw) = true) : legible [e.token] = true := by
  cases e with
  | value v => rfl
  | raw sql => cases h

theorem legible_exprList {values : List Expr} (h : values.all (!·.isRaw) = true) : legible (exprList values) = true := by
  refine legible_separated (by decide) (by decide) fun p hp => ?_
  obtain ⟨v, hv, rfl⟩ := List.mem_map.1 hp
  exact Expr.legible_token (List.all_eq_true.1 h v hv)

theorem legible_columnList {columns : List Column} (h : columns.all (!·.isRaw) = true) :
    legible (columnList columns) = true := by
  refine legible_separated (by decide) (by decide) fun p hp => ?_
  obtain ⟨c, hc, rfl⟩ := List.mem_map.1 hp
  exact Column.legible_tokens (List.all_eq_true.1 h c hc)

theorem Source.legible_tokens {s : Source} (h : s.rawFree = true) : legible s.tokens = true := by
  cases s with
  | table name =>
    refine Column.legible_tokens ?_
    unfold Column.parse
    split <;> rfl
  | raw sql => cases h

/-- What stands on both sides of a comparison is kept apart by it. -/
theorem Comparison.legible_append (op : Comparison) {a b : List Token} (ha : legible a = true) (hb : legible b = true) :
    legible (a ++ word (" " ++ op.symbol ++ " ") :: b) = true := by
  have hw : (" " ++ op.symbol ++ " ").toList.all Lexeme.isPlain = true := by cases op <;> decide
  have hs : Token.separates (" " ++ op.symbol ++ " ") = true := by cases op <;> decide
  exact Token.legible_append (legible_word hw hb) hs ha

theorem Connector.legible_cons (connector : Connector) {tokens : List Token} (h : legible tokens = true) :
    legible (word (" " ++ connector.symbol ++ " ") :: tokens) = true ∧
      Token.startsApart (word (" " ++ connector.symbol ++ " ") :: tokens) = true := by
  have hw : (" " ++ connector.symbol ++ " ").toList.all Lexeme.isPlain = true := by cases connector <;> decide
  have hs : Token.separates (" " ++ connector.symbol ++ " ") = true := by cases connector <;> decide
  exact ⟨legible_word hw h, hs⟩

theorem JoinClause.legible_tokens {c : JoinClause} (h : c.rawFree = true) : legible c.tokens = true := by
  rw [JoinClause.rawFree, Bool.and_eq_true] at h
  exact c.op.legible_append (Column.legible_tokens h.1) (Column.legible_tokens h.2)

theorem JoinClause.legible_moreTokens :
    ∀ {clauses : List JoinClause}, clauses.all JoinClause.rawFree = true →
      legible (moreTokens clauses) = true ∧ Token.startsApart (moreTokens clauses) = true
  | [], _ => ⟨rfl, rfl⟩
  | c :: rest, h => by
    rw [List.all_cons, Bool.and_eq_true] at h
    have ih := legible_moreTokens h.2
    exact c.connector.legible_cons (legible_append ih.1 ih.2 (JoinClause.legible_tokens h.1))

theorem Join.legible_tokens {j : Join} (h : j.rawFree = true) : legible j.tokens = true := by
  have hk : (j.kind.symbol ++ " ").toList.all Lexeme.isPlain = true := by cases j.kind <;> decide
  refine legible_append (legible_word (by decide) ?_) rfl (legible_word hk (legible_name j.table))
  rw [Join.rawFree] at h
  cases hc : j.clauses with
  | nil => rfl
  | cons c rest =>
    rw [hc, List.all_cons, Bool.and_eq_true] at h
    have hm := JoinClause.legible_moreTokens h.2
    exact legible_append hm.1 hm.2 (JoinClause.legible_tokens h.1)

theorem SortKey.legible_tokens {k : SortKey} (h : (!k.column.isRaw) = true) : legible k.tokens = true := by
  cases hd : k.direction <;>
    exact legible_append (by rw [hd]; decide) (by rw [hd]; decide) (Column.legible_tokens h)

theorem Aggregate.legible_tokens {a : Aggregate} (distinct : Bool) (h : a.rawFree = true) :
    legible (a.tokens distinct) = true := by
  have hw : ("SELECT " ++ a.function.symbol ++ "(").toList.all Lexeme.isPlain = true := by cases a.function <;> decide
  refine legible_append (by decide) (by decide) (legible_word hw ?_)
  split
  · decide
  · cases distinct with
    | false => exact legible_columnList h
    | true => exact legible_word (by decide) (legible_columnList h)

theorem legible_optionalClause {keyword : String} {isEmpty : Bool} {body : List Token}
    (hk : keyword.toList.all Lexeme.isPlain = true) (h : legible body = true) :
    legible (optionalClause keyword isEmpty body) = true := by
  cases isEmpty with
  | true => rfl
  | false => exact legible_word hk h

theorem legible_selectTokens (d : Dialect) {columns : List Column} {aggregate : Option Aggregate} (distinct : Bool)
    (limit offset : Option UInt64) (hc : columns.all (!·.isRaw) = true) (ha : aggregate.all Aggregate.rawFree = true) :
    legible (selectTokens d columns aggregate distinct limit offset) = true := by
  cases aggregate with
  | some a => exact Aggregate.legible_tokens distinct ha
  | none =>
    have hl : legible (if columns = [] then [word "*"] else columnList columns) = true := by
      split
      · rfl
      · exact legible_columnList hc
    have ht : legible (topTokens d limit offset ++ if columns = [] then [word "*"] else columnList columns) = true := by
      unfold topTokens
      split
      · exact legible_word (by decide) (legible_word (by decide) hl)
      · exact hl
    rw [selectTokens, List.append_assoc]
    cases distinct with
    | false => exact legible_word (by decide) ht
    | true => exact legible_word (by decide) (legible_word (by decide) ht)

theorem legible_limitTokens (d : Dialect) (limit offset : Option UInt64) :
    legible (limitTokens d limit offset) = true := by
  unfold limitTokens
  split <;> rfl

theorem legible_offsetTokens (d : Dialect) (offset : Option UInt64) : legible (offsetTokens d offset) = true := by
  unfold offsetTokens
  split <;> rfl

theorem legible_rowRange (offset : UInt64) (limit : Option UInt64) : legible (rowRange offset limit) = true := by
  cases limit <;> rfl

/-- The clauses of a query may be moved around: whatever their order, they stay apart. -/
theorem SelectClauses.legible_tokens {c : SelectClauses} (d : Dialect) (limit offset : Option UInt64)
    (h : ∀ part ∈ [c.select, c.source, c.joins, c.filters, c.groupings, c.havings, c.orderings], legible part = true) :
    legible (c.tokens d limit offset) = true := by
  unfold SelectClauses.tokens
  split
  · rename_i start
    have ho : legible (if c.orderings = [] then [word "ORDER BY (SELECT 0)"] else c.orderings) = true := by
      split
      · decide
      · exact h _ (by simp)
    have hn : legible (c.select ++ word ", ROW_NUMBER() OVER (" ::
        (if c.orderings = [] then [word "ORDER BY (SELECT 0)"] else c.orderings) ++ [word ") AS RowNum"]) = true := by
      rw [List.append_assoc]
      exact legible_append (legible_append (by decide) (by decide) (legible_word (by decide) ho)) rfl
        (h c.select (by simp))
    refine legible_append (legible_word (by decide) (legible_rowRange start limit)) rfl
      (legible_word (by decide) (legible_clauses fun part hp => ?_))
    rcases List.mem_cons.1 hp with rfl | hp
    · exact hn
    · exact h part (by
        simp only [List.mem_cons, List.not_mem_nil, or_false] at hp
        rcases hp with rfl | rfl | rfl | rfl | rfl <;> simp)
  · refine legible_clauses fun part hp => ?_
    simp only [List.mem_cons, List.not_mem_nil, or_false] at hp
    rcases hp with rfl | rfl | rfl | rfl | rfl | rfl | rfl | rfl | rfl
    · exact h _ (by simp)
    · exact h _ (by simp)
    · exact h _ (by simp)
    · exact h _ (by simp)
    · exact h _ (by simp)
    · exact h _ (by simp)
    · exact h _ (by simp)
    · exact legible_limitTokens d limit offset
    · exact legible_offsetTokens d offset

theorem legible_comparisonTokens {column : Column} {op : Comparison} {value : Expr} (hc : (!column.isRaw) = true)
    (hv : (!value.isRaw) = true) : legible (comparisonTokens column op value) = true := by
  unfold comparisonTokens
  split
  · exact legible_append (by decide) (by decide) (Column.legible_tokens hc)
  · exact legible_append (by decide) (by decide) (Column.legible_tokens hc)
  · exact op.legible_append (Column.legible_tokens hc) (Expr.legible_token hv)

theorem legible_membershipTokens {column : Column} {values : List Expr} (negated : Bool) (hc : (!column.isRaw) = true)
    (hv : values.all (!·.isRaw) = true) : legible (membershipTokens column values negated) = true := by
  unfold membershipTokens
  split
  · cases negated <;> decide
  · have hl : legible (word (if negated then " NOT IN (" else " IN (") :: exprList values) = true :=
      legible_word (by cases negated <;> decide) (legible_exprList hv)
    rw [List.append_assoc]
    exact legible_append (legible_append (by decide) (by decide) hl) (by cases negated <;> rfl)
      (Column.legible_tokens hc)

mutual

theorem Predicate.legible_tokens (d : Dialect) : ∀ p : Predicate, p.rawFree = true → legible (p.tokens d) = true
  | .compare column op value, h => by
    rw [Predicate.rawFree, Bool.and_eq_true] at h
    exact legible_comparisonTokens h.1 h.2
  | .isIn column values negated, h => by
    rw [Predicate.rawFree, Bool.and_eq_true] at h
    exact legible_membershipTokens negated h.1 h.2
  | .between column low high negated, h => by
    simp only [Predicate.rawFree, Bool.and_eq_true] at h
    have hr : legible [low.token, word " AND ", high.token] = true :=
      legible_append (legible_word (by decide) (Expr.legible_token h.2)) rfl (Expr.legible_token h.1.2)
    exact legible_append (legible_word (by cases negated <;> decide) hr) (by cases negated <;> rfl)
      (Column.legible_tokens h.1.1)
  | .isNull column negated, h => by
    cases negated <;> exact legible_append (by decide) (by decide) (Column.legible_tokens h)
  | .hasRow query negated, h => by
    have ih := Query.legible_tokens d query h
    exact legible_append (by decide) (by decide) (legible_word (by cases negated <;> decide) ih)
  | .raw _, h => by cases h
  | .group filters, h => by
    have ih := Filter.legible_listTokens d filters h
    exact legible_append (by decide) (by decide) (legible_word (by decide) ih)

theorem Filter.legible_listTokens (d : Dialect) :
    ∀ filters : List Filter, Filter.listRawFree filters = true → legible (Filter.listTokens d filters) = true
  | [], _ => rfl
  | ⟨_, predicate⟩ :: rest, h => by
    rw [Filter.listRawFree, Bool.and_eq_true] at h
    have hm := Filter.legible_moreTokens d rest h.2
    exact legible_append hm.1 hm.2 (Predicate.legible_tokens d predicate h.1)

theorem Filter.legible_moreTokens (d : Dialect) :
    ∀ filters : List Filter, Filter.listRawFree filters = true →
      legible (Filter.moreTokens d filters) = true ∧ Token.startsApart (Filter.moreTokens d filters) = true
  | [], _ => ⟨rfl, rfl⟩
  | ⟨connector, predicate⟩ :: rest, h => by
    rw [Filter.listRawFree, Bool.and_eq_true] at h
    have hm := Filter.legible_moreTokens d rest h.2
    exact connector.legible_cons (legible_append hm.1 hm.2 (Predicate.legible_tokens d predicate h.1))

theorem Query.legible_tokens (d : Dialect) : ∀ q : Query, q.rawFree = true → legible (q.tokens d) = true
  | ⟨source, columns, aggregate, joins, filters, groupings, havings, orderings, limit, offset, distinct⟩, h => by
    simp only [Query.rawFree, Bool.and_eq_true] at h
    obtain ⟨⟨⟨⟨⟨⟨⟨hsource, hcolumns⟩, haggregate⟩, hjoins⟩, hfilters⟩, hgroupings⟩, hhavings⟩, horderings⟩ := h
    unfold Query.tokens
    refine SelectClauses.legible_tokens d limit offset fun part hp => ?_
    simp only [List.mem_cons, List.not_mem_nil, or_false] at hp
    rcases hp with rfl | rfl | rfl | rfl | rfl | rfl | rfl
    · exact legible_selectTokens d distinct limit offset hcolumns haggregate
    · cases source with
      | none => rfl
      | some s => exact legible_word (by decide) (Source.legible_tokens hsource)
    · refine legible_separated (by decide) (by decide) fun tokens ht => ?_
      obtain ⟨j, hj, rfl⟩ := List.mem_map.1 ht
      exact Join.legible_tokens (List.all_eq_true.1 hjoins j hj)
    · exact legible_optionalClause (by decide) (Filter.legible_listTokens d filters hfilters)
    · exact legible_optionalClause (by decide) (legible_columnList hgroupings)
    · exact legible_optionalClause (by decide) (Filter.legible_listTokens d havings hhavings)
    · refine legible_optionalClause (by decide) (legible_separated (by decide) (by decide) fun tokens ht => ?_)
      obtain ⟨k, hk, rfl⟩ := List.mem_map.1 ht
      exact SortKey.legible_tokens (List.all_eq_true.1 horderings k hk)

end

end SqlMapper
