import SqlMapper.Proofs.Sql.Placeholders
/-!
# Grammar — one language outside paging

The dialects quote names and number values in their own ways, and they page differently.  Everything else is written
alike: a statement whose queries are not paged has the same tokens for all of them (`Statement.tokens_eq`).  Read from
the text, with quotes taken off and numbers dropped, it is one and the same sequence.
-/
namespace SqlMapper

open Token (word separated)
open Lexeme (lex)

/-! ## Statements without paging -/

mutual

/-- No query inside the predicate has a limit or an offset. -/
def Predicate.unpaged : Predicate → Bool
  | .hasRow query _ => query.unpaged
  | .group filters => Filter.listUnpaged filters
  | .compare .. | .isIn .. | .between .. | .isNull .. | .raw _ => true

def Filter.listUnpaged : List Filter → Bool
  | [] => true
  | ⟨_, predicate⟩ :: rest => predicate.unpaged && Filter.listUnpaged rest

/-- Neither the query nor a query inside its predicates has a limit or an offset. -/
def Query.unpaged : Query → Bool
  | ⟨_, _, _, _, filters, _, havings, _, limit, offset, _⟩ =>
    limit.isNone && offset.isNone && Filter.listUnpaged filters && Filter.listUnpaged havings

end

/-- The forms of statements that all dialects share: there is no paging, and an insert has columns, at most one row, and
no column to return. -/
def Statement.isCommon : Statement → Bool
  | .query q => q.unpaged
  | .insert i => !i.columns.isEmpty && i.returning.isNone && decide (i.rows.length ≤ 1)
  | .update u => u.target.unpaged
  | .delete target => target.unpaged
  | .truncate _ => false

/-! ## The tokens of two dialects -/

section

variable (d d' : Dialect)

theorem selectTokens_eq (columns : List Column) (aggregate : Option Aggregate) (distinct : Bool) :
    selectTokens d columns aggregate distinct none none = selectTokens d' columns aggregate distinct none none := by
  have htop : topTokens d none none = topTokens d' none none := by cases d <;> cases d' <;> rfl
  unfold selectTokens
  rw [htop]

theorem SelectClauses.tokens_eq (c : SelectClauses) : c.tokens d none none = c.tokens d' none none := by
  cases d <;> cases d' <;> rfl

mutual

theorem Predicate.tokens_eq : ∀ p : Predicate, p.unpaged = true → p.tokens d = p.tokens d'
  | .compare .., _ | .isIn .., _ | .between .., _ | .isNull .., _ | .raw _, _ => by
    simp only [Predicate.tokens]
  | .hasRow query negated, h => by
    have ih := Query.tokens_eq query h
    rw [Predicate.tokens, Predicate.tokens, ih]
  | .group filters, h => by
    have ih := Filter.listTokens_eq filters h
    rw [Predicate.tokens, Predicate.tokens, ih]

theorem Filter.listTokens_eq :
    ∀ filters : List Filter, Filter.listUnpaged filters = true → Filter.listTokens d filters = Filter.listTokens d' filters
  | [], _ => rfl
  | ⟨_, predicate⟩ :: rest, h => by
    rw [Filter.listUnpaged, Bool.and_eq_true] at h
    rw [Filter.listTokens, Filter.listTokens, Predicate.tokens_eq predicate h.1, Filter.moreTokens_eq rest h.2]

theorem Filter.moreTokens_eq :
    ∀ filters : List Filter, Filter.listUnpaged filters = true → Filter.moreTokens d filters = Filter.moreTokens d' filters
  | [], _ => rfl
  | ⟨_, predicate⟩ :: rest, h => by
    rw [Filter.listUnpaged, Bool.and_eq_true] at h
    rw [Filter.moreTokens, Filter.moreTokens, Predicate.tokens_eq predicate h.1, Filter.moreTokens_eq rest h.2]

theorem Query.tokens_eq : ∀ q : Query, q.unpaged = true → q.tokens d = q.tokens d'
  | ⟨source, columns, aggregate, joins, filters, groupings, havings, orderings, limit, offset, distinct⟩, h => by
    simp only [Query.unpaged, Bool.and_eq_true, Option.isNone_iff_eq_none] at h
    obtain ⟨⟨⟨rfl, rfl⟩, hfilters⟩, hhavings⟩ := h
    unfold Query.tokens
    rw [selectTokens_eq d d', Filter.listTokens_eq filters hfilters, Filter.listTokens_eq havings hhavings,
      SelectClauses.tokens_eq d d']

end

theorem Query.whereTokens_eq {q : Query} (h : q.unpaged = true) : q.whereTokens d = q.whereTokens d' := by
  have hfilters : Filter.listUnpaged q.filters = true := by
    obtain ⟨source, columns, aggregate, joins, filters, groupings, havings, orderings, limit, offset, distinct⟩ := q
    simp only [Query.unpaged, Bool.and_eq_true] at h
    exact h.1.2
  rw [Query.whereTokens, Query.whereTokens, Filter.listTokens_eq d d' q.filters hfilters]

/-- A single row is listed as values, also where several rows would be a union. -/
theorem Insert.rowsTokens_eq {i : Insert} (h : i.rows.length ≤ 1) : i.rowsTokens d = i.rowsTokens d' := by
  have hnot : ¬ 1 < i.rows.length := Nat.not_lt.2 h
  rw [Insert.rowsTokens, Insert.rowsTokens, if_neg fun hu => hnot hu.2, if_neg fun hu => hnot hu.2]

/-- **Statements of the common forms have the same tokens for all dialects.** -/
theorem Statement.tokens_eq {s : Statement} (h : s.isCommon = true) : s.tokens d = s.tokens d' := by
  cases s with
  | query q => exact Query.tokens_eq d d' q h
  | insert i =>
    simp only [Statement.isCommon, Bool.and_eq_true, Bool.not_eq_true', List.isEmpty_eq_false_iff,
      decide_eq_true_eq] at h
    rw [Statement.tokens, Statement.tokens, Insert.tokens, Insert.tokens, if_neg h.1.1, if_neg h.1.1,
      Insert.rowsTokens_eq d d' h.2]
  | update u =>
    rw [Statement.tokens, Statement.tokens, Update.tokens, Update.tokens, Query.whereTokens_eq d d' h]
  | delete target => rw [Statement.tokens, Statement.tokens, Query.whereTokens_eq d d' h]
  | truncate table => cases h

/-- They are refused by all dialects or by none. -/
theorem Statement.refusal?_eq {s : Statement} (h : s.isCommon = true) : s.refusal? d = s.refusal? d' := by
  cases s with
  | insert i =>
    simp only [Statement.isCommon, Bool.and_eq_true, Option.isNone_iff_eq_none] at h
    simp [Statement.refusal?, h.1.2]
  | query q => rfl
  | update u => rfl
  | delete target => rfl
  | truncate table => cases h

end

/-! ## The lexemes of two dialects -/

/-- The lexeme without the mark and the number of a placeholder. -/
def Lexeme.unmarked : Lexeme → Lexeme
  | placeholder _ _ => placeholder [] none
  | l => l

@[simp] theorem Lexeme.unmarked_atPosition (d : Dialect) (position : Nat) :
    (atPosition d position).unmarked = placeholder [] none := by
  cases d <;> rfl

theorem Token.map_unmarked_lexemes (d d' : Dialect) :
    ∀ (tokens : List Token) (before before' : Nat),
      (lexemes d before tokens).map Lexeme.unmarked = (lexemes d' before' tokens).map Lexeme.unmarked
  | [], _, _ => rfl
  | word _ :: rest, before, before' | .raw _ :: rest, before, before' | .number _ :: rest, before, before' => by
    simp only [lexemes, List.map_append, map_unmarked_lexemes d d' rest before before']
  | .ident _ :: rest, before, before' => by
    simp only [lexemes, List.map_cons, map_unmarked_lexemes d d' rest before before']
  | .bound _ :: rest, before, before' => by
    simp only [lexemes, List.map_cons, Lexeme.unmarked_atPosition,
      map_unmarked_lexemes d d' rest (before + 1) (before' + 1)]

/-- **Outside paging and returning the dialects are one language.**  A statement of the common forms without raw SQL is
refused by any two dialects with the same error, or both write it as the same sequence of characters, names and
placeholders: the names without their quotes, the placeholders without their marks and numbers. -/
theorem Statement.compileAfter_common (d d' : Dialect) (before before' : List Value) (s : Statement)
    (hs : s.rawFree = true) (h : s.isCommon = true) :
    (∃ e, s.compileAfter d before = .error e ∧ s.compileAfter d' before' = .error e) ∨
      ∃ c c', s.compileAfter d before = .ok c ∧ s.compileAfter d' before' = .ok c' ∧
        (lex d c.sql.toList).map Lexeme.unmarked = (lex d' c'.sql.toList).map Lexeme.unmarked := by
  have hrefusal := Statement.refusal?_eq d d' h
  cases hr : s.refusal? d with
  | some cause =>
    rw [hr] at hrefusal
    exact .inl ⟨_, Statement.compileAfter_of_refusal hr before, Statement.compileAfter_of_refusal hrefusal.symm before'⟩
  | none =>
    rw [hr] at hrefusal
    have hc := Statement.compileAfter_eq hr before
    have hc' := Statement.compileAfter_eq hrefusal.symm before'
    refine .inr ⟨_, _, hc, hc', ?_⟩
    rw [lex_compileAfter hs hc, lex_compileAfter hs hc', Statement.tokens_eq d' d h]
    exact Token.map_unmarked_lexemes d d' _ _ _

/-- A delete whose names hold quotes of all dialects, and whose predicates contain a query. -/
def quotedDelete : Statement :=
  .delete (((Query.table "a`b]").filter (.name "x\".y") (.value (.int 1))).filterExists
    ((Query.table "c[d").orFilter (.name "*") (.value .null)))

theorem compileAfter_common_quotedDelete :
    quotedDelete.rawFree = true ∧ quotedDelete.isCommon = true ∧
      ∃ c c', quotedDelete.compileAfter .mysql [] = .ok c ∧ quotedDelete.compileAfter .sqlServer [.int 7] = .ok c' ∧
        (lex .mysql c.sql.toList).map Lexeme.unmarked = (lex .sqlServer c'.sql.toList).map Lexeme.unmarked := by
  refine ⟨rfl, rfl, ?_⟩
  rcases Statement.compileAfter_common .mysql .sqlServer [] [.int 7] quotedDelete rfl rfl with ⟨e, he, -⟩ | h
  · rw [Statement.compileAfter_eq rfl] at he
    cases he
  · exact h

end SqlMapper
