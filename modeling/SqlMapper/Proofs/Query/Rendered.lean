import SqlMapper.Proofs.Sql.Unambiguous
import SqlMapper.Proofs.Sql.Written
/-!
# Rendered — the text and the bindings of a list of predicates

A list of predicates that is written into a statement without values is a text with its bindings.  Lists without raw SQL
can be told apart by the two up to what is not written, and by no more: two of them are rendered alike exactly when
their normal forms are equal (`Filter.rendered_eq_iff`).
-/
namespace SqlMapper

open Token (word layout bindings legible)

/-! ## What the normal form forgets is not written -/

/-- The token with its value as it is bound. -/
def Token.settled (d : Dialect) : Token → Token
  | bound v => bound (binding d v)
  | t => t

theorem Token.layout_map_settled (d : Dialect) :
    ∀ (tokens : List Token) (before : Nat), layout d before (tokens.map (settled d)) = layout d before tokens
  | [], _ => rfl
  | word _ :: rest, before | raw _ :: rest, before | number _ :: rest, before | ident _ :: rest, before =>
    congrArg (_ ++ ·) (layout_map_settled d rest before)
  | bound _ :: rest, before => congrArg (_ ++ ·) (layout_map_settled d rest (before + 1))

theorem Token.bindings_map_settled (d : Dialect) :
    ∀ tokens : List Token, bindings d (tokens.map (settled d)) = bindings d tokens
  | [] => rfl
  | word _ :: rest | raw _ :: rest | number _ :: rest | ident _ :: rest => bindings_map_settled d rest
  | bound v :: rest => by
    rw [List.map_cons, settled, bindings_bound, bindings_bound, binding_binding, bindings_map_settled d rest]

/-- Tokens that bind nothing are settled. -/
theorem Token.map_settled (d : Dialect) : ∀ {tokens : List Token}, bindings d tokens = [] →
    tokens.map (settled d) = tokens
  | [], _ => rfl
  | word _ :: _, h | raw _ :: _, h | number _ :: _, h | ident _ :: _, h => congrArg (_ :: ·) (map_settled d h)
  | bound _ :: _, h => by cases h

variable {d : Dialect}

theorem Column.map_settled (c : Column) : c.tokens.map (Token.settled d) = c.tokens :=
  Token.map_settled d (c.bindings_tokens d)

theorem Expr.token_settled (e : Expr) : (e.settled d).token = e.token.settled d := by cases e <;> rfl

theorem exprList_map_settled :
    ∀ values : List Expr, exprList (values.map (Expr.settled d)) = (exprList values).map (Token.settled d)
  | [] => rfl
  | [e] => congrArg (fun t => [t]) e.token_settled
  | e :: e' :: values => by
    have ih := exprList_map_settled (e' :: values)
    simp only [exprList, List.map_cons] at ih ⊢
    rw [Token.separated_cons_cons, Token.separated_cons_cons, ih, List.map_append, List.map_cons, e.token_settled]
    rfl

theorem Predicate.tokens_isNull_settled (column : Column) (negated : Bool) :
    ((Predicate.isNull column negated).tokens d).map (Token.settled d) = (Predicate.isNull column negated).tokens d :=
  Token.map_settled d (by simp [Predicate.tokens])

mutual

theorem Predicate.tokens_normal (d : Dialect) :
    ∀ p : Predicate, p.isSimple = true → (p.normal d).tokens d = (p.tokens d).map (Token.settled d)
  | .compare column op value, h => by
    simp only [Predicate.isSimple, Bool.and_eq_true, Bool.not_eq_true'] at h
    obtain ⟨v, rfl⟩ := Expr.exists_value h.2
    by_cases hasks : v = .null ∧ (op = .eq ∨ op = .ne)
    · obtain ⟨rfl, rfl | rfl⟩ := hasks
      · exact (Predicate.tokens_isNull_settled column false).symm
      · exact (Predicate.tokens_isNull_settled column true).symm
    · have hbound : ¬ (Token.binding d v = .null ∧ (op = .eq ∨ op = .ne)) := by
        rintro ⟨hnull, hop⟩
        exact hasks ⟨by_contra fun hv => Token.binding_ne_null.2 hv hnull, hop⟩
      rw [Predicate.normal_compare hasks, Predicate.tokens, Predicate.tokens, comparisonTokens_value hasks,
        comparisonTokens_value hbound, List.map_append, Column.map_settled]
      rfl
  | .isIn column values negated, _ => by
    by_cases hv : values = []
    · subst hv
      cases negated <;> rfl
    · have hmap : values.map (Expr.settled d) ≠ [] := mt List.map_eq_nil_iff.1 hv
      rw [Predicate.normal_isIn hv, Predicate.tokens, Predicate.tokens, membershipTokens, membershipTokens, if_neg hv,
        if_neg hmap, exprList_map_settled, List.map_append, List.map_append, List.map_cons, Column.map_settled]
      rfl
  | .between column low high negated, _ => by
    rw [Predicate.normal, Predicate.tokens, Predicate.tokens, List.map_append, Column.map_settled, low.token_settled,
      high.token_settled]
    rfl
  | .isNull column negated, _ => (Predicate.tokens_isNull_settled column negated).symm
  | .group filters, h => by
    have ih := Filter.listTokens_listNormal d filters h
    rw [Predicate.normal, Predicate.tokens, Predicate.tokens, ih, List.map_append, List.map_cons]
    rfl
  | .hasRow .., h => by cases h
  | .raw _, h => by cases h

theorem Filter.listTokens_listNormal (d : Dialect) :
    ∀ filters : List Filter, Filter.listSimple filters = true →
      Filter.listTokens d (Filter.listNormal d filters) = (Filter.listTokens d filters).map (Token.settled d)
  | [], _ => rfl
  | ⟨_, p⟩ :: rest, h => by
    rw [Filter.listSimple, Bool.and_eq_true] at h
    rw [Filter.listNormal, Filter.listTokens, Filter.listTokens, Predicate.tokens_normal d p h.1,
      Filter.moreTokens_moreNormal d rest h.2, List.map_append]

theorem Filter.moreTokens_moreNormal (d : Dialect) :
    ∀ filters : List Filter, Filter.listSimple filters = true →
      Filter.moreTokens d (Filter.moreNormal d filters) = (Filter.moreTokens d filters).map (Token.settled d)
  | [], _ => rfl
  | ⟨_, p⟩ :: rest, h => by
    rw [Filter.listSimple, Bool.and_eq_true] at h
    rw [Filter.moreNormal, Filter.moreTokens, Filter.moreTokens, Predicate.tokens_normal d p h.1,
      Filter.moreTokens_moreNormal d rest h.2, List.map_append, List.map_cons]
    rfl

end

mutual

theorem Predicate.rawFree_of_isSimple : ∀ {p : Predicate}, p.isSimple = true → p.rawFree = true
  | .compare .., h | .isIn .., h | .between .., h | .isNull .., h => h
  | .group _, h => Filter.listRawFree_of_listSimple h
  | .hasRow .., h => by cases h
  | .raw _, h => by cases h

theorem Filter.listRawFree_of_listSimple :
    ∀ {filters : List Filter}, Filter.listSimple filters = true → Filter.listRawFree filters = true
  | [], _ => rfl
  | ⟨_, _⟩ :: _, h => by
    rw [Filter.listSimple, Bool.and_eq_true] at h
    rw [Filter.listRawFree, Predicate.rawFree_of_isSimple h.1, Filter.listRawFree_of_listSimple h.2]
    rfl

end

/-! ## Rendered lists -/

/-- The predicates of a clause as they are written where no value is bound before them. -/
def Filter.rendered (d : Dialect) (filters : List Filter) : Compiled :=
  ⟨String.ofList (layout d 0 (Filter.listTokens d filters)), bindings d (Filter.listTokens d filters)⟩

/-- A delete writes its predicates so. -/
theorem Statement.compile_delete_rendered (d : Dialect) (table : String) {filters : List Filter} (h : filters ≠ []) :
    (Statement.delete { Query.table table with filters }).compile d =
      .ok ⟨String.ofList (layout d 0 (word "DELETE FROM " :: Token.name table ++ [word " WHERE "])) ++
        (Filter.rendered d filters).sql, (Filter.rendered d filters).bindings⟩ := by
  have htokens : (Statement.delete { Query.table table with filters }).tokens d =
      (word "DELETE FROM " :: Token.name table ++ [word " WHERE "]) ++ Filter.listTokens d filters := by
    have hne : filters.isEmpty = false := by simpa using h
    simp only [Statement.tokens, Query.whereTokens, hne]
    simp [Query.targetTokens, Query.table?, Query.table]
  have hbindings : bindings d (word "DELETE FROM " :: Token.name table ++ [word " WHERE "]) = [] := by simp
  have hrefusal : (Statement.delete { Query.table table with filters }).refusal? d = none := by
    simp [Statement.refusal?, Query.table?, Query.table]
  rw [Statement.compile, Statement.compileAfter_eq hrefusal, htokens, List.length_nil, Token.layout_append, hbindings,
    bindings_append, hbindings, String.ofList_append]
  rfl

/-- **What is rendered determines the list.**  Two lists of predicates without raw SQL have the same text and the same
bindings exactly when they have the same normal form, so that no column, operator, value, negation, grouping or
connector after the first is lost or confused with another. -/
theorem Filter.rendered_eq_iff {d : Dialect} {fs gs : List Filter} (hfs : Filter.listSimple fs = true)
    (hgs : Filter.listSimple gs = true) :
    Filter.rendered d fs = Filter.rendered d gs ↔ Filter.listNormal d fs = Filter.listNormal d gs := by
  constructor
  · intro h
    obtain ⟨htext, hbindings⟩ := Compiled.mk.inj h
    have hsigns := Token.signs_eq_of_layout_eq (Filter.legible_listTokens d fs (Filter.listRawFree_of_listSimple hfs))
      (Filter.legible_listTokens d gs (Filter.listRawFree_of_listSimple hgs)) (String.ofList_inj.1 htext) hbindings
    exact (Filter.signs_list_append_inj d fs gs hfs hgs (.inl rfl) (.inl rfl) (congrArg (· ++ []) hsigns)).1
  · intro h
    have htokens : (Filter.listTokens d fs).map (Token.settled d) = (Filter.listTokens d gs).map (Token.settled d) := by
      rw [← Filter.listTokens_listNormal d fs hfs, ← Filter.listTokens_listNormal d gs hgs, h]
    unfold Filter.rendered
    rw [← Token.layout_map_settled d (Filter.listTokens d fs), ← Token.bindings_map_settled d (Filter.listTokens d fs),
      htokens, Token.layout_map_settled, Token.bindings_map_settled]

/-- A range before a connector, a group and a membership in nothing. -/
def guestFilters : List Filter :=
  [⟨.or, .between (.name "age") (.value (.int 18)) (.value (.int 30)) false⟩,
    ⟨.and, .compare (.aliased "users.name" "n") .like (.value (.text "a%"))⟩,
    ⟨.or, .group [⟨.or, .compare (.name "left_at") .eq (.value .null)⟩, ⟨.and, .isIn (.name "role") [] true⟩]⟩]

/-- The same without what is not written. -/
def plainGuestFilters : List Filter :=
  [⟨.and, .between (.name "age") (.value (.int 18)) (.value (.int 30)) false⟩,
    ⟨.and, .compare (.aliased "users.name" "n") .like (.value (.text "a%"))⟩,
    ⟨.or, .group [⟨.and, .isNull (.name "left_at") false⟩, ⟨.and, .isIn (.name "team") [] true⟩]⟩]

/-- The same without the group. -/
def looseFilters : List Filter :=
  [⟨.and, .between (.name "age") (.value (.int 18)) (.value (.int 30)) false⟩,
    ⟨.and, .compare (.aliased "users.name" "n") .like (.value (.text "a%"))⟩,
    ⟨.or, .isNull (.name "left_at") false⟩, ⟨.and, .isIn (.name "team") [] true⟩]

theorem rendered_guestFilters :
    (Filter.listSimple guestFilters = true ∧ Filter.listSimple plainGuestFilters = true ∧
        Filter.listSimple looseFilters = true) ∧
      Filter.rendered .postgresql guestFilters = Filter.rendered .postgresql plainGuestFilters ∧
      Filter.rendered .postgresql guestFilters ≠ Filter.rendered .postgresql looseFilters := by
  have hg : Filter.listSimple guestFilters = true := by decide
  have hg' : Filter.listSimple plainGuestFilters = true := by decide
  have hl : Filter.listSimple looseFilters = true := by decide
  refine ⟨⟨hg, hg', hl⟩, (Filter.rendered_eq_iff hg hg').2 rfl, mt (Filter.rendered_eq_iff hg hl).1 fun h => ?_⟩
  have hlength := congrArg List.length h
  exact absurd hlength (by decide)

end SqlMapper
