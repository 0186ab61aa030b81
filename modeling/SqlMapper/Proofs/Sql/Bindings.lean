import SqlMapper.Query.Basic
import SqlMapper.Sql.Select
/-!
# Bindings — the values that a query binds

A query binds the values of its predicates, first those it selects rows by and then those it selects groups by, each in
the order in which it was written.  Everything else of a query becomes text, and neither the order of the clauses nor
the rows numbered around them changes the order of the values.
-/
namespace SqlMapper

open Token (bindings word separated clauses)

/-! ## The values of a query -/

mutual

/-- The values of a predicate in order.  A test for equality with null compares with nothing. -/
def Predicate.values : Predicate → List Value
  | .compare _ .eq (.value .null) | .compare _ .ne (.value .null) => []
  | .compare _ _ value => value.value?.toList
  | .isIn _ values _ => values.filterMap Expr.value?
  | .between _ low high _ => [low, high].filterMap Expr.value?
  | .isNull _ _ | .raw _ => []
  | .hasRow query _ => query.values
  | .group filters => Filter.listValues filters

def Filter.listValues : List Filter → List Value
  | [] => []
  | ⟨_, predicate⟩ :: rest => predicate.values ++ Filter.listValues rest

def Query.values : Query → List Value
  | ⟨_, _, _, _, filters, _, havings, _, _, _, _⟩ => Filter.listValues filters ++ Filter.listValues havings

end

/-! ## Lists of tokens -/

section

variable (d : Dialect)

@[simp] theorem bindings_nil : bindings d [] = [] := rfl

@[simp] theorem bindings_word (text : String) (rest : List Token) : bindings d (word text :: rest) = bindings d rest :=
  rfl

@[simp] theorem bindings_raw (sql : String) (rest : List Token) : bindings d (.raw sql :: rest) = bindings d rest := rfl

@[simp] theorem bindings_ident (segment : String) (rest : List Token) :
    bindings d (.ident segment :: rest) = bindings d rest :=
  rfl

@[simp] theorem bindings_number (n : UInt64) (rest : List Token) : bindings d (.number n :: rest) = bindings d rest :=
  rfl

@[simp] theorem bindings_bound (v : Value) (rest : List Token) :
    bindings d (.bound v :: rest) = Token.binding d v :: bindings d rest :=
  rfl

@[simp] theorem bindings_append (a b : List Token) : bindings d (a ++ b) = bindings d a ++ bindings d b :=
  List.filterMap_append

@[simp] theorem bindings_segment (s : String) (rest : List Token) :
    bindings d (Token.segment s :: rest) = bindings d rest := by
  unfold Token.segment
  split <;> rfl

/-- What follows is laid out after the values of what comes before. -/
theorem Token.layout_append (b : List Token) :
    ∀ (a : List Token) (before : Nat),
      layout d before (a ++ b) = layout d before a ++ layout d (before + (bindings d a).length) b
  | [], _ => rfl
  | word _ :: a, before | .raw _ :: a, before | .number _ :: a, before | .ident _ :: a, before => by
    rw [List.cons_append, layout, layout, layout_append b a before, List.append_assoc]
    rfl
  | .bound v :: a, before => by
    rw [List.cons_append, layout, layout, layout_append b a (before + 1), bindings_bound, List.length_cons,
      List.append_assoc, Nat.add_assoc, Nat.add_comm 1]

theorem bindings_separated (separator : String) :
    ∀ parts : List (List Token), bindings d (separated separator parts) = parts.flatMap (bindings d)
  | [] => rfl
  | [p] => by simp [separated, List.intercalate]
  | p :: q :: parts => by
    rw [Token.separated_cons_cons, bindings_append, bindings_word, bindings_separated separator (q :: parts)]
    exact List.flatMap_cons.symm

theorem flatMap_bindings_filter : ∀ parts : List (List Token),
    (parts.filter (· ≠ [])).flatMap (bindings d) = parts.flatMap (bindings d)
  | [] => rfl
  | [] :: parts => flatMap_bindings_filter parts
  | (t :: ts) :: parts => by
    simp only [ne_eq, List.filter_cons, reduceCtorEq, not_false_eq_true, decide_true, ↓reduceIte, List.flatMap_cons]
    rw [← flatMap_bindings_filter parts]

theorem bindings_clauses (parts : List (List Token)) : bindings d (clauses parts) = parts.flatMap (bindings d) := by
  rw [clauses, bindings_separated, flatMap_bindings_filter]

theorem bindings_separated_eq_nil {separator : String} {parts : List (List Token)}
    (h : ∀ p ∈ parts, bindings d p = []) : bindings d (separated separator parts) = [] := by
  rw [bindings_separated, List.flatMap_eq_nil_iff]
  exact h

/-! ## Parts without values -/

@[simp] theorem bindings_name (s : String) : bindings d (Token.name s) = [] :=
  bindings_separated_eq_nil d fun p hp => by
    obtain ⟨part, -, rfl⟩ := List.mem_map.1 hp
    simp

@[simp] theorem Column.bindings_tokens (c : Column) : bindings d c.tokens = [] := by
  cases c <;> simp [Column.tokens]

@[simp] theorem bindings_columnList (columns : List Column) : bindings d (columnList columns) = [] :=
  bindings_separated_eq_nil d fun p hp => by
    obtain ⟨c, -, rfl⟩ := List.mem_map.1 hp
    exact c.bindings_tokens d

@[simp] theorem Source.bindings_tokens (s : Source) : bindings d s.tokens = [] := by
  cases s <;> simp [Source.tokens]

theorem JoinClause.bindings_tokens (c : JoinClause) : bindings d c.tokens = [] := by simp [JoinClause.tokens]

theorem JoinClause.bindings_moreTokens : ∀ clauses : List JoinClause, bindings d (JoinClause.moreTokens clauses) = []
  | [] => rfl
  | c :: rest => by simp [JoinClause.moreTokens, JoinClause.bindings_tokens, JoinClause.bindings_moreTokens rest]

theorem Join.bindings_tokens (j : Join) : bindings d j.tokens = [] := by
  unfold Join.tokens
  split <;> simp [JoinClause.bindings_tokens, JoinClause.bindings_moreTokens]

theorem bindings_selectTokens (columns : List Column) (aggregate : Option Aggregate) (distinct : Bool)
    (limit offset : Option UInt64) : bindings d (selectTokens d columns aggregate distinct limit offset) = [] := by
  have htop : bindings d (topTokens d limit offset) = [] := by
    unfold topTokens
    split <;> simp
  unfold selectTokens
  cases aggregate with
  | none => cases distinct <;> by_cases hc : columns = [] <;> simp [htop, hc]
  | some a => cases distinct <;> by_cases ho : a.isOverRows = true <;> simp [Aggregate.tokens, ho]

theorem bindings_sourceClause (source : Option Source) :
    bindings d (match source with | some s => word "FROM " :: s.tokens | none => []) = [] := by
  cases source <;> simp

theorem bindings_joinList (joins : List Join) : bindings d (separated " " (joins.map Join.tokens)) = [] :=
  bindings_separated_eq_nil d fun p hp => by
    obtain ⟨j, -, rfl⟩ := List.mem_map.1 hp
    exact j.bindings_tokens d

theorem bindings_sortKeyList (orderings : List SortKey) :
    bindings d (separated ", " (orderings.map SortKey.tokens)) = [] :=
  bindings_separated_eq_nil d fun p hp => by
    obtain ⟨k, -, rfl⟩ := List.mem_map.1 hp
    simp [SortKey.tokens]

theorem bindings_limitTokens (limit offset : Option UInt64) : bindings d (limitTokens d limit offset) = [] := by
  unfold limitTokens
  split <;> rfl

theorem bindings_offsetTokens (offset : Option UInt64) : bindings d (offsetTokens d offset) = [] := by
  unfold offsetTokens
  split <;> rfl

theorem bindings_rowRange (offset : UInt64) (limit : Option UInt64) : bindings d (rowRange offset limit) = [] := by
  cases limit <;> rfl

theorem bindings_optionalClause (keyword : String) (isEmpty : Bool) (body : List Token) :
    bindings d (optionalClause keyword isEmpty body) = if isEmpty then [] else bindings d body := by
  unfold optionalClause
  split <;> rfl

/-- Only the clauses with predicates bind values. -/
structure SelectClauses.BindsByFilters (c : SelectClauses) : Prop where
  select : bindings d c.select = []
  source : bindings d c.source = []
  joins : bindings d c.joins = []
  groupings : bindings d c.groupings = []
  orderings : bindings d c.orderings = []

theorem SelectClauses.bindings_tokens {c : SelectClauses} (h : c.BindsByFilters d) (limit offset : Option UInt64) :
    bindings d (c.tokens d limit offset) = bindings d c.filters ++ bindings d c.havings := by
  unfold SelectClauses.tokens
  split
  · have horder : bindings .sqlServer (if c.orderings = [] then [word "ORDER BY (SELECT 0)"] else c.orderings) = [] := by
      split
      · rfl
      · exact h.orderings
    simp [bindings_clauses, h.select, h.source, h.joins, h.groupings, horder, bindings_rowRange]
  · simp [bindings_clauses, h.select, h.source, h.joins, h.groupings, h.orderings, bindings_limitTokens,
      bindings_offsetTokens]

/-- The clauses of a query. -/
def Query.selectClauses (q : Query) : SelectClauses :=
  { select := selectTokens d q.columns q.aggregate q.distinct q.limit q.offset
    source := match q.source with | some s => word "FROM " :: s.tokens | none => []
    joins := separated " " (q.joins.map Join.tokens)
    filters := optionalClause "WHERE " q.filters.isEmpty (Filter.listTokens d q.filters)
    groupings := optionalClause "GROUP BY " q.groupings.isEmpty (columnList q.groupings)
    havings := optionalClause "HAVING " q.havings.isEmpty (Filter.listTokens d q.havings)
    orderings := optionalClause "ORDER BY " q.orderings.isEmpty (separated ", " (q.orderings.map SortKey.tokens)) }

theorem Query.tokens_eq_selectClauses (q : Query) : q.tokens d = (q.selectClauses d).tokens d q.limit q.offset := by
  cases q
  rfl

theorem Query.bindsByFilters_selectClauses (q : Query) : (q.selectClauses d).BindsByFilters d where
  select := bindings_selectTokens d _ _ _ _ _
  source := bindings_sourceClause d q.source
  joins := bindings_joinList d q.joins
  groupings := by simp [selectClauses, bindings_optionalClause]
  orderings := by simp [selectClauses, bindings_optionalClause, bindings_sortKeyList]

/-! ## Predicates -/

theorem bindings_token (e : Expr) : bindings d [e.token] = e.value?.toList.map (Token.binding d) := by
  cases e <;> rfl

theorem bindings_exprList (values : List Expr) :
    bindings d (exprList values) = (values.filterMap Expr.value?).map (Token.binding d) := by
  rw [exprList, bindings_separated, List.flatMap_map]
  induction values with
  | nil => rfl
  | cons e values ih =>
    rw [List.flatMap_cons, ih, bindings_token]
    cases e <;> rfl

theorem bindings_comparisonTokens (column : Column) (op : Comparison) (value : Expr) :
    bindings d (comparisonTokens column op value) =
      (Predicate.compare column op value).values.map (Token.binding d) := by
  unfold comparisonTokens
  split
  · simp [Predicate.values]
  · simp [Predicate.values]
  · rename_i heq hne
    rw [Predicate.values.eq_3 _ _ _ (fun h h' => heq h h') (fun h h' => hne h h')]
    simp [bindings_token]

theorem bindings_membershipTokens (column : Column) (values : List Expr) (negated : Bool) :
    bindings d (membershipTokens column values negated) = (values.filterMap Expr.value?).map (Token.binding d) := by
  unfold membershipTokens
  split
  · rename_i h
    rw [h]
    rfl
  · simp [bindings_exprList]

mutual

theorem Predicate.bindings_tokens :
    ∀ p : Predicate, bindings d (p.tokens d) = p.values.map (Token.binding d)
  | .compare column op value => bindings_comparisonTokens d column op value
  | .isIn column values negated => bindings_membershipTokens d column values negated
  | .between column low high negated => by
    cases low <;> cases high <;> simp [Predicate.tokens, Predicate.values, Expr.token, Expr.value?, List.filterMap_cons]
  | .isNull column negated => by simp [Predicate.tokens, Predicate.values]
  | .hasRow query negated => by simp [Predicate.tokens, Predicate.values, Query.bindings_tokens query]
  | .raw sql => rfl
  | .group filters => by simp [Predicate.tokens, Predicate.values, Filter.bindings_listTokens filters]

theorem Filter.bindings_listTokens :
    ∀ filters : List Filter, bindings d (Filter.listTokens d filters) = (Filter.listValues filters).map (Token.binding d)
  | [] => rfl
  | ⟨_, predicate⟩ :: rest => by
    simp [Filter.listTokens, Filter.listValues, Predicate.bindings_tokens predicate, Filter.bindings_moreTokens rest]

theorem Filter.bindings_moreTokens :
    ∀ filters : List Filter, bindings d (Filter.moreTokens d filters) = (Filter.listValues filters).map (Token.binding d)
  | [] => rfl
  | ⟨_, predicate⟩ :: rest => by
    simp [Filter.moreTokens, Filter.listValues, Predicate.bindings_tokens predicate, Filter.bindings_moreTokens rest]

/-- **A query binds its values in order**, each as the dialect binds it. -/
theorem Query.bindings_tokens : ∀ q : Query, bindings d (q.tokens d) = q.values.map (Token.binding d)
  | ⟨source, columns, aggregate, joins, filters, groupings, havings, orderings, limit, offset, distinct⟩ => by
    have hclause : ∀ (keyword : String) (fs : List Filter),
        bindings d (optionalClause keyword fs.isEmpty (Filter.listTokens d fs)) =
          bindings d (Filter.listTokens d fs) := by
      intro keyword fs
      rw [bindings_optionalClause]
      cases fs <;> rfl
    rw [Query.tokens_eq_selectClauses, SelectClauses.bindings_tokens d (Query.bindsByFilters_selectClauses d _)]
    simp [Query.selectClauses, hclause, Query.values, Filter.bindings_listTokens filters,
      Filter.bindings_listTokens havings]

end

end

end SqlMapper
