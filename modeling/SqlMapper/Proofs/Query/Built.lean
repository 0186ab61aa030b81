import SqlMapper.Query.Build
/-!
# Built — queries that the builder methods make

The builder methods add clauses to a query and never put an empty group among its predicates, for a group that stays
empty is dropped.  So no group is empty at any depth of a query that they made, be it in a group or in the query of an
`EXISTS` (`Query.Built.groupsFilled`), and such a query reads from what it read from at the start.
-/
namespace SqlMapper

/-! ## What stands at any depth -/

mutual

/-- No group of predicates is empty, at any depth. -/
def Predicate.groupsFilled : Predicate → Bool
  | .group filters => !filters.isEmpty && Filter.listGroupsFilled filters
  | .hasRow query _ => query.groupsFilled
  | .compare .. | .isIn .. | .between .. | .isNull .. | .raw _ => true

def Filter.listGroupsFilled : List Filter → Bool
  | [] => true
  | ⟨_, predicate⟩ :: rest => predicate.groupsFilled && Filter.listGroupsFilled rest

def Query.groupsFilled : Query → Bool
  | ⟨_, _, _, _, filters, _, havings, _, _, _, _⟩ => Filter.listGroupsFilled filters && Filter.listGroupsFilled havings

end

mutual

/-- A query among the predicates has an offset, at any depth. -/
def Predicate.hasOffset : Predicate → Bool
  | .group filters => Filter.listHasOffset filters
  | .hasRow query _ => query.hasOffset
  | .compare .. | .isIn .. | .between .. | .isNull .. | .raw _ => false

def Filter.listHasOffset : List Filter → Bool
  | [] => false
  | ⟨_, predicate⟩ :: rest => predicate.hasOffset || Filter.listHasOffset rest

def Query.hasOffset : Query → Bool
  | ⟨_, _, _, _, filters, _, havings, _, _, offset, _⟩ =>
    offset.isSome || Filter.listHasOffset filters || Filter.listHasOffset havings

end

theorem Query.groupsFilled_eq (q : Query) :
    q.groupsFilled = (Filter.listGroupsFilled q.filters && Filter.listGroupsFilled q.havings) := by
  cases q
  rfl

theorem Filter.listGroupsFilled_append (b : List Filter) :
    ∀ a : List Filter, listGroupsFilled (a ++ b) = (listGroupsFilled a && listGroupsFilled b)
  | [] => rfl
  | ⟨_, _⟩ :: a => by
    rw [List.cons_append, listGroupsFilled, listGroupsFilled, listGroupsFilled_append b a, Bool.and_assoc]

namespace Query

/-! ## Builder methods -/

/-- The second query is the first after some of the builder methods.  The methods that filter push one predicate, and
those of one kind differ in its connector, its comparison and its negation only.  A group is built on an empty query,
the query of an `EXISTS` on any query without clauses. -/
inductive Built : Query → Query → Prop where
  | refl {start : Query} : Built start start
  | select {start q : Query} (h : Built start q) (columns : List Column) : Built start (q.select columns)
  | addSelect {start q : Query} (h : Built start q) (column : Column) : Built start (q.addSelect column)
  | selectDistinct {start q : Query} (h : Built start q) : Built start q.selectDistinct
  | aggregateBy {start q : Query} (h : Built start q) (function : AggregateFunction) (columns : List Column) :
    Built start (q.aggregateBy function columns)
  | compare {start q : Query} (h : Built start q) (connector : Connector) (column : Column) (op : Comparison)
    (value : Expr) : Built start (q.pushFilter connector (.compare column op value))
  | isIn {start q : Query} (h : Built start q) (connector : Connector) (column : Column) (values : List Expr)
    (negated : Bool) : Built start (q.pushFilter connector (.isIn column values negated))
  | between {start q : Query} (h : Built start q) (connector : Connector) (column : Column) (low high : Expr)
    (negated : Bool) : Built start (q.pushFilter connector (.between column low high negated))
  | isNull {start q : Query} (h : Built start q) (connector : Connector) (column : Column) (negated : Bool) :
    Built start (q.pushFilter connector (.isNull column negated))
  | hasRow {start q : Query} (h : Built start q) (connector : Connector) {source : Option Source} {query : Query}
    (hquery : Built { empty with source } query) (negated : Bool) :
    Built start (q.pushFilter connector (.hasRow query negated))
  | raw {start q : Query} (h : Built start q) (connector : Connector) (sql : String) :
    Built start (q.pushFilter connector (.raw sql))
  | group {start q : Query} (h : Built start q) (connector : Connector) {build : Query → Query}
    (hbuild : Built empty (build empty)) : Built start (q.pushGroup connector build)
  | join {start q : Query} (h : Built start q) (kind : JoinKind) (table : String) (clauses : List JoinClause) :
    Built start (q.pushJoin kind table clauses)
  | groupBy {start q : Query} (h : Built start q) (column : Column) : Built start (q.groupBy column)
  | having {start q : Query} (h : Built start q) (column : Column) (op : Comparison) (value : Expr) :
    Built start (q.having column op value)
  | orHaving {start q : Query} (h : Built start q) (column : Column) (op : Comparison) (value : Expr) :
    Built start (q.orHaving column op value)
  | orderBy {start q : Query} (h : Built start q) (column : Column) : Built start (q.orderBy column)
  | orderByDescending {start q : Query} (h : Built start q) (column : Column) : Built start (q.orderByDescending column)
  | limitTo {start q : Query} (h : Built start q) (n : UInt64) : Built start (q.limitTo n)
  | skip {start q : Query} (h : Built start q) (n : UInt64) : Built start (q.skip n)

theorem source_pushGroup (q : Query) (connector : Connector) (build : Query → Query) :
    (q.pushGroup connector build).source = q.source := by
  unfold pushGroup
  split <;> rfl

/-- No builder method changes what a query reads from. -/
theorem Built.source_eq {start q : Query} (h : Built start q) : q.source = start.source := by
  induction h with
  | group _ connector _ ih _ => rw [source_pushGroup, ih]
  | hasRow _ _ _ _ ih _ => exact ih
  | refl => rfl
  | _ => assumption

/-- A predicate with filled groups keeps the groups of a query filled. -/
theorem groupsFilled_pushFilter {q : Query} {predicate : Predicate} (connector : Connector)
    (hq : q.groupsFilled = true) (hp : predicate.groupsFilled = true) :
    (q.pushFilter connector predicate).groupsFilled = true := by
  rw [groupsFilled_eq, Bool.and_eq_true] at hq ⊢
  refine ⟨?_, hq.2⟩
  show Filter.listGroupsFilled (q.filters ++ [⟨connector, predicate⟩]) = true
  rw [Filter.listGroupsFilled_append, hq.1, Filter.listGroupsFilled, hp]
  rfl

/-- A group without predicates is dropped, so a group that stays is filled. -/
theorem groupsFilled_pushGroup {q : Query} (connector : Connector) {build : Query → Query} (hq : q.groupsFilled = true)
    (hbuild : (build empty).groupsFilled = true) : (q.pushGroup connector build).groupsFilled = true := by
  rw [groupsFilled_eq, Bool.and_eq_true] at hbuild
  unfold pushGroup
  split
  · exact hq
  · rename_i hne
    refine groupsFilled_pushFilter connector hq ?_
    rw [Predicate.groupsFilled, hbuild.1, Bool.and_true, Bool.not_eq_true', List.isEmpty_eq_false_iff]
    exact hne

/-- Another test of a group keeps the groups filled. -/
theorem groupsFilled_pushHaving {q : Query} (connector : Connector) (column : Column) (op : Comparison) (value : Expr)
    (hq : q.groupsFilled = true) :
    Query.groupsFilled { q with havings := q.havings ++ [⟨connector, .compare column op value⟩] } = true := by
  rw [groupsFilled_eq, Bool.and_eq_true] at hq ⊢
  exact ⟨hq.1, by rw [Filter.listGroupsFilled_append, hq.2]; rfl⟩

/-- **The builder methods leave no group empty**, at any depth. -/
theorem Built.groupsFilled {start q : Query} (h : Built start q) (hstart : start.groupsFilled = true) :
    q.groupsFilled = true := by
  induction h with
  | refl => exact hstart
  | compare _ connector | isIn _ connector | between _ connector | isNull _ connector | raw _ connector =>
    rename_i ih
    exact groupsFilled_pushFilter connector (ih hstart) rfl
  | hasRow _ connector _ _ ih ihquery => exact groupsFilled_pushFilter connector (ih hstart) (ihquery rfl)
  | group _ connector _ ih ihbuild => exact groupsFilled_pushGroup connector (ih hstart) (ihbuild rfl)
  | having _ column op value ih => exact groupsFilled_pushHaving .and column op value (ih hstart)
  | orHaving _ column op value ih => exact groupsFilled_pushHaving .or column op value (ih hstart)
  | _ =>
    rename_i ih
    have hbefore := ih hstart
    rw [groupsFilled_eq] at hbefore ⊢
    exact hbefore

end Query

end SqlMapper
