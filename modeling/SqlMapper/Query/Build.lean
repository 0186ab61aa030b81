import SqlMapper.Number.Saturating
import SqlMapper.Query.Basic
/-!
# Build — refining a query

Each refinement takes a query and returns it with one clause more, or with one clause replaced.  A group of predicates
that turns out empty is dropped.
-/
namespace SqlMapper.Query

variable (q : Query)

/-! ## Select list -/

def select (columns : List Column) : Query := { q with columns }

def addSelect (column : Column) : Query := { q with columns := q.columns ++ [column] }

def selectDistinct : Query := { q with distinct := true }

def aggregateBy (function : AggregateFunction) (columns : List Column) : Query :=
  { q with aggregate := some ⟨function, columns⟩ }

/-! ## Predicates -/

def pushFilter (connector : Connector) (predicate : Predicate) : Query :=
  { q with filters := q.filters ++ [⟨connector, predicate⟩] }

def filterOp (column : Column) (op : Comparison) (value : Expr) : Query := q.pushFilter .and (.compare column op value)

def orFilterOp (column : Column) (op : Comparison) (value : Expr) : Query := q.pushFilter .or (.compare column op value)

def filter (column : Column) (value : Expr) : Query := q.filterOp column .eq value

def orFilter (column : Column) (value : Expr) : Query := q.orFilterOp column .eq value

def filterIn (column : Column) (values : List Expr) : Query := q.pushFilter .and (.isIn column values false)

def orFilterIn (column : Column) (values : List Expr) : Query := q.pushFilter .or (.isIn column values false)

def filterNotIn (column : Column) (values : List Expr) : Query := q.pushFilter .and (.isIn column values true)

def orFilterNotIn (column : Column) (values : List Expr) : Query := q.pushFilter .or (.isIn column values true)

def filterBetween (column : Column) (low high : Expr) : Query := q.pushFilter .and (.between column low high false)

def orFilterBetween (column : Column) (low high : Expr) : Query := q.pushFilter .or (.between column low high false)

def filterNotBetween (column : Column) (low high : Expr) : Query := q.pushFilter .and (.between column low high true)

def filterNull (column : Column) : Query := q.pushFilter .and (.isNull column false)

def orFilterNull (column : Column) : Query := q.pushFilter .or (.isNull column false)

def filterNotNull (column : Column) : Query := q.pushFilter .and (.isNull column true)

def orFilterNotNull (column : Column) : Query := q.pushFilter .or (.isNull column true)

def filterExists (query : Query) : Query := q.pushFilter .and (.hasRow query false)

def orFilterExists (query : Query) : Query := q.pushFilter .or (.hasRow query false)

def filterNotExists (query : Query) : Query := q.pushFilter .and (.hasRow query true)

def filterRaw (sql : String) : Query := q.pushFilter .and (.raw sql)

def orFilterRaw (sql : String) : Query := q.pushFilter .or (.raw sql)

/-- Adds a group of the predicates that `build` puts on an empty query; an empty group is dropped. -/
def pushGroup (connector : Connector) (build : Query → Query) : Query :=
  match (build empty).filters with
  | [] => q
  | filters => q.pushFilter connector (.group filters)

def filterGroup (build : Query → Query) : Query := q.pushGroup .and build

def orFilterGroup (build : Query → Query) : Query := q.pushGroup .or build

/-! ## Joins -/

def pushJoin (kind : JoinKind) (table : String) (clauses : List JoinClause) : Query :=
  { q with joins := q.joins ++ [⟨kind, table, clauses⟩] }

def join (table : String) (left : Column) (op : Comparison) (right : Column) : Query :=
  q.pushJoin .inner table [⟨.and, left, op, right⟩]

def leftJoin (table : String) (left : Column) (op : Comparison) (right : Column) : Query :=
  q.pushJoin .left table [⟨.and, left, op, right⟩]

/-! ## Groups, orderings and pages -/

def groupBy (column : Column) : Query := { q with groupings := q.groupings ++ [column] }

def having (column : Column) (op : Comparison) (value : Expr) : Query :=
  { q with havings := q.havings ++ [⟨.and, .compare column op value⟩] }

def orHaving (column : Column) (op : Comparison) (value : Expr) : Query :=
  { q with havings := q.havings ++ [⟨.or, .compare column op value⟩] }

def orderBy (column : Column) : Query := { q with orderings := q.orderings ++ [⟨column, .ascending⟩] }

def orderByDescending (column : Column) : Query := { q with orderings := q.orderings ++ [⟨column, .descending⟩] }

def clearOrderings : Query := { q with orderings := [] }

def limitTo (n : UInt64) : Query := { q with limit := some n }

def skip (n : UInt64) : Query := { q with offset := some n }

/-- The rows of a page; pages count from one, and page zero is the first. -/
def forPage (page perPage : UInt64) : Query :=
  (q.limitTo perPage).skip (mulSaturating (saturate (page.toNat - 1)) perPage)

end SqlMapper.Query
