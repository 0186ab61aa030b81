import SqlMapper.Query.Column
import SqlMapper.Value
/-!
# Query — what a SELECT asks for

A query stores names, values and fragments of raw SQL.  Quoting, placeholders and the differences between databases are
no part of it.  Predicates and queries contain each other, since a predicate may ask whether a query has rows.
-/
namespace SqlMapper

/-- The right-hand side of a predicate or an assignment. -/
inductive Expr where
  /-- Bound as a parameter of the statement. -/
  | value (v : Value)
  /-- Written into the statement as it stands. -/
  | raw (sql : String)
  deriving DecidableEq, Repr

namespace Expr

instance : Coe Value Expr := ⟨value⟩

def isRaw : Expr → Bool
  | raw _ => true
  | value _ => false

def value? : Expr → Option Value
  | value v => some v
  | raw _ => none

end Expr

/-- How a predicate attaches to the ones before it. -/
inductive Connector where
  | and
  | or
  deriving DecidableEq, Repr

inductive Comparison where
  | eq
  | ne
  | lt
  | le
  | gt
  | ge
  | like
  | notLike
  deriving DecidableEq, Repr

inductive JoinKind where
  | inner
  | left
  | right
  deriving DecidableEq, Repr

structure JoinClause where
  connector : Connector
  left : Column
  op : Comparison
  right : Column
  deriving DecidableEq, Repr

structure Join where
  kind : JoinKind
  table : String
  clauses : List JoinClause
  deriving DecidableEq, Repr

inductive Direction where
  | ascending
  | descending
  deriving DecidableEq, Repr

structure SortKey where
  column : Column
  direction : Direction
  deriving DecidableEq, Repr

inductive AggregateFunction where
  | count
  | sum
  | avg
  | min
  | max
  deriving DecidableEq, Repr

/-- A single aggregate in place of the select list. -/
structure Aggregate where
  function : AggregateFunction
  columns : List Column
  deriving DecidableEq, Repr

inductive Source where
  | table (name : String)
  | raw (sql : String)
  deriving DecidableEq, Repr

mutual

inductive Predicate where
  | compare (column : Column) (op : Comparison) (value : Expr)
  | isIn (column : Column) (values : List Expr) (negated : Bool)
  | between (column : Column) (low high : Expr) (negated : Bool)
  | isNull (column : Column) (negated : Bool)
  | hasRow (query : Query) (negated : Bool)
  | raw (sql : String)
  /-- Predicates in parentheses.  They are collected in a query of their own, of which nothing else is ever read. -/
  | group (filters : List Filter)

/-- One predicate of a list, with its connector to the predicates before it. -/
structure Filter where
  connector : Connector
  predicate : Predicate

structure Query where
  source : Option Source
  columns : List Column
  aggregate : Option Aggregate
  joins : List Join
  filters : List Filter
  groupings : List Column
  havings : List Filter
  orderings : List SortKey
  limit : Option UInt64
  offset : Option UInt64
  distinct : Bool

end

namespace Query

def empty : Query := ⟨none, [], none, [], [], [], [], [], none, none, false⟩

instance : Inhabited Query := ⟨empty⟩

def table (name : String) : Query := { empty with source := some (.table name) }

def fromRaw (sql : String) : Query := { empty with source := some (.raw sql) }

/-- The table of a query that reads from a plain table. -/
def table? (q : Query) : Option String :=
  match q.source with
  | some (.table name) => some name
  | _ => none

end Query

end SqlMapper
