import SqlMapper.Number.Saturating
import SqlMapper.Query.Basic
import SqlMapper.Sql.Token
/-!
# Select — what queries read as

The clauses of a query come in a fixed order and the empty ones are left out.  Paging differs most between the
databases.  SQL Server has no offset clause, so there a query with an offset numbers its rows inside a subquery and
picks a range of the numbers outside.
-/
namespace SqlMapper

open Token (word number bound separated clauses)

def Comparison.symbol : Comparison → String
  | eq => "="
  | ne => "<>"
  | lt => "<"
  | le => "<="
  | gt => ">"
  | ge => ">="
  | like => "LIKE"
  | notLike => "NOT LIKE"

def Connector.symbol : Connector → String
  | and => "AND"
  | or => "OR"

def JoinKind.symbol : JoinKind → String
  | inner => "INNER JOIN"
  | left => "LEFT JOIN"
  | right => "RIGHT JOIN"

def AggregateFunction.symbol : AggregateFunction → String
  | count => "COUNT"
  | sum => "SUM"
  | avg => "AVG"
  | min => "MIN"
  | max => "MAX"

/-! ## Parts without predicates -/

def Column.tokens : Column → List Token
  | name n => Token.name n
  | aliased n a => Token.name n ++ [word " AS ", Token.segment a]
  | raw sql => [.raw sql]

def Expr.token : Expr → Token
  | value v => bound v
  | raw sql => .raw sql

def exprList (values : List Expr) : List Token := separated ", " (values.map fun v => [v.token])

def columnList (columns : List Column) : List Token := separated ", " (columns.map Column.tokens)

/-- A table may be named with an alias. -/
def Source.tokens : Source → List Token
  | table name => (Column.parse name).tokens
  | raw sql => [.raw sql]

def JoinClause.tokens (c : JoinClause) : List Token :=
  c.left.tokens ++ word (" " ++ c.op.symbol ++ " ") :: c.right.tokens

/-- The comparisons after the first, each with its connector. -/
def JoinClause.moreTokens : List JoinClause → List Token
  | [] => []
  | c :: rest => word (" " ++ c.connector.symbol ++ " ") :: c.tokens ++ moreTokens rest

/-- A join without comparisons joins every pair of rows. -/
def Join.tokens (j : Join) : List Token :=
  word (j.kind.symbol ++ " ") :: Token.name j.table ++ word " ON " ::
    match j.clauses with
    | [] => [word "1 = 1"]
    | c :: rest => c.tokens ++ JoinClause.moreTokens rest

def SortKey.tokens (k : SortKey) : List Token :=
  k.column.tokens ++ [word (match k.direction with | .ascending => " ASC" | .descending => " DESC")]

/-- Aggregates over no columns, or over the bare wildcard only, count whole rows. -/
def Aggregate.isOverRows (a : Aggregate) : Bool := a.columns.all (· == .name "*")

def Aggregate.tokens (a : Aggregate) (distinct : Bool) : List Token :=
  word ("SELECT " ++ a.function.symbol ++ "(") ::
    (if a.isOverRows then [word "*"] else (if distinct then [word "DISTINCT "] else []) ++ columnList a.columns) ++
    [word ") AS ", .ident "aggregate"]

/-- A clause that is left out when its list is empty. -/
def optionalClause (keyword : String) (isEmpty : Bool) (body : List Token) : List Token :=
  if isEmpty then [] else word keyword :: body

/-! ## Paging -/

/-- On SQL Server a limit without an offset stands in the select list. -/
def topTokens (d : Dialect) (limit offset : Option UInt64) : List Token :=
  match d, limit, offset with
  | .sqlServer, some n, none => [word "TOP ", number n, word " "]
  | _, _, _ => []

/-- SQLite and MySQL need a limit before an offset: minus one, or the largest row count. -/
def limitTokens (d : Dialect) (limit offset : Option UInt64) : List Token :=
  match d, limit, offset with
  | .sqlServer, _, _ => []
  | _, some n, _ => [word "LIMIT ", number n]
  | .sqlite, none, some _ => [word "LIMIT -1"]
  | .mysql, none, some _ => [word "LIMIT ", number 18446744073709551615]
  | _, none, _ => []

def offsetTokens (d : Dialect) (offset : Option UInt64) : List Token :=
  match d, offset with
  | .sqlServer, _ => []
  | _, some n => [word "OFFSET ", number n]
  | _, none => []

/-- The range of row numbers that an offset and a limit leave. -/
def rowRange (offset : UInt64) (limit : Option UInt64) : List Token :=
  match limit with
  | some n => [word "BETWEEN ", number (addSaturating offset 1), word " AND ", number (addSaturating offset n)]
  | none => [word ">= ", number (addSaturating offset 1)]

structure SelectClauses where
  select : List Token
  source : List Token
  joins : List Token
  filters : List Token
  groupings : List Token
  havings : List Token
  orderings : List Token

/-- The clauses in order, with the page after them or the rows numbered around them. -/
def SelectClauses.tokens (c : SelectClauses) (d : Dialect) (limit offset : Option UInt64) : List Token :=
  match d, offset with
  | .sqlServer, some start =>
    let order := if c.orderings = [] then [word "ORDER BY (SELECT 0)"] else c.orderings
    let numbered := c.select ++ word ", ROW_NUMBER() OVER (" :: order ++ [word ") AS RowNum"]
    word "SELECT * FROM (" :: clauses [numbered, c.source, c.joins, c.filters, c.groupings, c.havings] ++
      word ") AS TempTable WHERE RowNum " :: rowRange start limit
  | _, _ =>
    clauses [c.select, c.source, c.joins, c.filters, c.groupings, c.havings, c.orderings,
      limitTokens d limit offset, offsetTokens d offset]

def selectTokens (d : Dialect) (columns : List Column) (aggregate : Option Aggregate) (distinct : Bool)
    (limit offset : Option UInt64) : List Token :=
  match aggregate with
  | some a => a.tokens distinct
  | none =>
    word "SELECT " :: (if distinct then [word "DISTINCT "] else []) ++ topTokens d limit offset ++
      if columns = [] then [word "*"] else columnList columns

/-! ## Predicates and queries -/

/-- A comparison; equality and inequality with null ask for null. -/
def comparisonTokens (column : Column) (op : Comparison) (value : Expr) : List Token :=
  match op, value with
  | .eq, .value .null => column.tokens ++ [word " IS NULL"]
  | .ne, .value .null => column.tokens ++ [word " IS NOT NULL"]
  | _, _ => column.tokens ++ [word (" " ++ op.symbol ++ " "), value.token]

/-- Membership; nothing is in an empty list. -/
def membershipTokens (column : Column) (values : List Expr) (negated : Bool) : List Token :=
  if values = [] then [word (if negated then "1 = 1" else "0 = 1")]
  else column.tokens ++ word (if negated then " NOT IN (" else " IN (") :: exprList values ++ [word ")"]

mutual

def Predicate.tokens (d : Dialect) : Predicate → List Token
  | .compare column op value => comparisonTokens column op value
  | .isIn column values negated => membershipTokens column values negated
  | .between column low high negated =>
    column.tokens ++ [word (if negated then " NOT BETWEEN " else " BETWEEN "), low.token, word " AND ", high.token]
  | .isNull column negated => column.tokens ++ [word (if negated then " IS NOT NULL" else " IS NULL")]
  | .hasRow query negated => word (if negated then "NOT EXISTS (" else "EXISTS (") :: query.tokens d ++ [word ")"]
  | .raw sql => [.raw sql]
  | .group filters => word "(" :: Filter.listTokens d filters ++ [word ")"]

/-- A list of predicates; the connector of the first is not written. -/
def Filter.listTokens (d : Dialect) : List Filter → List Token
  | [] => []
  | ⟨_, predicate⟩ :: rest => predicate.tokens d ++ Filter.moreTokens d rest

/-- The predicates after the first, each with its connector. -/
def Filter.moreTokens (d : Dialect) : List Filter → List Token
  | [] => []
  | ⟨connector, predicate⟩ :: rest =>
    word (" " ++ connector.symbol ++ " ") :: predicate.tokens d ++ Filter.moreTokens d rest

def Query.tokens (d : Dialect) : Query → List Token
  | ⟨source, columns, aggregate, joins, filters, groupings, havings, orderings, limit, offset, distinct⟩ =>
    SelectClauses.tokens
      { select := selectTokens d columns aggregate distinct limit offset
        source := match source with | some s => word "FROM " :: s.tokens | none => []
        joins := separated " " (joins.map Join.tokens)
        filters := optionalClause "WHERE " filters.isEmpty (Filter.listTokens d filters)
        groupings := optionalClause "GROUP BY " groupings.isEmpty (columnList groupings)
        havings := optionalClause "HAVING " havings.isEmpty (Filter.listTokens d havings)
        orderings := optionalClause "ORDER BY " orderings.isEmpty (separated ", " (orderings.map SortKey.tokens)) }
      d limit offset

end

end SqlMapper
