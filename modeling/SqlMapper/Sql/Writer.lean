import SqlMapper.Sql.Select
/-!
# Writer — queries, written clause by clause

A writer appends to a text and binds values.  A bound value is pushed onto the values before it, and the placeholder that
is written for it has the position it got there.  The clauses of a query are written into texts of their own, one after
the other, and are put together when all of them are there.  On SQL Server a query with an offset puts its ordering
in front of clauses that were written before it, so what is pushed first need not be what is read first.
-/
namespace SqlMapper

/-- What has been written, and all values that are bound. -/
structure Output where
  text : List Char
  values : List Value

abbrev Writer := StateM Output

namespace Writer

def put (text : List Char) : Writer Unit := modify fun o => { o with text := o.text ++ text }

/-- Binds a value, and writes its placeholder. -/
def push (d : Dialect) (v : Value) : Writer Unit := do
  modify fun o => { o with values := o.values ++ [Token.binding d v] }
  put (Token.placeholder d (← get).values.length)

def token (d : Dialect) : Token → Writer Unit
  | .word text => put text.toList
  | .raw sql => put sql.toList
  | .ident segment => put (Token.quoted d.openQuote d.closeQuote segment.toList)
  | .number n => put (digits n.toNat)
  | .bound v => push d v

def tokens (d : Dialect) : List Token → Writer Unit
  | [] => pure ()
  | t :: rest => do
    token d t
    tokens d rest

/-- Writes into a text of its own.  The values that are bound in it are bound for good. -/
def capture (w : Writer Unit) : Writer (List Char) := do
  let outer := (← get).text
  modify fun o => { o with text := [] }
  w
  let captured := (← get).text
  modify fun o => { o with text := outer }
  pure captured

/-- A clause that is left out when its list is empty. -/
def optional (keyword : String) (isEmpty : Bool) (body : Writer Unit) : Writer Unit :=
  if isEmpty then pure ()
  else do
    put keyword.toList
    body

end Writer

open Writer (put capture)

/-- The clauses of a query as they were written. -/
structure Components where
  select : List Char
  source : List Char
  joins : List Char
  filters : List Char
  groupings : List Char
  havings : List Char
  orderings : List Char
  limit : List Char
  offset : List Char

namespace Components

/-- The parts that are not empty, with blanks between them. -/
def concat (parts : List (List Char)) : List Char := List.intercalate [' '] (parts.filter (· ≠ []))

/-- The clauses in order, or the rows numbered around them. -/
def write (c : Components) (d : Dialect) (limit offset : Option UInt64) : Writer Unit :=
  match d, offset with
  | .sqlServer, some start => do
    let order := if c.orderings = [] then "ORDER BY (SELECT 0)".toList else c.orderings
    let numbered := c.select ++ ", ROW_NUMBER() OVER (".toList ++ order ++ ") AS RowNum".toList
    put "SELECT * FROM (".toList
    put (concat [numbered, c.source, c.joins, c.filters, c.groupings, c.havings])
    put ") AS TempTable WHERE RowNum ".toList
    Writer.tokens d (rowRange start limit)
  | _, _ =>
    put (concat [c.select, c.source, c.joins, c.filters, c.groupings, c.havings, c.orderings, c.limit, c.offset])

end Components

mutual

/-- A predicate without a query or a group in it is written as its tokens are. -/
def Predicate.write (d : Dialect) : Predicate → Writer Unit
  | .hasRow query negated => do
    put (if negated then "NOT EXISTS (" else "EXISTS (").toList
    query.write d
    put ")".toList
  | .group filters => do
    put "(".toList
    Filter.writeList d filters
    put ")".toList
  | predicate => Writer.tokens d (predicate.tokens d)

/-- A list of predicates; the connector of the first is not written. -/
def Filter.writeList (d : Dialect) : List Filter → Writer Unit
  | [] => pure ()
  | ⟨_, predicate⟩ :: rest => do
    predicate.write d
    Filter.writeMore d rest

/-- The predicates after the first, each with its connector. -/
def Filter.writeMore (d : Dialect) : List Filter → Writer Unit
  | [] => pure ()
  | ⟨connector, predicate⟩ :: rest => do
    put (" " ++ connector.symbol ++ " ").toList
    predicate.write d
    Filter.writeMore d rest

/-- The clauses are written in the order in which they are read where rows are not numbered. -/
def Query.write (d : Dialect) : Query → Writer Unit
  | ⟨source, columns, aggregate, joins, filters, groupings, havings, orderings, limit, offset, distinct⟩ => do
    let c : Components :=
      { select := ← capture (Writer.tokens d (selectTokens d columns aggregate distinct limit offset))
        source := ← capture (Writer.tokens d (match source with | some s => .word "FROM " :: s.tokens | none => []))
        joins := ← capture (Writer.tokens d (Token.separated " " (joins.map Join.tokens)))
        filters := ← capture (Writer.optional "WHERE " filters.isEmpty (Filter.writeList d filters))
        groupings := ← capture (Writer.tokens d (optionalClause "GROUP BY " groupings.isEmpty (columnList groupings)))
        havings := ← capture (Writer.optional "HAVING " havings.isEmpty (Filter.writeList d havings))
        orderings := ← capture (Writer.tokens d
          (optionalClause "ORDER BY " orderings.isEmpty (Token.separated ", " (orderings.map SortKey.tokens))))
        limit := ← capture (Writer.tokens d (limitTokens d limit offset))
        offset := ← capture (Writer.tokens d (offsetTokens d offset)) }
    c.write d limit offset

end

end SqlMapper
