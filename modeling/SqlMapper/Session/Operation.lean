import SqlMapper.Attributes
import SqlMapper.Number.Saturating
import SqlMapper.Sql.Compile
/-!
# Operation — what is sent to a connection, and what comes back

A connection gets compiled statements and answers with rows or with a count.  An operation carries the statement next to
its SQL, so that what a connection does with it can be said of the statement.
-/
namespace SqlMapper

/-- A statement with the SQL and the bindings that it compiled to. -/
structure Prepared where
  statement : Statement
  sql : String
  bindings : List Value

inductive Operation where
  /-- Runs a statement that returns rows. -/
  | query (p : Prepared)
  /-- Runs a statement that changes data.  An insert may ask the driver for the key that the database generates. -/
  | exec (p : Prepared) (wantsKey : Bool)
  | begin
  | commit
  | rollback

def Statement.prepare (d : Dialect) (s : Statement) : Except Error Prepared :=
  match s.compile d with
  | .ok c => .ok ⟨s, c.sql, c.bindings⟩
  | .error e => .error e

inductive Outcome where
  | count (n : UInt64)
  | rows (rows : List Row)

namespace Outcome

/-- Rows affected; a list of rows counts its rows. -/
def affected : Outcome → UInt64
  | count n => n
  | rows rs => saturate rs.length

def toRows : Outcome → Except Error (List Row)
  | rows rs => .ok rs
  | count n => .error (.ofCause (.countForRows n.toNat))

end Outcome

structure Response where
  outcome : Outcome
  /-- The key that an insert generated, if the driver was asked for it. -/
  generatedKey : Option Value

end SqlMapper
