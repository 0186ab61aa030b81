import SqlMapper.Timestamp.Basic
/-!
# Dialect — what the databases do differently

Quotes, placeholders, the text of timestamps, and the few statements that only some databases have.
-/
namespace SqlMapper

inductive Dialect where
  /-- Standard SQL with double quotes and bare question marks. -/
  | generic
  | postgresql
  | mysql
  | sqlite
  | sqlServer
  deriving DecidableEq, Repr

namespace Dialect

def name : Dialect → String
  | generic => "generic"
  | postgresql => "postgresql"
  | mysql => "mysql"
  | sqlite => "sqlite"
  | sqlServer => "sqlserver"

def all : List Dialect := [generic, postgresql, mysql, sqlite, sqlServer]

def openQuote : Dialect → Char
  | mysql => '`'
  | sqlServer => '['
  | _ => '"'

def closeQuote : Dialect → Char
  | mysql => '`'
  | sqlServer => ']'
  | _ => '"'

/-- The pattern in which timestamps are bound. -/
def timestampFormat : Dialect → String
  | sqlServer => "%Y-%m-%d %H:%M:%S%.3f"
  | _ => "%Y-%m-%d %H:%M:%S"

def timestampText (d : Dialect) (t : Timestamp) : List Char :=
  match d with
  | sqlServer => t.milliseconds
  | _ => t.seconds

def supportsReturning : Dialect → Bool
  | postgresql => true
  | _ => false

def begin : Dialect → String
  | mysql => "START TRANSACTION"
  | sqlServer => "BEGIN TRANSACTION"
  | _ => "BEGIN"

def commit (_ : Dialect) : String := "COMMIT"

def rollback (_ : Dialect) : String := "ROLLBACK"

end Dialect

structure Capability where
  dialect : Dialect
  /-- Inserts can return the generated key; otherwise the driver reports it. -/
  insertReturning : Bool
  deriving DecidableEq, Repr

def Dialect.capability (d : Dialect) : Capability := ⟨d, d.supportsReturning⟩

end SqlMapper
