import SqlMapper.Error
import SqlMapper.Sql.Dialect
import SqlMapper.Url.Read
/-!
# Database — what a connection URL names

The scheme of a URL selects a database.  Opening connections is the business of drivers, which are not part of this
library, so connecting through a URL always fails; what a driver needs to know is read off the URL.
-/
namespace SqlMapper

namespace Url

/-- The capability of the database that the scheme names. -/
def capability (u : Url) : Capability :=
  match String.ofList u.scheme with
  | "sqlite" => Dialect.sqlite.capability
  | "postgres" | "postgresql" => Dialect.postgresql.capability
  | "mysql" => Dialect.mysql.capability
  | "mssql" | "sqlserver" => Dialect.sqlServer.capability
  | _ => Dialect.generic.capability

def readConnection (s : String) : Except Error Url :=
  (read s).mapError fun fault => .ofCause (.external fault.message)

/-- Why no connection can be opened. -/
def connectFault (u : Url) : Error :=
  .ofCause <|
    if String.ofList u.scheme = "sqlite" then .sqliteDisabled
    else .unsupportedDatabase (String.ofList u.scheme) (String.ofList u.text)

end Url

/-- Where a SQLite database is stored. -/
inductive SqliteLocation where
  | memory
  | file (path : String)
  deriving DecidableEq, Repr

/-- The location that a URL of scheme `sqlite` names.  Its path is the name of a file, taken as it is written. -/
def SqliteLocation.ofUrl (s : String) : Except Error SqliteLocation :=
  match Url.read s with
  | .error fault => .error (.ofCause (.driver fault.message []))
  | .ok u =>
    if String.ofList u.scheme ≠ "sqlite" then .error (.ofCause (.notSqlite s))
    else
      let path := String.ofList u.path.text
      .ok (if path = ":memory:" then memory else file path)

end SqlMapper
