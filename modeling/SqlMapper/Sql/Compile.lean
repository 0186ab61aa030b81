import SqlMapper.Error
import SqlMapper.Query.Statement
import SqlMapper.Sql.Writer
/-!
# Compile — statements as SQL

A statement that a dialect cannot express is refused before anything is written.  Otherwise it is written behind the
values that are bound already, and its placeholders are numbered after them.
-/
namespace SqlMapper

open Token (word separated)

def Statement.refusal? (d : Dialect) : Statement → Option Cause
  | .insert i =>
    if i.returning.isSome && !d.supportsReturning then some (.unsupportedOperation d.name "INSERT ... RETURNING")
    else none
  | .truncate _ => if d = .sqlite then some (.unsupportedOperation d.name "TRUNCATE") else none
  | .update u =>
    if u.target.table? = none then some .updateWithoutTable
    else if u.assignments = [] then some .updateWithoutAssignment
    else none
  | .delete target => if target.table? = none then some .deleteWithoutTable else none
  | .query _ => none

/-! ## Writes -/

/-- A row of a select over constants, each under its column's name. -/
def unionRow (columns : List String) (row : List Expr) : List Token :=
  word "SELECT " ::
    separated ", " ((columns.zip row).map fun (column, value) => [value.token, word " AS ", Token.segment column])

def valuesRow (row : List Expr) : List Token := word "(" :: exprList row ++ [word ")"]

/-- SQLite takes several rows as a union of selects, since its older releases know no other form. -/
def Insert.rowsTokens (i : Insert) (d : Dialect) : List Token :=
  if d = .sqlite ∧ 1 < i.rows.length then separated " UNION ALL " (i.rows.map (unionRow i.columns))
  else word "VALUES " :: separated ", " (i.rows.map valuesRow)

def Insert.tokens (i : Insert) (d : Dialect) : List Token :=
  word "INSERT INTO " :: Token.name i.table ++
    (if i.columns = [] then [word (if d = .mysql then " () VALUES ()" else " DEFAULT VALUES")]
     else word " (" :: separated ", " (i.columns.map Token.name) ++ word ") " :: i.rowsTokens d) ++
    match i.returning with
    | some column => word " RETURNING " :: Token.name column
    | none => []

/-- The table that an update or a delete writes to. -/
def Query.targetTokens (q : Query) : List Token :=
  match q.table? with
  | some table => Token.name table
  | none => []

def Query.whereTokens (q : Query) (d : Dialect) : List Token :=
  if q.filters.isEmpty then [] else word " WHERE " :: Filter.listTokens d q.filters

/-- The assignments, behind the table that they are made in. -/
def Update.setTokens (u : Update) : List Token :=
  word "UPDATE " :: u.target.targetTokens ++ word " SET " ::
    separated ", " (u.assignments.map fun (column, value) => Token.name column ++ [word " = ", value.token])

def Update.tokens (u : Update) (d : Dialect) : List Token := u.setTokens ++ u.target.whereTokens d

/-- What a statement reads as. -/
def Statement.tokens (d : Dialect) : Statement → List Token
  | .query q => q.tokens d
  | .insert i => i.tokens d
  | .update u => u.tokens d
  | .delete target => word "DELETE FROM " :: target.targetTokens ++ target.whereTokens d
  | .truncate table => word "TRUNCATE TABLE " :: Token.name table

/-! ## Writing -/

def Query.writeWhere (q : Query) (d : Dialect) : Writer Unit :=
  Writer.optional " WHERE " q.filters.isEmpty (Filter.writeList d q.filters)

def Statement.write (d : Dialect) : Statement → Writer Unit
  | .query q => q.write d
  | .insert i => Writer.tokens d (i.tokens d)
  | .update u => do
    Writer.tokens d u.setTokens
    u.target.writeWhere d
  | .delete target => do
    Writer.tokens d (word "DELETE FROM " :: target.targetTokens)
    target.writeWhere d
  | .truncate table => Writer.tokens d (word "TRUNCATE TABLE " :: Token.name table)

/-- Writes a statement and pushes its values.  Nothing is pushed if the dialect refuses the statement. -/
def Statement.serialize (d : Dialect) (s : Statement) : ExceptT Error (StateM (List Value)) String := do
  match s.refusal? d with
  | some cause => throw (.ofCause cause)
  | none =>
    let written := ((s.write d).run ⟨[], ← get⟩).2
    set written.values
    pure (String.ofList written.text)

/-! ## Compiling -/

/-- SQL text and the values bound to its placeholders. -/
structure Compiled where
  sql : String
  bindings : List Value
  deriving DecidableEq, Repr

/-- The SQL of a statement whose values come after the values in `before`. -/
def Statement.compileAfter (d : Dialect) (before : List Value) (s : Statement) : Except Error Compiled :=
  match (s.serialize d).run.run before with
  | (.ok sql, values) => .ok ⟨sql, values⟩
  | (.error e, _) => .error e

def Statement.compile (d : Dialect) (s : Statement) : Except Error Compiled := s.compileAfter d []

end SqlMapper
