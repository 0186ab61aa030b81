import SqlMapper.Attributes
import SqlMapper.Query.Basic
/-!
# Statement — everything that can be compiled to SQL

Besides queries there are the four writes.  Updates and deletes take their table and their predicates from a query.
An insert is built row by row, and a row is only taken if it has one value for each column; an insert that is put
together without the builder may have rows of any width.
-/
namespace SqlMapper

structure Insert where
  table : String
  columns : List String
  rows : List (List Expr)
  /-- Column whose generated value the statement returns. -/
  returning : Option String

namespace Insert

def into (table : String) (columns : List String) : Insert := ⟨table, columns, [], none⟩

/-- Appends a row, if it has one value for each column. -/
def pushRow? (i : Insert) (row : List Expr) : Option Insert :=
  if row.length = i.columns.length then some { i with rows := i.rows ++ [row] } else none

/-- Inserts one row, with the names of the attributes as columns. -/
def ofAttributes (table : String) (a : Attributes) : Insert :=
  ⟨table, a.names, [a.values.map .value], none⟩

/-- Asks for the generated value of a column. -/
def returningColumn (i : Insert) (column : String) : Insert := { i with returning := some column }

/-- Every row has one value for each column. -/
def IsGrid (i : Insert) : Prop := ∀ row ∈ i.rows, row.length = i.columns.length

instance (i : Insert) : Decidable i.IsGrid := inferInstanceAs (Decidable (∀ row ∈ i.rows, _))

theorem isGrid_ofAttributes (table : String) (a : Attributes) : (ofAttributes table a).IsGrid := by
  refine List.forall_mem_singleton.2 ?_
  simp [ofAttributes, Attributes.names, Attributes.values, Assoc.names]

end Insert

structure Update where
  /-- The table and the predicates. -/
  target : Query
  assignments : List (String × Expr)

namespace Update

def on (target : Query) : Update := ⟨target, []⟩

def set (u : Update) (column : String) (value : Expr) : Update :=
  { u with assignments := u.assignments ++ [(column, value)] }

end Update

inductive Statement where
  | query (q : Query)
  | insert (i : Insert)
  | update (u : Update)
  /-- Deletes the rows of the query's table that satisfy its predicates. -/
  | delete (target : Query)
  | truncate (table : String)

def Statement.isQuery : Statement → Bool
  | query _ => true
  | _ => false

end SqlMapper
