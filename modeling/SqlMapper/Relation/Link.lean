import SqlMapper.Entity.Basic
import SqlMapper.Query.Build
/-!
# Link — how related rows are found

The two ends of a relationship meet in one value: an attribute of the parent, and a column that the related rows, or the
rows of the join table, are selected by.  Columns of the join table are selected under the prefix `pivot_`, and taken off
the related row again when it is read.
-/
namespace SqlMapper

/-- The model of a join table's rows. -/
def JoinTable.model (j : JoinTable) : Model :=
  { id := none, name := j.table, table := j.table, key := j.foreignKey, timestamps := false, fillable := none,
    relations := [], nodup := .nil }

/-- A name behind the prefix of the join table's columns. -/
def unpivoted? (name : String) : Option String :=
  if "pivot_".toList.isPrefixOf name.toList then some (String.ofList (name.toList.drop 6)) else none

/-- The columns of the join table among the columns of a row, without their prefix. -/
def Attributes.pivotPart (row : Row) : Row :=
  .ofList (row.entries.filterMap fun (name, v) => (unpivoted? name).map fun column => (column, v))

/-- The columns of a row that are not the join table's. -/
def Attributes.ownPart (row : Row) : Row := row.filter fun name _ => (unpivoted? name).isNone

namespace Relation

variable (r : Relation)

/-- The attribute of the parent that holds the value both ends meet in. -/
def parentColumn (parent : Model) : String :=
  match r.link with
  | .belongsTo key => key
  | _ => parent.key

/-- The value both ends meet in, as a related entity holds it. -/
def childKey? (related : Model) (child : Entity) : Option Value :=
  match r.link with
  | .belongsTo _ => child.get? related.key
  | .hasOne key | .hasMany key => child.get? key
  | .manyToMany join => child.pivot.bind (·.get? join.foreignKey)

/-- The column that related rows are selected by. -/
def constrainedColumn (related : Model) : Column :=
  .parse <| match r.link with
    | .belongsTo _ => related.table ++ "." ++ related.key
    | .hasOne key | .hasMany key => related.table ++ "." ++ key
    | .manyToMany join => join.table ++ "." ++ join.foreignKey

/-- Selects a column of the join table under its prefixed name. -/
def pivotColumn (join : JoinTable) (column : String) : Column :=
  .parse (join.table ++ "." ++ column ++ " as pivot_" ++ column)

/-- The column and its prefixed name stand behind one another in the text. -/
theorem pivotColumn_eq (join : JoinTable) (column : String) :
    pivotColumn join column = .parse (join.table ++ "." ++ column ++ " as " ++ ("pivot_" ++ column)) := by
  have hprefixed : " as pivot_" = " as " ++ "pivot_" := rfl
  simp only [pivotColumn, hprefixed, String.append_assoc]

/-- A query on the related table, joined with the join table if there is one. -/
def baseQuery (related : Model) : Query :=
  let q := Query.table related.table
  match r.link with
  | .manyToMany join =>
    let columns := (join.foreignKey :: join.otherKey :: join.pivotColumns).map (pivotColumn join)
    (q.select (.parse (related.table ++ ".*") :: columns)).join join.table
      (.parse (related.table ++ "." ++ related.key)) .eq (.parse (join.table ++ "." ++ join.otherKey))
  | _ => q

/-- The related entity that a row of the relationship's query describes. -/
def hydrate (related : Model) (row : Row) : Entity :=
  match r.link with
  | .manyToMany join => (Entity.ofRow related row.ownPart).withPivot (.ofRow join.model row.pivotPart)
  | _ => .ofRow related row

/-- The value of a relationship with the given related entities, in order. -/
def collect (entities : List Entity) : Related :=
  if r.link.isSingle then .one entities.head? else .many entities

end Relation

end SqlMapper
