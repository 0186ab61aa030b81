import SqlMapper.Eager.Includes
import SqlMapper.Relation.Link
import SqlMapper.Session.Db
/-!
# Load — relationships of many entities at once

Every step of a resolved tree takes one query, whatever the number of parents: it selects the rows for all values that
the parents hold, loads what is below them, and hands every parent the rows that match its own value.
-/
namespace SqlMapper

/-- Refinements of the queries that load relationships, by path. -/
abbrev Constraints := List (String × (Query → Query))

namespace LoadStep

/-- The distinct values that the parents hold in a column, without null. -/
def parentValues (column : String) (parents : List Entity) : List Value :=
  Value.distinct ((parents.filterMap (·.get? column)).filter fun v => !v.isNull)

/-- The query for the rows that match one of the values. -/
def query (relation : Relation) (related : Model) (path : String) (constraints : Constraints) (values : List Value) :
    Query :=
  let q := (relation.baseQuery related).filterIn (relation.constrainedColumn related) (values.map .value)
  ((Assoc.get? constraints path).getD id) q

/-- The related entities of all values; without a value nothing is sent. -/
def fetch {σ : Type} (db : Db σ) (constraints : Constraints) (relation : Relation) (related : Model) (path : String)
    (values : List Value) : Action σ (List Entity) := do
  if values = [] then pure [] else
  let rows ← db.select (query relation related path constraints values)
  pure (rows.map (relation.hydrate related))

/-- The children that match a parent's value, in order.  Null matches nothing. -/
def matching (relation : Relation) (related : Model) (children : List Entity) : Option Value → List Entity
  | none | some .null => []
  | some v => children.filter fun c => relation.childKey? related c == some v

def assign (relation : Relation) (related : Model) (column : String) (children : List Entity) (parent : Entity) :
    Entity :=
  parent.setRelated relation.name (relation.collect (matching relation related children (parent.get? column)))

mutual

/-- Loads one relationship of the parents, whose model is `owner`. -/
def run {σ : Type} (db : Db σ) (constraints : Constraints) (owner : Model) (parents : List Entity) :
    LoadStep → Action σ (List Entity)
  | ⟨relation, related, path, nested⟩ => do
    let column := relation.parentColumn owner
    let children ← fetch db constraints relation related path (parentValues column parents)
    let children ← runAll db constraints related children nested
    pure (parents.map (assign relation related column children))

def runAll {σ : Type} (db : Db σ) (constraints : Constraints) (owner : Model) (parents : List Entity) :
    List LoadStep → Action σ (List Entity)
  | [] => pure parents
  | step :: rest => do
    let parents ← run db constraints owner parents step
    runAll db constraints owner parents rest

end

end LoadStep

end SqlMapper
