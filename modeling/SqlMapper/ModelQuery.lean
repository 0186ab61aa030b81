import SqlMapper.Eager.Load
import SqlMapper.Entity.Persist
import SqlMapper.Value.Convert
/-!
# ModelQuery — the entities of one model

A model query selects rows of a model's table, reads them as entities and loads the relationships that were asked for.
All names are checked before anything is sent.  Counting, updating and deleting work on the rows the query selects.
-/
namespace SqlMapper

structure ModelQuery where
  model : Model
  query : Query
  includes : Includes
  constraints : Constraints

namespace ModelQuery

def all (m : Model) : ModelQuery := ⟨m, .table m.table, .empty, []⟩

variable (mq : ModelQuery)

/-! ## Refining -/

def scope (f : Query → Query) : ModelQuery := { mq with query := f mq.query }

def withPaths (paths : List String) : ModelQuery := { mq with includes := paths.foldl Includes.insert mq.includes }

/-- Loads the relationship at a path, by a query refined with `f`. -/
def withConstraint (path : String) (f : Query → Query) : ModelQuery :=
  { mq with includes := mq.includes.insert path, constraints := Assoc.insert path f mq.constraints }

def filter (column : String) (value : Value) : ModelQuery := mq.scope (·.filter (Column.parse column) value)

def filterOp (column : String) (op : Comparison) (value : Value) : ModelQuery :=
  mq.scope (·.filterOp (Column.parse column) op value)

def filterIn (column : String) (values : List Value) : ModelQuery :=
  mq.scope (·.filterIn (Column.parse column) (values.map .value))

def filterNull (column : String) : ModelQuery := mq.scope (·.filterNull (Column.parse column))

def orderBy (column : String) : ModelQuery := mq.scope (·.orderBy (Column.parse column))

def orderByDescending (column : String) : ModelQuery := mq.scope (·.orderByDescending (Column.parse column))

def limit (n : UInt64) : ModelQuery := mq.scope (·.limitTo n)

def offset (n : UInt64) : ModelQuery := mq.scope (·.skip n)

def withKey (id : Value) : ModelQuery := mq.filter (mq.model.table ++ "." ++ mq.model.key) id

/-! ## Running -/

variable {σ : Type} (db : Db σ)

def get : Action σ (List Entity) := do
  let steps ← mq.includes.resolve db.schema mq.model ""
  let rows ← db.select mq.query
  LoadStep.runAll db mq.constraints mq.model (rows.map (Entity.ofRow mq.model)) steps

def first : Action σ (Option Entity) := do pure (← (mq.limit 1).get db).head?

def find (id : Value) : Action σ (Option Entity) := (mq.withKey id).first db

/-- The entity of a primary key, which has to exist. -/
def findOrFail (id : Value) : Action σ Entity := do
  match ← mq.find db id with
  | some e => pure e
  | none => throw (.ofCause (.entityNotFound ("table=" ++ mq.model.table ++ " key=" ++ id.describe)))

def countQuery : Query := mq.query.clearOrderings.aggregateBy .count []

/-- The number of rows; a negative count is zero. -/
def count : Action σ UInt64 := do
  let rows ← db.select mq.countQuery
  let n ← (((rows.head?.bind (·.get? "aggregate")).getD (.int 0)).toInt64 : Except Error Int64)
  pure (.ofNat n.toInt.toNat)

def exists? : Action σ Bool := do pure (0 < (← mq.count db))

/-- The values of one column, in row order. -/
def pluck (column : String) : Action σ (List Value) := do
  let rows ← db.select (mq.query.select [.parse column])
  pure (rows.filterMap fun row => row.values.head?)

/-- The update of every selected row, which stamps the time of the change for models with timestamps. -/
def updateStatement (pairs : List (String × Value)) (now : Timestamp) : Update :=
  let u := pairs.foldl (fun u (name, v) => u.set name (.value v)) (Update.on mq.query)
  if mq.model.timestamps then u.set "updated_at" (.value (.timestamp now)) else u

/-- Updates every selected row; answers the number of rows changed. -/
def update (pairs : List (String × Value)) : Action σ UInt64 := db.execute (.update (mq.updateStatement pairs db.now))

/-- Deletes every selected row; answers the number of rows deleted.  No hooks run. -/
def delete : Action σ UInt64 := db.execute (.delete mq.query)

end ModelQuery

/-! ## Shorthands -/

namespace Db

variable {σ : Type} (db : Db σ)

def query (model : String) : Except Error ModelQuery := do pure (.all (← db.schema.modelNamed model))

def find (model : String) (id : Value) : Action σ (Option Entity) := do
  let mq ← db.query model
  mq.find db id

def findOrFail (model : String) (id : Value) : Action σ Entity := do
  let mq ← db.query model
  mq.findOrFail db id

def all (model : String) : Action σ (List Entity) := do
  let mq ← db.query model
  mq.get db

def instantiate (model : String) : Except Error Entity := do pure (.new (← db.schema.modelNamed model))

def create (model : String) (pairs : List (String × Value)) : Action σ Entity := do
  let e ← db.instantiate model
  let (saved, e) ← (e.fill pairs).save db
  saved
  pure e

end Db

end SqlMapper
