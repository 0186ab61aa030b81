import SqlMapper.Entity.Persist
import SqlMapper.Relation.Link
/-!
# RelationQuery — the entities related to one entity

A relation query is constrained to the rows related to its parent and can be refined before it runs.  A parent without a
value to meet in has nothing related, and nothing is sent to find that out.
-/
namespace SqlMapper

structure RelationQuery where
  parent : Model
  relation : Relation
  related : Model
  /-- The parent's value that related rows are selected by; null if it has none. -/
  parentKey : Value
  query : Query

/-- The query of a relationship of an entity. -/
def Entity.relation {σ : Type} (e : Entity) (db : Db σ) (name : String) : Except Error RelationQuery := do
  let r ← e.model.relation name
  let related ← db.schema.related r
  let key := (e.get? (r.parentColumn e.model)).getD .null
  pure ⟨e.model, r, related, key, (r.baseQuery related).filter (r.constrainedColumn related) key⟩

namespace RelationQuery

variable {σ : Type} (rq : RelationQuery) (db : Db σ)

/-- Changes the underlying query. -/
def refine (f : Query → Query) : RelationQuery := { rq with query := f rq.query }

def unavailable (operation : String) : Error :=
  .ofCause (.unavailable operation rq.parent.name rq.relation.name rq.relation.link.kind)

/-- The parent's value, which writes through the relationship need. -/
def requireParentKey (operation : String) : Except Error Value :=
  if rq.parentKey.isNull then .error (.ofCause (.keylessParent operation rq.relation.name)) else .ok rq.parentKey

/-- The join table, which only a many-to-many relationship has. -/
def requireJoin (operation : String) : Except Error JoinTable :=
  match rq.relation.link with
  | .manyToMany join => .ok join
  | _ => .error (rq.unavailable operation)

/-! ## Reading -/

def fetch (q : Query) : Action σ (List Entity) := do
  if rq.parentKey.isNull then pure [] else
  let rows ← db.select q
  pure (rows.map (rq.relation.hydrate rq.related))

def get : Action σ (List Entity) := rq.fetch db rq.query

def first : Action σ (Option Entity) := do pure (← rq.fetch db (rq.query.limitTo 1)).head?

/-- The value of the relationship. -/
def results : Action σ Related := do
  if rq.relation.link.isSingle then pure (.one (← rq.first db)) else pure (.many (← rq.get db))

/-! ## Writing -/

/-- The row of the join table that links the parent to a key, stamped if the table keeps timestamps. -/
def joinRow (join : JoinTable) (parentKey id : Value) (now : Timestamp) : Attributes :=
  let row := (Attributes.empty.insert join.foreignKey parentKey).insert join.otherKey id
  (["created_at", "updated_at"].filter join.pivotColumns.contains).foldl
    (fun row column => row.insert column (.timestamp now)) row

/-- Links the parent to a key, with further attributes of the join row. -/
def attach (id : Value) (pairs : List (String × Value)) : Action σ Unit := do
  let join ← rq.requireJoin "attach"
  let parentKey ← rq.requireParentKey "attach"
  let row := (joinRow join parentKey id db.now).insertAll pairs
  let _ ← db.execute (.insert (.ofAttributes join.table row))

/-- Links an entity that was saved to the parent. -/
def attachSaved (e : Entity) (pairs : List (String × Value)) : Action σ Unit :=
  match e.key? with
  | some key => rq.attach db key pairs
  | none => throw (.ofCause (.keylessAfterSave rq.related.name))

/-- Links an entity to the parent and saves it: by its foreign key, or by a join row once it has a key. -/
def save (e : Entity) : Session σ Attempt :=
  match rq.requireParentKey "save" with
  | .error err => pure (.error err, e)
  | .ok parentKey =>
    match rq.relation.link with
    | .belongsTo _ => pure (.error (rq.unavailable "save"), e)
    | .hasOne key | .hasMany key => (e.set key parentKey).save db
    | .manyToMany _ => do
      let (saved, e) ← e.save db
      match saved with
      | .error err => pure (.error err, e)
      | .ok () => pure (← (rq.attachSaved db e []).run, e)

/-- A new related entity, linked to the parent. -/
def insert (pairs : List (String × Value)) : Action σ Entity := do
  let (saved, e) ← rq.save db ((Entity.new rq.related).fill pairs)
  saved
  pure e

end RelationQuery

namespace Entity

variable {σ : Type} (db : Db σ)

/-- The loaded relationship, which is queried for on first use. -/
def resolve (e : Entity) (name : String) : Action σ (Related × Entity) := do
  match e.related? name with
  | some related => pure (related, e)
  | none =>
    let rq ← e.relation db name
    let related ← rq.results db
    pure (related, e.setRelated name related)

/-- The foreign key of a belongs-to relationship. -/
def ownForeignKey (e : Entity) (operation name : String) : Except Error String := do
  let r ← e.model.relation name
  match r.link with
  | .belongsTo key => .ok key
  | _ => .error (.ofCause (.unavailable operation e.model.name r.name r.link.kind))

/-- Points a belongs-to relationship at another entity, without saving. -/
def associate (e : Entity) (name : String) (other : Entity) : Except Error Entity := do
  let key ← e.ownForeignKey "associate" name
  pure ((e.set key (other.key?.getD .null)).setRelated name (.one (some other)))

/-- Clears a belongs-to relationship, without saving. -/
def dissociate (e : Entity) (name : String) : Except Error Entity := do
  let key ← e.ownForeignKey "dissociate" name
  pure ((e.set key .null).setRelated name (.one none))

end Entity

end SqlMapper
