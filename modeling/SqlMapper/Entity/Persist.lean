import SqlMapper.Query.Build
import SqlMapper.Session.Db
/-!
# Persist — saving and deleting entities

A save writes what changed and then takes a new snapshot.  An entity that is stored is found in its table by the key it
was last read or written with, so that a changed key is written like any other attribute.
-/
namespace SqlMapper.Entity

variable {σ : Type} (db : Db σ)

/-- Stamps the time of the change, and of the creation if the entity is new and has none. -/
def stamp (e : Entity) (now : Timestamp) : Entity :=
  if e.model.timestamps then
    let e := e.set "updated_at" (.timestamp now)
    if !e.stored && !e.has "created_at" then e.set "created_at" (.timestamp now) else e
  else e

def byKey (e : Entity) : Except Error Query :=
  match e.storedKey? <|> e.key? with
  | some key => .ok ((Query.table e.model.table).filter (Column.parse e.model.key) key)
  | none => .error (.ofCause (.keyless e.model.name e.model.key))

/-- Writes the entity and returns its attributes as they are then stored. -/
def write (e : Entity) : Action σ Attributes := do
  if e.stored then
    if e.dirty.entries = [] then pure e.attributes else
    let target ← e.byKey
    let u := e.dirty.entries.foldl (fun u (name, v) => u.set name (.value v)) (Update.on target)
    let _ ← db.execute (.update u)
    pure e.attributes
  else
    match ← db.insertRow (.ofAttributes e.model.table e.attributes) e.model.key, e.key? with
    | some key, none => pure (e.attributes.insert e.model.key key)
    | _, _ => pure e.attributes

/-- The entity after a write that stored the attributes. -/
def settle (e : Entity) (attributes : Attributes) : Entity :=
  { e with attributes, snapshot := attributes, stored := true }

/-- Writes the entity if it is dirty: a new one is inserted and takes the generated key, a stored one updates the
attributes that changed. -/
def save (e : Entity) : Session σ Attempt := do
  if !e.isDirty then return (.ok (), e)
  let (hook, e) ← db.runSaving (e.stamp db.now)
  match hook with
  | .error err => pure (.error err, e)
  | .ok () =>
    match ← (e.write db).run with
    | .error err => pure (.error err, e)
    | .ok attributes =>
      let e := e.settle attributes
      pure (← db.runHook .saved Hooks.saved e, e)

/-- Deletes the entity's row.  The attributes stay, but the entity is stored no more. -/
def delete (e : Entity) : Session σ Attempt := do
  if !e.stored then return (.ok (), e)
  match ← db.runHook .deleting Hooks.deleting e with
  | .error err => pure (.error err, e)
  | .ok () =>
    match ← (do let target ← e.byKey; db.execute (.delete target) : Action σ UInt64).run with
    | .error err => pure (.error err, e)
    | .ok _ =>
      let e := { e with stored := false }
      pure (← db.runHook .deleted Hooks.deleted e, e)

/-- Stamps the time of the change and saves, for models with timestamps. -/
def touch (e : Entity) : Session σ Attempt :=
  if e.model.timestamps then (e.set "updated_at" (.timestamp db.now)).save db else pure (.ok (), e)

end SqlMapper.Entity
