import SqlMapper.Attributes
import SqlMapper.Schema.Model
/-!
# Entity — one row of a model's table

An entity holds its attributes and a snapshot of them as they were last read from or written to the database.  It is
dirty when it was never stored or when the two differ.  Relationships that were loaded hang below it, so entities form
trees; one that was loaded through a join table also carries the row of that table.
-/
namespace SqlMapper

mutual

structure Entity where
  model : Model
  attributes : Attributes
  /-- The attributes as last read or written. -/
  snapshot : Attributes
  /-- The entity has a row in its table. -/
  stored : Bool
  relations : List (String × Related)
  /-- The join row that the entity was loaded through. -/
  pivot : Option Entity

inductive Related where
  | one (entity : Option Entity)
  | many (entities : List Entity)

end

namespace Entity

/-- An entity without attributes that is not stored. -/
def new (model : Model) : Entity := ⟨model, .empty, .empty, false, [], none⟩

/-- An entity as read from the database. -/
def ofRow (model : Model) (row : Row) : Entity := ⟨model, row, row, true, [], none⟩

variable (e : Entity)

/-! ## Attributes -/

def get? (name : String) : Option Value := e.attributes.get? name

def has (name : String) : Bool := e.attributes.contains name

def set (name : String) (value : Value) : Entity := { e with attributes := e.attributes.insert name value }

def remove (name : String) : Entity := { e with attributes := e.attributes.erase name }

/-- Sets the attributes that the model lets mass assignment set; the others are ignored. -/
def fill (pairs : List (String × Value)) : Entity :=
  { e with attributes := e.attributes.insertAll (pairs.filter fun (name, _) => e.model.isFillable name) }

/-- Sets attributes whatever the model lets mass assignment set. -/
def fillRaw (pairs : List (String × Value)) : Entity := { e with attributes := e.attributes.insertAll pairs }

/-- The value of the primary key, unless it is null. -/
def key? : Option Value := (e.get? e.model.key).filter fun v => !v.isNull

/-- The key the entity was last read or written with, unless it is null. -/
def storedKey? : Option Value := if e.stored then (e.snapshot.get? e.model.key).filter fun v => !v.isNull else none

/-! ## Changes -/

def isDirty : Bool := !e.stored || !e.attributes.sameAs e.snapshot

def dirty : Attributes := e.attributes.changedFrom e.snapshot

/-! ## Relationships -/

def related? (name : String) : Option Related := Assoc.get? e.relations name

def isLoaded (name : String) : Bool := (e.related? name).isSome

def setRelated (name : String) (related : Related) : Entity :=
  { e with relations := Assoc.insert name related e.relations }

def withPivot (pivot : Entity) : Entity := { e with pivot := some pivot }

end Entity

namespace Related

def one? : Related → Option Entity
  | one e => e
  | many _ => none

def manyList : Related → List Entity
  | one _ => []
  | many es => es

/-- The loaded entities, at most one for a to-one relationship. -/
def toList : Related → List Entity
  | one e => e.toList
  | many es => es

def map (f : Entity → Entity) : Related → Related
  | one e => one (e.map f)
  | many es => many (es.map f)

end Related

end SqlMapper
