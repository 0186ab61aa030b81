import SqlMapper.Entity.Basic
/-!
# Document — entities as JSON

The object of an entity has its attributes, then its loaded relationships, then the join row it was loaded through.
A name that comes twice keeps its first place and takes its last value.
-/
namespace SqlMapper

/-- A JSON value whose objects are ordered. -/
inductive Document where
  | null
  | bool (b : Bool)
  | int (n : Int64)
  | double (x : Double)
  | text (s : String)
  | list (items : List Document)
  | object (fields : List (String × Document))

/-- A value as JSON: bytes are a list of numbers, a timestamp is a text without its fraction, and a double that is not
finite has no JSON form. -/
def Value.document : Value → Document
  | .null => .null
  | .bool b => .bool b
  | .int n => .int n
  | .double x => if x.isFinite then .double x else .null
  | .text s => .text s
  | .bytes bs => .list (bs.map fun b => .int (.ofNat b.toNat))
  | .timestamp t => .text (String.ofList t.seconds)

def Attributes.fields (a : Attributes) : List (String × Document) := a.entries.map fun (name, v) => (name, v.document)

mutual

def Entity.fields : Entity → List (String × Document)
  | ⟨_, attributes, _, _, relations, pivot⟩ =>
    Entity.addPivot (Related.addAll attributes.fields relations) pivot

def Entity.addPivot (fields : List (String × Document)) : Option Entity → List (String × Document)
  | some pivot => Assoc.insert "pivot" (.object pivot.fields) fields
  | none => fields

/-- Sets the loaded relationships after other fields. -/
def Related.addAll (fields : List (String × Document)) : List (String × Related) → List (String × Document)
  | [] => fields
  | (name, related) :: rest => Related.addAll (Assoc.insert name related.document fields) rest

def Related.document : Related → Document
  | .one none => .null
  | .one (some e) => .object e.fields
  | .many es => .list (Entity.documents es)

def Entity.documents : List Entity → List Document
  | [] => []
  | e :: rest => .object e.fields :: Entity.documents rest

end

end SqlMapper
