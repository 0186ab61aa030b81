import SqlMapper.Schema.Verify
/-!
# Schema — the models of a database

A schema holds verified models, each at the position that it names as its own.  It is built once and does not change.
-/
namespace SqlMapper

/-- Every model names its own position. -/
def Positional (models : List Model) : Prop := models.map Model.id = (List.range models.length).map some

instance (models : List Model) : Decidable (Positional models) := by unfold Positional; infer_instance

structure Schema where
  models : List Model
  positional : Positional models
  verified : verifyModels models = .ok ()

namespace Schema

/-- The models that name their positions, up to the first that does not. -/
def positionalPart (index : Nat) : List Model → List Model
  | [] => []
  | m :: rest => if m.id = some index then m :: positionalPart (index + 1) rest else []

/-- A schema of the given models.  A model in a wrong position is the caller's mistake, unless a repeated name before it
is found first. -/
def ofModels (models : List Model) : Except Error Schema :=
  if hp : Positional models then
    match hv : verifyModels models with
    | .ok () => .ok ⟨models, hp, hv⟩
    | .error e => .error e
  else
    match repeatedName? [] (positionalPart 0 models) with
    | some name => .error (Cause.duplicateModel name)
    | none => .error Cause.misplacedModel

def model? (s : Schema) (id : Nat) : Option Model := s.models[id]?

def modelNamed (s : Schema) (name : String) : Except Error Model :=
  match s.models.find? (·.name == name) with
  | some m => .ok m
  | none => .error (Cause.unknownModel name)

/-- The model that a relationship leads to. -/
def related (s : Schema) (r : Relation) : Except Error Model :=
  match s.model? r.target with
  | some m => .ok m
  | none => .error Cause.misplacedModel

end Schema

end SqlMapper
