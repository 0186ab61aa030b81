import SqlMapper.Schema.Model
/-!
# Verify — what makes models a schema

Names are unique, every relationship leads to a model, and the relationships that one waits for are declared and do not
wait for it in turn.  The last rule is checked by a depth-first walk over the relationships of a model.  The walk carries
the names it is inside of, so a name it meets again closes a cycle.
-/
namespace SqlMapper

namespace Model

def relationNames (m : Model) : List String := m.relations.map Relation.name

/-- The declared names that are not on the path, which bounds how deep a walk can still go. -/
def offPath (m : Model) (path : List String) : List String := m.relationNames.filter (· ∉ path)

theorem length_offPath_cons_lt {m : Model} {path : List String} {name : String} (hn : name ∈ m.relationNames)
    (hp : name ∉ path) : (m.offPath (name :: path)).length < (m.offPath path).length := by
  have hsub : m.offPath (name :: path) = (m.offPath path).filter (· ≠ name) := by
    simp only [offPath, List.filter_filter]
    congr 1
    funext a
    simp [not_or]
  rw [hsub]
  refine List.length_filter_lt_length_iff_exists.2 ⟨name, ?_, by simp⟩
  simp [offPath, hn, hp]

theorem mem_relationNames_of_relation? {m : Model} {name : String} {r : Relation} (h : m.relation? name = some r) :
    name ∈ m.relationNames := by
  obtain ⟨hr, rfl⟩ := relation?_eq_some_iff.1 h
  exact List.mem_map_of_mem hr

/-- Walks the names that a name waits for.  The path leads back from the name that waits for it to the start; the
result adds the name and everything below it to the finished names.  A name that is not declared cannot be walked. -/
def visit (m : Model) (path : List String) (name : String) (done : List String) : Except Error (List String) :=
  if name ∈ done then .ok done
  else if _hp : name ∈ path then .error (Cause.invalidDependency m.name (path.headD name) name)
  else match _h : m.relation? name with
    | none => .error (Cause.strayName m.name name)
    | some r => (r.after.foldlM (fun done next => m.visit (name :: path) next done) done).map (name :: ·)
termination_by (m.offPath path).length
decreasing_by exact length_offPath_cons_lt (mem_relationNames_of_relation? _h) _hp

/-- Walks from every name. -/
def visitAll (m : Model) (names : List String) : Except Error (List String) :=
  names.foldlM (fun done name => m.visit [] name done) []

/-! ## Checks -/

/-- Every relationship leads to one of `count` models. -/
def verifyTargets (m : Model) (count : Nat) : Except Error Unit :=
  match m.relations.find? fun r => count ≤ r.target with
  | some r => .error (Cause.unknownModel ("target of `" ++ m.name ++ "." ++ r.name ++ "`"))
  | none => .ok ()

/-- Why a relationship cannot wait for a name. -/
def dependencyFault? (m : Model) (r : Relation) (dependency : String) : Option Cause :=
  if dependency = r.name then some (.invalidDependency m.name r.name dependency)
  else if (m.relation? dependency).isNone then some (.unknownRelationship m.name dependency)
  else none

/-- Every name waited for is declared, and nothing waits for itself. -/
def verifyDependencies (m : Model) : Except Error Unit :=
  match m.relations.findSome? fun r => r.after.findSome? (m.dependencyFault? r) with
  | some cause => .error (.ofCause cause)
  | none =>
    match m.visitAll m.relationNames with
    | .ok _ => .ok ()
    | .error e => .error e

end Model

/-- The first name that occurs a second time. -/
def repeatedName? (seen : List String) : List Model → Option String
  | [] => none
  | m :: rest => if m.name ∈ seen then some m.name else repeatedName? (m.name :: seen) rest

def verifyEach (count : Nat) : List Model → Except Error Unit
  | [] => .ok ()
  | m :: rest =>
    match m.verifyTargets count with
    | .error e => .error e
    | .ok _ =>
      match m.verifyDependencies with
      | .error e => .error e
      | .ok _ => verifyEach count rest

/-- Checks names first, then the relationships of one model after the other. -/
def verifyModels (models : List Model) : Except Error Unit :=
  match repeatedName? [] models with
  | some name => .error (Cause.duplicateModel name)
  | none => verifyEach models.length models

end SqlMapper
