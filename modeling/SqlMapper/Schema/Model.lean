import SqlMapper.Error
import SqlMapper.Naming.Convention
/-!
# Model — entity types and their relationships

A model maps an entity type to a table.  Its relationships are named edges to other models, which it refers to by their
positions in the schema.  A relationship's name is unique within its model.
-/
namespace SqlMapper

/-- The table that joins two models. -/
structure JoinTable where
  table : String
  /-- Column that holds the owner's key. -/
  foreignKey : String
  /-- Column that holds the related model's key. -/
  otherKey : String
  /-- Further columns that are read with each related entity. -/
  pivotColumns : List String
  deriving DecidableEq, Repr

/-- How the rows of two models are linked. -/
inductive Link where
  | belongsTo (foreignKey : String)
  | hasOne (foreignKey : String)
  | hasMany (foreignKey : String)
  | manyToMany (join : JoinTable)
  deriving DecidableEq, Repr

namespace Link

def kind : Link → RelationKind
  | belongsTo _ => .belongsTo
  | hasOne _ => .hasOne
  | hasMany _ => .hasMany
  | manyToMany _ => .manyToMany

def foreignKey : Link → String
  | belongsTo key | hasOne key | hasMany key => key
  | manyToMany join => join.foreignKey

/-- At most one entity is related. -/
def isSingle : Link → Bool
  | belongsTo _ | hasOne _ => true
  | hasMany _ | manyToMany _ => false

end Link

structure Relation where
  name : String
  /-- Position of the related model in the schema. -/
  target : Nat
  link : Link
  /-- Relationships of the same model that have to be loaded first. -/
  after : List String
  deriving DecidableEq, Repr

structure Model where
  /-- Position in the schema.  The rows of a join table have a model of their own, which is in no schema. -/
  id : Option Nat
  name : String
  table : String
  /-- Primary key column. -/
  key : String
  /-- The columns `created_at` and `updated_at` are stamped on save. -/
  timestamps : Bool
  /-- The attributes that mass assignment sets, all of them for none. -/
  fillable : Option (List String)
  relations : List Relation
  nodup : (relations.map Relation.name).Nodup
  deriving DecidableEq, Repr

namespace Model

/-- A model with the conventional table and key and without relationships. -/
def conventional (id : Nat) (name : String) : Model :=
  { id := some id, name, table := conventionalTable name, key := "id", timestamps := false, fillable := none,
    relations := [], nodup := by simp }

def relation? (m : Model) (name : String) : Option Relation := m.relations.find? (·.name == name)

def relation (m : Model) (name : String) : Except Error Relation :=
  match m.relation? name with
  | some r => .ok r
  | none => .error (Cause.unknownRelationship m.name name)

def isFillable (m : Model) (column : String) : Bool :=
  match m.fillable with
  | some names => names.contains column
  | none => true

/-- Replaces the relationship of the same name in its place, or appends the relationship. -/
def putRelation (r : Relation) : List Relation → List Relation
  | [] => [r]
  | s :: rest => if s.name = r.name then r :: rest else s :: putRelation r rest

theorem names_putRelation (r : Relation) :
    ∀ relations, (putRelation r relations).map Relation.name =
      if r.name ∈ relations.map Relation.name then relations.map Relation.name
      else relations.map Relation.name ++ [r.name]
  | [] => by simp [putRelation]
  | s :: rest => by
    have ih := names_putRelation r rest
    by_cases hs : s.name = r.name
    · simp [putRelation, hs]
    · by_cases hm : r.name ∈ rest.map Relation.name <;> simp_all [putRelation, Ne.symm hs]

/-- Declares a relationship; one of the same name is replaced. -/
def declare (m : Model) (r : Relation) : Model :=
  { m with
    relations := putRelation r m.relations
    nodup := by
      rw [names_putRelation]
      split
      · exact m.nodup
      · rename_i hm
        refine List.nodup_append.2 ⟨m.nodup, by simp, fun a ha b hb => ?_⟩
        rintro rfl
        exact hm (List.mem_singleton.1 hb ▸ ha) }

/-- Where names are unique, a relationship is the first of its name. -/
theorem find?_name_of_mem :
    ∀ {relations : List Relation} {r : Relation}, (relations.map Relation.name).Nodup → r ∈ relations →
      relations.find? (·.name == r.name) = some r
  | [], _, _, hr => by cases hr
  | s :: rest, r, hn, hr => by
    simp only [List.map_cons, List.nodup_cons] at hn
    rw [List.find?_cons]
    rcases List.mem_cons.1 hr with rfl | hr
    · simp
    · have hne : (s.name == r.name) = false := by
        rw [beq_eq_false_iff_ne]
        intro h
        exact hn.1 (h ▸ List.mem_map_of_mem hr)
      rw [hne]
      exact find?_name_of_mem hn.2 hr

/-- Exactly the declared relationships are found, each under its name. -/
theorem relation?_eq_some_iff {m : Model} {name : String} {r : Relation} :
    m.relation? name = some r ↔ r ∈ m.relations ∧ r.name = name := by
  constructor
  · intro h
    exact ⟨List.mem_of_find?_eq_some h, by simpa using List.find?_some h⟩
  · rintro ⟨hr, rfl⟩
    exact find?_name_of_mem m.nodup hr

end Model

end SqlMapper
