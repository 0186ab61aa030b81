import SqlMapper.Schema.Basic
/-!
# Registration — from declarations to a schema

A declaration names what differs from the conventions.  Relationships refer to other models by name, and resolving them
needs all declarations at once.
-/
namespace SqlMapper

/-- A relationship as it is declared; names left out follow the conventions. -/
structure RelationDeclaration where
  kind : RelationKind
  name : String
  /-- Name of the related model. -/
  target : String
  foreignKey : Option String
  /-- Join table of a many-to-many relationship. -/
  table : Option String
  /-- Column of the join table that points at the related model. -/
  otherKey : Option String
  pivotColumns : List String
  after : List String
  deriving DecidableEq, Repr

namespace RelationDeclaration

def new (kind : RelationKind) (name target : String) : RelationDeclaration :=
  ⟨kind, name, target, none, none, none, [], []⟩

/-- Reads further columns of the join table; a column that is there already is not added again. -/
def withPivot (r : RelationDeclaration) (columns : List String) : RelationDeclaration :=
  { r with
    pivotColumns := columns.foldl (fun known c => if known.contains c then known else known ++ [c]) r.pivotColumns }

/-- Reads and stamps the timestamps of the join table's rows. -/
def withTimestamps (r : RelationDeclaration) : RelationDeclaration := r.withPivot ["created_at", "updated_at"]

end RelationDeclaration

structure ModelDeclaration where
  name : String
  table : Option String
  key : Option String
  timestamps : Bool
  fillable : Option (List String)
  relations : List RelationDeclaration
  deriving DecidableEq, Repr

structure Registry where
  models : List ModelDeclaration
  /-- Stands before the name of every table, join tables included. -/
  tablePrefix : Option String
  deriving DecidableEq, Repr

namespace Registry

def prefixed (g : Registry) (table : String) : String := g.tablePrefix.getD "" ++ table

/-- The position of a model by its name. -/
def position? (g : Registry) (name : String) : Option Nat := g.models.findIdx? (·.name == name)

/-- The link of a relationship that the model `owner` declares. -/
def link (g : Registry) (owner : String) (r : RelationDeclaration) : Link :=
  match r.kind with
  | .belongsTo => .belongsTo (r.foreignKey.getD (conventionalForeignKey r.name))
  | .hasOne => .hasOne (r.foreignKey.getD (conventionalForeignKey owner))
  | .hasMany => .hasMany (r.foreignKey.getD (conventionalForeignKey owner))
  | .manyToMany => .manyToMany
    { table := g.prefixed (r.table.getD (conventionalJoinTable owner r.target))
      foreignKey := r.foreignKey.getD (conventionalForeignKey owner)
      otherKey := r.otherKey.getD (conventionalForeignKey r.target)
      pivotColumns := r.pivotColumns }

def resolveRelation (g : Registry) (owner : String) (r : RelationDeclaration) : Except Error Relation :=
  match g.position? r.target with
  | some target => .ok ⟨r.name, target, g.link owner r, r.after⟩
  | none => .error (Cause.unknownModel r.target)

/-- The declared model at a position, before its relationships. -/
def bareModel (g : Registry) (d : ModelDeclaration) (id : Nat) : Model :=
  { Model.conventional id d.name with
    table := g.prefixed (d.table.getD (conventionalTable d.name))
    key := d.key.getD "id"
    timestamps := d.timestamps
    fillable := d.fillable }

def resolveModel (g : Registry) (d : ModelDeclaration) (id : Nat) : Except Error Model :=
  d.relations.foldlM (fun m r => do pure (m.declare (← g.resolveRelation d.name r))) (g.bareModel d id)

def resolve (g : Registry) : Except Error (List Model) :=
  g.models.zipIdx.mapM fun (d, id) => g.resolveModel d id

/-- The verified schema of all declarations. -/
def schema (g : Registry) : Except Error Schema := do Schema.ofModels (← g.resolve)

end Registry

end SqlMapper
