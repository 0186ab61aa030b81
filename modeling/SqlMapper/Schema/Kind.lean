/-!
# Kind — the four kinds of relationship
-/
namespace SqlMapper

inductive RelationKind where
  /-- The foreign key lives on the owner. -/
  | belongsTo
  /-- The foreign key lives on the related model, and at most one row matches. -/
  | hasOne
  /-- The foreign key lives on the related model. -/
  | hasMany
  /-- Both keys live in a join table. -/
  | manyToMany
  deriving DecidableEq, Repr

def RelationKind.describe : RelationKind → String
  | belongsTo => "belongs-to"
  | hasOne => "has-one"
  | hasMany => "has-many"
  | manyToMany => "many-to-many"

end SqlMapper
