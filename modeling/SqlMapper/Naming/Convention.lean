import SqlMapper.Naming.SnakeCase
import SqlMapper.Naming.Plural
/-!
# Convention — names derived from a model's name

The table, the key column that points at a model and the table that joins two models follow from the models' names.
-/
namespace SqlMapper

/-- The table of the model `BlogPost` is `blog_posts`. -/
def conventionalTable (model : String) : String := pluralize (snakeCase model)

/-- The key column that points at `BlogPost` is `blog_post_id`. -/
def conventionalForeignKey (model : String) : String := snakeCase model ++ "_id"

/-- The snake case names of both models in code point order, joined by an underscore. -/
def conventionalJoinTable (model other : String) : String :=
  let a := snakeCase model
  let b := snakeCase other
  if b < a then b ++ "_" ++ a else a ++ "_" ++ b

/-- Both sides of a join name the same table. -/
theorem conventionalJoinTable_comm (model other : String) :
    conventionalJoinTable model other = conventionalJoinTable other model := by
  unfold conventionalJoinTable
  simp only
  split <;> split <;> rename_i h1 h2
  · exact absurd h2 (String.lt_asymm h1)
  · rfl
  · rfl
  · rw [String.le_antisymm (String.not_lt.1 h1) (String.not_lt.1 h2)]

end SqlMapper
