import SqlMapper.Assoc
import SqlMapper.Schema.Basic
import SqlMapper.Schema.EagerOrder
/-!
# Includes — which relationships to load

Requested relationships form a tree of names: the path `post.comments` asks for `post`, and for `comments` below it.  A
name stands once, where it was asked for first.  Resolving the tree against a schema finds every relationship and its
model before anything is loaded, and puts siblings into the order in which they are loaded.
-/
namespace SqlMapper

inductive Includes where
  | node (children : List (String × Includes))

namespace Includes

def empty : Includes := node []

def children : Includes → List (String × Includes)
  | node cs => cs

/-- Adds a chain of names below the root. -/
def insertNames : List String → Includes → Includes
  | [], tree => tree
  | name :: rest, tree =>
    node (Assoc.insert name (insertNames rest ((Assoc.get? tree.children name).getD empty)) tree.children)

/-- The names of a dotted path; empty ones are dropped. -/
def pathNames (path : String) : List String := (splitAtChar '.' path).filter (· ≠ "")

def insert (tree : Includes) (path : String) : Includes := insertNames (pathNames path) tree

end Includes

/-- One relationship to load, and what to load below it. -/
structure LoadStep where
  relation : Relation
  related : Model
  /-- The names that lead to the relationship, joined by dots. -/
  path : String
  nested : List LoadStep

mutual

/-- The steps that load the tree below a model, whose own path is given. -/
def Includes.resolve (s : Schema) (m : Model) (path : String) : Includes → Except Error (List LoadStep)
  | .node children => do pure (m.eagerOrderBy (·.relation.name) (← Includes.resolveAll s m path children))

def Includes.resolveAll (s : Schema) (m : Model) (path : String) :
    List (String × Includes) → Except Error (List LoadStep)
  | [] => pure []
  | (name, tree) :: rest => do
    let r ← m.relation name
    let related ← s.related r
    let here := if path = "" then name else path ++ "." ++ name
    let nested ← Includes.resolve s related here tree
    pure (⟨r, related, here, nested⟩ :: (← Includes.resolveAll s m path rest))

end

end SqlMapper
