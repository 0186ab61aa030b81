import SqlMapper.Schema.Kind
import SqlMapper.Value
/-!
# Error — what can go wrong

A cause says what went wrong; its message is its wording.  An error is a chain of causes: the context that was added last
comes first, and only that one decides what kind of error it is.
-/
namespace SqlMapper

inductive ErrorKind where
  | general
  | driver
  | unsupportedOperation
  | entityNotFound
  | invalidDependency
  | unknownRelationship
  | unknownModel
  | conversion
  /-- An error of another library, passed on. -/
  | external
  /-- The caller broke a rule of the interface. -/
  | misuse
  deriving DecidableEq, Repr

inductive Cause where
  | custom (message : String)
  /-- A database driver failed, with the messages of the failure and of the failures behind it. -/
  | driver (message : String) (behind : List String)
  | external (message : String)
  | numeral (fault : NumeralFault)
  | unsupportedOperation (dialect operation : String)
  | entityNotFound (lookup : String)
  | invalidDependency (model relationship dependency : String)
  | unknownRelationship (model relationship : String)
  | unknownModel (name : String)
  | conversion (value : Value) (target : String)
  | updateWithoutTable
  | updateWithoutAssignment
  | deleteWithoutTable
  | duplicateModel (name : String)
  /-- An entity without a key value cannot be addressed in its table. -/
  | keyless (model key : String)
  | unavailable (operation model relationship : String) (kind : RelationKind)
  | keylessParent (operation relationship : String)
  | keylessAfterSave (model : String)
  | countForRows (count : Nat)
  | unsupportedDatabase (scheme url : String)
  | sqliteDisabled
  | notSqlite (url : String)
  /-- A model does not stand at the position that it names. -/
  | misplacedModel
  /-- A walk over the relationships of a model came to a name that none of them has. -/
  | strayName (model name : String)
  deriving DecidableEq, Repr

namespace Cause

def kind : Cause → ErrorKind
  | driver .. => .driver
  | external _ | numeral _ => .external
  | unsupportedOperation .. => .unsupportedOperation
  | entityNotFound _ => .entityNotFound
  | invalidDependency .. => .invalidDependency
  | unknownRelationship .. => .unknownRelationship
  | unknownModel _ => .unknownModel
  | conversion .. => .conversion
  | misplacedModel | strayName .. => .misuse
  | _ => .general

def message : Cause → String
  | custom message | external message => message
  | driver message behind => String.intercalate ": " (message :: behind)
  | numeral fault => fault.message
  | unsupportedOperation dialect operation =>
    "unsupported operation: " ++ operation ++ " is not supported by the " ++ dialect ++ " grammar"
  | entityNotFound lookup => "entity not found: " ++ lookup
  | invalidDependency model relationship dependency =>
    if relationship = dependency then
      "invalid relationship dependency: `" ++ model ++ "." ++ relationship ++ "` depends on itself"
    else
      "invalid relationship dependency: `" ++ model ++ "." ++ relationship ++ "` and `" ++ model ++ "." ++ dependency ++
        "` depend on each other"
  | unknownRelationship model relationship =>
    "unknown relationship: model `" ++ model ++ "` does not declare `" ++ relationship ++ "`"
  | unknownModel name => "unknown model: `" ++ name ++ "` is not registered"
  | conversion value target => "cannot convert " ++ value.kindName ++ " to " ++ target
  | updateWithoutTable => "UPDATE requires a target table"
  | updateWithoutAssignment => "UPDATE requires at least one assignment"
  | deleteWithoutTable => "DELETE requires a target table"
  | duplicateModel name => "model `" ++ name ++ "` registered more than once"
  | keyless model key => "`" ++ model ++ "` entity has no value for key `" ++ key ++ "`"
  | unavailable operation model relationship kind =>
    "`" ++ operation ++ "` is not available on `" ++ model ++ "." ++ relationship ++ "` (" ++ kind.describe ++ ")"
  | keylessParent operation relationship =>
    "`" ++ operation ++ "` through `" ++ relationship ++ "` needs a parent entity with a key"
  | keylessAfterSave model => "saved `" ++ model ++ "` entity has no key"
  | countForRows count => "expected rows from the driver, got a count of " ++ String.ofList (digits count)
  | unsupportedDatabase scheme url => "unsupported database; scheme=" ++ scheme ++ "; url=" ++ url
  | sqliteDisabled => "`sqlite` feature not enabled"
  | notSqlite url => "connection URL does not have a `sqlite` scheme; url=" ++ url
  | misplacedModel => "model ids must be positional"
  | strayName model name => "model `" ++ model ++ "` has no relationship `" ++ name ++ "` to walk to"

end Cause

structure Error where
  /-- The cause or context that was added last. -/
  top : Cause
  /-- What it was added to, latest first. -/
  below : List Cause
  deriving DecidableEq, Repr

namespace Error

def ofCause (cause : Cause) : Error := ⟨cause, []⟩

instance : Coe Cause Error := ⟨ofCause⟩

def kind (e : Error) : ErrorKind := e.top.kind

def message (e : Error) : String := String.intercalate ": " ((e.top :: e.below).map Cause.message)

/-- Adds a context, which must not have been added to anything itself. -/
def context? (e added : Error) : Option Error :=
  if added.below = [] then some ⟨added.top, e.top :: e.below⟩ else none

/-- The message of the foreign error behind the error, for errors that pass one on. -/
def source? (e : Error) : Option String :=
  match e.kind with
  | .driver | .external => some e.top.message
  | _ => none

end Error

end SqlMapper
