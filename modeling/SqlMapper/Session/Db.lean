import SqlMapper.Entity.Basic
import SqlMapper.Schema.Registration
import SqlMapper.Session.Operation
import SqlMapper.Timestamp.Clock
/-!
# Db — a database handle

A handle holds the schema, the dialect and the connection that all calls share.  A call is an action on the state of the
connection; it also records every operation that it sends and every hook that it runs, in order.  An action that fails
leaves the state as it is at that point.
-/
namespace SqlMapper

/-- The moments in the life of an entity at which its model may intervene. -/
inductive HookMoment where
  | saving
  | saved
  | deleting
  | deleted
  deriving DecidableEq, Repr

/-- What a model does at each moment.  Only before a save may it change the entity. -/
structure Hooks where
  saving : Entity → Except Error Unit × Entity
  saved : Entity → Except Error Unit
  deleting : Entity → Except Error Unit
  deleted : Entity → Except Error Unit

inductive Event where
  | sent (op : Operation)
  | hook (moment : HookMoment) (entity : Entity)

/-- The state of a connection and what happened on it. -/
structure World (σ : Type) where
  connection : σ
  events : List Event

abbrev Session (σ : Type) := StateM (World σ)

abbrev Action (σ : Type) := ExceptT Error (Session σ)

/-- What a call that changes an entity leaves: whether it succeeded, and the entity as far as it was changed. -/
abbrev Attempt := Except Error Unit × Entity

structure Db (σ : Type) where
  schema : Schema
  /-- Hooks of the models by position; none for a model without any. -/
  hooks : List (Option Hooks)
  dialect : Dialect
  /-- Inserts ask for the generated key in the statement. -/
  insertReturning : Bool
  exec : Operation → σ → Except Error Response × σ
  /-- The current second. -/
  now : Timestamp

namespace Db

variable {σ : Type}

/-- A handle on the given models.  The connection is opened once the schema is known to be good. -/
def build (registry : Registry) (hooks : List (Option Hooks)) (capability : Capability) (dialect : Option Dialect)
    (connect : Except Error σ) (exec : Operation → σ → Except Error Response × σ) (now : Timestamp) :
    Except Error (Db σ × σ) := do
  let schema ← registry.schema
  let dialect := dialect.getD capability.dialect
  let connection ← connect
  pure ({ schema, hooks, dialect, insertReturning := capability.insertReturning && dialect.supportsReturning, exec, now },
    connection)

variable (db : Db σ)

def hooksOf (m : Model) : Option Hooks := m.id.bind fun id => db.hooks[id]?.join

/-! ## Operations -/

def send (op : Operation) : Action σ Response :=
  ExceptT.mk fun w =>
    let (response, connection) := db.exec op w.connection
    (response, ⟨connection, w.events ++ [.sent op]⟩)

def select (q : Query) : Action σ (List Row) := do
  let p ← (Statement.query q).prepare db.dialect
  let response ← db.send (.query p)
  response.outcome.toRows

def execute (s : Statement) : Action σ UInt64 := do
  let p ← s.prepare db.dialect
  let response ← db.send (.exec p false)
  pure response.outcome.affected

/-- Inserts one row and returns the key that the database generated for it. -/
def insertRow (i : Insert) (key : String) : Action σ (Option Value) := do
  if db.insertReturning then
    let p ← (Statement.insert (i.returningColumn key)).prepare db.dialect
    let response ← db.send (.query p)
    let rows ← response.outcome.toRows
    pure (rows.head?.bind (·.get? key))
  else
    let p ← (Statement.insert i).prepare db.dialect
    let response ← db.send (.exec p true)
    pure response.generatedKey

def begin : Action σ Unit := do let _ ← db.send .begin

def commit : Action σ Unit := do let _ ← db.send .commit

def rollback : Action σ Unit := do let _ ← db.send .rollback

/-! ## Hooks -/

/-- Runs the hook before a save, which may change the entity. -/
def runSaving (e : Entity) : Session σ Attempt :=
  match db.hooksOf e.model with
  | none => pure (.ok (), e)
  | some hooks => do
    modify fun w => { w with events := w.events ++ [.hook .saving e] }
    pure (hooks.saving e)

/-- Runs a hook that only looks at the entity. -/
def runHook (moment : HookMoment) (hook : Hooks → Entity → Except Error Unit) (e : Entity) :
    Session σ (Except Error Unit) :=
  match db.hooksOf e.model with
  | none => pure (.ok ())
  | some hooks => do
    modify fun w => { w with events := w.events ++ [.hook moment e] }
    pure (hook hooks e)

end Db

end SqlMapper
