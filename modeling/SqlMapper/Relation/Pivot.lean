import SqlMapper.Relation.RelationQuery
/-!
# Pivot — the join table behind a relationship

Linking, unlinking and synchronising the keys that a parent is joined with.  Synchronising compares the desired keys with
the present ones inside a transaction.  It removes what is not desired and adds what is missing; a failure rolls back.
-/
namespace SqlMapper

/-- What synchronising changed. -/
structure Changes where
  attached : List Value
  detached : List Value
  deriving DecidableEq, Repr

namespace RelationQuery

variable {σ : Type} (rq : RelationQuery) (db : Db σ)

/-- The parent's rows of the join table. -/
def parentRows (join : JoinTable) : Query := (Query.table join.table).filter (Column.parse join.foreignKey) rq.parentKey

/-- The parent's rows of the join table, for a many-to-many relationship. -/
def pivot : Except Error Query := do pure (rq.parentRows (← rq.requireJoin "pivot"))

/-- The parent's rows that join the given keys, or all of them for no keys. -/
def rowsOf (join : JoinTable) (ids : List Value) : Query :=
  match ids with
  | [] => rq.parentRows join
  | _ => (rq.parentRows join).filterIn (.parse join.otherKey) (ids.map .value)

/-- Unlinks the parent from the given keys, or from all for no keys; answers the number of rows deleted. -/
def detach (ids : List Value) : Action σ UInt64 := do
  let join ← rq.requireJoin "detach"
  let _ ← rq.requireParentKey "detach"
  db.execute (.delete (rq.rowsOf join ids))

/-- The join rows of different keys have the same columns. -/
theorem names_joinRow (join : JoinTable) (parentKey id id' : Value) (now : Timestamp) :
    (joinRow join parentKey id now).names = (joinRow join parentKey id' now).names := by
  have step : ∀ (columns : List String) (a b : Attributes), a.names = b.names →
      (columns.foldl (fun row column => row.insert column (.timestamp now)) a).names =
        (columns.foldl (fun row column => row.insert column (.timestamp now)) b).names := by
    intro columns
    induction columns with
    | nil => exact fun a b h => h
    | cons c columns ih => exact fun a b h => ih _ _ (by simp [Attributes.names_insert, h])
  exact step _ _ _ (by simp [Attributes.names_insert])

/-- One insert of the join rows of several keys. -/
def joinRows (join : JoinTable) (parentKey : Value) (ids : List Value) (now : Timestamp) : Insert :=
  { table := join.table
    columns := (joinRow join parentKey .null now).names
    rows := ids.map fun id => (joinRow join parentKey id now).values.map .value
    returning := none }

theorem isGrid_joinRows (join : JoinTable) (parentKey : Value) (ids : List Value) (now : Timestamp) :
    (joinRows join parentKey ids now).IsGrid := by
  intro row h
  obtain ⟨id, _, rfl⟩ := List.mem_map.1 h
  have := congrArg List.length (names_joinRow join parentKey id .null now)
  simpa [joinRows, Attributes.names, Attributes.values, Assoc.names] using this

/-- Makes the desired keys the joined ones, inside a transaction that is open already. -/
def exchange (join : JoinTable) (parentKey : Value) (desired : List Value) : Action σ Changes := do
  let rows ← db.select ((rq.parentRows join).select [.parse join.otherKey])
  let present := Value.distinct (rows.filterMap (·.get? join.otherKey))
  let changes : Changes := ⟨desired.filter (!present.contains ·), present.filter (!desired.contains ·)⟩
  if changes.detached ≠ [] then
    let _ ← db.execute (.delete (rq.rowsOf join changes.detached))
  if changes.attached ≠ [] then
    let _ ← db.execute (.insert (joinRows join parentKey changes.attached db.now))
  pure changes

/-- Makes the given keys the exact set of joined keys.  A failure of the rollback does not replace the failure before
it. -/
def sync (ids : List Value) : Action σ Changes := do
  let join ← rq.requireJoin "sync"
  let parentKey ← rq.requireParentKey "sync"
  db.begin
  let changes ← tryCatch (rq.exchange db join parentKey (Value.distinct ids)) fun e => do
    tryCatch db.rollback fun _ => pure ()
    throw e
  db.commit
  pure changes

/-- Changes attributes of the join row of a key; answers the number of rows changed. -/
def updatePivot (id : Value) (pairs : List (String × Value)) : Action σ UInt64 := do
  let join ← rq.requireJoin "update_pivot"
  let target := (rq.parentRows join).filter (Column.parse join.otherKey) id
  let u := pairs.foldl (fun u (name, v) => u.set name (.value v)) (Update.on target)
  let u := if join.pivotColumns.contains "updated_at" then u.set "updated_at" (.value (.timestamp db.now)) else u
  db.execute (.update u)

/-- A new related entity, joined with further attributes of the join row. -/
def insertWithPivot (pairs pivotPairs : List (String × Value)) : Action σ Entity := do
  let _ ← rq.requireJoin "insert_with_pivot"
  let _ ← rq.requireParentKey "insert_with_pivot"
  let (saved, e) ← ((Entity.new rq.related).fill pairs).save db
  saved
  rq.attachSaved db e pivotPairs
  pure e

end RelationQuery

end SqlMapper
