import SqlMapper.Proofs.Query.Built
import SqlMapper.Proofs.Schema.Resolved
import SqlMapper.Proofs.Session.Assigned
import SqlMapper.Proofs.Session.Call
import SqlMapper.Proofs.Session.Refusal
/-!
# Supported — no call asks for what the compiler refuses

The dialect decides what the compiler refuses, and the driver whether an insert can return its key; either can be chosen
without the other.  A handle asks for a key in the statement only where both can, and the other refusals concern updates
and deletes that lack a table or an assignment.  Every call of the library names its table, so only an update that is
given nothing and stamps nothing is ever refused (`Db.calls_supported`).
-/
namespace SqlMapper

open Db (supported_pure supported_throw supported_lift supported_select supported_write supported_unkeyedInsert)

/-! ## Lookups -/

theorem Value.notCompiled_toInt64 (v : Value) : NotCompiled v.toInt64 := by
  unfold toInt64
  split
  · exact notCompiled_ok _
  · rename_i s
    cases readInt64 s.toList with
    | ok n => exact notCompiled_ok n
    | error fault => exact notCompiled_error rfl
  · exact notCompiled_error rfl

theorem Model.notCompiled_relation (m : Model) (name : String) : NotCompiled (m.relation name) := by
  unfold relation
  split
  · exact notCompiled_ok _
  · exact notCompiled_error rfl

namespace Schema

variable (s : Schema)

theorem notCompiled_related (r : Relation) : NotCompiled (s.related r) := by
  unfold related
  split
  · exact notCompiled_ok _
  · exact notCompiled_error rfl

theorem notCompiled_modelNamed (name : String) : NotCompiled (s.modelNamed name) := by
  unfold modelNamed
  split
  · exact notCompiled_ok _
  · exact notCompiled_error rfl

end Schema

mutual

theorem Includes.notCompiled_resolve (s : Schema) (m : Model) (path : String) :
    ∀ tree : Includes, NotCompiled (resolve s m path tree)
  | .node children => by
    rw [resolve]
    exact (Includes.notCompiled_resolveAll s m path children).bind fun _ => notCompiled_ok _

theorem Includes.notCompiled_resolveAll (s : Schema) (m : Model) (path : String) :
    ∀ children : List (String × Includes), NotCompiled (resolveAll s m path children)
  | [] => notCompiled_ok _
  | (name, tree) :: rest => by
    rw [resolveAll]
    refine (m.notCompiled_relation name).bind fun r => (s.notCompiled_related r).bind fun related => ?_
    refine (Includes.notCompiled_resolve s related _ tree).bind fun nested => ?_
    exact (Includes.notCompiled_resolveAll s m path rest).bind fun _ => notCompiled_ok _

end

namespace RelationQuery

variable (rq : RelationQuery)

theorem notCompiled_requireJoin (operation : String) : NotCompiled (rq.requireJoin operation) := by
  unfold requireJoin
  split
  · exact notCompiled_ok _
  · exact notCompiled_error rfl

theorem notCompiled_requireParentKey (operation : String) : NotCompiled (rq.requireParentKey operation) := by
  unfold requireParentKey
  split
  · exact notCompiled_error rfl
  · exact notCompiled_ok _

end RelationQuery

namespace Entity

variable {σ : Type} (e : Entity)

theorem notCompiled_relation (db : Db σ) (name : String) : NotCompiled (e.relation db name) :=
  (e.model.notCompiled_relation name).bind fun r => (db.schema.notCompiled_related r).bind fun _ => notCompiled_ok _

theorem notCompiled_byKey : NotCompiled e.byKey := by
  unfold byKey
  split
  · exact notCompiled_ok _
  · exact notCompiled_error rfl

end Entity

section

variable {σ : Type} {db : Db σ} {via : Option JoinTable}

/-! ## Model queries -/

namespace ModelQuery

variable (mq : ModelQuery)

theorem supported_get : db.Supported via (mq.get db) :=
  .lookup (Includes.notCompiled_resolve db.schema mq.model "" mq.includes) fun _ _ =>
    (supported_select _).bind fun _ => LoadStep.leads_runAll Db.composes_accounted supported_select _ _ _ _

theorem supported_first : db.Supported via (mq.first db) := (mq.limit 1).supported_get.bind fun _ => supported_pure _

theorem supported_find (id : Value) : db.Supported via (mq.find db id) := (mq.withKey id).supported_first

theorem supported_findOrFail (id : Value) : db.Supported via (mq.findOrFail db id) :=
  (mq.supported_find id).bind fun found => by
    cases found with
    | some e => exact supported_pure e
    | none => exact supported_throw rfl

theorem supported_count : db.Supported via (mq.count db) :=
  (supported_select _).bind fun _ => .lookup (Value.notCompiled_toInt64 _) fun _ _ => supported_pure _

theorem supported_exists? : db.Supported via (mq.exists? db) := mq.supported_count.bind fun _ => supported_pure _

theorem supported_pluck (column : String) : db.Supported via (mq.pluck db column) :=
  (supported_select _).bind fun _ => supported_pure _

theorem supported_delete {table : String} (ht : mq.query.table? = some table) : db.Supported via (mq.delete db) :=
  supported_write (Statement.refusal?_delete ht) nofun

theorem target_updateStatement (pairs : List (String × Value)) (now : Timestamp) :
    (mq.updateStatement pairs now).target = mq.query := by
  unfold updateStatement
  simp only [Entity.foldl_set]
  split <;> rfl

theorem supported_update {table : String} (ht : mq.query.table? = some table) {pairs : List (String × Value)}
    (ha : (mq.updateStatement pairs db.now).assignments ≠ []) : db.Supported via (mq.update db pairs) := by
  rw [← mq.target_updateStatement pairs db.now] at ht
  exact supported_write (Statement.refusal?_update ht ha) nofun

end ModelQuery

/-! ## Entities -/

namespace Entity

variable (e : Entity)

theorem supported_remove :
    db.Supported via (do let target ← e.byKey; db.execute (.delete target) : Action σ UInt64) :=
  .lookup e.notCompiled_byKey fun _ htarget =>
    supported_write (Statement.refusal?_delete (table?_of_byKey htarget)) nofun

theorem accounted_removal {op : Operation} (h : e.removal db = .ok op) (c : σ) :
    db.Accounted via c [.sent op] ((db.exec op c).1.map (·.outcome.affected)) := by
  obtain ⟨events, hw, haccounted⟩ := e.supported_remove ⟨c, []⟩
  rw [run_remove, h] at hw haccounted
  obtain rfl := db.after_injective _ hw
  exact haccounted

theorem accounted_removal_error {err : Error} (h : e.removal db = .error err) (c : σ) :
    db.Accounted via c [] (.error err : Except Error Unit) := by
  obtain ⟨events, hw, haccounted⟩ := e.supported_remove ⟨c, []⟩
  rw [run_remove, h] at hw haccounted
  obtain rfl := db.after_injective _ ((db.after_nil _).trans hw)
  exact haccounted.error

theorem attemptSupported_delete : db.AttemptSupported via (e.delete db) := by
  intro w
  by_cases hs : e.stored = true
  · have hdeleting : db.Accounted via w.connection (db.hookEvents .deleting e) (db.hookResult Hooks.deleting e) :=
      .hook .deleting e
    rw [run_delete db hs]
    cases hh : db.hookResult Hooks.deleting e with
    | error err =>
      rw [hh] at hdeleting
      exact ⟨_, rfl, hdeleting⟩
    | ok =>
      dsimp only
      cases hr : e.removal db with
      | error err =>
        have hfailed : db.Accounted via w.connection (db.hookEvents .deleting e ++ [])
            (.error err : Except Error Unit) := (e.accounted_removal_error hr w.connection).afterHook
        rw [List.append_nil] at hfailed
        exact ⟨_, rfl, hfailed⟩
      | ok op =>
        have hremoved : db.Accounted via w.connection [.sent op] _ := e.accounted_removal hr w.connection
        dsimp only
        cases ho : (db.exec op w.connection).1 with
        | error err =>
          rw [ho] at hremoved
          exact ⟨_, rfl, hremoved.afterHook.error⟩
        | ok response => exact ⟨_, rfl, hremoved.afterHook.append (.hook .deleted { e with stored := false })⟩
  · rw [run_delete_of_not_stored db (Bool.not_eq_true _ ▸ hs)]
    exact ⟨[], (db.after_nil w).symm, .silent (notCompiled_ok ())⟩

end Entity

variable (hreturning : db.insertReturning = true → db.dialect.supportsReturning = true)

namespace Entity

variable (e : Entity)

include hreturning

theorem supported_write : db.Supported via (e.write db) := by
  unfold write
  split
  · split
    · exact supported_pure _
    · rename_i hdirty
      refine .lookup e.notCompiled_byKey fun target htarget => ?_
      have hassigns : (e.changes target).assignments ≠ [] := fun h => hdirty (List.map_eq_nil_iff.1 h)
      simp only [foldl_set_on]
      exact (Db.supported_write (Statement.refusal?_update (table?_of_byKey htarget) hassigns) nofun).bind fun _ =>
        supported_pure _
  · refine (Db.supported_insertRow hreturning e).bind fun key => ?_
    split <;> exact supported_pure _

/-- A write leads to what it sends. -/
theorem accounted_written (c : σ) : db.Accounted via c (e.sends db) (e.written db c) := by
  have hwrite : db.Supported via (e.write db) := e.supported_write hreturning
  obtain ⟨events, hw, haccounted⟩ := hwrite ⟨c, []⟩
  rw [run_write_eq] at hw haccounted
  obtain rfl := db.after_injective _ hw
  exact haccounted

theorem attemptSupported_save : db.AttemptSupported via (e.save db) := by
  intro w
  by_cases hd : e.isDirty = true
  · have hsaving : db.Accounted via w.connection (db.hookEvents .saving (e.stamp db.now)) (e.savingResult db) :=
      .hook .saving (e.stamp db.now)
    rw [run_save_of_dirty db hd]
    cases hs : e.savingResult db with
    | error err =>
      rw [hs] at hsaving
      exact ⟨_, rfl, hsaving⟩
    | ok =>
      have hwritten : db.Accounted via w.connection ((e.toWrite db).sends db) _ :=
        (e.toWrite db).accounted_written hreturning w.connection
      dsimp only
      cases hw : (e.toWrite db).written db w.connection with
      | error err =>
        rw [hw] at hwritten
        exact ⟨_, rfl, hwritten.afterHook.error⟩
      | ok a => exact ⟨_, rfl, hwritten.afterHook.append (.hook .saved ((e.toWrite db).settle a))⟩
  · rw [run_save_of_clean db (Bool.not_eq_true _ ▸ hd)]
    exact ⟨[], (db.after_nil w).symm, .silent (notCompiled_ok ())⟩

theorem attemptSupported_touch : db.AttemptSupported via (e.touch db) := by
  unfold touch
  split
  · exact attemptSupported_save hreturning _
  · exact Db.attemptSupported_pure (notCompiled_ok ()) e

end Entity

/-! ## Relation queries -/

/-- The join table of a many-to-many relationship. -/
def RelationQuery.join? (rq : RelationQuery) : Option JoinTable :=
  match rq.relation.link with
  | .manyToMany join => some join
  | _ => none

namespace RelationQuery

variable (rq : RelationQuery)

theorem join?_of_requireJoin {operation : String} {join : JoinTable} (h : rq.requireJoin operation = .ok join) :
    rq.join? = some join := by
  unfold requireJoin at h
  split at h
  · rename_i hlink
    rw [join?, hlink, Except.ok.inj h]
  · cases h

theorem supported_fetch (q : Query) : db.Supported via (rq.fetch db q) := by
  unfold fetch
  exact .ite (supported_pure _) ((supported_select _).bind fun _ => supported_pure _)

theorem supported_first : db.Supported via (rq.first db) := (rq.supported_fetch _).bind fun _ => supported_pure _

theorem supported_results : db.Supported via (rq.results db) := by
  unfold results
  exact .ite (rq.supported_first.bind fun _ => supported_pure _)
    ((rq.supported_fetch _).bind fun _ => supported_pure _)

theorem table?_rowsOf (join : JoinTable) (ids : List Value) : (rq.rowsOf join ids).table? = some join.table := by
  unfold rowsOf
  split <;> rfl

theorem supported_detach (ids : List Value) : db.Supported via (rq.detach db ids) :=
  .lookup (rq.notCompiled_requireJoin "detach") fun _ _ =>
    .lookup (rq.notCompiled_requireParentKey "detach") fun _ _ =>
      supported_write (Statement.refusal?_delete (rq.table?_rowsOf _ ids)) nofun

/-- The update of a join row that assigns something. -/
theorem supported_updatePivot {id : Value} {pairs : List (String × Value)}
    (ha : ∀ join, rq.relation.link = .manyToMany join → (rq.pivotUpdate join id pairs db.now).assignments ≠ []) :
    db.Supported via (rq.updatePivot db id pairs) := by
  cases hlink : rq.relation.link with
  | manyToMany join =>
    have htable : (rq.pivotUpdate join id pairs db.now).target.table? = some join.table := rfl
    have hupdate : db.Supported via (db.execute (.update (rq.pivotUpdate join id pairs db.now))) :=
      supported_write (Statement.refusal?_update htable (ha join hlink)) nofun
    exact hupdate.congr (run_updatePivot db hlink id pairs)
  | _ =>
    refine .lookup (rq.notCompiled_requireJoin "update_pivot") fun join hjoin => ?_
    rw [requireJoin, hlink] at hjoin
    cases hjoin

theorem supported_attach (id : Value) (pairs : List (String × Value)) :
    db.Supported rq.join? (rq.attach db id pairs) :=
  .lookup (rq.notCompiled_requireJoin "attach") fun _ hjoin =>
    .lookup (rq.notCompiled_requireParentKey "attach") fun _ _ =>
      (supported_unkeyedInsert rfl fun p => .joined p (rq.join?_of_requireJoin hjoin) _ id pairs).bind fun _ =>
        supported_pure _

theorem supported_attachSaved (e : Entity) (pairs : List (String × Value)) :
    db.Supported rq.join? (rq.attachSaved db e pairs) := by
  unfold attachSaved
  split
  · exact rq.supported_attach _ _
  · exact supported_throw rfl

theorem supported_exchange {join : JoinTable} (hjoin : rq.join? = some join) (parentKey : Value)
    (desired : List Value) : db.Supported rq.join? (rq.exchange db join parentKey desired) := by
  have hdelete : ∀ ids, db.Supported rq.join? (db.execute (.delete (rq.rowsOf join ids))) := fun ids =>
    supported_write (Statement.refusal?_delete (rq.table?_rowsOf join ids)) nofun
  have hinsert : ∀ ids, db.Supported rq.join? (db.execute (.insert (joinRows join parentKey ids db.now))) := fun _ =>
    supported_unkeyedInsert rfl fun p => .synchronised p hjoin parentKey _
  exact rq.leads_exchange Db.composes_accounted supported_select hdelete fun missing _ => hinsert missing

theorem supported_sync (ids : List Value) : db.Supported rq.join? (rq.sync db ids) := by
  rw [sync_eq_transact]
  exact .lookup (rq.notCompiled_requireJoin "sync") fun _ hjoin =>
    .lookup (rq.notCompiled_requireParentKey "sync") fun _ _ =>
      Db.supported_transact (rq.supported_exchange (rq.join?_of_requireJoin hjoin) _ _)

include hreturning

theorem attemptSupported_save (e : Entity) : db.AttemptSupported rq.join? (rq.save db e) := by
  unfold save
  split
  · rename_i err herr
    refine Db.attemptSupported_pure (fun err' he => ?_) e
    cases he
    exact rq.notCompiled_requireParentKey "save" err herr
  · split
    · exact Db.attemptSupported_pure (notCompiled_error rfl) e
    · exact Entity.attemptSupported_save hreturning _
    · exact Entity.attemptSupported_save hreturning _
    · exact (Entity.attemptSupported_save hreturning e).link fun e => rq.supported_attachSaved e []

theorem supported_insert (pairs : List (String × Value)) : db.Supported rq.join? (rq.insert db pairs) :=
  (rq.attemptSupported_save hreturning _).bind fun e => supported_pure e

theorem supported_insertWithPivot (pairs pivotPairs : List (String × Value)) :
    db.Supported rq.join? (rq.insertWithPivot db pairs pivotPairs) := by
  have hsave : db.AttemptSupported rq.join? (((Entity.new rq.related).fill pairs).save db) :=
    Entity.attemptSupported_save hreturning _
  have hattach : ∀ e, db.Supported rq.join? (rq.attachSaved db e pivotPairs >>= fun _ => pure e) := fun e =>
    (rq.supported_attachSaved e pivotPairs).bind fun _ => supported_pure e
  exact .lookup (rq.notCompiled_requireJoin "insert_with_pivot") fun _ _ =>
    .lookup (rq.notCompiled_requireParentKey "insert_with_pivot") fun _ _ => hsave.bind hattach

end RelationQuery

omit hreturning in
theorem Entity.supported_resolve (e : Entity) (name : String) : db.Supported via (e.resolve db name) := by
  unfold Entity.resolve
  split
  · exact supported_pure _
  · exact .lookup (e.notCompiled_relation db name) fun rq _ => rq.supported_results.bind fun _ => supported_pure _

namespace Db

variable (model : String)

theorem notCompiled_query : NotCompiled (db.query model) :=
  (db.schema.notCompiled_modelNamed model).bind fun _ => notCompiled_ok _

theorem supported_all : db.Supported via (db.all model) :=
  .lookup (notCompiled_query model) fun mq _ => mq.supported_get

theorem supported_find (id : Value) : db.Supported via (db.find model id) :=
  .lookup (notCompiled_query model) fun mq _ => mq.supported_find id

theorem supported_findOrFail (id : Value) : db.Supported via (db.findOrFail model id) :=
  .lookup (notCompiled_query model) fun mq _ => mq.supported_findOrFail id

include hreturning in
theorem supported_create (pairs : List (String × Value)) : db.Supported via (db.create model pairs) := by
  have hinstantiate : NotCompiled (db.instantiate model) :=
    (db.schema.notCompiled_modelNamed model).bind fun _ => notCompiled_ok _
  exact .lookup hinstantiate fun _ _ => (Entity.attemptSupported_save hreturning _).bind fun e => supported_pure e

end Db

end

/-! ## All calls -/

/-- The second query is the first after builder methods, and predicates of any kind that were pushed onto it. -/
inductive Query.Refined (start : Query) : Query → Prop where
  | refl : Refined start start
  | method {q q' : Query} (h : Refined start q) (hq : q.Built q') : Refined start q'
  | push {q : Query} (h : Refined start q) (connector : Connector) (predicate : Predicate) :
    Refined start (q.pushFilter connector predicate)

theorem Query.Refined.source_eq {start q : Query} (h : start.Refined q) : q.source = start.source := by
  induction h with
  | refl => rfl
  | method _ hq ih => rw [hq.source_eq, ih]
  | push _ _ _ ih => exact ih

/-- Pairs with a stamp behind them assign nothing if there are none and nothing is stamped. -/
theorem Update.assignments_eq_nil_iff {u : Update} {pairs : List (String × Value)} {stamped : Prop} [Decidable stamped]
    {stamp : String × Expr}
    (hu : u.assignments = pairs.map (fun p => (p.1, .value p.2)) ++ if stamped then [stamp] else []) :
    u.assignments = [] ↔ pairs = [] ∧ ¬ stamped := by
  rw [hu, List.append_eq_nil_iff, List.map_eq_nil_iff]
  split <;> simp [*]

theorem ModelQuery.table?_of_refined {mq : ModelQuery} (h : (Query.table mq.model.table).Refined mq.query) :
    mq.query.table? = some mq.model.table := by
  rw [Query.table?, h.source_eq]
  rfl

namespace DbCall

/-- The model query that the call is made on. -/
def modelQuery? : DbCall → Option ModelQuery
  | get mq | first mq | find mq _ | findOrFail mq _ | count mq | exists? mq | pluck mq _ => some mq
  | update mq _ | deleteRows mq => some mq
  | _ => none

/-- The model query of the call selects from its model's table, refined by the methods of queries. -/
def Refined (c : DbCall) : Prop :=
  ∀ mq, c.modelQuery? = some mq → (Query.table mq.model.table).Refined mq.query

/-- The join table that the call may write rows of. -/
def join? : DbCall → Option JoinTable
  | insertRelated rq _ | saveRelated rq _ | attach rq _ _ | sync rq _ | insertWithPivot rq _ _ => rq.join?
  | _ => none

/-- The call is an update that is given nothing to assign and stamps nothing. -/
def assignsNothing : DbCall → Bool
  | update mq pairs => pairs.isEmpty && !mq.model.timestamps
  | updatePivot rq _ pairs =>
    match rq.join? with
    | some join => pairs.isEmpty && !join.pivotColumns.contains "updated_at"
    | none => false
  | _ => false

theorem assignsNothing_update_iff (mq : ModelQuery) (pairs : List (String × Value)) (now : Timestamp) :
    (update mq pairs).assignsNothing = true ↔ (mq.updateStatement pairs now).assignments = [] := by
  rw [Update.assignments_eq_nil_iff (mq.assignments_updateStatement pairs now), assignsNothing, Bool.and_eq_true,
    List.isEmpty_iff, Bool.not_eq_true', Bool.not_eq_true]

theorem assignsNothing_updatePivot_iff (rq : RelationQuery) (id : Value) (pairs : List (String × Value))
    (now : Timestamp) :
    (updatePivot rq id pairs).assignsNothing = true ↔
      ∃ join, rq.relation.link = .manyToMany join ∧ (rq.pivotUpdate join id pairs now).assignments = [] := by
  have hempty : ∀ join, (rq.pivotUpdate join id pairs now).assignments = [] ↔
      (pairs.isEmpty && !join.pivotColumns.contains "updated_at") = true := fun join => by
    rw [Update.assignments_eq_nil_iff rfl, Bool.and_eq_true, List.isEmpty_iff, Bool.not_eq_true', Bool.not_eq_true]
  simp only [hempty, assignsNothing, RelationQuery.join?]
  cases rq.relation.link <;> simp

variable {σ : Type} {db : Db σ}

theorem supported (hreturning : db.insertReturning = true → db.dialect.supportsReturning = true) (c : DbCall)
    (hrefined : c.Refined) (hassigns : c.assignsNothing = false) : db.Supported c.join? (ExceptT.mk (c.run db)) := by
  cases c with
  | get mq => exact mq.supported_get
  | first mq => exact mq.supported_first
  | find mq id => exact mq.supported_find id
  | findOrFail mq id => exact mq.supported_findOrFail id
  | count mq => exact mq.supported_count
  | exists? mq => exact mq.supported_exists?
  | pluck mq column => exact mq.supported_pluck column
  | update mq pairs =>
    refine mq.supported_update (ModelQuery.table?_of_refined (hrefined mq rfl)) fun hnone => ?_
    exact Bool.eq_false_iff.1 hassigns ((assignsNothing_update_iff mq pairs db.now).2 hnone)
  | deleteRows mq => exact mq.supported_delete (ModelQuery.table?_of_refined (hrefined mq rfl))
  | save e => exact e.attemptSupported_save hreturning
  | delete e => exact e.attemptSupported_delete
  | touch e => exact e.attemptSupported_touch hreturning
  | resolve e name => exact e.supported_resolve name
  | related rq => exact rq.supported_fetch _
  | firstRelated rq => exact rq.supported_first
  | results rq => exact rq.supported_results
  | insertRelated rq pairs => exact rq.supported_insert hreturning pairs
  | saveRelated rq e => exact rq.attemptSupported_save hreturning e
  | attach rq id pairs => exact rq.supported_attach id pairs
  | detach rq ids => exact rq.supported_detach ids
  | sync rq ids => exact rq.supported_sync ids
  | updatePivot rq id pairs =>
    refine rq.supported_updatePivot fun join hlink hnone => ?_
    exact Bool.eq_false_iff.1 hassigns ((assignsNothing_updatePivot_iff rq id pairs db.now).2 ⟨join, hlink, hnone⟩)
  | insertWithPivot rq pairs pivotPairs => exact rq.supported_insertWithPivot hreturning pairs pivotPairs
  | create model pairs => exact Db.supported_create hreturning model pairs
  | all model => exact Db.supported_all model

/-- An update that assigns nothing is refused, and nothing is sent. -/
theorem run_of_assignsNothing (c : DbCall) (hrefined : c.Refined) (h : c.assignsNothing = true) (w : World σ) :
    (c.run db).run w = (.error (.ofCause .updateWithoutAssignment), w) := by
  cases c with
  | update mq pairs =>
    have htarget : (mq.updateStatement pairs db.now).target.table? = some mq.model.table := by
      rw [mq.target_updateStatement, ModelQuery.table?_of_refined (hrefined mq rfl)]
    have hnone := (assignsNothing_update_iff mq pairs db.now).1 h
    exact Db.run_execute_of_refusal (Statement.refusal?_update_empty htarget hnone) w
  | updatePivot rq id pairs =>
    obtain ⟨join, hlink, hnone⟩ := (assignsNothing_updatePivot_iff rq id pairs db.now).1 h
    have htarget : (rq.pivotUpdate join id pairs db.now).target.table? = some join.table := rfl
    exact (rq.run_updatePivot db hlink id pairs w).trans
      (Db.run_execute_of_refusal (Statement.refusal?_update_empty htarget hnone) w)
  | _ => cases h

end DbCall

/-- **No call asks the compiler for what it refuses**, whatever the driver can do and whatever dialect is written.  The
one exception is an update that is given nothing to assign and stamps nothing, in bulk or of a join row: it fails and
sends nothing.  Entities are inserted with their key returned by the statement exactly if driver and dialect both can
return it, and otherwise the driver is asked for the key. -/
theorem Db.calls_supported {σ : Type} {registry : Registry} {hooks : List (Option Hooks)} {capability : Capability}
    {dialect : Option Dialect} {connect : Except Error σ} {exec : Operation → σ → Except Error Response × σ}
    {now : Timestamp} {db : Db σ} {c : σ}
    (h : Db.build registry hooks capability dialect connect exec now = .ok (db, c)) :
    db.dialect = dialect.getD capability.dialect ∧
      db.insertReturning = (capability.insertReturning && db.dialect.supportsReturning) ∧
      (∀ call : DbCall, call.Refined → call.assignsNothing = false →
        db.Supported call.join? (ExceptT.mk (call.run db))) ∧
      (∀ call : DbCall, call.Refined → call.assignsNothing = true → ∀ w,
        (call.run db).run w = (.error (.ofCause .updateWithoutAssignment), w)) ∧
      ∀ model id, db.Supported none (db.find model id) ∧ db.Supported none (db.findOrFail model id) := by
  obtain ⟨schema, -, h⟩ := exists_ok_of_bind h
  obtain ⟨connection, -, h⟩ := exists_ok_of_bind h
  cases h
  have hreturning : (capability.insertReturning && (dialect.getD capability.dialect).supportsReturning) = true →
      (dialect.getD capability.dialect).supportsReturning = true := fun h => (Bool.and_eq_true_iff.1 h).2
  exact ⟨rfl, rfl, DbCall.supported hreturning, DbCall.run_of_assignsNothing, fun model id =>
    ⟨supported_find model id, supported_findOrFail model id⟩⟩

/-! ## Articles on a database without returning inserts -/

namespace Blog

/-- The driver of a database that can return keys, told to write for one that cannot. -/
def articleDb : Db Script := ⟨articleSchema, [], .mysql, false, Script.exec, .ofUnixSeconds 0⟩

theorem build_articleDb :
    Db.build articles [] ⟨.postgresql, true⟩ (some .mysql) (.ok ⟨[], 0⟩) Script.exec (.ofUnixSeconds 0) =
      .ok (articleDb, ⟨[], 0⟩) := by
  rw [Db.build, schema_articles]
  rfl

end Blog

theorem calls_supported_articles :
    Db.build Blog.articles [] ⟨.postgresql, true⟩ (some .mysql) (.ok ⟨[], 0⟩) Script.exec (.ofUnixSeconds 0) =
        .ok (Blog.articleDb, ⟨[], 0⟩) ∧
      (let call := DbCall.create "Label" [("name", .text "lean")]
       Blog.articleDb.Supported none (ExceptT.mk (call.run Blog.articleDb)) ∧
        ∃ p, p.sql = "INSERT INTO `app_labels` (`name`) VALUES (?)" ∧
          ((call.run Blog.articleDb).run Blog.quiet).2.events = [.sent (.exec p true)]) ∧
      ((DbCall.update (.all Blog.articleLabel) []).run Blog.articleDb).run Blog.quiet =
        (.error (.ofCause .updateWithoutAssignment), Blog.quiet) := by
  obtain ⟨-, -, hsupported, hrefused, -⟩ := Db.calls_supported Blog.build_articleDb
  refine ⟨Blog.build_articleDb, ⟨hsupported (.create "Label" [("name", .text "lean")]) nofun rfl,
    ⟨_, _, _⟩, ?_, rfl⟩, hrefused (.update (.all Blog.articleLabel) []) ?_ rfl Blog.quiet⟩
  · decide +kernel
  · rintro mq ⟨⟩
    exact .refl

end SqlMapper
