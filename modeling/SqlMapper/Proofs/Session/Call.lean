import SqlMapper.Proofs.Entity.Write
import SqlMapper.Proofs.Relation.Rollback
/-!
# Call — every call that uses a connection

The calls of the library that send operations, each with what it answers.  They load trees of relationships, save an
entity and link it, or synchronise a join table, and all of them end at the first operation that fails: its error is the
result, and nothing is sent after it but the rollback of a synchronisation (`DbCall.run_stops`).
-/
namespace SqlMapper

open Db (halts_pure halts_throw halts_lift halts_select halts_execute halts_insertRow)

variable {σ : Type} {db : Db σ}

/-! ## Entities -/

namespace Entity

/-- A write stops at the operation that it sends. -/
theorem stops_written (db : Db σ) (e : Entity) (c : σ) :
    StopsAtError noClosing (e.written db c) (db.exchanges c (e.sends db)) := by
  unfold written sends
  cases e.plan db with
  | error err => trivial
  | ok planned =>
    cases planned with
    | none => trivial
    | some op => exact StopsAtError.singleton _ rfl fun err he => by simp only [he]; rfl

theorem halts_save (e : Entity) : db.AttemptHalts (e.save db) := by
  intro w
  by_cases hd : e.isDirty = true
  · rw [run_save_of_dirty db hd]
    cases e.savingResult db with
    | error err => exact ⟨_, rfl, by rw [Db.exchanges_hookEvents]; trivial⟩
    | ok =>
      have hstops := stops_written db (e.toWrite db) w.connection
      dsimp only
      cases hw : (e.toWrite db).written db w.connection with
      | error err =>
        rw [hw] at hstops
        refine ⟨_, rfl, ?_⟩
        rw [Db.exchanges_append, Db.exchanges_hookEvents, db.replay_hookEvents]
        exact hstops.imp fun _ he => by cases he; rfl
      | ok a =>
        rw [hw] at hstops
        refine ⟨_, rfl, ?_⟩
        rw [Db.exchanges_append, Db.exchanges_append, Db.exchanges_hookEvents, Db.exchanges_hookEvents,
          db.replay_hookEvents, List.append_nil]
        exact StopsAtError.of_allAnswered _ hstops.allAnswered
  · rw [run_save_of_clean db (Bool.not_eq_true _ ▸ hd)]
    exact ⟨[], (db.after_nil w).symm, trivial⟩

theorem halts_delete (e : Entity) : db.AttemptHalts (e.delete db) := by
  intro w
  by_cases hs : e.stored = true
  · rw [run_delete db hs]
    cases db.hookResult Hooks.deleting e with
    | error err => exact ⟨_, rfl, by rw [Db.exchanges_hookEvents]; trivial⟩
    | ok =>
      dsimp only
      cases e.removal db with
      | error err => exact ⟨_, rfl, by rw [Db.exchanges_hookEvents]; trivial⟩
      | ok op =>
        dsimp only
        cases ho : (db.exec op w.connection).1 with
        | error err =>
          refine ⟨_, rfl, ?_⟩
          rw [Db.exchanges_append, Db.exchanges_hookEvents, db.replay_hookEvents, Db.exchanges_sent, ho]
          exact ⟨rfl, rfl⟩
        | ok response =>
          refine ⟨_, rfl, ?_⟩
          rw [Db.exchanges_append, Db.exchanges_append, Db.exchanges_hookEvents, Db.exchanges_hookEvents,
            db.replay_hookEvents, Db.exchanges_sent, ho]
          trivial
  · rw [run_delete_of_not_stored db (Bool.not_eq_true _ ▸ hs)]
    exact ⟨[], (db.after_nil w).symm, trivial⟩

theorem attemptHalts_of_silent (attempt : Attempt) : db.AttemptHalts (pure attempt : Session σ Attempt) := fun w =>
  ⟨[], (db.after_nil w).symm, trivial⟩

theorem halts_touch (e : Entity) : db.AttemptHalts (e.touch db) := by
  unfold touch
  split
  · exact halts_save _
  · exact attemptHalts_of_silent _

end Entity

/-! ## Model queries -/

namespace ModelQuery

variable (mq : ModelQuery)

theorem halts_get : db.Halts (mq.get db) :=
  (halts_lift _).bind fun _ => (halts_select _).bind fun _ =>
    LoadStep.leads_runAll Db.composes_halts halts_select _ _ _ _

theorem halts_first : db.Halts (mq.first db) := ((mq.limit 1).halts_get).bind fun _ => halts_pure _

theorem halts_find (id : Value) : db.Halts (mq.find db id) := (mq.withKey id).halts_first

theorem halts_findOrFail (id : Value) : db.Halts (mq.findOrFail db id) :=
  (mq.halts_find id).bind fun found => by
    cases found with
    | some e => exact halts_pure e
    | none => exact halts_throw _

theorem halts_count : db.Halts (mq.count db) :=
  (halts_select _).bind fun _ => (halts_lift _).bind fun _ => halts_pure _

theorem halts_exists? : db.Halts (mq.exists? db) := mq.halts_count.bind fun _ => halts_pure _

theorem halts_pluck (column : String) : db.Halts (mq.pluck db column) := (halts_select _).bind fun _ => halts_pure _

end ModelQuery

/-! ## Relation queries -/

namespace RelationQuery

variable (rq : RelationQuery)

theorem halts_fetch (q : Query) : db.Halts (rq.fetch db q) := by
  unfold fetch
  exact .ite (halts_pure _) ((halts_select _).bind fun _ => halts_pure _)

theorem halts_first : db.Halts (rq.first db) := (rq.halts_fetch _).bind fun _ => halts_pure _

theorem halts_results : db.Halts (rq.results db) := by
  unfold results
  exact .ite (rq.halts_first.bind fun _ => halts_pure _) ((rq.halts_fetch _).bind fun _ => halts_pure _)

theorem halts_attach (id : Value) (pairs : List (String × Value)) : db.Halts (rq.attach db id pairs) :=
  (halts_lift _).bind fun _ => (halts_lift _).bind fun _ => (halts_execute _).bind fun _ => halts_pure _

theorem halts_attachSaved (e : Entity) (pairs : List (String × Value)) : db.Halts (rq.attachSaved db e pairs) := by
  unfold attachSaved
  split
  · exact rq.halts_attach _ _
  · exact halts_throw _

theorem halts_save (e : Entity) : db.AttemptHalts (rq.save db e) := by
  unfold save
  split
  · exact Entity.attemptHalts_of_silent _
  · split
    · exact Entity.attemptHalts_of_silent _
    · exact Entity.halts_save _
    · exact Entity.halts_save _
    · exact Db.composes_halts.link (Entity.halts_save e) fun e => rq.halts_attachSaved e []

theorem halts_insert (pairs : List (String × Value)) : db.Halts (rq.insert db pairs) :=
  (rq.halts_save _).bind fun e => halts_pure e

theorem halts_detach (ids : List Value) : db.Halts (rq.detach db ids) :=
  (halts_lift _).bind fun _ => (halts_lift _).bind fun _ => halts_execute _

theorem halts_updatePivot (id : Value) (pairs : List (String × Value)) : db.Halts (rq.updatePivot db id pairs) :=
  (halts_lift _).bind fun _ => halts_execute _

theorem halts_insertWithPivot (pairs pivotPairs : List (String × Value)) :
    db.Halts (rq.insertWithPivot db pairs pivotPairs) := by
  have hsave : db.AttemptHalts (((Entity.new rq.related).fill pairs).save db) := Entity.halts_save _
  have hattach : ∀ e, db.Halts (rq.attachSaved db e pivotPairs >>= fun _ => pure e) := fun e =>
    (rq.halts_attachSaved e pivotPairs).bind fun _ => halts_pure e
  exact (halts_lift _).bind fun _ => (halts_lift _).bind fun _ => hsave.bind hattach

end RelationQuery

theorem Entity.halts_resolve (e : Entity) (name : String) : db.Halts (e.resolve db name) := by
  unfold Entity.resolve
  split
  · exact halts_pure _
  · exact (halts_lift _).bind fun rq => rq.halts_results.bind fun _ => halts_pure _

namespace Db

theorem halts_all (model : String) : db.Halts (db.all model) := (halts_lift _).bind fun mq => mq.halts_get

theorem halts_create (model : String) (pairs : List (String × Value)) : db.Halts (db.create model pairs) :=
  (halts_lift _).bind fun _ => (Entity.halts_save _).bind fun e => halts_pure e

end Db

/-! ## All calls -/

/-- A call that may send operations, with its arguments. -/
inductive DbCall where
  | get (mq : ModelQuery)
  | first (mq : ModelQuery)
  | find (mq : ModelQuery) (id : Value)
  | findOrFail (mq : ModelQuery) (id : Value)
  | count (mq : ModelQuery)
  | exists? (mq : ModelQuery)
  | pluck (mq : ModelQuery) (column : String)
  | update (mq : ModelQuery) (pairs : List (String × Value))
  | deleteRows (mq : ModelQuery)
  | save (e : Entity)
  | delete (e : Entity)
  | touch (e : Entity)
  | resolve (e : Entity) (name : String)
  | related (rq : RelationQuery)
  | firstRelated (rq : RelationQuery)
  | results (rq : RelationQuery)
  | insertRelated (rq : RelationQuery) (pairs : List (String × Value))
  | saveRelated (rq : RelationQuery) (e : Entity)
  | attach (rq : RelationQuery) (id : Value) (pairs : List (String × Value))
  | detach (rq : RelationQuery) (ids : List Value)
  | sync (rq : RelationQuery) (ids : List Value)
  | updatePivot (rq : RelationQuery) (id : Value) (pairs : List (String × Value))
  | insertWithPivot (rq : RelationQuery) (pairs pivotPairs : List (String × Value))
  | create (model : String) (pairs : List (String × Value))
  | all (model : String)

namespace DbCall

/-- What the call answers if it succeeds. -/
def Answer : DbCall → Type
  | get _ | related _ | all _ => List Entity
  | first _ | find _ _ | firstRelated _ => Option Entity
  | findOrFail _ _ | insertRelated _ _ | insertWithPivot _ _ _ | create _ _ => Entity
  | count _ | update _ _ | deleteRows _ | detach _ _ | updatePivot _ _ _ => UInt64
  | exists? _ => Bool
  | pluck _ _ => List Value
  | save _ | delete _ | touch _ | saveRelated _ _ | attach _ _ _ => Unit
  | resolve _ _ => Related × Entity
  | results _ => Related
  | sync _ _ => Changes

def run (db : Db σ) : (c : DbCall) → Session σ (Except Error c.Answer)
  | get mq => (mq.get db).run
  | first mq => (mq.first db).run
  | find mq id => (mq.find db id).run
  | findOrFail mq id => (mq.findOrFail db id).run
  | count mq => (mq.count db).run
  | exists? mq => (mq.exists? db).run
  | pluck mq column => (mq.pluck db column).run
  | update mq pairs => (mq.update db pairs).run
  | deleteRows mq => (mq.delete db).run
  | save e => Prod.fst <$> e.save db
  | delete e => Prod.fst <$> e.delete db
  | touch e => Prod.fst <$> e.touch db
  | resolve e name => (e.resolve db name).run
  | related rq => (rq.get db).run
  | firstRelated rq => (rq.first db).run
  | results rq => (rq.results db).run
  | insertRelated rq pairs => (rq.insert db pairs).run
  | saveRelated rq e => Prod.fst <$> rq.save db e
  | attach rq id pairs => (rq.attach db id pairs).run
  | detach rq ids => (rq.detach db ids).run
  | sync rq ids => (rq.sync db ids).run
  | updatePivot rq id pairs => (rq.updatePivot db id pairs).run
  | insertWithPivot rq pairs pivotPairs => (rq.insertWithPivot db pairs pivotPairs).run
  | create model pairs => (db.create model pairs).run
  | all model => (db.all model).run

/-- What the call sends after an operation that failed. -/
def closing : DbCall → Operation → List Operation
  | sync _ _ => rollbackAfter
  | _ => noClosing

theorem commit_not_mem_closing (c : DbCall) (failed : Operation) : Operation.commit ∉ c.closing failed := by
  cases c with
  | sync rq ids => cases failed <;> simp [closing, rollbackAfter, Operation.isStatement]
  | _ => exact List.not_mem_nil

/-- The call stops at its first failure. -/
def Stops (db : Db σ) (c : DbCall) : Prop :=
  ∀ w, ∃ events, ((c.run db).run w).2 = db.after w events ∧
    ((∀ x ∈ db.exchanges w.connection events, x.inKind = true) →
      StopsAtError c.closing ((c.run db).run w).1 (db.exchanges w.connection events))

theorem stops_of_halts {c : DbCall} {x : Action σ c.Answer} (hrun : c.run db = x.run) (hclosing : c.closing = noClosing)
    (h : db.Halts x) : c.Stops db := by
  intro w
  obtain ⟨events, hw, hs⟩ := h w
  rw [hrun, hclosing]
  exact ⟨events, hw, fun _ => hs⟩

/-- An attempt of which only the result is kept. -/
theorem halts_of_attemptHalts {x : Session σ Attempt} (h : db.AttemptHalts x) :
    db.Halts (ExceptT.mk (Prod.fst <$> x) : Action σ Unit) := h

theorem stops (db : Db σ) (c : DbCall) : c.Stops db := by
  cases c with
  | get mq => exact stops_of_halts rfl rfl mq.halts_get
  | first mq => exact stops_of_halts rfl rfl mq.halts_first
  | find mq id => exact stops_of_halts rfl rfl (mq.halts_find id)
  | findOrFail mq id => exact stops_of_halts rfl rfl (mq.halts_findOrFail id)
  | count mq => exact stops_of_halts rfl rfl mq.halts_count
  | exists? mq => exact stops_of_halts rfl rfl mq.halts_exists?
  | pluck mq column => exact stops_of_halts rfl rfl (mq.halts_pluck column)
  | update mq pairs => exact stops_of_halts rfl rfl (halts_execute _)
  | deleteRows mq => exact stops_of_halts rfl rfl (halts_execute _)
  | save e => exact stops_of_halts rfl rfl (halts_of_attemptHalts (Entity.halts_save e))
  | delete e => exact stops_of_halts rfl rfl (halts_of_attemptHalts (Entity.halts_delete e))
  | touch e => exact stops_of_halts rfl rfl (halts_of_attemptHalts (Entity.halts_touch e))
  | resolve e name => exact stops_of_halts rfl rfl (e.halts_resolve name)
  | related rq => exact stops_of_halts rfl rfl (rq.halts_fetch _)
  | firstRelated rq => exact stops_of_halts rfl rfl rq.halts_first
  | results rq => exact stops_of_halts rfl rfl rq.halts_results
  | insertRelated rq pairs => exact stops_of_halts rfl rfl (rq.halts_insert pairs)
  | saveRelated rq e => exact stops_of_halts rfl rfl (halts_of_attemptHalts (rq.halts_save e))
  | attach rq id pairs => exact stops_of_halts rfl rfl (rq.halts_attach id pairs)
  | detach rq ids => exact stops_of_halts rfl rfl (rq.halts_detach ids)
  | sync rq ids => exact rq.sync_stops db ids
  | updatePivot rq id pairs => exact stops_of_halts rfl rfl (rq.halts_updatePivot id pairs)
  | insertWithPivot rq pairs pivotPairs => exact stops_of_halts rfl rfl (rq.halts_insertWithPivot pairs pivotPairs)
  | create model pairs => exact stops_of_halts rfl rfl (Db.halts_create model pairs)
  | all model => exact stops_of_halts rfl rfl (Db.halts_all model)

/-- **The first operation that fails ends the call.**  Whatever the call and the answers in kind, the error is its result,
and nothing is sent after it, but for one rollback after a statement of a synchronisation, however that is answered.  So
a commit is sent only if every operation before it succeeded. -/
theorem run_stops (db : Db σ) (c : DbCall) (w : World σ) :
    ∃ events, ((c.run db).run w).2 = db.after w events ∧
      ((∀ x ∈ db.exchanges w.connection events, x.inKind = true) →
        (∀ before op e rest, db.exchanges w.connection events = before ++ (op, .error e) :: rest →
          AllAnswered before → ((c.run db).run w).1 = .error e ∧ rest.map Prod.fst = c.closing op) ∧
        ∀ before answer rest, db.exchanges w.connection events = before ++ (.commit, answer) :: rest →
          AllAnswered before) := by
  obtain ⟨events, hw, hstops⟩ := c.stops db w
  refine ⟨events, hw, fun hkind => ⟨fun before op e rest hsplit hbefore => ?_, fun before answer rest hsplit => ?_⟩⟩
  · have hs := hstops hkind
    rw [hsplit] at hs
    exact hs.of_split hbefore
  · have hs := hstops hkind
    rw [hsplit] at hs
    exact hs.allAnswered_before c.commit_not_mem_closing

end DbCall

namespace Blog

/-- The post has one tag, which cannot be removed, and then the connection is gone. -/
def failingDelete : World Script where
  connection :=
    { replies := [.answer ⟨.count 0, none⟩, .answer ⟨.rows [.ofList [("tag_id", .int 3)]], none⟩,
        .fail "database is locked" [], .fail "connection lost" []]
      generated := 0 }
  events := []

end Blog

/-- The error of the delete is the result, and the rollback that follows it fails too. -/
theorem run_stops_failingDelete :
    let call := DbCall.sync (Blog.tags "tag_id") [.int 4]
    let db := Blog.db Script.exec
    let xs := db.exchanges Blog.failingDelete.connection ((call.run db).run Blog.failingDelete).2.events
    (∀ x ∈ xs, x.inKind = true) ∧ AllAnswered (xs.take 2) ∧
      ∃ op rest, xs = xs.take 2 ++ (op, .error (.ofCause (.driver "database is locked" []))) :: rest ∧
        ((call.run db).run Blog.failingDelete).1 = .error (.ofCause (.driver "database is locked" [])) ∧
        rest.map Prod.fst = [.rollback] := by
  intro call db xs
  obtain ⟨events, hw, hstops⟩ := DbCall.run_stops db call Blog.failingDelete
  obtain rfl : ((call.run db).run Blog.failingDelete).2.events = events := congrArg World.events hw
  have hkind : ∀ x ∈ xs, x.inKind = true := by decide +kernel
  have hbefore : AllAnswered (xs.take 2) := by
    unfold AllAnswered
    decide +kernel
  obtain ⟨hresult, hrest⟩ := (hstops hkind).1 (xs.take 2) _ _ _ rfl hbefore
  exact ⟨hkind, hbefore, _, _, rfl, hresult, hrest⟩

end SqlMapper
