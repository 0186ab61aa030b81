import SqlMapper.Entity.Persist
import SqlMapper.Proofs.Attributes
import SqlMapper.Proofs.Session.Trace
/-!
# Write — what a save sends

A save runs the hook before it on the stamped entity and then sends at most one operation.  Which one it is does not
depend on the connection (`Entity.plan`), and what the entity takes from the answer does not depend on the operation
(`Entity.taken`).  `run_write` and `run_save_of_dirty` put a save together from these parts, and later modules reason
from them.
-/
namespace SqlMapper

-- Entities form trees, so an entity is not by definition the record of its fields.
theorem Entity.with_same_attributes {e : Entity} {a : Attributes} (h : a = e.attributes) :
    { e with attributes := a } = e := by
  subst h
  cases e
  rfl

theorem Insert.zip_headD_ofAttributes (table : String) (a : Attributes) :
    (Insert.ofAttributes table a).columns.zip ((Insert.ofAttributes table a).rows.headD []) =
      a.entries.map fun (name, v) => (name, .value v) := by
  show a.names.zip (a.values.map Expr.value) = _
  unfold Attributes.names Attributes.values Assoc.names
  rw [List.map_map, List.zip_map']
  rfl

/-! ## Hooks -/

namespace Db

variable {σ : Type} (db : Db σ)

/-- What the hook before a save makes of an entity. -/
def saving (e : Entity) : Attempt :=
  match db.hooksOf e.model with
  | none => (.ok (), e)
  | some hooks => hooks.saving e

def hookResult (hook : Hooks → Entity → Except Error Unit) (e : Entity) : Except Error Unit :=
  match db.hooksOf e.model with
  | none => .ok ()
  | some hooks => hook hooks e

def hookEvents (moment : HookMoment) (e : Entity) : List Event :=
  match db.hooksOf e.model with
  | none => []
  | some _ => [.hook moment e]

theorem run_runSaving (e : Entity) (w : World σ) :
    (db.runSaving e).run w = (db.saving e, db.after w (db.hookEvents .saving e)) := by
  unfold runSaving saving hookEvents
  cases db.hooksOf e.model with
  | none =>
    simp only [after_nil]
    rfl
  | some hooks => rfl

theorem run_runHook (moment : HookMoment) (hook : Hooks → Entity → Except Error Unit) (e : Entity) (w : World σ) :
    (db.runHook moment hook e).run w = (db.hookResult hook e, db.after w (db.hookEvents moment e)) := by
  unfold runHook hookResult hookEvents
  cases db.hooksOf e.model with
  | none =>
    simp only [after_nil]
    rfl
  | some hooks => rfl

/-- The hooks before a save edit attributes, and nothing else of the entity. -/
def EditsAttributes : Prop :=
  ∀ m hooks, db.hooksOf m = some hooks → ∀ e, ∃ a, (hooks.saving e).2 = { e with attributes := a }

/-- The hook before a save of this model's entities edits attributes other than the key. -/
def SparesKey (m : Model) : Prop :=
  ∀ hooks, db.hooksOf m = some hooks → ∀ e, e.model = m →
    ∃ a, (hooks.saving e).2 = { e with attributes := a } ∧ a.get? m.key = e.get? m.key

theorem saving_of_editsAttributes (h : db.EditsAttributes) (e : Entity) :
    ∃ a, (db.saving e).2 = { e with attributes := a } := by
  unfold saving
  cases hh : db.hooksOf e.model with
  | none =>
    dsimp only
    exact ⟨e.attributes, (Entity.with_same_attributes rfl).symm⟩
  | some hooks => exact h e.model hooks hh e

theorem saving_of_sparesKey {m : Model} (h : db.SparesKey m) {e : Entity} (hm : e.model = m) :
    ∃ a, (db.saving e).2 = { e with attributes := a } ∧ a.get? m.key = e.get? m.key := by
  subst hm
  unfold saving
  cases hh : db.hooksOf e.model with
  | none =>
    dsimp only
    exact ⟨e.attributes, (Entity.with_same_attributes rfl).symm, rfl⟩
  | some hooks => exact h hooks hh e rfl

theorem replay_hookEvents (c : σ) (moment : HookMoment) (e : Entity) : db.replay c (db.hookEvents moment e) = c := by
  unfold hookEvents
  cases db.hooksOf e.model <;> rfl

theorem exchanges_hookEvents (c : σ) (moment : HookMoment) (e : Entity) :
    db.exchanges c (db.hookEvents moment e) = [] := by
  unfold hookEvents
  cases db.hooksOf e.model <;> rfl

theorem connection_after_hookEvents (w : World σ) (moment : HookMoment) (e : Entity) :
    (db.after w (db.hookEvents moment e)).connection = w.connection :=
  db.replay_hookEvents w.connection moment e

/-! ## Inserts -/


/-- The insert that is sent, which asks for the key if the connection can be asked in the statement. -/
def asking (i : Insert) (key : String) : Insert := if db.insertReturning then i.returningColumn key else i

def inserting (p : Prepared) : Operation := if db.insertReturning then .query p else .exec p true

/-- The generated key that an answer reports. -/
def reportedKey (key : String) (response : Response) : Except Error (Option Value) :=
  if db.insertReturning then response.outcome.toRows.map fun rows => rows.head?.bind (·.get? key)
  else .ok response.generatedKey

theorem run_insertRow (i : Insert) (key : String) (w : World σ) :
    (db.insertRow i key).run.run w =
      match (Statement.insert (db.asking i key)).prepare db.dialect with
      | .error err => (.error err, w)
      | .ok p =>
        ((db.exec (db.inserting p) w.connection).1.bind (db.reportedKey key), db.after w [.sent (db.inserting p)]) := by
  unfold insertRow asking inserting reportedKey
  cases db.insertReturning with
  | true =>
    simp only [↓reduceIte, run_bind, run_lift]
    cases (Statement.insert (i.returningColumn key)).prepare db.dialect with
    | error err => rfl
    | ok p =>
      simp only [run_send]
      cases (db.exec (.query p) w.connection).1 with
      | error err => rfl
      | ok response =>
        obtain ⟨outcome, generatedKey⟩ := response
        cases outcome <;> rfl
  | false =>
    simp only [Bool.false_eq_true, ↓reduceIte, run_bind, run_lift]
    cases (Statement.insert i).prepare db.dialect with
    | error err => rfl
    | ok p =>
      simp only [run_send]
      cases (db.exec (.exec p true) w.connection).1 <;> rfl

end Db

namespace Entity

variable {σ : Type} (db : Db σ) (e : Entity)

/-! ## The operation of a write -/

/-- The update of the changed attributes. -/
def changes (target : Query) : Update :=
  ⟨target, e.dirty.entries.map fun (name, v) => (name, .value v)⟩

/-- The operation that a write sends, or none if there is nothing to write. -/
def plan : Except Error (Option Operation) :=
  if e.stored then
    if e.dirty.entries = [] then .ok none else
    match e.byKey with
    | .error err => .error err
    | .ok target => ((Statement.update (e.changes target)).prepare db.dialect).map fun p => some (.exec p false)
  else
    ((Statement.insert (db.asking (.ofAttributes e.model.table e.attributes) e.model.key)).prepare db.dialect).map
      fun p => some (db.inserting p)

/-- What is planned: nothing, the update of a stored entity that changed, or the insert of one that is not stored. -/
theorem plan_ok_cases {planned : Option Operation} (h : e.plan db = .ok planned) :
    (e.stored = true ∧ e.dirty.entries = [] ∧ planned = none) ∨
      (e.stored = true ∧ ∃ target p, e.byKey = .ok target ∧
        (Statement.update (e.changes target)).prepare db.dialect = .ok p ∧ planned = some (.exec p false)) ∨
      (e.stored = false ∧ ∃ p,
        (Statement.insert (db.asking (.ofAttributes e.model.table e.attributes) e.model.key)).prepare db.dialect =
          .ok p ∧
          planned = some (db.inserting p)) := by
  unfold plan at h
  cases hs : e.stored with
  | true =>
    rw [if_pos hs] at h
    by_cases hd : e.dirty.entries = []
    · rw [if_pos hd] at h
      exact .inl ⟨rfl, hd, (Except.ok.inj h).symm⟩
    · rw [if_neg hd] at h
      cases ht : e.byKey with
      | error err =>
        rw [ht] at h
        cases h
      | ok target =>
        rw [ht] at h
        dsimp only at h
        cases hp : (Statement.update (e.changes target)).prepare db.dialect with
        | error err =>
          rw [hp] at h
          cases h
        | ok p =>
          rw [hp] at h
          exact .inr (.inl ⟨rfl, target, p, rfl, hp, (Except.ok.inj h).symm⟩)
  | false =>
    rw [hs, if_neg Bool.false_ne_true] at h
    cases hp : (Statement.insert (db.asking (.ofAttributes e.model.table e.attributes) e.model.key)).prepare
        db.dialect with
    | error err =>
      rw [hp] at h
      cases h
    | ok p =>
      rw [hp] at h
      exact .inr (.inr ⟨rfl, p, rfl, (Except.ok.inj h).symm⟩)

/-- The attributes of a new entity with the key that was generated for it. -/
def withGenerated (key : Option Value) : Attributes :=
  match key, e.key? with
  | some key, none => e.attributes.insert e.model.key key
  | _, _ => e.attributes

/-- The attributes of the entity once its write was answered. -/
def taken (response : Response) : Except Error Attributes :=
  if e.stored then .ok e.attributes else (db.reportedKey e.model.key response).map e.withGenerated

theorem foldl_set (entries : List (String × Value)) :
    ∀ u : Update, entries.foldl (fun u (name, v) => u.set name (.value v)) u =
      { u with assignments := u.assignments ++ entries.map fun (name, v) => (name, .value v) } := by
  induction entries with
  | nil =>
    intro u
    rw [List.foldl_nil, List.map_nil, List.append_nil]
  | cons p entries ih =>
    intro u
    rw [List.foldl_cons, ih, List.map_cons]
    simp only [Update.set, List.append_assoc, List.singleton_append]

theorem foldl_set_on (target : Query) :
    e.dirty.entries.foldl (fun u (name, v) => u.set name (.value v)) (Update.on target) = e.changes target := by
  rw [foldl_set]
  rfl

variable {e}

theorem run_write_update (hs : e.stored = true) (hd : e.dirty.entries ≠ []) (w : World σ) :
    (e.write db).run.run w =
      match e.byKey with
      | .error err => (.error err, w)
      | .ok target =>
        match (Statement.update (e.changes target)).prepare db.dialect with
        | .error err => (.error err, w)
        | .ok p =>
          ((db.exec (.exec p false) w.connection).1.map fun _ => e.attributes, db.after w [.sent (.exec p false)]) := by
  unfold write
  simp only [hs, hd, ↓reduceIte, run_bind, run_lift]
  cases e.byKey with
  | error err => rfl
  | ok target =>
    simp only [foldl_set_on, db.run_execute]
    cases (Statement.update (e.changes target)).prepare db.dialect with
    | error err => rfl
    | ok p =>
      dsimp only
      cases (db.exec (.exec p false) w.connection).1 <;> rfl

theorem run_write_insert (hs : e.stored = false) (w : World σ) :
    (e.write db).run.run w =
      match (Statement.insert (db.asking (.ofAttributes e.model.table e.attributes) e.model.key)).prepare db.dialect with
      | .error err => (.error err, w)
      | .ok p =>
        ((db.exec (db.inserting p) w.connection).1.bind fun response =>
          (db.reportedKey e.model.key response).map e.withGenerated, db.after w [.sent (db.inserting p)]) := by
  unfold write withGenerated
  simp only [hs, Bool.false_eq_true, ↓reduceIte, run_bind, db.run_insertRow]
  cases (Statement.insert (db.asking (.ofAttributes e.model.table e.attributes) e.model.key)).prepare db.dialect with
  | error err => rfl
  | ok p =>
    dsimp only
    cases (db.exec (db.inserting p) w.connection).1 with
    | error err => rfl
    | ok response =>
      simp only [Except.bind]
      cases db.reportedKey e.model.key response with
      | error err => rfl
      | ok key => cases key <;> cases e.key? <;> rfl

/-- A write sends what is planned and nothing else, and takes its attributes from the answer. -/
theorem run_write (w : World σ) :
    (e.write db).run.run w =
      match e.plan db with
      | .error err => (.error err, w)
      | .ok none => (.ok e.attributes, w)
      | .ok (some op) => ((db.exec op w.connection).1.bind (e.taken db), db.after w [.sent op]) := by
  unfold plan taken
  cases hs : e.stored with
  | true =>
    simp only [↓reduceIte]
    by_cases hd : e.dirty.entries = []
    · unfold write
      simp only [hs, hd, ↓reduceIte]
      rfl
    · rw [run_write_update db hs hd]
      simp only [hd, ↓reduceIte]
      cases e.byKey with
      | error err => rfl
      | ok target =>
        dsimp only
        cases (Statement.update (e.changes target)).prepare db.dialect with
        | error err => rfl
        | ok p => rfl
  | false =>
    rw [run_write_insert db hs]
    simp only [Bool.false_eq_true, ↓reduceIte]
    cases (Statement.insert (db.asking (.ofAttributes e.model.table e.attributes) e.model.key)).prepare db.dialect with
    | error err => rfl
    | ok p => rfl

/-- The attributes after a write on a connection in the given state, or why it was not accepted. -/
def written (e : Entity) (c : σ) : Except Error Attributes :=
  match e.plan db with
  | .error err => .error err
  | .ok none => .ok e.attributes
  | .ok (some op) => (db.exec op c).1.bind (e.taken db)

def sends (e : Entity) : List Event :=
  match e.plan db with
  | .ok (some op) => [.sent op]
  | _ => []

theorem run_write_eq (w : World σ) :
    (e.write db).run.run w = (e.written db w.connection, db.after w (e.sends db)) := by
  rw [run_write, written, sends]
  cases e.plan db with
  | error err =>
    simp only [db.after_nil]
  | ok planned =>
    cases planned with
    | none => simp only [db.after_nil]
    | some op => rfl

/-! ## Saving -/

theorem stamp_eq (e : Entity) (now : Timestamp) : ∃ a, e.stamp now = { e with attributes := a } := by
  unfold stamp
  split
  · dsimp only
    split
    · exact ⟨_, rfl⟩
    · exact ⟨_, rfl⟩
  · exact ⟨e.attributes, (with_same_attributes rfl).symm⟩

/-- The entity that a save writes: it is stamped, and as the hook before the save leaves it. -/
def toWrite (e : Entity) : Entity := (db.saving (e.stamp db.now)).2

def savingResult (e : Entity) : Except Error Unit := (db.saving (e.stamp db.now)).1

theorem toWrite_eq (h : db.EditsAttributes) (e : Entity) : ∃ a, e.toWrite db = { e with attributes := a } := by
  obtain ⟨stamped, hstamp⟩ := e.stamp_eq db.now
  obtain ⟨a, ha⟩ := db.saving_of_editsAttributes h (e.stamp db.now)
  exact ⟨a, by rw [toWrite, ha, hstamp]⟩

/-- A clean entity holds nothing that its row was not last known with. -/
theorem unchanged_of_clean (h : e.isDirty = false) :
    e.stored = true ∧ ∀ name v, e.attributes.get? name = some v → e.snapshot.get? name = some v := by
  rw [isDirty, Bool.or_eq_false_iff, Bool.not_eq_false', Bool.not_eq_false'] at h
  exact ⟨h.1, fun _ _ hv => Attributes.get?_of_sameAs h.2 hv⟩

theorem run_save_of_clean (h : e.isDirty = false) (w : World σ) : (e.save db).run w = ((.ok (), e), w) := by
  unfold save
  simp only [h, Bool.not_false, ↓reduceIte]
  rfl

theorem run_save_of_dirty (h : e.isDirty = true) (w : World σ) :
    (e.save db).run w =
      match e.savingResult db with
      | .error err => ((.error err, e.toWrite db), db.after w (db.hookEvents .saving (e.stamp db.now)))
      | .ok () =>
        match (e.toWrite db).written db w.connection with
        | .error err =>
          ((.error err, e.toWrite db), db.after w (db.hookEvents .saving (e.stamp db.now) ++ (e.toWrite db).sends db))
        | .ok a =>
          ((db.hookResult Hooks.saved ((e.toWrite db).settle a), (e.toWrite db).settle a),
            db.after w (db.hookEvents .saving (e.stamp db.now) ++ (e.toWrite db).sends db ++
              db.hookEvents .saved ((e.toWrite db).settle a))) := by
  unfold save savingResult toWrite
  simp only [h, Bool.not_true, Bool.false_eq_true, ↓reduceIte, run_session_bind, db.run_runSaving]
  cases db.saving (e.stamp db.now) with
  | mk hook e₁ =>
    cases hook with
    | error err => rfl
    | ok =>
      dsimp only
      rw [run_session_bind, run_write_eq, db.connection_after_hookEvents, db.after_after]
      cases e₁.written db w.connection with
      | error err => rfl
      | ok a =>
        dsimp only
        rw [run_session_bind, db.run_runHook, db.after_after]
        rfl

/-! ## Deleting -/

/-- The operation that deletes the entity's row. -/
def removal (e : Entity) : Except Error Operation :=
  match e.byKey with
  | .error err => .error err
  | .ok target => ((Statement.delete target).prepare db.dialect).map fun p => .exec p false

theorem run_remove (w : World σ) :
    (do let target ← e.byKey; db.execute (.delete target) : Action σ UInt64).run.run w =
      match e.removal db with
      | .error err => (.error err, w)
      | .ok op => ((db.exec op w.connection).1.map (·.outcome.affected), db.after w [.sent op]) := by
  rw [run_bind, run_lift, removal]
  cases e.byKey with
  | error err => rfl
  | ok target =>
    dsimp only
    rw [db.run_execute]
    cases (Statement.delete target).prepare db.dialect with
    | error err => rfl
    | ok p => rfl

theorem run_delete_of_not_stored (h : e.stored = false) (w : World σ) : (e.delete db).run w = ((.ok (), e), w) := by
  unfold delete
  simp only [h, Bool.not_false, ↓reduceIte]
  rfl

theorem run_delete (h : e.stored = true) (w : World σ) :
    (e.delete db).run w =
      match db.hookResult Hooks.deleting e with
      | .error err => ((.error err, e), db.after w (db.hookEvents .deleting e))
      | .ok () =>
        match e.removal db with
        | .error err => ((.error err, e), db.after w (db.hookEvents .deleting e))
        | .ok op =>
          match (db.exec op w.connection).1 with
          | .error err => ((.error err, e), db.after w (db.hookEvents .deleting e ++ [.sent op]))
          | .ok _ =>
            ((db.hookResult Hooks.deleted { e with stored := false }, { e with stored := false }),
              db.after w (db.hookEvents .deleting e ++ [.sent op] ++
                db.hookEvents .deleted { e with stored := false })) := by
  unfold delete
  simp only [h, Bool.not_true, Bool.false_eq_true, ↓reduceIte]
  rw [run_session_bind, db.run_runHook]
  cases db.hookResult Hooks.deleting e with
  | error err => rfl
  | ok =>
    dsimp only
    rw [run_session_bind, run_remove]
    cases e.removal db with
    | error err => rfl
    | ok op =>
      dsimp only
      rw [db.connection_after_hookEvents, db.after_after]
      cases (db.exec op w.connection).1 with
      | error err => rfl
      | ok response =>
        dsimp only [Except.map]
        rw [run_session_bind, db.run_runHook, db.after_after]
        rfl

end Entity

end SqlMapper
