import SqlMapper.Proofs.Relation.Parent
/-!
# Refusal — errors of the compiler

The compiler refuses a few statements, and a call that runs into one of them fails with the compiler's error.  A call is
supported if none of its statements is refused: an error of the compiler that it fails with was handed to it, as an
answer of the connection or by a hook.  There is one rule for each way to build a call.  Those for statements also say
how a row is inserted, since asking for its key is what most dialects refuse (`Db.supported_insertRow`).
-/
namespace SqlMapper

/-! ## What is refused -/

/-- What the compiler refuses a statement for. -/
def Cause.isRefusal : Cause → Bool
  | unsupportedOperation .. | updateWithoutTable | updateWithoutAssignment | deleteWithoutTable => true
  | _ => false

/-- Compiling a statement can fail with the error, in some dialect. -/
def Error.OfCompiler (err : Error) : Prop := ∃ (d : Dialect) (s : Statement), s.prepare d = .error err

namespace Statement

variable {d : Dialect} {s : Statement}

theorem prepare_eq_error {cause : Cause} (h : s.refusal? d = some cause) : s.prepare d = .error (.ofCause cause) := by
  rw [prepare, compile, compileAfter_of_refusal h]

theorem refusal_of_prepare_error {err : Error} (h : s.prepare d = .error err) :
    ∃ cause, s.refusal? d = some cause ∧ err = .ofCause cause := by
  cases hr : s.refusal? d with
  | none =>
    obtain ⟨sql, bindings, hp⟩ := prepare_eq_ok hr
    rw [hp] at h
    cases h
  | some cause =>
    rw [prepare_eq_error hr] at h
    exact ⟨cause, rfl, (Except.error.inj h).symm⟩

theorem isRefusal_of_refusal? {cause : Cause} (h : s.refusal? d = some cause) : cause.isRefusal = true := by
  cases s <;> grind [refusal?, Cause.isRefusal]

/-- An update of a table that assigns something is not refused. -/
theorem refusal?_update {u : Update} {table : String} (ht : u.target.table? = some table) (ha : u.assignments ≠ []) :
    (update u).refusal? d = none := by
  rw [refusal?, if_neg (ht ▸ Option.some_ne_none table), if_neg ha]

theorem refusal?_update_empty {u : Update} {table : String} (ht : u.target.table? = some table)
    (ha : u.assignments = []) : (update u).refusal? d = some .updateWithoutAssignment := by
  rw [refusal?, if_neg (ht ▸ Option.some_ne_none table), if_pos ha]

theorem refusal?_delete {target : Query} {table : String} (ht : target.table? = some table) :
    (delete target).refusal? d = none := by
  rw [refusal?, if_neg (ht ▸ Option.some_ne_none table)]

end Statement

theorem Error.not_ofCompiler {cause : Cause} (h : cause.isRefusal = false) : ¬ (ofCause cause).OfCompiler := by
  rintro ⟨d, s, hs⟩
  obtain ⟨refused, hr, he⟩ := Statement.refusal_of_prepare_error hs
  obtain rfl : cause = refused := congrArg Error.top he
  rw [Statement.isRefusal_of_refusal? hr] at h
  cases h

/-- If the result is an error, it is none of the compiler. -/
def NotCompiled {α : Type} (r : Except Error α) : Prop := ∀ err, r = .error err → ¬ err.OfCompiler

theorem notCompiled_ok {α : Type} (a : α) : NotCompiled (.ok a : Except Error α) := nofun

theorem notCompiled_error {α : Type} {cause : Cause} (h : cause.isRefusal = false) :
    NotCompiled (.error (.ofCause cause) : Except Error α) := by
  rintro _ ⟨⟩
  exact Error.not_ofCompiler h

theorem eq_error_of_map {α β : Type} {r : Except Error α} {f : α → β} {err : Error} (h : r.map f = .error err) :
    r = .error err := by
  cases r with
  | ok a => cases h
  | error err' => exact congrArg Except.error (Except.error.inj h)

theorem NotCompiled.bind {α β : Type} {r : Except Error α} {f : α → Except Error β} (hr : NotCompiled r)
    (hf : ∀ a, NotCompiled (f a)) : NotCompiled (r >>= f) := by
  cases r with
  | ok a => exact hf a
  | error err =>
    rintro _ ⟨⟩
    exact hr err rfl

theorem notCompiled_toRows (outcome : Outcome) : NotCompiled outcome.toRows := by
  cases outcome with
  | count n => exact notCompiled_error rfl
  | rows rows => exact notCompiled_ok rows

namespace Db

variable {σ α β : Type} (db : Db σ)

/-! ## Errors from outside -/

/-- What a hook of the entity's model answers. -/
def hookAnswer (moment : HookMoment) (e : Entity) : Except Error Unit :=
  match moment with
  | .saving => (db.saving e).1
  | .saved => db.hookResult Hooks.saved e
  | .deleting => db.hookResult Hooks.deleting e
  | .deleted => db.hookResult Hooks.deleted e

/-- The connection answered with the error, or a hook failed with it. -/
def FailedWith (c : σ) (events : List Event) (err : Error) : Prop :=
  (∃ op, (op, .error err) ∈ db.exchanges c events) ∨
    ∃ moment e, .hook moment e ∈ events ∧ db.hookAnswer moment e = .error err

variable {db} {c : σ} {events more : List Event} {err : Error}

theorem FailedWith.append_right (h : db.FailedWith c events err) (more : List Event) :
    db.FailedWith c (events ++ more) err := by
  rcases h with ⟨op, hop⟩ | ⟨moment, e, he, hanswer⟩
  · rw [FailedWith, exchanges_append]
    exact .inl ⟨op, List.mem_append_left _ hop⟩
  · exact .inr ⟨moment, e, List.mem_append_left _ he, hanswer⟩

theorem FailedWith.append_left (h : db.FailedWith (db.replay c events) more err) :
    db.FailedWith c (events ++ more) err := by
  rcases h with ⟨op, hop⟩ | ⟨moment, e, he, hanswer⟩
  · rw [FailedWith, exchanges_append]
    exact .inl ⟨op, List.mem_append_right _ hop⟩
  · exact .inr ⟨moment, e, List.mem_append_right _ he, hanswer⟩

theorem failedWith_sent {op : Operation} (h : (db.exec op c).1 = .error err) : db.FailedWith c [.sent op] err :=
  .inl ⟨op, by rw [exchanges_sent, h]; exact List.mem_singleton_self _⟩

theorem failedWith_hook {moment : HookMoment} {e : Entity} (h : db.hookAnswer moment e = .error err) :
    db.FailedWith c (db.hookEvents moment e) err := by
  refine .inr ⟨moment, e, ?_, h⟩
  unfold hookEvents
  cases hh : db.hooksOf e.model with
  | none => cases moment <;> simp only [hookAnswer, saving, hookResult, hh] at h <;> cases h
  | some hooks => exact List.mem_singleton_self _

/-! ## Inserts -/

/-- How an operation inserts.  For the row of an entity it asks for the generated key, in the statement or of the
driver; for rows of the join table it does not. -/
inductive InsertsAs (db : Db σ) (via : Option JoinTable) : Operation → Insert → Prop where
  | returning (e : Entity) (p : Prepared) (h : db.insertReturning = true) :
    InsertsAs db via (.query p) ((Insert.ofAttributes e.model.table e.attributes).returningColumn e.model.key)
  | keyed (e : Entity) (p : Prepared) (h : db.insertReturning = false) :
    InsertsAs db via (.exec p true) (.ofAttributes e.model.table e.attributes)
  | joined (p : Prepared) {join : JoinTable} (h : via = some join) (key id : Value) (pairs : List (String × Value)) :
    InsertsAs db via (.exec p false)
      (.ofAttributes join.table ((RelationQuery.joinRow join key id db.now).insertAll pairs))
  | synchronised (p : Prepared) {join : JoinTable} (h : via = some join) (key : Value) (ids : List Value) :
    InsertsAs db via (.exec p false) (RelationQuery.joinRows join key ids db.now)

/-- The inserts among the events are made as the handle makes them, and an error of the compiler that the events end
with comes from outside. -/
structure Accounted (db : Db σ) (via : Option JoinTable) (c : σ) (events : List Event) (result : Except Error α) :
    Prop where
  inserts : ∀ op p i, .sent op ∈ events → op.prepared? = some p → p.statement = .insert i → db.InsertsAs via op i
  failure : ∀ err, err.OfCompiler → result = .error err → db.FailedWith c events err

variable {via : Option JoinTable}

namespace Accounted

theorem silent {result : Except Error α} (h : NotCompiled result) : db.Accounted via c [] result where
  inserts _ _ _ hop := absurd hop List.not_mem_nil
  failure err hc he := absurd hc (h err he)

theorem append {first : Except Error α} {result : Except Error β} (h : db.Accounted via c events first)
    (hmore : db.Accounted via (db.replay c events) more result) : db.Accounted via c (events ++ more) result where
  inserts op p i hop := (List.mem_append.1 hop).elim (h.inserts op p i) (hmore.inserts op p i)
  failure err hc he := (hmore.failure err hc he).append_left

/-- A failure stays one, whatever was sent after it. -/
theorem keep {first : Except Error α} {result : Except Error β} (h : db.Accounted via c events first)
    (hmore : db.Accounted via (db.replay c events) more result) : db.Accounted via c (events ++ more) first where
  inserts := (h.append hmore).inserts
  failure err hc he := (h.failure err hc he).append_right more

theorem error (h : db.Accounted via c events (.error err : Except Error α)) :
    db.Accounted via c events (.error err : Except Error β) where
  inserts := h.inserts
  failure := by
    rintro _ hc ⟨⟩
    exact h.failure err hc rfl

/-- One operation, whose answer decides the result. -/
theorem sent {op : Operation} {result : Except Error α}
    (h : ∀ p i, op.prepared? = some p → p.statement = .insert i → db.InsertsAs via op i)
    (he : ∀ err, result = .error err → (db.exec op c).1 = .error err) : db.Accounted via c [.sent op] result where
  inserts sent p i hsent := by
    cases List.mem_singleton.1 hsent
    exact h p i
  failure err _ herr := failedWith_sent (he err herr)

theorem hook (moment : HookMoment) (e : Entity) :
    db.Accounted via c (db.hookEvents moment e) (db.hookAnswer moment e) where
  inserts op _ _ hop := absurd hop (db.not_sent_mem_hookEvents _ _ op)
  failure _ _ he := failedWith_hook he

/-- What follows a hook starts where the hook did. -/
theorem afterHook {result : Except Error α} {moment : HookMoment} {e : Entity}
    (h : db.Accounted via c events result) : db.Accounted via c (db.hookEvents moment e ++ events) result :=
  (hook moment e).append (by rwa [db.replay_hookEvents])

end Accounted

variable (db) in
/-- From every state the call leads to events that account for it: it inserts as the handle does, and none of its
statements is refused. -/
def Supported (via : Option JoinTable) (x : Action σ α) : Prop :=
  ∀ w, ∃ events, (x.run.run w).2 = db.after w events ∧ db.Accounted via w.connection events (x.run.run w).1

variable (db) in
/-- The same of a call that leaves an entity behind. -/
def AttemptSupported (via : Option JoinTable) (x : Session σ Attempt) : Prop :=
  ∀ w, ∃ events, (x.run w).2 = db.after w events ∧ db.Accounted via w.connection events (x.run w).1.1

/-! ## Steps -/

theorem supported_lift {r : Except Error α} (h : NotCompiled r) : db.Supported via (liftM r : Action σ α) := by
  intro w
  rw [run_lift]
  exact ⟨[], (db.after_nil w).symm, .silent h⟩

theorem supported_pure (a : α) : db.Supported via (pure a : Action σ α) := supported_lift (notCompiled_ok a)

theorem supported_throw {cause : Cause} (h : cause.isRefusal = false) :
    db.Supported via (throw (.ofCause cause) : Action σ α) :=
  supported_lift (r := .error (.ofCause cause)) (notCompiled_error h)

theorem supported_send {op : Operation}
    (h : ∀ p i, op.prepared? = some p → p.statement = .insert i → db.InsertsAs via op i) :
    db.Supported via (db.send op) := fun _ =>
  ⟨[.sent op], rfl, .sent h fun _ he => he⟩

theorem composes_accounted : db.Composes fun _ => db.Accounted via where
  silent a := .silent (notCompiled_ok a)
  failure := .error
  append := .append

/-- **Supported steps make a supported call.** -/
theorem Supported.bind {x : Action σ α} {f : α → Action σ β} (hx : db.Supported via x)
    (hf : ∀ a, db.Supported via (f a)) : db.Supported via (x >>= f) :=
  composes_accounted.bind hx hf

/-- What follows a step that sends nothing knows what the step found. -/
theorem Supported.lookup {r : Except Error α} {f : α → Action σ β} (hr : NotCompiled r)
    (hf : ∀ a, r = .ok a → db.Supported via (f a)) : db.Supported via (liftM r >>= f) := by
  cases r with
  | ok a => exact hf a rfl
  | error err => exact supported_lift (r := .error err) fun err' he => by cases he; exact hr err rfl

theorem Supported.congr {x y : Action σ α} (hx : db.Supported via x) (h : ∀ w, y.run.run w = x.run.run w) :
    db.Supported via y := by
  intro w
  rw [h]
  exact hx w

theorem Supported.ite {p : Prop} [Decidable p] {x y : Action σ α} (hx : db.Supported via x)
    (hy : db.Supported via y) : db.Supported via (if p then x else y) := by
  split
  · exact hx
  · exact hy

theorem attemptSupported_pure {r : Except Error Unit} (h : NotCompiled r) (e : Entity) :
    db.AttemptSupported via (pure (r, e)) := fun w =>
  ⟨[], (db.after_nil w).symm, .silent h⟩

theorem AttemptSupported.bind {x : Session σ Attempt} {f : Entity → Action σ α} (hx : db.AttemptSupported via x)
    (hf : ∀ e, db.Supported via (f e)) :
    db.Supported via (do
      let (saved, e) ← x
      saved
      f e) :=
  composes_accounted.bindAttempt hx hf

/-- An entity that was saved is kept, whether or not the step behind succeeds. -/
theorem AttemptSupported.link {x : Session σ Attempt} {f : Entity → Action σ Unit}
    (hx : db.AttemptSupported via x) (hf : ∀ e, db.Supported via (f e)) :
    db.AttemptSupported via (do
      let (saved, e) ← x
      match saved with
      | .error err => pure (.error err, e)
      | .ok () => pure (← (f e).run, e)) :=
  composes_accounted.link hx hf

/-! ## Statements -/

/-- A statement that is not refused compiles, and what was compiled runs it. -/
theorem Supported.compile {s : Statement} {f : Prepared → Action σ α} (h : s.refusal? db.dialect = none)
    (hf : ∀ p, p.statement = s → db.Supported via (f p)) :
    db.Supported via (liftM (s.prepare db.dialect) >>= f) := by
  obtain ⟨sql, bindings, hp⟩ := Statement.prepare_eq_ok h
  rw [hp]
  exact .lookup (notCompiled_ok _) fun p hp => hf p (Except.ok.inj hp ▸ rfl)

theorem supported_select (q : Query) : db.Supported via (db.select q) := by
  refine .compile rfl fun p hp => ?_
  refine (supported_send fun p' i hp' hi => ?_).bind fun response => supported_lift (notCompiled_toRows _)
  cases Option.some.inj hp'
  cases hp.symm.trans hi

theorem supported_execute {s : Statement} (h : s.refusal? db.dialect = none)
    (hinsert : ∀ p i, s = .insert i → db.InsertsAs via (.exec p false) i) : db.Supported via (db.execute s) := by
  refine .compile h fun p hp => ?_
  refine (supported_send fun p' i hp' hi => ?_).bind fun response => supported_pure _
  cases Option.some.inj hp'
  exact hinsert p i (hp.symm.trans hi)

/-- A statement that is refused is not sent. -/
theorem run_execute_of_refusal {s : Statement} {cause : Cause} (h : s.refusal? db.dialect = some cause) (w : World σ) :
    (db.execute s).run.run w = (.error (.ofCause cause), w) := by
  rw [run_execute, Statement.prepare_eq_error h]

/-- A statement that inserts nothing. -/
theorem supported_write {s : Statement} (h : s.refusal? db.dialect = none) (hinsert : ∀ i, s ≠ .insert i) :
    db.Supported via (db.execute s) :=
  supported_execute h fun _ i hi => absurd hi (hinsert i)

/-- An insert that does not ask for the key. -/
theorem supported_unkeyedInsert {i : Insert} (hreturning : i.returning = none)
    (hinsert : ∀ p, db.InsertsAs via (.exec p false) i) : db.Supported via (db.execute (.insert i)) := by
  have h : (Statement.insert i).refusal? db.dialect = none := by
    rw [Statement.refusal?, hreturning]
    rfl
  refine supported_execute h fun p i' hi => ?_
  cases hi
  exact hinsert p

/-- **The row of an entity is inserted without a refusal**: the key is asked for in the statement only where the dialect
can. -/
theorem supported_insertRow (hreturning : db.insertReturning = true → db.dialect.supportsReturning = true)
    (e : Entity) : db.Supported via (db.insertRow (.ofAttributes e.model.table e.attributes) e.model.key) := by
  unfold insertRow
  cases hr : db.insertReturning with
  | true =>
    have h : (Statement.insert ((Insert.ofAttributes e.model.table e.attributes).returningColumn e.model.key)).refusal?
        db.dialect = none := by
      rw [Statement.refusal?, hreturning hr, Bool.not_true, Bool.and_false]
      rfl
    refine .compile h fun p hp => (supported_send fun p' i hp' hi => ?_).bind fun response =>
      .lookup (notCompiled_toRows _) fun rows _ => supported_pure _
    cases Option.some.inj hp'
    cases hp.symm.trans hi
    exact .returning e p hr
  | false =>
    refine .compile rfl fun p hp => (supported_send fun p' i hp' hi => ?_).bind fun response => supported_pure _
    cases Option.some.inj hp'
    cases hp.symm.trans hi
    exact .keyed e p hr

/-! ## Transactions -/

theorem supported_transact {body : Action σ α} (hbody : db.Supported via body) :
    db.Supported via (db.transact body) := by
  have hends : ∀ {β : Type} (b : β) (op : Operation) (c : σ), op.prepared? = none →
      db.Accounted via c [.sent op] ((db.exec op c).1.map fun _ => b) := fun b op c hop =>
    .sent (fun p _ hp => by rw [hop] at hp; cases hp) fun _ => eq_error_of_map
  intro w
  have hopened := hends () .begin w.connection rfl
  cases hbegin : (db.exec .begin w.connection).1 with
  | error err =>
    rw [run_transact_of_begin_error hbegin]
    rw [hbegin] at hopened
    exact ⟨[.sent .begin], rfl, hopened.error⟩
  | ok begun =>
    obtain ⟨events, hw, haccounted⟩ := hbody (db.after w [.sent .begin])
    cases hr : (body.run.run (db.after w [.sent .begin])).1 with
    | error err =>
      rw [run_transact_of_error hbegin (Prod.ext hr hw)]
      rw [hr] at haccounted
      exact ⟨_, rfl, hopened.append (haccounted.keep (hends () .rollback _ rfl))⟩
    | ok a =>
      rw [run_transact_of_ok hbegin (Prod.ext hr hw)]
      exact ⟨_, rfl, hopened.append (haccounted.append (hends a .commit _ rfl))⟩

end Db

end SqlMapper
