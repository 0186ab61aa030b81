import SqlMapper.Eager.Load
import SqlMapper.Proofs.Session.Run
/-!
# Trace — what is sent during a call, and how it is answered

A call leaves the state that its events lead to: the connection has gone through the operations among them, one after
the other.  The exchanges of a call, each an operation with the answer that it got, are therefore known from its events
and the state before it.  What is said of calls is mostly a predicate of these: if it holds of a call of two steps where
it holds of the steps (`Db.Composes`), then it holds of every call that is put together from such steps.  `Sends` bounds
the operations of a call.
-/
namespace SqlMapper

/-- An operation and how it was answered. -/
abbrev Exchange := Operation × Except Error Response

namespace Db

variable {σ α β : Type} (db : Db σ)

/-- The connection after the operations among the events. -/
def replay (c : σ) : List Event → σ
  | [] => c
  | .sent op :: rest => replay (db.exec op c).2 rest
  | .hook _ _ :: rest => replay c rest

/-- The exchanges of a call with the given events, on a connection in the given state. -/
def exchanges (c : σ) : List Event → List Exchange
  | [] => []
  | .sent op :: rest => (op, (db.exec op c).1) :: exchanges (db.exec op c).2 rest
  | .hook _ _ :: rest => exchanges c rest

/-- The state that the events lead to. -/
def after (w : World σ) (events : List Event) : World σ := ⟨db.replay w.connection events, w.events ++ events⟩

theorem replay_append :
    ∀ (events more : List Event) (c : σ), db.replay c (events ++ more) = db.replay (db.replay c events) more
  | [], _, _ => rfl
  | .sent op :: rest, more, c => replay_append rest more (db.exec op c).2
  | .hook _ _ :: rest, more, c => replay_append rest more c

theorem exchanges_append :
    ∀ (events more : List Event) (c : σ),
      db.exchanges c (events ++ more) = db.exchanges c events ++ db.exchanges (db.replay c events) more
  | [], _, _ => rfl
  | .sent op :: rest, more, c => congrArg (_ :: ·) (exchanges_append rest more (db.exec op c).2)
  | .hook _ _ :: rest, more, c => exchanges_append rest more c

theorem after_nil (w : World σ) : db.after w [] = w := by
  rw [after, List.append_nil]
  rfl

theorem after_after (w : World σ) (events more : List Event) :
    db.after (db.after w events) more = db.after w (events ++ more) := by
  simp only [after, replay_append, List.append_assoc]

theorem after_injective (w : World σ) : Function.Injective (db.after w) := fun _ _ h =>
  List.append_cancel_left (congrArg World.events h)

/-- The one exchange of a call that sends one operation. -/
theorem exchanges_sent (c : σ) (op : Operation) : db.exchanges c [.sent op] = [(op, (db.exec op c).1)] := rfl

theorem mem_exchanges {x : Exchange} :
    ∀ {ops : List Operation} {c : σ}, x ∈ db.exchanges c (ops.map .sent) → x.1 ∈ ops
  | [], _, h => by cases h
  | op :: ops, c, h => by
    rcases List.mem_cons.1 h with rfl | h
    · exact List.mem_cons_self
    · exact List.mem_cons_of_mem _ (mem_exchanges h)

/-! ## One step -/

theorem run_send (op : Operation) (w : World σ) :
    (db.send op).run.run w = ((db.exec op w.connection).1, db.after w [.sent op]) :=
  rfl

theorem run_discard {op : Operation} (w : World σ) :
    (do let _ ← db.send op : Action σ Unit).run.run w =
      ((db.exec op w.connection).1.map fun _ => (), db.after w [.sent op]) := by
  rw [run_bind, run_send]
  cases (db.exec op w.connection).1 <;> rfl

end Db

theorem run_session_bind {σ α β : Type} (x : Session σ α) (f : α → Session σ β) (w : World σ) :
    (x >>= f).run w = (f (x.run w).1).run (x.run w).2 :=
  rfl

theorem run_lift {σ α : Type} (r : Except Error α) (w : World σ) : (liftM r : Action σ α).run.run w = (r, w) := by
  cases r <;> rfl

theorem run_tryCatch {σ α : Type} (x : Action σ α) (handler : Error → Action σ α) (w : World σ) :
    (tryCatch x handler).run.run w =
      match x.run.run w with
      | (.ok a, w') => (.ok a, w')
      | (.error e, w') => (handler e).run.run w' := by
  show (ExceptT.tryCatch x handler).run.run w = _
  simp only [ExceptT.tryCatch, ExceptT.run, ExceptT.mk, StateT.run_bind]
  cases hx : (StateT.run x w) with
  | mk r w' => cases r <;> rfl

/-- A statement is sent if it compiles, and its answer is what it returns. -/
theorem Db.run_execute {σ : Type} (db : Db σ) (s : Statement) (w : World σ) :
    (db.execute s).run.run w =
      match s.prepare db.dialect with
      | .error err => (.error err, w)
      | .ok p =>
        ((db.exec (.exec p false) w.connection).1.map (·.outcome.affected), db.after w [.sent (.exec p false)]) := by
  unfold Db.execute
  rw [run_bind, run_lift]
  cases s.prepare db.dialect with
  | error err => rfl
  | ok p =>
    simp only [run_bind, Db.run_send]
    cases (db.exec (.exec p false) w.connection).1 <;> rfl

/-- A query is sent if it compiles, and the rows of its answer are what it returns. -/
theorem Db.run_select {σ : Type} (db : Db σ) (q : Query) (w : World σ) :
    (db.select q).run.run w =
      match (Statement.query q).prepare db.dialect with
      | .error err => (.error err, w)
      | .ok p =>
        ((db.exec (.query p) w.connection).1.bind (·.outcome.toRows), db.after w [.sent (.query p)]) := by
  unfold Db.select
  rw [run_bind, run_lift]
  cases (Statement.query q).prepare db.dialect with
  | error err => rfl
  | ok p =>
    simp only [run_bind, Db.run_send]
    cases (db.exec (.query p) w.connection).1 with
    | error err => rfl
    | ok response =>
      simp only [run_lift]
      rfl

/-! ## What a call leads to -/

namespace Db

variable {σ α β : Type}

/-- A predicate of the state before a call, of its events and of its result. -/
abbrev Consequence (σ : Type) := ∀ α : Type, σ → List Event → Except Error α → Prop

/-- The predicate holds of a step that does nothing, and of a call whose steps it holds of: a failure ends the call, and
the next step follows a success. -/
structure Composes (db : Db σ) (Q : Consequence σ) : Prop where
  silent : ∀ {α : Type} {c : σ} (a : α), Q α c [] (.ok a)
  failure : ∀ {α β : Type} {c : σ} {events : List Event} {e : Error}, Q α c events (.error e) → Q β c events (.error e)
  append : ∀ {α β : Type} {c : σ} {events more : List Event} {a : α} {result : Except Error β},
    Q α c events (.ok a) → Q β (db.replay c events) more result → Q β c (events ++ more) result

/-- From every state the call leads to events that, with its result, satisfy the predicate. -/
def Leads (db : Db σ) (Q : Consequence σ) (x : Action σ α) : Prop :=
  ∀ w, ∃ events, (x.run.run w).2 = db.after w events ∧ Q α w.connection events (x.run.run w).1

namespace Composes

variable {db : Db σ} {Q : Consequence σ} (hQ : db.Composes Q)

include hQ

theorem leads_pure (a : α) : db.Leads Q (pure a : Action σ α) := fun w =>
  ⟨[], (db.after_nil w).symm, hQ.silent a⟩

/-- **A call leads to what its steps lead to**, one after the other. -/
theorem bind {x : Action σ α} {f : α → Action σ β} (hx : db.Leads Q x) (hf : ∀ a, db.Leads Q (f a)) :
    db.Leads Q (x >>= f) := by
  intro w
  obtain ⟨events, hw, hevents⟩ := hx w
  rw [run_bind]
  cases hr : x.run.run w with
  | mk r w' =>
    rw [hr] at hw hevents
    obtain rfl : w' = db.after w events := hw
    cases r with
    | error e => exact ⟨events, rfl, hQ.failure hevents⟩
    | ok a =>
      obtain ⟨more, hmore, hresult⟩ := hf a (db.after w events)
      exact ⟨events ++ more, by rw [hmore, after_after], hQ.append hevents hresult⟩

end Composes

end Db

/-! ## What a call sends -/

namespace Db

variable {σ α β : Type}

/-- From every state the call sends operations that satisfy the predicate, and runs no hooks. -/
def Sends (db : Db σ) (P : Operation → Prop) (x : Action σ α) : Prop :=
  ∀ w, ∃ ops : List Operation, (∀ op ∈ ops, P op) ∧ (x.run.run w).2 = db.after w (ops.map .sent)

variable {db : Db σ} {P : Operation → Prop}

theorem sends_of_silent {x : Action σ α} (h : ∀ w, (x.run.run w).2 = w) : db.Sends P x := fun w =>
  ⟨[], fun _ hop => absurd hop List.not_mem_nil, (h w).trans (db.after_nil w).symm⟩

theorem sends_pure (a : α) : db.Sends P (pure a : Action σ α) := sends_of_silent fun _ => rfl

theorem sends_lift (r : Except Error α) : db.Sends P (liftM r : Action σ α) := sends_of_silent fun _ => by
  rw [run_lift]

theorem sends_send {op : Operation} (h : P op) : db.Sends P (db.send op) := fun _ =>
  ⟨[op], List.forall_mem_singleton.2 h, rfl⟩

/-- What is sent is a predicate of the events alone. -/
theorem sends_iff_leads {x : Action σ α} :
    db.Sends P x ↔
      db.Leads (fun _ _ events _ => ∃ ops : List Operation, events = ops.map .sent ∧ ∀ op ∈ ops, P op) x := by
  refine forall_congr' fun w => ⟨?_, ?_⟩
  · rintro ⟨ops, hops, hw⟩
    exact ⟨_, hw, ops, rfl, hops⟩
  · rintro ⟨_, hw, ops, rfl, hops⟩
    exact ⟨ops, hops, hw⟩

theorem composes_sends :
    db.Composes fun _ _ events _ => ∃ ops : List Operation, events = ops.map .sent ∧ ∀ op ∈ ops, P op where
  silent _ := ⟨[], rfl, nofun⟩
  failure h := h
  append := by
    rintro _ _ _ _ _ _ _ ⟨ops, rfl, hops⟩ ⟨more, rfl, hmore⟩
    exact ⟨ops ++ more, List.map_append.symm, List.forall_mem_append.2 ⟨hops, hmore⟩⟩

theorem Sends.bind {x : Action σ α} {f : α → Action σ β} (hx : db.Sends P x) (hf : ∀ a, db.Sends P (f a)) :
    db.Sends P (x >>= f) :=
  sends_iff_leads.2 (composes_sends.bind (sends_iff_leads.1 hx) fun a => sends_iff_leads.1 (hf a))

theorem Sends.mono {P' : Operation → Prop} {x : Action σ α} (hx : db.Sends P x) (h : ∀ op, P op → P' op) :
    db.Sends P' x := by
  intro w
  obtain ⟨ops, hops, hw⟩ := hx w
  exact ⟨ops, fun op hop => h op (hops op hop), hw⟩

/-- A query is sent as it compiles, or it does not compile and nothing is sent. -/
theorem sends_select {q : Query} (h : ∀ p, (Statement.query q).prepare db.dialect = .ok p → P (.query p)) :
    db.Sends P (db.select q) := by
  intro w
  unfold select
  rw [run_bind, run_lift]
  cases hp : (Statement.query q).prepare db.dialect with
  | error e => exact sends_of_silent (x := throw e) (fun _ => rfl) w
  | ok p => exact (sends_send (h p hp)).bind (fun _ => sends_lift _) w

/-- A statement is sent as it compiles, or it does not compile and nothing is sent. -/
theorem sends_execute {s : Statement} (h : ∀ p, s.prepare db.dialect = .ok p → P (.exec p false)) :
    db.Sends P (db.execute s) := by
  intro w
  rw [run_execute]
  cases hp : s.prepare db.dialect with
  | error e => exact ⟨[], fun _ hop => absurd hop List.not_mem_nil, (db.after_nil w).symm⟩
  | ok p => exact ⟨[.exec p false], List.forall_mem_singleton.2 (h p hp), rfl⟩

theorem Sends.tryCatch {x : Action σ α} {handler : Error → Action σ α} (hx : db.Sends P x)
    (hh : ∀ e, db.Sends P (handler e)) : db.Sends P (tryCatch x handler) := by
  intro w
  obtain ⟨ops, hops, hw⟩ := hx w
  rw [run_tryCatch]
  cases hr : x.run.run w with
  | mk r w' =>
    rw [hr] at hw
    cases r with
    | ok a => exact ⟨ops, hops, hw⟩
    | error e =>
      obtain ⟨more, hmore, hw'⟩ := hh e w'
      refine ⟨ops ++ more, List.forall_mem_append.2 ⟨hops, hmore⟩, hw'.trans ?_⟩
      rw [show w' = _ from hw, after_after, List.map_append]

end Db

/-! ## Loading -/

namespace LoadStep

variable {σ : Type} {db : Db σ} {Q : Db.Consequence σ}

theorem leads_fetch (hQ : db.Composes Q) (hselect : ∀ q, db.Leads Q (db.select q)) (constraints : Constraints)
    (r : Relation) (related : Model) (path : String) (values : List Value) :
    db.Leads Q (fetch db constraints r related path values) := by
  unfold fetch
  split
  · exact hQ.leads_pure _
  · exact hQ.bind (hselect _) fun _ => hQ.leads_pure _

mutual

theorem leads_run (hQ : db.Composes Q) (hselect : ∀ q, db.Leads Q (db.select q)) (constraints : Constraints)
    (owner : Model) (parents : List Entity) : ∀ step : LoadStep, db.Leads Q (run db constraints owner parents step)
  | ⟨r, related, path, nested⟩ => by
    rw [run]
    refine hQ.bind (leads_fetch hQ hselect constraints r related path _) fun children => ?_
    exact hQ.bind (leads_runAll hQ hselect constraints related children nested) fun _ => hQ.leads_pure _

/-- **Loading leads to what its queries lead to.** -/
theorem leads_runAll (hQ : db.Composes Q) (hselect : ∀ q, db.Leads Q (db.select q)) (constraints : Constraints)
    (owner : Model) (parents : List Entity) :
    ∀ steps : List LoadStep, db.Leads Q (runAll db constraints owner parents steps)
  | [] => hQ.leads_pure parents
  | step :: rest => by
    rw [runAll]
    exact hQ.bind (leads_run hQ hselect constraints owner parents step) fun loaded =>
      leads_runAll hQ hselect constraints owner loaded rest

end

end LoadStep

end SqlMapper
