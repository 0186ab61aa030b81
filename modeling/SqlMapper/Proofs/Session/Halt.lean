import SqlMapper.Proofs.Session.Trace
/-!
# Halt — calls that stop at the first failure

A call halts at a failure if the first answer that is an error ends it: the error is its result, and what is sent after
it is known from the operation that failed.  Most calls send nothing more.  There is one rule for each way to build a
call, so a call of many operations halts because its steps do (`Halts.bind`).
-/
namespace SqlMapper

/-- No exchange failed. -/
def AllAnswered (exchanges : List Exchange) : Prop := ∀ x ∈ exchanges, x.2.isOk = true

/-- The first error among the exchanges is the result, and after it there are only the operations that close the failed
one. -/
def StopsAtError {α : Type} (closing : Operation → List Operation) (result : Except Error α) : List Exchange → Prop
  | [] => True
  | (_, .ok _) :: rest => StopsAtError closing result rest
  | (op, .error e) :: rest => result = .error e ∧ rest.map Prod.fst = closing op

namespace StopsAtError

variable {α β : Type} {closing : Operation → List Operation} {xs ys : List Exchange}

/-- An exchange that succeeded does not matter. -/
theorem cons_ok_iff {result : Except Error α} {op : Operation} {response : Response} :
    StopsAtError closing result ((op, .ok response) :: xs) ↔ StopsAtError closing result xs :=
  Iff.rfl

/-- An operation that failed after none did before. -/
theorem of_split {result : Except Error α} {op : Operation} {e : Error} {rest : List Exchange} :
    ∀ {before : List Exchange}, StopsAtError closing result (before ++ (op, .error e) :: rest) → AllAnswered before →
      result = .error e ∧ rest.map Prod.fst = closing op
  | [], h, _ => h
  | (_, .ok _) :: _, h, ha => of_split (cons_ok_iff.1 h) (List.forall_mem_cons.1 ha).2
  | (_, .error _) :: _, _, ha => absurd (List.forall_mem_cons.1 ha).1 Bool.false_ne_true

theorem of_allAnswered (result : Except Error α) : ∀ {xs : List Exchange}, AllAnswered xs → StopsAtError closing result xs
  | [], _ => trivial
  | (_, .ok _) :: _, h => cons_ok_iff.2 (of_allAnswered result (List.forall_mem_cons.1 h).2)
  | (_, .error _) :: _, h => absurd (List.forall_mem_cons.1 h).1 Bool.false_ne_true

/-- A call that succeeded had no failure. -/
theorem allAnswered {a : α} : ∀ {xs : List Exchange}, StopsAtError closing (.ok a : Except Error α) xs → AllAnswered xs
  | [], _ => List.forall_mem_nil _
  | (_, .ok _) :: _, h => List.forall_mem_cons.2 ⟨rfl, allAnswered h⟩
  | (_, .error _) :: _, h => by cases h.1

theorem append {result : Except Error α} : ∀ {xs : List Exchange}, AllAnswered xs → StopsAtError closing result ys →
    StopsAtError closing result (xs ++ ys)
  | [], _, h => h
  | (_, .ok _) :: _, ha, h => cons_ok_iff.2 (append (List.forall_mem_cons.1 ha).2 h)
  | (_, .error _) :: _, ha, _ => absurd (List.forall_mem_cons.1 ha).1 Bool.false_ne_true

/-- What does not change the error does not change where the call stopped. -/
theorem imp {result : Except Error α} {result' : Except Error β} (h : ∀ e, result = .error e → result' = .error e) :
    ∀ {xs : List Exchange}, StopsAtError closing result xs → StopsAtError closing result' xs
  | [], _ => trivial
  | (_, .ok _) :: _, hs => cons_ok_iff.2 (imp h (cons_ok_iff.1 hs))
  | (_, .error _) :: _, hs => ⟨h _ hs.1, hs.2⟩

/-- An operation that closes nothing was sent after successes only. -/
theorem allAnswered_before {result : Except Error α} {op : Operation} {answer : Except Error Response}
    {rest : List Exchange} (hop : ∀ failed, op ∉ closing failed) :
    ∀ {before : List Exchange}, StopsAtError closing result (before ++ (op, answer) :: rest) → AllAnswered before
  | [], _ => List.forall_mem_nil _
  | (_, .ok _) :: _, h => List.forall_mem_cons.2 ⟨rfl, allAnswered_before hop (cons_ok_iff.1 h)⟩
  | (failed, .error _) :: before, h => by
    have hmem : op ∈ (before ++ (op, answer) :: rest).map Prod.fst :=
      List.mem_map.2 ⟨(op, answer), List.mem_append_right _ List.mem_cons_self, rfl⟩
    exact absurd (h.2 ▸ hmem) (hop failed)

theorem singleton (result : Except Error α) {op : Operation} {answer : Except Error Response} (hc : closing op = [])
    (h : ∀ e, answer = .error e → result = .error e) : StopsAtError closing result [(op, answer)] := by
  cases answer with
  | ok response => trivial
  | error e => exact ⟨h e rfl, hc.symm⟩

end StopsAtError

/-- Nothing closes a failed operation. -/
def noClosing : Operation → List Operation := fun _ => []

namespace Db

variable {σ α β : Type} (db : Db σ)

/-- From every state the call stops at the first operation that fails, and sends nothing more. -/
def Halts (x : Action σ α) : Prop :=
  ∀ w, ∃ events, (x.run.run w).2 = db.after w events ∧
    StopsAtError noClosing (x.run.run w).1 (db.exchanges w.connection events)

/-- The same of a call that leaves an entity behind. -/
def AttemptHalts (x : Session σ Attempt) : Prop :=
  ∀ w, ∃ events, (x.run w).2 = db.after w events ∧
    StopsAtError noClosing (x.run w).1.1 (db.exchanges w.connection events)

variable {db}

theorem halts_of_silent {x : Action σ α} (h : ∀ w, (x.run.run w).2 = w) : db.Halts x := fun w =>
  ⟨[], (h w).trans (db.after_nil w).symm, trivial⟩

theorem halts_pure (a : α) : db.Halts (pure a : Action σ α) := halts_of_silent fun _ => rfl

theorem halts_throw (e : Error) : db.Halts (throw e : Action σ α) := halts_of_silent fun _ => rfl

theorem halts_lift (r : Except Error α) : db.Halts (liftM r : Action σ α) := halts_of_silent fun _ => by
  rw [run_lift]

theorem halts_send (op : Operation) : db.Halts (db.send op) := fun w =>
  ⟨[.sent op], by rw [run_send], StopsAtError.singleton _ rfl fun _ he => by rw [run_send, he]⟩

theorem composes_halts :
    db.Composes fun _ c events result => StopsAtError noClosing result (db.exchanges c events) where
  silent _ := trivial
  failure h := h.imp fun _ he => by cases he; rfl
  append h hmore := by
    rw [exchanges_append]
    exact StopsAtError.append h.allAnswered hmore

/-- **Steps that halt make a call that halts.** -/
theorem Halts.bind {x : Action σ α} {f : α → Action σ β} (hx : db.Halts x) (hf : ∀ a, db.Halts (f a)) :
    db.Halts (x >>= f) :=
  composes_halts.bind hx hf

theorem Halts.ite {p : Prop} [Decidable p] {x y : Action σ α} (hx : db.Halts x) (hy : db.Halts y) :
    db.Halts (if p then x else y) := by
  split
  · exact hx
  · exact hy

theorem halts_select (q : Query) : db.Halts (db.select q) :=
  (halts_lift _).bind fun _ => (halts_send _).bind fun _ => halts_lift _

theorem halts_execute (s : Statement) : db.Halts (db.execute s) :=
  (halts_lift _).bind fun _ => (halts_send _).bind fun _ => halts_pure _

theorem halts_insertRow (i : Insert) (key : String) : db.Halts (db.insertRow i key) := by
  unfold insertRow
  split
  · exact (halts_lift _).bind fun _ => (halts_send _).bind fun _ => (halts_lift _).bind fun _ => halts_pure _
  · exact (halts_lift _).bind fun _ => (halts_send _).bind fun _ => halts_pure _

/-- What follows an attempt that succeeded. -/
theorem run_attempt (x : Session σ Attempt) (f : Entity → Action σ α) (w : World σ) :
    (do
      let (saved, e) ← x
      saved
      f e : Action σ α).run.run w =
      match (x.run w).1.1 with
      | .error err => (.error err, (x.run w).2)
      | .ok () => (f (x.run w).1.2).run.run (x.run w).2 := by
  show ((liftM x : Action σ Attempt) >>= fun attempt => liftM attempt.1 >>= fun _ => f attempt.2).run.run w = _
  rw [run_bind, show (liftM x : Action σ Attempt).run.run w = (.ok (x.run w).1, (x.run w).2) from rfl]
  simp only [run_bind, run_lift]
  cases (x.run w).1.1 <;> rfl

/-! Attempts lead to their events and their result, like calls. -/

/-- The same as for a call, of an attempt and its result. -/
def AttemptLeads (db : Db σ) (Q : Consequence σ) (x : Session σ Attempt) : Prop :=
  ∀ w, ∃ events, (x.run w).2 = db.after w events ∧ Q Unit w.connection events (x.run w).1.1

namespace Composes

variable {Q : Consequence σ} (hQ : db.Composes Q)

include hQ

/-- What follows an attempt comes after its events. -/
theorem bindAttempt {x : Session σ Attempt} {f : Entity → Action σ α} (hx : db.AttemptLeads Q x)
    (hf : ∀ e, db.Leads Q (f e)) :
    db.Leads Q (do
      let (saved, e) ← x
      saved
      f e) := by
  intro w
  obtain ⟨events, hw, hevents⟩ := hx w
  rw [run_attempt, hw]
  cases hr : (x.run w).1.1 with
  | error err =>
    rw [hr] at hevents
    exact ⟨events, rfl, hQ.failure hevents⟩
  | ok =>
    rw [hr] at hevents
    obtain ⟨more, hmore, hresult⟩ := hf (x.run w).1.2 (db.after w events)
    exact ⟨events ++ more, hmore.trans (db.after_after w events more), hQ.append hevents hresult⟩

/-- The attributes of a saved entity are kept, whether or not it can be linked. -/
theorem link {x : Session σ Attempt} {f : Entity → Action σ Unit} (hx : db.AttemptLeads Q x)
    (hf : ∀ e, db.Leads Q (f e)) :
    db.AttemptLeads Q (do
      let (saved, e) ← x
      match saved with
      | .error err => pure (.error err, e)
      | .ok () => pure (← (f e).run, e)) := by
  intro w
  have h := hQ.bindAttempt hx hf w
  rw [run_attempt] at h
  show ∃ events, _ ∧ Q Unit w.connection events _
  rw [run_session_bind]
  cases hr : x.run w with
  | mk attempt w' =>
    obtain ⟨saved, e⟩ := attempt
    rw [hr] at h
    cases saved <;> exact h

end Composes

theorem AttemptHalts.bind {x : Session σ Attempt} {f : Entity → Action σ α} (hx : db.AttemptHalts x)
    (hf : ∀ e, db.Halts (f e)) :
    db.Halts (do
      let (saved, e) ← x
      saved
      f e) :=
  composes_halts.bindAttempt hx hf

end Db

end SqlMapper
