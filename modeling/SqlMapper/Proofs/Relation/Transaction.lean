import SqlMapper.Proofs.Relation.Sync
import SqlMapper.Proofs.Session.Trace
/-!
# Transaction — what a failure leaves behind

A body that runs inside a transaction sends statements only.  The transaction is ended for every outcome but one: a
failure of the body is rolled back, but the answer to the commit is the last one, and nothing follows its failure.
`RelationQuery.sync_leavesOpen_iff` says this of synchronising, for every assignment of answers to its operations.
-/
namespace SqlMapper

/-- Whether the connection is inside a transaction after an exchange.  A rollback ends it however it is answered. -/
def stepsInside (inside : Bool) : Exchange → Bool
  | (.begin, .ok _) => true
  | (.commit, .ok _) => false
  | (.rollback, _) => false
  | _ => inside

/-- After the exchanges the connection is inside a transaction that they started. -/
def leavesOpen (exchanges : List Exchange) : Bool := exchanges.foldl stepsInside false

/-- The operation runs a statement; it neither starts nor ends a transaction. -/
def Operation.isStatement : Operation → Bool
  | .query _ | .exec _ _ => true
  | .begin | .commit | .rollback => false

theorem stepsInside_of_isStatement {x : Exchange} (h : x.1.isStatement = true) (inside : Bool) :
    stepsInside inside x = inside := by
  obtain ⟨op, answer⟩ := x
  cases op with
  | query p => rfl
  | exec p wantsKey => rfl
  | begin | commit | rollback => cases h

theorem foldl_stepsInside_of_isStatement :
    ∀ {xs : List Exchange}, (∀ x ∈ xs, x.1.isStatement = true) → ∀ inside, xs.foldl stepsInside inside = inside
  | [], _, _ => rfl
  | x :: xs, h, inside => by
    rw [List.forall_mem_cons] at h
    rw [List.foldl_cons, stepsInside_of_isStatement h.1]
    exact foldl_stepsInside_of_isStatement h.2 inside

/-! ## Statements between a start and an end -/

variable {xs : List Exchange} (hxs : ∀ x ∈ xs, x.1.isStatement = true) (begun : Response) (last : Exchange)

include hxs

theorem leavesOpen_enclosed : leavesOpen ((.begin, .ok begun) :: (xs ++ [last])) = stepsInside true last := by
  rw [leavesOpen, List.foldl_cons, List.foldl_append, foldl_stepsInside_of_isStatement hxs]
  rfl

theorem mem_enclosed_iff (e : Error) :
    (Operation.commit, Except.error e) ∈ (Operation.begin, Except.ok begun) :: (xs ++ [last]) ↔
      (Operation.commit, Except.error e) = last := by
  have hnot : (Operation.commit, Except.error e) ∉ xs := fun hm => Bool.false_ne_true (hxs _ hm)
  simp [hnot]

omit hxs

namespace Db

variable {σ α : Type} (db : Db σ)

/-- A transaction around a body; a failure of the body is rolled back. -/
def transact (body : Action σ α) : Action σ α := do
  db.begin
  let a ← tryCatch body fun e => do
    tryCatch db.rollback fun _ => pure ()
    throw e
  db.commit
  pure a

/-- The exchanges of a transaction and its result: it stays open when the commit fails, and then that failure is the
result. -/
structure Transacted (result : Except Error α) (exchanges : List Exchange) : Prop where
  leavesOpen_iff : leavesOpen exchanges = true ↔ ∃ e, (Operation.commit, Except.error e) ∈ exchanges
  result_of_commit : ∀ e, (Operation.commit, Except.error e) ∈ exchanges → result = .error e

theorem transacted_of_no_commit {result : Except Error α} {exchanges : List Exchange}
    (hopen : leavesOpen exchanges = false) (hnone : ∀ e, (Operation.commit, Except.error e) ∉ exchanges) :
    Transacted result exchanges where
  leavesOpen_iff := by simp [hopen, hnone]
  result_of_commit e he := absurd he (hnone e)

theorem transacted_of_silent (result : Except Error α) (w : World σ) :
    ∃ events, w = db.after w events ∧ Transacted result (db.exchanges w.connection events) :=
  ⟨[], (db.after_nil w).symm, transacted_of_no_commit rfl nofun⟩

theorem transacted_of_commit {xs : List Exchange} (hxs : ∀ x ∈ xs, x.1.isStatement = true) (begun : Response)
    (answer : Except Error Response) (a : α) :
    Transacted (answer.map fun _ => a) ((.begin, .ok begun) :: (xs ++ [(.commit, answer)])) := by
  cases answer with
  | ok response =>
    refine transacted_of_no_commit (leavesOpen_enclosed hxs _ _) fun e he => ?_
    cases (mem_enclosed_iff hxs _ _ e).1 he
  | error e =>
    refine ⟨⟨fun _ => ⟨e, (mem_enclosed_iff hxs _ _ e).2 rfl⟩, fun _ => leavesOpen_enclosed hxs _ _⟩, fun e' he => ?_⟩
    cases (mem_enclosed_iff hxs _ _ e').1 he
    rfl

variable {db}

theorem run_rollback (e : Error) (w : World σ) :
    (do tryCatch db.rollback fun _ => pure (); throw e : Action σ α).run.run w =
      (.error e, db.after w [.sent .rollback]) := by
  rw [run_bind, run_tryCatch, show db.rollback.run.run w = _ from run_discard db w]
  cases (db.exec .rollback w.connection).1 <;> rfl

theorem run_commit (a : α) (w : World σ) :
    (do db.commit; pure a : Action σ α).run.run w =
      ((db.exec .commit w.connection).1.map fun _ => a, db.after w [.sent .commit]) := by
  rw [run_bind, show db.commit.run.run w = _ from run_discard db w]
  cases (db.exec .commit w.connection).1 <;> rfl

/-- The exchanges of statements between the start of a transaction and its end. -/
theorem exchanges_enclosed {c : σ} {begun : Response} (hbegin : (db.exec .begin c).1 = .ok begun)
    (ops : List Operation) (last : Operation) :
    db.exchanges c (.sent .begin :: (ops.map .sent ++ [.sent last])) =
      (.begin, .ok begun) :: (db.exchanges (db.exec .begin c).2 (ops.map .sent) ++
        [(last, (db.exec last (db.replay (db.exec .begin c).2 (ops.map .sent))).1)]) := by
  rw [exchanges, hbegin, exchanges_append]
  rfl

/-! The runs of a transaction: its start is refused, or its body ran after the start, and a rollback or a commit
follows. -/

section Run

variable {body : Action σ α} {w : World σ}

theorem run_transact_of_begin_error {e : Error} (hbegin : (db.exec .begin w.connection).1 = .error e) :
    (db.transact body).run.run w = (.error e, db.after w [.sent .begin]) := by
  unfold transact
  rw [run_bind, show db.begin.run.run w = _ from run_discard db w, hbegin]
  rfl

variable {begun : Response} (hbegin : (db.exec .begin w.connection).1 = .ok begun) {events : List Event}

include hbegin

theorem run_transact_of_error {e : Error}
    (hbody : body.run.run (db.after w [.sent .begin]) = (.error e, db.after (db.after w [.sent .begin]) events)) :
    (db.transact body).run.run w = (.error e, db.after w (.sent .begin :: (events ++ [.sent .rollback]))) := by
  unfold transact
  rw [run_bind, show db.begin.run.run w = _ from run_discard db w, hbegin]
  show (tryCatch body _ >>= _).run.run _ = _
  rw [run_bind, run_tryCatch, hbody]
  simp only [run_rollback, after_after]
  rfl

theorem run_transact_of_ok {a : α}
    (hbody : body.run.run (db.after w [.sent .begin]) = (.ok a, db.after (db.after w [.sent .begin]) events)) :
    (db.transact body).run.run w =
      ((db.exec .commit (db.replay (db.exec .begin w.connection).2 events)).1.map fun _ => a,
        db.after w (.sent .begin :: (events ++ [.sent .commit]))) := by
  unfold transact
  rw [run_bind, show db.begin.run.run w = _ from run_discard db w, hbegin]
  show (tryCatch body _ >>= _).run.run _ = _
  rw [run_bind, run_tryCatch, hbody]
  simp only [run_commit, after_after]
  rfl

end Run

/-- A transaction sends what its body sends, and the operations that enclose it. -/
theorem sends_transact {P : Operation → Prop} {body : Action σ α} (hbegin : P .begin) (hcommit : P .commit)
    (hrollback : P .rollback) (hbody : db.Sends P body) : db.Sends P (db.transact body) := by
  have hfailed : ∀ e : Error, db.Sends P (do tryCatch db.rollback fun _ => pure (); throw e : Action σ α) := fun e =>
    (((sends_send hrollback).bind fun _ => sends_pure ()).tryCatch fun _ => sends_pure ()).bind fun _ =>
      sends_lift (.error e)
  unfold transact
  refine ((sends_send hbegin).bind fun _ => sends_pure ()).bind fun _ => ?_
  refine (hbody.tryCatch hfailed).bind fun a => ?_
  exact ((sends_send hcommit).bind fun _ => sends_pure ()).bind fun _ => sends_pure a

/-- **A transaction around statements is left open only by a failing commit**, whose failure is then the result. -/
theorem transact_transacted {body : Action σ α} (hbody : db.Sends (·.isStatement = true) body) (w : World σ) :
    ∃ events, ((db.transact body).run.run w).2 = db.after w events ∧
      Transacted ((db.transact body).run.run w).1 (db.exchanges w.connection events) := by
  cases hbegin : (db.exec .begin w.connection).1 with
  | error e =>
    rw [run_transact_of_begin_error hbegin]
    refine ⟨[.sent .begin], rfl, transacted_of_no_commit ?_ fun e' => ?_⟩
    · simp [exchanges, hbegin, leavesOpen, stepsInside]
    · simp [exchanges, hbegin]
  | ok begun =>
    obtain ⟨ops, hops, hw⟩ := hbody (db.after w [.sent .begin])
    have hxs : ∀ x ∈ db.exchanges (db.exec .begin w.connection).2 (ops.map .sent), x.1.isStatement = true :=
      fun x hx => hops _ (db.mem_exchanges hx)
    cases hr : (body.run.run (db.after w [.sent .begin])).1 with
    | error e =>
      rw [run_transact_of_error hbegin (Prod.ext hr hw)]
      refine ⟨_, rfl, ?_⟩
      rw [exchanges_enclosed hbegin]
      refine transacted_of_no_commit (leavesOpen_enclosed hxs _ _) fun e' he => ?_
      cases (mem_enclosed_iff hxs _ _ e').1 he
    | ok a =>
      rw [run_transact_of_ok hbegin (Prod.ext hr hw)]
      refine ⟨_, rfl, ?_⟩
      rw [exchanges_enclosed hbegin]
      exact transacted_of_commit hxs begun _ a

end Db

/-! ## Synchronising -/

namespace RelationQuery

variable {σ : Type} (rq : RelationQuery) (db : Db σ)

theorem sync_eq_transact (ids : List Value) :
    rq.sync db ids =
      liftM (rq.requireJoin "sync") >>= fun join =>
        liftM (rq.requireParentKey "sync") >>= fun parentKey =>
          db.transact (rq.exchange db join parentKey (Value.distinct ids)) :=
  rfl

variable {db} in
/-- **The body of a synchronisation** selects, deletes rows of present keys and inserts rows of desired ones, and leads
to what these statements lead to. -/
theorem leads_exchange {Q : Db.Consequence σ} (hQ : db.Composes Q) {join : JoinTable} {parentKey : Value}
    {desired : List Value} (hselect : ∀ q, db.Leads Q (db.select q))
    (hdelete : ∀ present, db.Leads Q (db.execute (.delete (rq.rowsOf join present))))
    (hinsert : ∀ missing ⊆ desired, db.Leads Q (db.execute (.insert (joinRows join parentKey missing db.now)))) :
    db.Leads Q (rq.exchange db join parentKey desired) := by
  have hattached : ∀ present : List Value, desired.filter (!present.contains ·) ⊆ desired := fun present =>
    List.filter_subset_self _
  unfold exchange
  refine hQ.bind (hselect _) fun rows => ?_
  dsimp only
  split <;> split
  · exact hQ.bind (hdelete _) fun _ => hQ.bind (hinsert _ (hattached _)) fun _ => hQ.leads_pure _
  · exact hQ.bind (hdelete _) fun _ => hQ.leads_pure _
  · exact hQ.bind (hinsert _ (hattached _)) fun _ => hQ.leads_pure _
  · exact hQ.leads_pure _

variable {db} in
theorem sends_exchange_of {P : Operation → Prop} {join : JoinTable} {parentKey : Value} {desired : List Value}
    (hselect : ∀ q, db.Sends P (db.select q)) (hdelete : ∀ q, db.Sends P (db.execute (.delete q)))
    (hinsert : ∀ missing ⊆ desired, db.Sends P (db.execute (.insert (joinRows join parentKey missing db.now)))) :
    db.Sends P (rq.exchange db join parentKey desired) :=
  Db.sends_iff_leads.2 (rq.leads_exchange Db.composes_sends (fun q => Db.sends_iff_leads.1 (hselect q))
    (fun _ => Db.sends_iff_leads.1 (hdelete _)) fun missing h => Db.sends_iff_leads.1 (hinsert missing h))

theorem sends_exchange (join : JoinTable) (parentKey : Value) (desired : List Value) :
    db.Sends (·.isStatement = true) (rq.exchange db join parentKey desired) :=
  rq.sends_exchange_of (fun _ => Db.sends_select fun _ _ => rfl) (fun _ => Db.sends_execute fun _ _ => rfl)
    fun _ _ => Db.sends_execute fun _ _ => rfl

/-- **Synchronising leaves its transaction open exactly when the commit fails**, and then the failure of the commit is
its result.  For all other answers the transaction that it started was committed or rolled back. -/
theorem sync_leavesOpen_iff (ids : List Value) (w : World σ) :
    ∃ events, ((rq.sync db ids).run.run w).2 = db.after w events ∧
      (leavesOpen (db.exchanges w.connection events) = true ↔
        ∃ e, (Operation.commit, Except.error e) ∈ db.exchanges w.connection events) ∧
      ∀ e, (Operation.commit, Except.error e) ∈ db.exchanges w.connection events →
        ((rq.sync db ids).run.run w).1 = .error e := by
  suffices h : ∃ events, ((rq.sync db ids).run.run w).2 = db.after w events ∧
      Db.Transacted ((rq.sync db ids).run.run w).1 (db.exchanges w.connection events) by
    obtain ⟨events, hw, ht⟩ := h
    exact ⟨events, hw, ht.leavesOpen_iff, ht.result_of_commit⟩
  rw [sync_eq_transact, run_bind, run_lift]
  cases rq.requireJoin "sync" with
  | error e => exact db.transacted_of_silent _ w
  | ok join =>
    simp only [run_bind, run_lift]
    cases rq.requireParentKey "sync" with
    | error e => exact db.transacted_of_silent _ w
    | ok parentKey => exact Db.transact_transacted (rq.sends_exchange db join parentKey _) w

end RelationQuery

namespace Blog

/-- The post has one tag, a second one can be inserted, and the operation after that fails. -/
def failingCommit : World Script where
  connection :=
    { replies := [.answer ⟨.count 0, none⟩, .answer ⟨.rows [.ofList [("tag_id", .int 3)]], none⟩,
        .answer ⟨.count 1, none⟩, .fail "database is locked" []]
      generated := 0 }
  events := []

end Blog

/-- The commit is the last operation that is sent: nothing ends the transaction after its failure. -/
theorem sync_leaves_open_of_failing_commit :
    ∃ events, (((Blog.tags "tag_id").sync (Blog.db Script.exec) [.int 3, .int 4]).run.run Blog.failingCommit).2 =
        (Blog.db Script.exec).after Blog.failingCommit events ∧
      leavesOpen ((Blog.db Script.exec).exchanges Blog.failingCommit.connection events) = true := by
  refine ⟨(((Blog.tags "tag_id").sync (Blog.db Script.exec) [.int 3, .int 4]).run.run Blog.failingCommit).2.events,
    rfl, ?_⟩
  decide +kernel

end SqlMapper
