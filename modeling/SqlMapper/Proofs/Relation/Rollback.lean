import SqlMapper.Proofs.Relation.Transaction
import SqlMapper.Proofs.Session.Halt
/-!
# Rollback — a statement that fails inside a transaction

A transaction whose body stops at its first failure sends one more operation after it, the rollback, and only if the
failed operation was a statement of the body.  The body must not fail otherwise, or the rollback could be the first
operation to fail.  Synchronising is such a body on a connection that answers in kind (`RelationQuery.sync_stops`).
-/
namespace SqlMapper

/-- A query is answered with rows and a write with a count, unless they fail. -/
def Exchange.inKind : Exchange → Bool
  | (.query _, .ok ⟨.count _, _⟩) | (.exec _ _, .ok ⟨.rows _, _⟩) => false
  | _ => true

/-- What is sent after an operation of a transaction that failed. -/
def rollbackAfter (op : Operation) : List Operation := if op.isStatement then [.rollback] else []

/-! ## Calls that fail by an answer only -/

namespace Db

variable {σ α : Type} (db : Db σ)

/-- From every state the call succeeds, if its operations are answered in kind and none fails. -/
def Completes (x : Action σ α) : Prop :=
  ∀ w, ∃ events, (x.run.run w).2 = db.after w events ∧
    ((∀ exchange ∈ db.exchanges w.connection events, exchange.inKind = true) →
      AllAnswered (db.exchanges w.connection events) → ∃ a, (x.run.run w).1 = .ok a)

variable {db}

theorem composes_completes :
    db.Composes fun _ c events result =>
      (∀ exchange ∈ db.exchanges c events, exchange.inKind = true) → AllAnswered (db.exchanges c events) →
        ∃ a, result = .ok a where
  silent a _ _ := ⟨a, rfl⟩
  failure h hk ha := by
    obtain ⟨a, he⟩ := h hk ha
    cases he
  append _ hmore hk ha := by
    rw [exchanges_append] at hk ha
    exact hmore (fun y hy => hk y (List.mem_append_right _ hy)) fun y hy => ha y (List.mem_append_right _ hy)

theorem completes_select (q : Query) : db.Completes (db.select q) := by
  intro w
  obtain ⟨sql, bindings, hp⟩ := Statement.prepare_eq_ok (d := db.dialect) (s := .query q) rfl
  rw [run_select, hp]
  refine ⟨_, rfl, fun hk ha => ?_⟩
  rw [exchanges_sent] at hk ha
  have hkind := hk _ List.mem_cons_self
  have hok := ha _ List.mem_cons_self
  cases hr : (db.exec (.query ⟨.query q, sql, bindings⟩) w.connection).1 with
  | error e =>
    rw [hr] at hok
    cases hok
  | ok response =>
    rw [hr] at hkind
    obtain ⟨outcome, key⟩ := response
    cases outcome with
    | count n => cases hkind
    | rows rows => exact ⟨rows, by simp only [hr]; rfl⟩

theorem completes_execute {s : Statement} (h : s.refusal? db.dialect = none) : db.Completes (db.execute s) := by
  intro w
  obtain ⟨sql, bindings, hp⟩ := Statement.prepare_eq_ok h
  rw [run_execute, hp]
  refine ⟨_, rfl, fun _ ha => ?_⟩
  have hok := ha _ List.mem_cons_self
  cases hr : (db.exec (.exec ⟨s, sql, bindings⟩ false) w.connection).1 with
  | error e =>
    rw [hr] at hok
    cases hok
  | ok response => exact ⟨response.outcome.affected, by simp only [hr]; rfl⟩

end Db

/-! ## Transactions -/

/-- The rollback follows the statement that failed. -/
theorem StopsAtError.append_rollback {α β : Type} {e : Error} {answer : Except Error Response} :
    ∀ {xs : List Exchange}, (∀ x ∈ xs, x.1.isStatement = true) →
      StopsAtError noClosing (.error e : Except Error α) xs → ¬ AllAnswered xs →
        StopsAtError rollbackAfter (.error e : Except Error β) (xs ++ [(.rollback, answer)])
  | [], _, _, hn => absurd (List.forall_mem_nil _) hn
  | (_, .ok _) :: _, hst, hs, hn =>
    cons_ok_iff.2 (append_rollback (List.forall_mem_cons.1 hst).2 (cons_ok_iff.1 hs) fun ha =>
      hn (List.forall_mem_cons.2 ⟨rfl, ha⟩))
  | (op, .error e') :: xs, hst, hs, _ => by
    obtain rfl : e = e' := Except.error.inj hs.1
    obtain rfl : xs = [] := List.map_eq_nil_iff.1 hs.2
    refine ⟨rfl, ?_⟩
    rw [rollbackAfter, if_pos (List.forall_mem_cons.1 hst).1]
    rfl

namespace Db

variable {σ α : Type} {db : Db σ}

/-- **A transaction stops at its first failure**, and sends a rollback after a statement of its body and nothing after
its start or its end. -/
theorem transact_stops {body : Action σ α} (hsends : db.Sends (·.isStatement = true) body) (hhalts : db.Halts body)
    (hcompletes : db.Completes body) (w : World σ) :
    ∃ events, ((db.transact body).run.run w).2 = db.after w events ∧
      ((∀ x ∈ db.exchanges w.connection events, x.inKind = true) →
        StopsAtError rollbackAfter ((db.transact body).run.run w).1 (db.exchanges w.connection events)) := by
  cases hbegin : (db.exec .begin w.connection).1 with
  | error e =>
    rw [run_transact_of_begin_error hbegin]
    refine ⟨[.sent .begin], rfl, fun _ => ?_⟩
    rw [exchanges_sent, hbegin]
    exact ⟨rfl, rfl⟩
  | ok begun =>
    -- the three facts about the body speak of the same operations
    obtain ⟨ops, hops, hw⟩ := hsends (db.after w [.sent .begin])
    obtain ⟨events, hw₁, hstops⟩ := hhalts (db.after w [.sent .begin])
    obtain rfl := db.after_injective _ (hw₁.symm.trans hw)
    obtain ⟨events₂, hw₂, hcompletes⟩ := hcompletes (db.after w [.sent .begin])
    obtain rfl := db.after_injective _ (hw₂.symm.trans hw)
    have hxs : ∀ x ∈ db.exchanges (db.exec .begin w.connection).2 (ops.map .sent), x.1.isStatement = true :=
      fun x hx => hops _ (db.mem_exchanges hx)
    cases hr : (body.run.run (db.after w [.sent .begin])).1 with
    | error e =>
      rw [run_transact_of_error hbegin (Prod.ext hr hw)]
      rw [hr] at hstops hcompletes
      refine ⟨_, rfl, fun hk => ?_⟩
      rw [exchanges_enclosed hbegin] at hk ⊢
      refine StopsAtError.append_rollback hxs hstops fun ha => ?_
      have hkind := fun x hx => hk x (List.mem_cons_of_mem _ (List.mem_append_left _ hx))
      obtain ⟨a, he⟩ := hcompletes hkind ha
      cases he
    | ok a =>
      rw [run_transact_of_ok hbegin (Prod.ext hr hw)]
      rw [hr] at hstops
      refine ⟨_, rfl, fun _ => ?_⟩
      rw [exchanges_enclosed hbegin]
      refine StopsAtError.cons_ok_iff.2 (StopsAtError.append hstops.allAnswered ?_)
      exact StopsAtError.singleton _ rfl fun e he => congrArg (Except.map fun _ => a) he

end Db

/-! ## Synchronising -/

namespace RelationQuery

variable {σ : Type} (rq : RelationQuery) (db : Db σ)

theorem halts_exchange (join : JoinTable) (parentKey : Value) (desired : List Value) :
    db.Halts (rq.exchange db join parentKey desired) :=
  rq.leads_exchange Db.composes_halts Db.halts_select (fun _ => Db.halts_execute _) fun _ _ => Db.halts_execute _

theorem completes_exchange (join : JoinTable) (parentKey : Value) (desired : List Value) :
    db.Completes (rq.exchange db join parentKey desired) := by
  have hdelete : ∀ ids, (Statement.delete (rq.rowsOf join ids)).refusal? db.dialect = none := fun ids => by
    rw [Statement.refusal?, rq.readsOnly_rowsOf ids]
    rfl
  exact rq.leads_exchange Db.composes_completes Db.completes_select (fun ids => Db.completes_execute (hdelete ids))
    fun _ _ => Db.completes_execute rfl

/-- Synchronising stops at its first failure, and rolls back after a statement. -/
theorem sync_stops (ids : List Value) (w : World σ) :
    ∃ events, ((rq.sync db ids).run.run w).2 = db.after w events ∧
      ((∀ x ∈ db.exchanges w.connection events, x.inKind = true) →
        StopsAtError rollbackAfter ((rq.sync db ids).run.run w).1 (db.exchanges w.connection events)) := by
  rw [sync_eq_transact, run_bind, run_lift]
  cases rq.requireJoin "sync" with
  | error e => exact ⟨[], (db.after_nil w).symm, fun _ => trivial⟩
  | ok join =>
    simp only [run_bind, run_lift]
    cases rq.requireParentKey "sync" with
    | error e => exact ⟨[], (db.after_nil w).symm, fun _ => trivial⟩
    | ok parentKey =>
      exact Db.transact_stops (rq.sends_exchange db join parentKey _) (rq.halts_exchange db join parentKey _)
        (rq.completes_exchange db join parentKey _) w

end RelationQuery

end SqlMapper
