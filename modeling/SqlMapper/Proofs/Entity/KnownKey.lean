import SqlMapper.Proofs.Entity.Write
import SqlMapper.Proofs.Session.Table
/-!
# KnownKey — the key that is known of a row

What is known of the key of a row follows from what was read and from the exchanges alone: an update may assign it, and an
insert gives it or is told it by the answer (`lastKey`).  A save that is accepted moves the key to the one that the
entity is then stored with (`Entity.lastKey_of_written`), whatever the connection is.
-/
namespace SqlMapper

/-! ## The key that is known of a row -/

/-- The value that a write gives a column. -/
def Statement.given? (name : String) : Statement → Option Value
  | update u => (Assoc.get? u.assignments name).bind Expr.value?
  | insert i => (Assoc.get? (i.columns.zip (i.rows.headD [])) name).bind Expr.value?
  | _ => none

/-- The value, unless it is null. -/
def Value.present? (v : Option Value) : Option Value := v.filter fun v => !v.isNull

/-- The key that the answer to an insert tells. -/
def Operation.toldKey? (key : String) (response : Response) : Operation → Option Value
  | query _ => response.outcome.toRows.toOption.bind fun rows => rows.head?.bind (·.get? key)
  | exec _ _ => response.generatedKey
  | _ => none

/-- The key of the row after a statement that succeeded.  An insert without a key gets the one that the answer tells. -/
def Statement.keyAfter (key : String) (known told : Option Value) (s : Statement) : Option Value :=
  match s with
  | update _ => if (s.given? key).isSome then Value.present? (s.given? key) else known
  | insert _ => (Value.present? (s.given? key)).or (Value.present? told)
  | delete _ => none
  | _ => known

/-- The key of the row after an exchange; one that failed changed nothing. -/
def keyAfter (key : String) (known : Option Value) (x : Exchange) : Option Value :=
  match x.1, x.2 with
  | .query p, .ok response | .exec p _, .ok response => p.statement.keyAfter key known (x.1.toldKey? key response)
  | _, _ => known

/-- The key that the row was last read or written with. -/
def lastKey (key : String) (known : Option Value) (exchanges : List Exchange) : Option Value :=
  exchanges.foldl (keyAfter key) known

namespace Db

variable {σ : Type} (db : Db σ)

/-- What was exchanged from the one state to the other. -/
def exchanged (w w' : World σ) : List Exchange := db.exchanges w.connection (w'.events.drop w.events.length)

theorem exchanged_after (w : World σ) (events : List Event) :
    db.exchanged w (db.after w events) = db.exchanges w.connection events := by
  rw [exchanged, after, List.drop_left]

theorem exchanged_self (w : World σ) : db.exchanged w w = [] := by
  rw [exchanged, List.drop_length]
  rfl

end Db

/-! ## What a write gives the key -/

theorem Assoc.get?_map_value (name : String) :
    ∀ entries : List (String × Value),
      (Assoc.get? (entries.map fun p => (p.1, Expr.value p.2)) name).bind Expr.value? = Assoc.get? entries name
  | [] => rfl
  | (n, v) :: rest => by
    have ih := get?_map_value name rest
    rw [List.map_cons, get?_cons, get?_cons]
    split
    · rfl
    · exact ih

namespace Entity

variable {σ : Type} {db : Db σ} {e : Entity} {m : Model} {known : Option Value} {c : σ}

theorem given?_changes (e : Entity) (target : Query) (name : String) :
    (Statement.update (e.changes target)).given? name = e.dirty.get? name :=
  Assoc.get?_map_value name e.dirty.entries

theorem given?_insert (db : Db σ) (table : String) (a : Attributes) (key name : String) :
    (Statement.insert (db.asking (.ofAttributes table a) key)).given? name = a.get? name := by
  have hgiven : (Statement.insert (.ofAttributes table a)).given? name = a.get? name := by
    rw [Statement.given?, Insert.zip_headD_ofAttributes]
    exact Assoc.get?_map_value name a.entries
  unfold Db.asking
  split <;> exact hgiven

/-- The key of a new entity after its insert is the one that was given or, without one, the one that is told. -/
theorem present?_withGenerated (key : Option Value) :
    Value.present? ((e.withGenerated key).get? e.model.key) =
      (Value.present? (e.get? e.model.key)).or (Value.present? key) := by
  unfold withGenerated
  cases hk : e.key? with
  | some k =>
    have hpresent : Value.present? (e.get? e.model.key) = some k := hk
    cases key <;> simp [hpresent] <;> exact hpresent
  | none =>
    have hnone : Value.present? (e.get? e.model.key) = none := hk
    cases key with
    | none => exact hnone.trans (by rw [hnone]; rfl)
    | some k =>
      rw [hnone, Option.none_or, Attributes.get?_insert, if_pos rfl]

theorem toldKey?_inserting {key : String} {p : Prepared} {response : Response} {told : Option Value}
    (h : db.reportedKey key response = .ok told) : (db.inserting p).toldKey? key response = told := by
  unfold Db.reportedKey at h
  unfold Db.inserting
  cases hi : db.insertReturning with
  | true =>
    rw [hi, if_pos rfl] at h
    obtain ⟨outcome, generated⟩ := response
    cases outcome with
    | count n => cases h
    | rows rows =>
      cases h
      rfl
  | false =>
    rw [hi] at h
    cases h
    rfl

theorem keyAfter_inserting {key : String} {p : Prepared} {response : Response} :
    keyAfter key known (db.inserting p, .ok response) =
      p.statement.keyAfter key known ((db.inserting p).toldKey? key response) := by
  unfold Db.inserting
  cases db.insertReturning <;> rfl

/-- **The key of the row after a write that was accepted.**  An update changes it if the key is among the attributes that
changed. -/
theorem lastKey_of_written (known : Option Value) {a : Attributes} (h : e.written db c = .ok a) :
    (e.stored = true ∧ a = e.attributes ∧ lastKey e.model.key known (db.exchanges c (e.sends db)) =
        if (e.dirty.get? e.model.key).isSome then Value.present? (e.dirty.get? e.model.key) else known) ∨
      (e.stored = false ∧
        lastKey e.model.key known (db.exchanges c (e.sends db)) = Value.present? (a.get? e.model.key)) := by
  unfold written at h
  unfold sends
  cases hp : e.plan db with
  | error err =>
    rw [hp] at h
    cases h
  | ok planned =>
    rcases e.plan_ok_cases db hp with ⟨hs, hd, rfl⟩ | ⟨hs, target, p, -, hprepare, rfl⟩ | ⟨hs, p, hprepare, rfl⟩
    · rw [hp] at h
      have hunchanged : e.dirty.get? e.model.key = none := by
        rw [Attributes.get?, hd]
        rfl
      refine .inl ⟨hs, (Except.ok.inj h).symm, ?_⟩
      rw [hunchanged]
      rfl
    · rw [hp] at h
      dsimp only at h ⊢
      rw [db.exchanges_sent]
      cases hr : (db.exec (.exec p false) c).1 with
      | error err =>
        rw [hr] at h
        cases h
      | ok response =>
        rw [hr] at h
        have ha : e.taken db response = .ok e.attributes := by rw [taken, if_pos hs]
        have hkey : (Statement.update (e.changes target)).given? e.model.key = e.dirty.get? e.model.key :=
          given?_changes e target e.model.key
        refine .inl ⟨hs, Except.ok.inj (h.symm.trans ha), ?_⟩
        show p.statement.keyAfter e.model.key known _ = _
        rw [Statement.statement_of_prepare hprepare, Statement.keyAfter, hkey]
    · rw [hp] at h
      dsimp only at h ⊢
      rw [db.exchanges_sent]
      cases hr : (db.exec (db.inserting p) c).1 with
      | error err =>
        rw [hr] at h
        cases h
      | ok response =>
        rw [hr] at h
        replace h : e.taken db response = .ok a := h
        rw [taken, hs, if_neg Bool.false_ne_true] at h
        cases hk : db.reportedKey e.model.key response with
        | error err =>
          rw [hk] at h
          cases h
        | ok key =>
          rw [hk] at h
          obtain rfl : e.withGenerated key = a := Except.ok.inj h
          refine .inr ⟨hs, ?_⟩
          show keyAfter e.model.key known (db.inserting p, .ok response) = _
          rw [keyAfter_inserting, toldKey?_inserting hk, Statement.statement_of_prepare hprepare, Statement.keyAfter,
            given?_insert, present?_withGenerated]
          rfl

/-- A write that was refused left the row of a stored entity as it was. -/
theorem lastKey_of_refused {err : Error} (hs : e.stored = true) (h : e.written db c = .error err) (key : String) :
    lastKey key known (db.exchanges c (e.sends db)) = known := by
  unfold written at h
  unfold sends
  cases hp : e.plan db with
  | error err => rfl
  | ok planned =>
    rcases e.plan_ok_cases db hp with ⟨-, -, rfl⟩ | ⟨-, target, p, -, -, rfl⟩ | ⟨hn, -⟩
    · rfl
    · rw [hp] at h
      dsimp only at h ⊢
      rw [db.exchanges_sent]
      cases hr : (db.exec (.exec p false) c).1 with
      | error err' => rfl
      | ok response =>
        rw [hr] at h
        replace h : e.taken db response = .error err := h
        rw [taken, if_pos hs] at h
        cases h
    · rw [hs] at hn
      cases hn

/-! ## How a call goes -/

/-- A save does nothing, stops before its write, has its write refused, or has it accepted. -/
inductive SaveGoes (db : Db σ) (e : Entity) (c : σ) : Attempt → List Exchange → Prop where
  | clean (unchanged : e.isDirty = false) : SaveGoes db e c (.ok (), e) []
  | stopped (err : Error) : SaveGoes db e c (.error err, e.toWrite db) []
  | refused (err : Error) (h : (e.toWrite db).written db c = .error err) :
    SaveGoes db e c (.error err, e.toWrite db) (db.exchanges c ((e.toWrite db).sends db))
  | accepted (result : Except Error Unit) (a : Attributes) (h : (e.toWrite db).written db c = .ok a) :
    SaveGoes db e c (result, (e.toWrite db).settle a) (db.exchanges c ((e.toWrite db).sends db))

theorem save_goes (db : Db σ) (e : Entity) (w : World σ) :
    ∃ events, ((e.save db).run w).2 = db.after w events ∧
      SaveGoes db e w.connection ((e.save db).run w).1 (db.exchanges w.connection events) := by
  cases hd : e.isDirty with
  | false =>
    rw [run_save_of_clean db hd]
    exact ⟨[], (db.after_nil w).symm, .clean hd⟩
  | true =>
    rw [run_save_of_dirty db hd]
    cases e.savingResult db with
    | error err =>
      refine ⟨_, rfl, ?_⟩
      rw [db.exchanges_hookEvents]
      exact .stopped err
    | ok =>
      dsimp only
      cases hw : (e.toWrite db).written db w.connection with
      | error err =>
        refine ⟨_, rfl, ?_⟩
        rw [db.exchanges_append, db.exchanges_hookEvents, db.replay_hookEvents]
        exact .refused err hw
      | ok a =>
        refine ⟨_, rfl, ?_⟩
        rw [db.exchanges_append, db.exchanges_append, db.exchanges_hookEvents, db.exchanges_hookEvents,
          db.replay_hookEvents, List.append_nil]
        exact .accepted _ a hw

/-- A delete does nothing, stops before its operation, has it refused, or has it accepted. -/
inductive DeleteGoes (db : Db σ) (e : Entity) : Attempt → List Exchange → Prop where
  | absent (missing : e.stored = false) : DeleteGoes db e (.ok (), e) []
  | stopped (err : Error) : DeleteGoes db e (.error err, e) []
  | refused (op : Operation) (err : Error) (present : e.stored = true) (h : e.removal db = .ok op) :
    DeleteGoes db e (.error err, e) [(op, .error err)]
  | accepted (op : Operation) (response : Response) (result : Except Error Unit) (present : e.stored = true)
    (h : e.removal db = .ok op) : DeleteGoes db e (result, { e with stored := false }) [(op, .ok response)]

theorem delete_goes (db : Db σ) (e : Entity) (w : World σ) :
    ∃ events, ((e.delete db).run w).2 = db.after w events ∧
      DeleteGoes db e ((e.delete db).run w).1 (db.exchanges w.connection events) := by
  cases hs : e.stored with
  | false =>
    rw [run_delete_of_not_stored db hs]
    exact ⟨[], (db.after_nil w).symm, .absent hs⟩
  | true =>
    rw [run_delete db hs]
    cases db.hookResult Hooks.deleting e with
    | error err =>
      refine ⟨_, rfl, ?_⟩
      rw [db.exchanges_hookEvents]
      exact .stopped err
    | ok =>
      dsimp only
      cases hop : e.removal db with
      | error err =>
        refine ⟨_, rfl, ?_⟩
        rw [db.exchanges_hookEvents]
        exact .stopped err
      | ok op =>
        dsimp only
        cases hr : (db.exec op w.connection).1 with
        | error err =>
          refine ⟨_, rfl, ?_⟩
          rw [db.exchanges_append, db.exchanges_hookEvents, db.replay_hookEvents, db.exchanges_sent, hr]
          exact .refused op err hs hop
        | ok response =>
          refine ⟨_, rfl, ?_⟩
          rw [db.exchanges_append, db.exchanges_append, db.exchanges_hookEvents, db.exchanges_hookEvents,
            db.replay_hookEvents, db.exchanges_sent, hr]
          exact .accepted op response _ hs hop

end Entity

end SqlMapper
