import SqlMapper.Proofs.Session.KeyedTable
/-!
# Outcome — how a save and a delete end

A save of an entity that is not dirty does nothing.  Any other save is either refused, by the hook before it, by a
statement that cannot be built or by the connection, and then what was to be written still is.  Or it is accepted, and
then nothing is left to be written, whatever the hook after it says.  A delete ends in one of three ways likewise.
-/
namespace SqlMapper

/-! ## What a write writes -/

/-- The statement gives the column this value. -/
def Statement.Writes (name : String) (v : Value) : Statement → Prop
  | update u => (name, .value v) ∈ u.assignments
  | insert i => (name, .value v) ∈ i.columns.zip (i.rows.headD [])
  | _ => False

def Operation.Writes (name : String) (v : Value) : Operation → Prop
  | query p | exec p _ => p.statement.Writes name v
  | _ => False

namespace Entity

/-- The value is to be written: the entity has it, and its row was not last known with it. -/
def Pending (e : Entity) (name : String) (v : Value) : Prop :=
  e.get? name = some v ∧ (e.stored = true → e.snapshot.get? name ≠ some v)

variable {σ : Type} {db : Db σ} {e : Entity} {name : String} {v : Value}

theorem Pending.isDirty (h : e.Pending name v) : e.isDirty = true := by
  by_contra hclean
  obtain ⟨hs, hsame⟩ := unchanged_of_clean (Bool.not_eq_true _ ▸ hclean)
  exact h.2 hs (hsame name v h.1)

theorem Pending.mem_dirty (h : e.Pending name v) (hs : e.stored = true) : (name, v) ∈ e.dirty.entries :=
  Attributes.mem_changedFrom_iff.2 ⟨h.1, h.2 hs⟩

/-- A write that can be planned writes everything that is pending. -/
theorem Pending.writes (h : e.Pending name v) {planned : Option Operation} (hp : e.plan db = .ok planned) :
    ∃ op, planned = some op ∧ op.Writes name v := by
  rcases e.plan_ok_cases db hp with ⟨hs, hd, -⟩ | ⟨hs, target, p, -, hprepare, rfl⟩ | ⟨hs, p, hprepare, rfl⟩
  · have hm := h.mem_dirty hs
    rw [hd] at hm
    exact absurd hm List.not_mem_nil
  · refine ⟨_, rfl, ?_⟩
    show p.statement.Writes name v
    rw [Statement.statement_of_prepare hprepare]
    exact List.mem_map_of_mem (h.mem_dirty hs)
  · refine ⟨_, rfl, ?_⟩
    have hm : (name, Expr.value v) ∈ (Insert.ofAttributes e.model.table e.attributes).columns.zip
        ((Insert.ofAttributes e.model.table e.attributes).rows.headD []) := by
      rw [Insert.zip_headD_ofAttributes]
      exact List.mem_map_of_mem (Attributes.mem_entries_of_get? h.1)
    have hwrites : p.statement.Writes name v := by
      rw [Statement.statement_of_prepare hprepare]
      unfold Db.asking
      split <;> exact hm
    unfold Db.inserting
    split <;> exact hwrites

end Entity

def Event.isSent : Event → Bool
  | .sent _ => true
  | .hook _ _ => false

theorem Db.countP_isSent_hookEvents {σ : Type} (db : Db σ) (moment : HookMoment) (e : Entity) :
    (db.hookEvents moment e).countP Event.isSent = 0 := by
  unfold Db.hookEvents
  cases db.hooksOf e.model <;> rfl

theorem Entity.countP_isSent_sends {σ : Type} (db : Db σ) (e : Entity) : (e.sends db).countP Event.isSent ≤ 1 := by
  unfold Entity.sends
  split
  · exact Nat.le_refl 1
  · exact Nat.zero_le 1

/-! ## Refusals -/

namespace Db

variable {σ : Type} (db : Db σ)

/-- A query is answered with rows. -/
def AnswersInKind : Prop :=
  ∀ p c response, (db.exec (.query p) c).1 = .ok response → ∃ rows, response.outcome = .rows rows

/-- Why the operation is not accepted, if it is not: there is an error in its place, or it is answered with one. -/
def rejection? (c : σ) : Except Error (Option Operation) → Option Error
  | .error err => some err
  | .ok none => none
  | .ok (some op) =>
    match (db.exec op c).1 with
    | .error err => some err
    | .ok _ => none

/-- The error that a save meets before its write is accepted. -/
def refusesSave? (e : Entity) (c : σ) : Option Error :=
  match e.savingResult db with
  | .error err => some err
  | .ok () => db.rejection? c ((e.toWrite db).plan db)

theorem refusesSave?_eq_none {e : Entity} {c : σ} (h : db.refusesSave? e c = none) :
    e.savingResult db = .ok () ∧ db.rejection? c ((e.toWrite db).plan db) = none := by
  unfold refusesSave? at h
  cases hs : e.savingResult db with
  | error err =>
    rw [hs] at h
    cases h
  | ok =>
    rw [hs] at h
    exact ⟨rfl, h⟩

/-- The error that a delete meets before the row is deleted. -/
def refusesDelete? (e : Entity) (c : σ) : Option Error :=
  match db.hookResult Hooks.deleting e with
  | .error err => some err
  | .ok () => db.rejection? c ((e.removal db).map some)

end Db

namespace Entity

variable {σ : Type} {db : Db σ} {e : Entity} {name : String} {v : Value} {c : σ}

theorem written_of_rejection {err : Error} (h : db.rejection? c (e.plan db) = some err) :
    e.written db c = .error err := by
  unfold Db.rejection? at h
  unfold written
  cases hp : e.plan db with
  | error err' =>
    rw [hp] at h
    exact congrArg Except.error (Option.some.inj h)
  | ok planned =>
    rw [hp] at h
    cases planned with
    | none => cases h
    | some op =>
      dsimp only at h ⊢
      cases hr : (db.exec op c).1 with
      | ok response =>
        rw [hr] at h
        cases h
      | error err' =>
        rw [hr] at h
        exact congrArg Except.error (Option.some.inj h)

theorem exists_taken (hk : db.AnswersInKind) {op : Operation} (hp : e.plan db = .ok (some op)) {response : Response}
    (hr : (db.exec op c).1 = .ok response) : ∃ a, e.taken db response = .ok a := by
  unfold taken
  rcases e.plan_ok_cases db hp with ⟨-, -, hc⟩ | ⟨hs, -⟩ | ⟨hs, p, -, hop⟩
  · cases hc
  · exact ⟨e.attributes, by rw [if_pos hs]⟩
  · obtain rfl := Option.some.inj hop
    have hrows : db.insertReturning = true → ∃ rows, response.outcome = .rows rows := by
      intro hi
      rw [Db.inserting, if_pos hi] at hr
      exact hk p c response hr
    obtain ⟨reported, hreported⟩ := Db.exists_reportedKey e.model.key hrows
    rw [hs, if_neg Bool.false_ne_true, hreported]
    exact ⟨e.withGenerated reported, rfl⟩

theorem exists_written (hk : db.AnswersInKind) (h : db.rejection? c (e.plan db) = none) :
    ∃ a, e.written db c = .ok a := by
  unfold Db.rejection? at h
  unfold written
  cases hp : e.plan db with
  | error err =>
    rw [hp] at h
    cases h
  | ok planned =>
    rw [hp] at h
    cases planned with
    | none => exact ⟨e.attributes, rfl⟩
    | some op =>
      dsimp only at h ⊢
      cases hr : (db.exec op c).1 with
      | error err =>
        rw [hr] at h
        cases h
      | ok response => exact exists_taken hk hp hr

/-! ## How a save ends -/

/-- An accepted save sends what is pending after the hook before it. -/
theorem sends_of_accepted (ha : db.refusesSave? e c = none) (hp : (e.toWrite db).Pending name v) :
    ∃ op, (e.toWrite db).sends db = [.sent op] ∧ op.Writes name v := by
  have hr := (db.refusesSave?_eq_none ha).2
  cases hplan : (e.toWrite db).plan db with
  | error err =>
    rw [hplan] at hr
    cases hr
  | ok planned =>
    obtain ⟨op, rfl, hw⟩ := hp.writes hplan
    exact ⟨op, by rw [sends, hplan], hw⟩

variable {w : World σ}

theorem run_save_of_refused (hd : e.isDirty = true) {err : Error} (hr : db.refusesSave? e w.connection = some err) :
    ∃ sent, (sent = [] ∨ sent = (e.toWrite db).sends db) ∧
      (e.save db).run w =
        ((.error err, e.toWrite db), db.after w (db.hookEvents .saving (e.stamp db.now) ++ sent)) := by
  rw [run_save_of_dirty db hd]
  unfold Db.refusesSave? at hr
  cases hs : e.savingResult db with
  | error err' =>
    rw [hs] at hr
    cases hr
    exact ⟨[], .inl rfl, by rw [List.append_nil]⟩
  | ok =>
    rw [hs] at hr
    dsimp only at hr ⊢
    rw [written_of_rejection hr]
    exact ⟨_, .inr rfl, rfl⟩

theorem run_save_of_accepted (hk : db.AnswersInKind) (hd : e.isDirty = true)
    (ha : db.refusesSave? e w.connection = none) :
    ∃ a, (e.save db).run w =
      ((db.hookResult Hooks.saved ((e.toWrite db).settle a), (e.toWrite db).settle a),
        db.after w (db.hookEvents .saving (e.stamp db.now) ++ (e.toWrite db).sends db ++
          db.hookEvents .saved ((e.toWrite db).settle a))) := by
  obtain ⟨hsaving, hr⟩ := db.refusesSave?_eq_none ha
  obtain ⟨a, hw⟩ := exists_written hk hr
  rw [run_save_of_dirty db hd, hsaving, hw]
  exact ⟨a, rfl⟩

theorem exists_sent_of_accepted (hd : e.isDirty = true) (ha : db.refusesSave? e w.connection = none)
    (hp : (e.toWrite db).Pending name v) :
    ∃ events, ((e.save db).run w).2 = db.after w events ∧ ∃ op, .sent op ∈ events ∧ op.Writes name v := by
  obtain ⟨op, hsends, hw⟩ := sends_of_accepted ha hp
  rw [run_save_of_dirty db hd, (db.refusesSave?_eq_none ha).1, hsends]
  dsimp only
  cases (e.toWrite db).written db w.connection with
  | error err => exact ⟨_, rfl, op, by simp, hw⟩
  | ok a => exact ⟨_, rfl, op, by simp, hw⟩

/-! ## How a delete ends -/

theorem run_delete_of_refused (hs : e.stored = true) {err : Error} (hr : db.refusesDelete? e w.connection = some err) :
    ∃ events, events.countP Event.isSent ≤ 1 ∧ (e.delete db).run w = ((.error err, e), db.after w events) := by
  rw [run_delete db hs]
  unfold Db.refusesDelete? Db.rejection? at hr
  cases hh : db.hookResult Hooks.deleting e with
  | error err' =>
    rw [hh] at hr
    cases hr
    exact ⟨_, by rw [db.countP_isSent_hookEvents]; exact Nat.zero_le 1, rfl⟩
  | ok =>
    rw [hh] at hr
    dsimp only at hr ⊢
    cases hop : e.removal db with
    | error err' =>
      rw [hop] at hr
      cases hr
      exact ⟨_, by rw [db.countP_isSent_hookEvents]; exact Nat.zero_le 1, rfl⟩
    | ok op =>
      rw [hop] at hr
      dsimp only [Except.map] at hr ⊢
      cases hx : (db.exec op w.connection).1 with
      | ok response =>
        rw [hx] at hr
        cases hr
      | error err' =>
        rw [hx] at hr
        cases hr
        refine ⟨_, ?_, rfl⟩
        rw [List.countP_append, db.countP_isSent_hookEvents]
        exact Nat.le_refl 1

theorem run_delete_of_accepted (hs : e.stored = true) (ha : db.refusesDelete? e w.connection = none) :
    ∃ op, e.removal db = .ok op ∧ (e.delete db).run w =
      ((db.hookResult Hooks.deleted { e with stored := false }, { e with stored := false }),
        db.after w (db.hookEvents .deleting e ++ [.sent op] ++ db.hookEvents .deleted { e with stored := false })) := by
  rw [run_delete db hs]
  unfold Db.refusesDelete? Db.rejection? at ha
  cases hh : db.hookResult Hooks.deleting e with
  | error err =>
    rw [hh] at ha
    cases ha
  | ok =>
    rw [hh] at ha
    dsimp only at ha ⊢
    cases hop : e.removal db with
    | error err =>
      rw [hop] at ha
      cases ha
    | ok op =>
      rw [hop] at ha
      dsimp only [Except.map] at ha ⊢
      cases hx : (db.exec op w.connection).1 with
      | error err =>
        rw [hx] at ha
        cases ha
      | ok response => exact ⟨op, rfl, rfl⟩

end Entity

/-! ## The outcomes -/

section

variable {σ : Type} (db : Db σ) (e : Entity) (c : σ) (attempt : Attempt) (events : List Event)

/-- The entity was clean, and nothing happened. -/
structure SaveUntouched : Prop where
  clean : e.isDirty = false
  attempt : attempt = (.ok (), e)
  events : events = []

/-- The save was refused.  The attributes are those that the stamps and the hook before the save made of them, and what
was pending beside these still is, so that a save that is accepted later writes it. -/
structure SaveRefused : Prop where
  dirty : e.isDirty = true
  error : ∃ err, db.refusesSave? e c = some err ∧ attempt.1 = .error err
  entity : ∃ a, attempt.2 = { e with attributes := a }
  attributes : attempt.2.attributes = (e.toWrite db).attributes
  stamps : ∀ name, (e.stamp db.now).get? name = e.get? name ∨ e.model.timestamps = true ∧
    (name = "created_at" ∨ name = "updated_at") ∧ (e.stamp db.now).get? name = some (.timestamp db.now)
  pending : ∀ name v, e.Pending name v → attempt.2.get? name = some v → attempt.2.Pending name v
  retry : ∀ (later : Db σ) (w : World σ) (name : String) (v : Value), later.EditsAttributes →
    later.refusesSave? attempt.2 w.connection = none → e.Pending name v → attempt.2.get? name = some v →
    (attempt.2.toWrite later).get? name = some v →
      ∃ more, ((attempt.2.save later).run w).2 = later.after w more ∧ ∃ op, .sent op ∈ more ∧ op.Writes name v

/-- The save was accepted: what was pending is written, nothing is left to be written, and the result is that of the hook
after the save. -/
structure SaveAccepted : Prop where
  dirty : e.isDirty = true
  accepted : db.refusesSave? e c = none
  result : attempt.1 = db.hookResult Hooks.saved attempt.2
  entity : ∃ a, attempt.2 = { e with attributes := a, snapshot := a, stored := true }
  written : ∀ name v, (e.toWrite db).Pending name v → ∃ op, .sent op ∈ events ∧ op.Writes name v
  clean : attempt.2.isDirty = false
  unchanged : attempt.2.dirty.entries = []
  again : ∀ (later : Db σ) (w : World σ), (attempt.2.save later).run w = ((.ok (), attempt.2), w)

inductive SaveOutcome where
  | untouched
  | refused
  | accepted
  deriving DecidableEq

def SaveOutcome.Holds : SaveOutcome → Prop
  | untouched => SaveUntouched e attempt events
  | refused => SaveRefused db e c attempt
  | accepted => SaveAccepted db e c attempt events

/-- The entity had no row, and nothing happened. -/
structure DeleteUntouched : Prop where
  absent : e.stored = false
  attempt : attempt = (.ok (), e)
  events : events = []

/-- The delete was refused, and the entity is as it was. -/
structure DeleteRefused : Prop where
  stored : e.stored = true
  error : ∃ err, db.refusesDelete? e c = some err ∧ attempt = (.error err, e)

/-- The row was deleted: the entity has no row, keeps everything else, and the result is that of the hook after the
delete. -/
structure DeleteAccepted : Prop where
  stored : e.stored = true
  accepted : db.refusesDelete? e c = none
  sent : ∃ op, e.removal db = .ok op ∧ .sent op ∈ events
  attempt : attempt = (db.hookResult Hooks.deleted { e with stored := false }, { e with stored := false })

inductive DeleteOutcome where
  | untouched
  | refused
  | accepted
  deriving DecidableEq

def DeleteOutcome.Holds : DeleteOutcome → Prop
  | untouched => DeleteUntouched e attempt events
  | refused => DeleteRefused db e c attempt
  | accepted => DeleteAccepted db e c attempt events

def SaveOutcome.expected : SaveOutcome :=
  if e.isDirty then if (db.refusesSave? e c).isSome then .refused else .accepted else .untouched

def DeleteOutcome.expected : DeleteOutcome :=
  if e.stored then if (db.refusesDelete? e c).isSome then .refused else .accepted else .untouched

variable {db e c attempt events}

theorem SaveOutcome.Holds.eq_expected {o : SaveOutcome} (h : o.Holds db e c attempt events) : o = expected db e c := by
  unfold expected
  cases o with
  | untouched => rw [h.clean, if_neg Bool.false_ne_true]
  | refused =>
    obtain ⟨err, herr, -⟩ := h.error
    rw [if_pos h.dirty, herr]
    rfl
  | accepted =>
    rw [if_pos h.dirty, h.accepted]
    rfl

theorem DeleteOutcome.Holds.eq_expected {o : DeleteOutcome} (h : o.Holds db e c attempt events) :
    o = expected db e c := by
  unfold expected
  cases o with
  | untouched => rw [h.absent, if_neg Bool.false_ne_true]
  | refused =>
    obtain ⟨err, herr, -⟩ := h.error
    rw [if_pos h.stored, herr]
    rfl
  | accepted =>
    rw [if_pos h.stored, h.accepted]
    rfl

end

namespace Entity

variable {σ : Type} {db : Db σ} {e : Entity}

theorem get?_stamp (e : Entity) (now : Timestamp) (name : String) :
    (e.stamp now).get? name = e.get? name ∨ e.model.timestamps = true ∧
      (name = "created_at" ∨ name = "updated_at") ∧ (e.stamp now).get? name = some (.timestamp now) := by
  have hset : ∀ (e : Entity) (column : String), (e.set column (.timestamp now)).get? name =
      if column = name then some (.timestamp now) else e.get? name := fun e column =>
    Attributes.get?_insert e.attributes column name (.timestamp now)
  unfold stamp
  by_cases ht : e.model.timestamps = true
  · rw [if_pos ht]
    dsimp only
    by_cases hu : "updated_at" = name
    · refine .inr ⟨ht, .inr hu.symm, ?_⟩
      split
      · rw [hset, hset, if_pos hu, ite_self]
      · rw [hset, if_pos hu]
    · split
      · by_cases hc : "created_at" = name
        · exact .inr ⟨ht, .inl hc.symm, by rw [hset, if_pos hc]⟩
        · exact .inl (by rw [hset, if_neg hc, hset, if_neg hu])
      · exact .inl (by rw [hset, if_neg hu])
  · rw [if_neg ht]
    exact .inl rfl

theorem saveRefused (hedits : db.EditsAttributes) (hd : e.isDirty = true) {c : σ} {err : Error}
    (hr : db.refusesSave? e c = some err) : SaveRefused db e c (.error err, e.toWrite db) := by
  obtain ⟨a, ha⟩ := toWrite_eq db hedits e
  have hpending : ∀ name v, e.Pending name v → (e.toWrite db).get? name = some v →
      (e.toWrite db).Pending name v := by
    intro name v hp hv
    rw [ha] at hv ⊢
    exact ⟨hv, hp.2⟩
  refine ⟨hd, ⟨err, hr, rfl⟩, ⟨a, ha⟩, rfl, e.get?_stamp db.now, hpending, ?_⟩
  intro later w name v hlater haccepted hp hv hkept
  have hstill := hpending name v hp hv
  obtain ⟨b, hb⟩ := toWrite_eq later hlater (e.toWrite db)
  refine exists_sent_of_accepted hstill.isDirty haccepted ⟨hkept, fun hs => ?_⟩
  rw [hb] at hs ⊢
  exact hstill.2 hs

theorem saveAccepted (hedits : db.EditsAttributes) (hd : e.isDirty = true) {c : σ} (ha : db.refusesSave? e c = none)
    (a : Attributes) (before after : List Event) :
    SaveAccepted db e c (db.hookResult Hooks.saved ((e.toWrite db).settle a), (e.toWrite db).settle a)
      (before ++ (e.toWrite db).sends db ++ after) := by
  have hclean : ((e.toWrite db).settle a).isDirty = false := by
    show (!true || !a.sameAs a) = false
    rw [Attributes.sameAs_self]
    rfl
  refine ⟨hd, ha, rfl, ?_, ?_, hclean, a.changedFrom_self, fun later w => run_save_of_clean later hclean w⟩
  · obtain ⟨b, hb⟩ := toWrite_eq db hedits e
    exact ⟨a, by rw [hb]; rfl⟩
  · intro name v hp
    obtain ⟨op, hsends, hw⟩ := sends_of_accepted ha hp
    refine ⟨op, ?_, hw⟩
    rw [hsends]
    simp

theorem save_outcome (hedits : db.EditsAttributes) (hk : db.AnswersInKind) (e : Entity) (w : World σ) :
    ∃ events, ((e.save db).run w).2 = db.after w events ∧ events.countP Event.isSent ≤ 1 ∧
      ∃! o : SaveOutcome, o.Holds db e w.connection ((e.save db).run w).1 events := by
  suffices h : ∃ events, ((e.save db).run w).2 = db.after w events ∧ events.countP Event.isSent ≤ 1 ∧
      ∃ o : SaveOutcome, o.Holds db e w.connection ((e.save db).run w).1 events by
    obtain ⟨events, hw, hcount, o, ho⟩ := h
    exact ⟨events, hw, hcount, o, ho, fun o' ho' => ho'.eq_expected.trans ho.eq_expected.symm⟩
  cases hd : e.isDirty with
  | false =>
    rw [run_save_of_clean db hd]
    exact ⟨[], (db.after_nil w).symm, Nat.zero_le 1, .untouched, hd, rfl, rfl⟩
  | true =>
    cases hr : db.refusesSave? e w.connection with
    | some err =>
      obtain ⟨sent, hsent, hrun⟩ := run_save_of_refused hd hr
      rw [hrun]
      refine ⟨_, rfl, ?_, .refused, saveRefused hedits hd hr⟩
      rw [List.countP_append, db.countP_isSent_hookEvents, Nat.zero_add]
      rcases hsent with rfl | rfl
      · exact Nat.zero_le 1
      · exact countP_isSent_sends db _
    | none =>
      obtain ⟨a, hrun⟩ := run_save_of_accepted hk hd hr
      rw [hrun]
      refine ⟨_, rfl, ?_, .accepted, saveAccepted hedits hd hr a _ _⟩
      rw [List.countP_append, List.countP_append, db.countP_isSent_hookEvents, db.countP_isSent_hookEvents,
        Nat.zero_add, Nat.add_zero]
      exact countP_isSent_sends db _

theorem delete_outcome (db : Db σ) (e : Entity) (w : World σ) :
    ∃ events, ((e.delete db).run w).2 = db.after w events ∧ events.countP Event.isSent ≤ 1 ∧
      ∃! o : DeleteOutcome, o.Holds db e w.connection ((e.delete db).run w).1 events := by
  suffices h : ∃ events, ((e.delete db).run w).2 = db.after w events ∧ events.countP Event.isSent ≤ 1 ∧
      ∃ o : DeleteOutcome, o.Holds db e w.connection ((e.delete db).run w).1 events by
    obtain ⟨events, hw, hcount, o, ho⟩ := h
    exact ⟨events, hw, hcount, o, ho, fun o' ho' => ho'.eq_expected.trans ho.eq_expected.symm⟩
  cases hs : e.stored with
  | false =>
    rw [run_delete_of_not_stored db hs]
    exact ⟨[], (db.after_nil w).symm, Nat.zero_le 1, .untouched, hs, rfl, rfl⟩
  | true =>
    cases hr : db.refusesDelete? e w.connection with
    | some err =>
      obtain ⟨events, hcount, hrun⟩ := run_delete_of_refused hs hr
      rw [hrun]
      exact ⟨events, rfl, hcount, .refused, hs, err, hr, rfl⟩
    | none =>
      obtain ⟨op, hop, hrun⟩ := run_delete_of_accepted hs hr
      rw [hrun]
      refine ⟨_, rfl, ?_, .accepted, hs, hr, ⟨op, hop, by simp⟩, rfl⟩
      rw [List.countP_append, List.countP_append, db.countP_isSent_hookEvents, db.countP_isSent_hookEvents]
      exact Nat.le_refl 1

/-- **A save and a delete each end in exactly one of three ways**, and send at most one operation. -/
theorem save_delete_outcome (hedits : db.EditsAttributes) (hk : db.AnswersInKind) (e : Entity) (w : World σ) :
    (∃ events, ((e.save db).run w).2 = db.after w events ∧ events.countP Event.isSent ≤ 1 ∧
        ∃! o : SaveOutcome, o.Holds db e w.connection ((e.save db).run w).1 events) ∧
      ∃ events, ((e.delete db).run w).2 = db.after w events ∧ events.countP Event.isSent ≤ 1 ∧
        ∃! o : DeleteOutcome, o.Holds db e w.connection ((e.delete db).run w).1 events :=
  ⟨save_outcome hedits hk e w, delete_outcome db e w⟩

end Entity

namespace Blog

theorem editsAttributes_authorDb : authorDb.EditsAttributes := by
  intro m hooks hh e
  obtain ⟨id, -, hid⟩ := Option.bind_eq_some_iff.1 hh
  have hreviewing : hooks = reviewing := by
    cases id with
    | zero => exact (Option.some.inj hid).symm
    | succ n => cases hid
  rw [hreviewing]
  exact ⟨e.attributes.insert "checked" (.bool true), rfl⟩

theorem answersInKind_authorDb : authorDb.AnswersInKind := by
  intro p rows response hr
  obtain ⟨-, rfl⟩ := KeyedStore.exec_of_ok hr
  obtain ⟨statement, sql, bindings⟩ := p
  cases statement <;> exact ⟨_, rfl⟩

end Blog

/-- A new author is stored although the hook after the save fails. -/
theorem save_delete_outcome_author :
    Blog.authorDb.EditsAttributes ∧ Blog.authorDb.AnswersInKind ∧
      ∃ events, (((Entity.new Blog.author).save Blog.authorDb).run ⟨[], []⟩).2 = Blog.authorDb.after ⟨[], []⟩ events ∧
        events.countP Event.isSent ≤ 1 ∧
        SaveOutcome.accepted.Holds Blog.authorDb (Entity.new Blog.author) []
          (((Entity.new Blog.author).save Blog.authorDb).run ⟨[], []⟩).1 events := by
  obtain ⟨⟨events, hw, hcount, o, ho, -⟩, -⟩ :=
    Entity.save_delete_outcome Blog.editsAttributes_authorDb Blog.answersInKind_authorDb (Entity.new Blog.author) ⟨[], []⟩
  have hexpected : SaveOutcome.expected Blog.authorDb (Entity.new Blog.author) [] = .accepted := by decide +kernel
  have haccepted : o = .accepted := ho.eq_expected.trans hexpected
  subst haccepted
  exact ⟨Blog.editsAttributes_authorDb, Blog.answersInKind_authorDb, events, hw, hcount, ho⟩

end SqlMapper
