import SqlMapper.Session.Db
/-!
# Run — what a call returns

A call is a function on the state of a connection.  A call that returns took its steps one after the other, and every
step returned: `returns_bind` takes a call apart into its steps and puts it together again.  For the operations it says
what was sent, what the connection answered, and that nothing else was recorded.
-/
namespace SqlMapper

/-- The call succeeds: it turns the one state into the other and returns the value. -/
def Returns {σ α : Type} (x : Action σ α) (w : World σ) (a : α) (w' : World σ) : Prop :=
  x.run.run w = (.ok a, w')

variable {σ α β : Type}

theorem exists_returns {x : Action σ α} {w : World σ} (h : (x.run.run w).1.isOk = true) : ∃ a w', Returns x w a w' := by
  cases hx : x.run.run w with
  | mk r w' =>
    rw [hx] at h
    cases r with
    | ok a => exact ⟨a, w', hx⟩
    | error e => cases h

theorem returns_pure {w w' : World σ} {a b : α} : Returns (pure a) w b w' ↔ b = a ∧ w' = w := by
  constructor
  · intro h
    cases h
    exact ⟨rfl, rfl⟩
  · rintro ⟨rfl, rfl⟩
    rfl

theorem run_bind (x : Action σ α) (f : α → Action σ β) (w : World σ) :
    (x >>= f).run.run w =
      match x.run.run w with
      | (.ok a, w') => (f a).run.run w'
      | (.error e, w') => (.error e, w') := by
  show (ExceptT.bind x f).run.run w = _
  simp only [ExceptT.bind, ExceptT.run, ExceptT.mk, StateT.run_bind]
  cases hx : (StateT.run x w) with
  | mk r w' =>
    cases r <;> simp only [ExceptT.bindCont] <;> rfl

theorem returns_bind {x : Action σ α} {f : α → Action σ β} {w w'' : World σ} {b : β} :
    Returns (x >>= f) w b w'' ↔ ∃ a w', Returns x w a w' ∧ Returns (f a) w' b w'' := by
  unfold Returns
  rw [run_bind]
  cases hx : x.run.run w with
  | mk r w' =>
    cases r with
    | ok a =>
      constructor
      · exact fun h => ⟨a, w', rfl, h⟩
      · rintro ⟨a', w₁, he, h⟩
        cases he
        exact h
    | error e =>
      constructor
      · intro h
        cases h
      · rintro ⟨a', w₁, he, h⟩
        cases he

theorem returns_lift {r : Except Error α} {w w' : World σ} {a : α} :
    Returns (liftM r : Action σ α) w a w' ↔ r = .ok a ∧ w' = w := by
  constructor
  · intro h
    cases r with
    | ok b =>
      cases h
      exact ⟨rfl, rfl⟩
    | error e => cases h
  · rintro ⟨rfl, rfl⟩
    rfl

theorem returns_tryCatch {x : Action σ α} {handler : Error → Action σ α} {w w' : World σ} {a : α}
    (h : Returns x w a w') : Returns (tryCatch x handler) w a w' := by
  show (ExceptT.tryCatch x handler).run.run w = _
  unfold Returns at h
  simp only [ExceptT.tryCatch, ExceptT.run, ExceptT.mk, StateT.run_bind]
  rw [show StateT.run x w = (.ok a, w') from h]
  rfl

theorem returns_step {p : Prop} [Decidable p] {x : Action σ α} {next : Action σ β} {w w₁ w₂ : World σ} {b : β}
    (hyes : p → ∃ a, Returns x w a w₁) (hno : ¬p → w₁ = w) (hnext : Returns next w₁ b w₂) :
    Returns (if p then x >>= fun _ => next else next) w b w₂ := by
  by_cases hp : p
  · obtain ⟨a, ha⟩ := hyes hp
    rw [if_pos hp]
    exact returns_bind.2 ⟨a, w₁, ha, hnext⟩
  · rw [if_neg hp, ← hno hp]
    exact hnext

/-! ## Calls that return the same in every state -/

/-- The call succeeds with the value, whatever the state. -/
def Yields (x : Action σ α) (a : α) : Prop := ∀ w, ∃ w', Returns x w a w'

theorem yields_pure (a : α) : Yields (pure a : Action σ α) a := fun w => ⟨w, rfl⟩

theorem yields_lift {r : Except Error α} {a : α} (h : r = .ok a) : Yields (liftM r : Action σ α) a := fun w =>
  ⟨w, returns_lift.2 ⟨h, rfl⟩⟩

theorem Yields.bind {x : Action σ α} {f : α → Action σ β} {a : α} {b : β} (hx : Yields x a) (hf : Yields (f a) b) :
    Yields (x >>= f) b := by
  intro w
  obtain ⟨w₁, h₁⟩ := hx w
  obtain ⟨w₂, h₂⟩ := hf w₁
  exact ⟨w₂, returns_bind.2 ⟨a, w₁, h₁, h₂⟩⟩

theorem yields_mapM {f : α → Action σ β} {g : α → β} :
    ∀ {as : List α}, (∀ a ∈ as, Yields (f a) (g a)) → Yields (as.mapM f) (as.map g)
  | [], _ => yields_pure []
  | a :: as, h => by
    rw [List.mapM_cons]
    refine (h a List.mem_cons_self).bind ?_
    exact (yields_mapM fun b hb => h b (List.mem_cons_of_mem _ hb)).bind (yields_pure _)

namespace Db

variable (db : Db σ)

theorem returns_send {op : Operation} {w w' : World σ} {response : Response} :
    Returns (db.send op) w response w' ↔
      ∃ c, db.exec op w.connection = (.ok response, c) ∧ w' = ⟨c, w.events ++ [.sent op]⟩ := by
  show ((db.exec op w.connection).1, (⟨(db.exec op w.connection).2, w.events ++ [.sent op]⟩ : World σ)) = _ ↔ _
  cases he : db.exec op w.connection with
  | mk r c =>
    constructor
    · intro h
      cases h
      exact ⟨c, rfl, rfl⟩
    · rintro ⟨c', hc, rfl⟩
      cases hc
      rfl

/-- A query that returned was sent as it compiles, and the connection answered with rows. -/
theorem returns_select {q : Query} {w w' : World σ} {rows : List Row} :
    Returns (db.select q) w rows w' ↔
      ∃ p key c, (Statement.query q).prepare db.dialect = .ok p ∧
        db.exec (.query p) w.connection = (.ok ⟨.rows rows, key⟩, c) ∧
          w' = ⟨c, w.events ++ [.sent (.query p)]⟩ := by
  unfold Db.select
  rw [returns_bind]
  constructor
  · rintro ⟨p, w₁, hl, h⟩
    obtain ⟨hp, rfl⟩ := returns_lift.1 hl
    obtain ⟨⟨outcome, key⟩, w₂, hs, hl'⟩ := returns_bind.1 h
    obtain ⟨c, he, rfl⟩ := (returns_send db).1 hs
    obtain ⟨hr, rfl⟩ := returns_lift.1 hl'
    cases outcome with
    | count n => cases hr
    | rows rs =>
      cases hr
      exact ⟨p, key, c, hp, he, rfl⟩
  · rintro ⟨p, key, c, hp, he, rfl⟩
    exact ⟨p, w, returns_lift.2 ⟨hp, rfl⟩,
      returns_bind.2 ⟨_, _, (returns_send db).2 ⟨c, he, rfl⟩, returns_lift.2 ⟨rfl, rfl⟩⟩⟩

/-- The queries were sent one after the other, each answered with its rows, and nothing else was sent in between. -/
inductive Asked : World σ → List (Query × List Row) → World σ → Prop where
  | nil (w : World σ) : Asked w [] w
  | cons {q : Query} {rows : List Row} {rest : List (Query × List Row)} {w w₁ w₂ : World σ}
      (first : Returns (db.select q) w rows w₁) (others : Asked w₁ rest w₂) : Asked w ((q, rows) :: rest) w₂

theorem Asked.append {db : Db σ} {asked more : List (Query × List Row)} {w w₁ w₂ : World σ}
    (h : db.Asked w asked w₁) (h' : db.Asked w₁ more w₂) : db.Asked w (asked ++ more) w₂ := by
  induction h with
  | nil => exact h'
  | cons first _ ih => exact .cons first (ih h')

end Db

end SqlMapper
