import SqlMapper.Proofs.Entity.KnownKey
import SqlMapper.Proofs.Entity.Snapshot
/-!
# Addressed — the key that an entity is written by

An update or a delete of a stored entity names its row by a key.  The key that is known of a row is told by what was
read and by the exchanges alone (`lastKey`); what the entity remembers of it is in its snapshot.  A key that is
remembered is the known one, through every run of calls.  An entity that remembers none is still written, by whatever
key it has at the time: it may have been read without its key, or saved while the key was removed.
-/
namespace SqlMapper

/-! ## The rows that a statement changes -/

/-- The rows of the model's table that hold the key. -/
def Model.rowsAt (m : Model) (k : Value) : Query := (Query.table m.table).filter (.parse m.key) (.value k)

/-- The rows that an update or a delete is to change. -/
def Statement.target? : Statement → Option Query
  | update u => some u.target
  | delete q => some q
  | _ => none

def Operation.target? : Operation → Option Query
  | exec p _ => p.statement.target?
  | _ => none

namespace Entity

variable {σ : Type} {db : Db σ} {e : Entity} {m : Model} {known : Option Value} {c : σ}

/-! ## What an entity remembers -/

/-- The key that the entity remembers is the known one; and unless it may have lost it, it remembers the known one. -/
structure Remembers (e : Entity) (m : Model) (known : Option Value) (kept : Prop) : Prop where
  model : e.model = m
  key : ∀ k, e.storedKey? = some k → known = some k
  complete : kept → e.stored = true → e.storedKey? = known

variable {e' : Entity} {kept kept' : Prop}

theorem storedKey?_of_frame (hm : e'.model = e.model) (hs : e'.stored = e.stored) (hn : e'.snapshot = e.snapshot) :
    e'.storedKey? = e.storedKey? := by
  rw [storedKey?, storedKey?, hm, hs, hn]

theorem Remembers.of_frame (h : e.Remembers m known kept) (hk : kept' → kept) (hm : e'.model = e.model)
    (hs : e'.stored = e.stored) (hn : e'.snapshot = e.snapshot) : e'.Remembers m known kept' where
  model := hm.trans h.model
  key := storedKey?_of_frame hm hs hn ▸ h.key
  complete hkept hstored := (storedKey?_of_frame hm hs hn).trans (h.complete (hk hkept) (hs ▸ hstored))

/-- An entity without a row remembers no key. -/
theorem remembers_of_not_stored (hm : e.model = m) (hs : e.stored = false) : e.Remembers m known kept where
  model := hm
  key k hk := by
    rw [storedKey?, hs] at hk
    cases hk
  complete _ hstored := absurd (hs ▸ hstored) Bool.false_ne_true

theorem storedKey?_settle (e : Entity) (a : Attributes) :
    (e.settle a).storedKey? = Value.present? (a.get? e.model.key) :=
  rfl

/-- The key of the attributes, if they have one, is the known one after the update of a stored entity. -/
theorem Remembers.present?_attributes (h : e.Remembers m known kept) (hs : e.stored = true) {v : Value}
    (hv : e.attributes.get? e.model.key = some v) {after : Option Value}
    (hafter : after = if (e.dirty.get? e.model.key).isSome then Value.present? (e.dirty.get? e.model.key) else known) :
    (∀ k, Value.present? (some v) = some k → after = some k) ∧ (kept → Value.present? (some v) = after) := by
  by_cases hsame : e.snapshot.get? e.model.key = some v
  · have hunchanged : e.dirty.get? e.model.key = none := by
      refine Option.eq_none_iff_forall_ne_some.2 fun u hu => ?_
      obtain ⟨hu, hne⟩ := Attributes.get?_changedFrom_eq_some_iff.1 hu
      rw [hv] at hu
      exact hne (hu ▸ hsame)
    have hstored : e.storedKey? = Value.present? (some v) := by
      rw [storedKey?, if_pos hs, hsame]
      rfl
    rw [hunchanged] at hafter
    obtain rfl : after = known := hafter
    rw [← hstored]
    exact ⟨h.key, fun hkept => h.complete hkept hs⟩
  · have hchanged : e.dirty.get? e.model.key = some v := Attributes.get?_changedFrom_eq_some_iff.2 ⟨hv, hsame⟩
    rw [hchanged] at hafter
    obtain rfl : after = Value.present? (some v) := hafter
    exact ⟨fun _ hk => hk, fun _ => rfl⟩

theorem Remembers.settle (h : e.Remembers m known kept) {a : Attributes} (hw : e.written db c = .ok a) :
    (e.settle a).Remembers m (lastKey m.key known (db.exchanges c (e.sends db)))
      (kept ∧ (e.stored = true → (a.get? m.key).isSome = true)) := by
  obtain rfl := h.model
  rcases lastKey_of_written known hw with ⟨hs, rfl, hlast⟩ | ⟨hs, hlast⟩
  · cases hv : e.attributes.get? e.model.key with
    | none =>
      have hnone : (e.settle e.attributes).storedKey? = none := by
        rw [storedKey?_settle, hv]
        rfl
      refine ⟨rfl, fun k hk => ?_, fun hkept _ => ?_⟩
      · rw [hnone] at hk
        cases hk
      · exact absurd (hkept.2 hs) Bool.false_ne_true
    | some v =>
      obtain ⟨hkey, hcomplete⟩ := h.present?_attributes hs hv hlast
      refine ⟨rfl, fun k hk => hkey k ?_, fun hkept _ => ?_⟩
      · rw [← hv]
        exact hk
      · rw [storedKey?_settle, hv]
        exact hcomplete hkept.1
  · rw [hlast]
    exact ⟨rfl, fun k hk => hk, fun _ _ => rfl⟩

theorem Remembers.refused (h : e.Remembers m known kept) {err : Error} (hw : e.written db c = .error err)
    (hk : kept' → kept) : e.Remembers m (lastKey m.key known (db.exchanges c (e.sends db))) kept' := by
  cases hs : e.stored with
  | true =>
    rw [lastKey_of_refused hs hw]
    exact h.of_frame hk rfl rfl rfl
  | false => exact remembers_of_not_stored h.model hs

theorem keyAfter_error (key : String) (op : Operation) (err : Error) : keyAfter key known (op, .error err) = known := by
  cases op <;> rfl

variable {attempt : Attempt} {xs : List Exchange}

theorem Remembers.save (h : e.Remembers m known kept) (hedits : db.EditsAttributes)
    (hgoes : SaveGoes db e c attempt xs) :
    attempt.2.Remembers m (lastKey m.key known xs)
      (kept ∧ (e.stored = true → (attempt.2.get? m.key).isSome = true)) := by
  obtain ⟨a, ha⟩ := toWrite_eq db hedits e
  have hwrite : (e.toWrite db).Remembers m known kept := h.of_frame id (by rw [ha]) (by rw [ha]) (by rw [ha])
  have hstored : (e.toWrite db).stored = e.stored := by rw [ha]
  cases hgoes with
  | clean => exact h.of_frame And.left rfl rfl rfl
  | stopped err => exact hwrite.of_frame And.left rfl rfl rfl
  | refused err hw => exact hwrite.refused hw And.left
  | accepted result b hw =>
    have hsettle := hwrite.settle hw
    rw [hstored] at hsettle
    exact hsettle

theorem Remembers.delete (h : e.Remembers m known kept) (hgoes : DeleteGoes db e attempt xs) :
    attempt.2.Remembers m (lastKey m.key known xs) kept := by
  cases hgoes with
  | absent => exact h
  | stopped err => exact h
  | refused op err =>
    show e.Remembers m (keyAfter m.key known (op, .error err)) kept
    rw [keyAfter_error]
    exact h
  | accepted op response result => exact remembers_of_not_stored h.model rfl

/-! ## The key in a statement -/

theorem byKey_ok {target : Query} (h : e.byKey = .ok target) :
    ∃ k, target = e.model.rowsAt k ∧ (e.storedKey? = some k ∨ e.storedKey? = none ∧ e.key? = some k) := by
  unfold byKey at h
  cases hs : e.storedKey? with
  | some k =>
    rw [hs] at h
    exact ⟨k, (Except.ok.inj h).symm, .inl rfl⟩
  | none =>
    rw [hs] at h
    cases hk : e.key? with
    | some k =>
      rw [hk] at h
      exact ⟨k, (Except.ok.inj h).symm, .inr ⟨rfl, rfl⟩⟩
    | none =>
      rw [hk] at h
      cases h

theorem byKey_error (hs : e.storedKey? = none) (hk : e.key? = none) :
    e.byKey = .error (.ofCause (.keyless e.model.name e.model.key)) := by
  rw [byKey, hs, hk]
  rfl

/-- The operation names rows of the model's table by the key that the entity remembers or, if it remembers none, by the key
that it has. -/
def Names (e : Entity) (op : Operation) : Prop :=
  ∀ target, op.target? = some target → e.stored = true ∧
    ∃ k, target = e.model.rowsAt k ∧ (e.storedKey? = some k ∨ e.storedKey? = none ∧ e.key? = some k)

theorem names_of_plan {op : Operation} (h : e.plan db = .ok (some op)) : e.Names op := by
  intro target htarget
  rcases e.plan_ok_cases db h with ⟨-, -, hop⟩ | ⟨hs, found, p, hby, hprepare, hop⟩ | ⟨-, p, hprepare, hop⟩
  · cases hop
  · obtain rfl := Option.some.inj hop
    have htarget' : p.statement.target? = some target := htarget
    rw [Statement.statement_of_prepare hprepare] at htarget'
    obtain rfl : found = target := Option.some.inj htarget'
    exact ⟨hs, byKey_ok hby⟩
  · obtain rfl := Option.some.inj hop
    have hnone : p.statement.target? = none := by
      rw [Statement.statement_of_prepare hprepare]
      rfl
    unfold Db.inserting at htarget
    split at htarget
    · cases htarget
    · rw [show (Operation.exec p true).target? = p.statement.target? from rfl, hnone] at htarget
      cases htarget

theorem names_of_removal {op : Operation} (hs : e.stored = true) (h : e.removal db = .ok op) : e.Names op := by
  intro target htarget
  unfold removal at h
  cases hby : e.byKey with
  | error err =>
    rw [hby] at h
    cases h
  | ok found =>
    rw [hby] at h
    dsimp only at h
    cases hp : (Statement.delete found).prepare db.dialect with
    | error err =>
      rw [hp] at h
      cases h
    | ok p =>
      rw [hp] at h
      obtain rfl := Except.ok.inj h
      have htarget' : p.statement.target? = some target := htarget
      rw [Statement.statement_of_prepare hp] at htarget'
      obtain rfl : found = target := Option.some.inj htarget'
      exact ⟨hs, byKey_ok hby⟩

/-- What a write exchanges is what it planned. -/
theorem plan_of_mem_exchanges {x : Exchange} (h : x ∈ db.exchanges c (e.sends db)) : e.plan db = .ok (some x.1) := by
  unfold sends at h
  cases hp : e.plan db with
  | error err =>
    rw [hp] at h
    cases h
  | ok planned =>
    rw [hp] at h
    cases planned with
    | none => cases h
    | some op =>
      rw [List.mem_singleton.1 h]

/-! ## One call -/

/-- What is sent names the rows of a known key, if the entity remembers it; if it remembers none, it names the rows of the
key that the call leaves the entity with.  Without either key nothing is sent. -/
structure WritesByKey (e : Entity) (m : Model) (known : Option Value) (attempt : Attempt) (xs : List Exchange) :
    Prop where
  named : ∀ x ∈ xs, ∀ target, x.1.target? = some target → e.stored = true ∧ ∃ k, target = m.rowsAt k ∧
    (e.storedKey? = some k ∧ known = some k ∨ e.storedKey? = none ∧ attempt.2.key? = some k)
  keyless : e.stored = true → e.storedKey? = none → attempt.2.key? = none → xs = []

theorem plan_of_keyless (hs : e.stored = true) (hk : e.storedKey? = none) (hn : e.key? = none)
    {planned : Option Operation} (h : e.plan db = .ok planned) : e.dirty.entries = [] ∧ planned = none := by
  rcases e.plan_ok_cases db h with ⟨-, hd, rfl⟩ | ⟨-, target, p, hby, -, -⟩ | ⟨hc, -⟩
  · exact ⟨hd, rfl⟩
  · rw [byKey_error hk hn] at hby
    cases hby
  · rw [hs] at hc
    cases hc

theorem exchanges_of_keyless (hs : e.stored = true) (hk : e.storedKey? = none) (hn : e.key? = none) :
    db.exchanges c (e.sends db) = [] := by
  unfold sends
  cases hp : e.plan db with
  | error err => rfl
  | ok planned =>
    obtain ⟨-, rfl⟩ := plan_of_keyless hs hk hn hp
    rfl

/-- A write that was accepted leaves a stored entity its key. -/
theorem key?_settle (hs : e.stored = true) {a : Attributes} (hw : e.written db c = .ok a) :
    (e.settle a).key? = e.key? := by
  rcases lastKey_of_written none hw with ⟨-, rfl, -⟩ | ⟨hn, -⟩
  · rfl
  · rw [hs] at hn
    cases hn

theorem Remembers.writesByKey_write (h : e.Remembers m known kept) (hm : e'.model = e.model) (hs : e'.stored = e.stored)
    (hn : e'.snapshot = e.snapshot) (hkey : e.stored = true → attempt.2.key? = e'.key?) :
    e.WritesByKey m known attempt (db.exchanges c (e'.sends db)) where
  named x hx target htarget := by
    obtain ⟨hstored, k, rfl, hk⟩ := names_of_plan (plan_of_mem_exchanges hx) target htarget
    rw [hs] at hstored
    rw [storedKey?_of_frame hm hs hn, ← hkey hstored] at hk
    refine ⟨hstored, k, by rw [hm, h.model], hk.imp_left fun hremembered => ⟨hremembered, h.key k hremembered⟩⟩
  keyless hstored hnone hattempt := by
    rw [hkey hstored] at hattempt
    exact exchanges_of_keyless (hs.trans hstored) ((storedKey?_of_frame hm hs hn).trans hnone) hattempt

theorem writesByKey_nil : e.WritesByKey m known attempt [] :=
  ⟨fun _ hx => absurd hx List.not_mem_nil, fun _ _ _ => rfl⟩

theorem Remembers.writesByKey_save (h : e.Remembers m known kept) (hedits : db.EditsAttributes)
    (hgoes : SaveGoes db e c attempt xs) : e.WritesByKey m known attempt xs := by
  obtain ⟨a, ha⟩ := toWrite_eq db hedits e
  have hm : (e.toWrite db).model = e.model := by rw [ha]
  have hs : (e.toWrite db).stored = e.stored := by rw [ha]
  have hn : (e.toWrite db).snapshot = e.snapshot := by rw [ha]
  cases hgoes with
  | clean => exact writesByKey_nil
  | stopped err => exact writesByKey_nil
  | refused err hw => exact h.writesByKey_write hm hs hn fun _ => rfl
  | accepted result b hw => exact h.writesByKey_write hm hs hn fun hstored => key?_settle (hs.trans hstored) hw

theorem Remembers.writesByKey_delete (h : e.Remembers m known kept) (hgoes : DeleteGoes db e attempt xs) :
    e.WritesByKey m known attempt xs := by
  have hone : ∀ {op answer} {e'' : Entity}, e.stored = true → e.removal db = .ok op → e''.key? = e.key? →
      e.WritesByKey m known (attempt.1, e'') [(op, answer)] := by
    intro op answer e'' hs hop hkey
    refine ⟨fun x hx target htarget => ?_, fun _ hk hn => ?_⟩
    · obtain rfl := List.mem_singleton.1 hx
      obtain ⟨-, k, rfl, hk⟩ := names_of_removal hs hop target htarget
      refine ⟨hs, k, by rw [h.model], ?_⟩
      rw [show (attempt.1, e'').2.key? = e.key? from hkey]
      exact hk.imp_left fun hremembered => ⟨hremembered, h.key k hremembered⟩
    · rw [removal, byKey_error hk (hkey.symm.trans hn)] at hop
      cases hop
  cases hgoes with
  | absent => exact writesByKey_nil
  | stopped err => exact writesByKey_nil
  | refused op err hs hop => exact hone hs hop rfl
  | accepted op response result hs hop => exact hone hs hop rfl

/-- Without a key a save that succeeds had nothing to write. -/
theorem unchanged_of_keyless_save (hedits : db.EditsAttributes) (hgoes : SaveGoes db e c attempt xs)
    (hs : e.stored = true) (hk : e.storedKey? = none) (hn : attempt.2.key? = none) (hok : attempt.1 = .ok ())
    {name : String} {v : Value} (hv : attempt.2.get? name = some v) : e.snapshot.get? name = some v := by
  obtain ⟨a, ha⟩ := toWrite_eq db hedits e
  have hstored : (e.toWrite db).stored = true := by rw [ha]; exact hs
  have hsnapshot : (e.toWrite db).snapshot = e.snapshot := by rw [ha]
  have hremembered : (e.toWrite db).storedKey? = none := by rw [← hk, ha]; rfl
  cases hgoes with
  | clean hclean => exact (unchanged_of_clean hclean).2 _ _ hv
  | stopped err => cases hok
  | refused err => cases hok
  | accepted result b hw =>
    have hkey : (e.toWrite db).key? = none := (key?_settle hstored hw).symm.trans hn
    rcases lastKey_of_written none hw with ⟨-, rfl, -⟩ | ⟨hc, -⟩
    · by_contra hne
      have hdirty : (name, v) ∈ (e.toWrite db).dirty.entries :=
        Attributes.mem_changedFrom_iff.2 ⟨hv, hsnapshot ▸ hne⟩
      unfold written at hw
      cases hp : (e.toWrite db).plan db with
      | error err =>
        rw [hp] at hw
        cases hw
      | ok planned =>
        rw [(plan_of_keyless hstored hremembered hkey hp).1] at hdirty
        cases hdirty
    · rw [hstored] at hc
      cases hc

/-- Without a key no delete succeeds. -/
theorem error_of_keyless_delete (hgoes : DeleteGoes db e attempt xs) (hs : e.stored = true) (hk : e.storedKey? = none)
    (hn : attempt.2.key? = none) : attempt.1 ≠ .ok () := by
  cases hgoes with
  | absent hc =>
    rw [hs] at hc
    cases hc
  | stopped err => nofun
  | refused op err => nofun
  | accepted op response result _ hop =>
    rw [removal, byKey_error hk hn] at hop
    cases hop

end Entity

/-! ## Runs -/

namespace Step

variable {σ : Type} (s : Step) (db : Db σ)

theorem replay_handle : ∀ (events : List Event) (c : σ), (s.handle db).replay c events = db.replay c events
  | [], _ => rfl
  | .sent op :: rest, c => replay_handle rest (db.exec op c).2
  | .hook _ _ :: rest, c => replay_handle rest c

theorem exchanges_handle : ∀ (events : List Event) (c : σ), (s.handle db).exchanges c events = db.exchanges c events
  | [], _ => rfl
  | .sent op :: rest, c => congrArg (_ :: ·) (exchanges_handle rest (db.exec op c).2)
  | .hook _ _ :: rest, c => exchanges_handle rest c

theorem after_handle (w : World σ) (events : List Event) : (s.handle db).after w events = db.after w events := by
  rw [Db.after, replay_handle]
  rfl

/-- If the call saves an entity that has a row, it leaves it the attribute of its key. -/
def KeepsKey (x : Entity × World σ) : Prop :=
  s.call = .save ∨ s.call = .touch → x.1.stored = true → ((s.next db x).1.get? x.1.model.key).isSome = true

/-- What the call sends names its row by its key; without a key it sends nothing, and succeeds only if there was nothing
to do. -/
structure WritesByKey (m : Model) (known : Option Value) (x : Entity × World σ) : Prop where
  sent : x.1.WritesByKey m known ((s.run db x.1).run x.2).1 (db.exchanged x.2 (s.next db x).2)
  save : s.call = .save → x.1.stored = true → x.1.storedKey? = none → (s.next db x).1.key? = none →
    ((s.run db x.1).run x.2).1.1 = .ok () → ∀ name v, (s.next db x).1.get? name = some v →
      x.1.snapshot.get? name = some v
  delete : s.call = .delete → x.1.stored = true → x.1.storedKey? = none → (s.next db x).1.key? = none →
    ((s.run db x.1).run x.2).1.1 ≠ .ok ()

/-- The entity and the state after a run of calls, however they end. -/
def runAll (steps : List Step) (x : Entity × World σ) : Entity × World σ := steps.foldl (fun x s => s.next db x) x

/-- No save of the run finds the entity without the attribute of its key. -/
def KeepKeys : List Step → Entity × World σ → Prop
  | [], _ => True
  | s :: rest, x => s.KeepsKey db x ∧ KeepKeys rest (s.next db x)

end Step

namespace Entity.Remembers

variable {σ : Type} {db : Db σ} {m : Model} {e : Entity} {known : Option Value} {kept : Prop} {s : Step}

/-- A call that saves an entity, or that touches it and then saves it. -/
theorem step_save (h : e.Remembers m known kept) (hedits : (s.handle db).EditsAttributes) (w : World σ) {e' : Entity}
    (hm : e'.model = e.model) (hs : e'.stored = e.stored) (hn : e'.snapshot = e.snapshot)
    (hcall : s.call = .save ∨ s.call = .touch) (hrun : s.run db e = e'.save (s.handle db)) :
    s.WritesByKey db m known (e, w) ∧ ∃ events, (s.next db (e, w)).2 = db.after w events ∧
      (s.next db (e, w)).1.Remembers m (lastKey m.key known (db.exchanges w.connection events))
        (kept ∧ s.KeepsKey db (e, w)) := by
  obtain ⟨events, hafter, hgoes⟩ := save_goes (s.handle db) e' w
  rw [s.after_handle db] at hafter
  rw [s.exchanges_handle db] at hgoes
  rw [← hrun] at hafter hgoes
  have hremembered : e'.storedKey? = e.storedKey? := storedKey?_of_frame hm hs hn
  have hsaved : e'.Remembers m known kept := h.of_frame id hm hs hn
  have hwrites := hsaved.writesByKey_save hedits hgoes
  have hnext : (s.next db (e, w)).2 = db.after w events := hafter
  refine ⟨⟨?_, fun _ hstored hnone hkey hok name v hv => ?_, fun hdelete => ?_⟩, events, hnext, ?_⟩
  · rw [hnext, db.exchanged_after]
    refine ⟨fun x hx target htarget => ?_, fun hstored hnone =>
      hwrites.keyless (hs.trans hstored) (hremembered.trans hnone)⟩
    rw [← hremembered, ← hs]
    exact hwrites.named x hx target htarget
  · rw [← hn]
    exact unchanged_of_keyless_save hedits hgoes (hs.trans hstored) (hremembered.trans hnone) hkey hok hv
  · rw [hdelete] at hcall
    rcases hcall with hc | hc <;> cases hc
  · refine (hsaved.save hedits hgoes).of_frame ?_ rfl rfl rfl
    rintro ⟨hkept, hkeeps⟩
    refine ⟨hkept, fun hstored => ?_⟩
    have hkey := hkeeps hcall (hs ▸ hstored)
    rw [h.model] at hkey
    exact hkey

/-- **One call.**  An entity that remembers the known key writes by it, and remembers the key that is known afterwards. -/
theorem step (h : e.Remembers m known kept) (hedits : (s.handle db).EditsAttributes) (w : World σ) :
    s.WritesByKey db m known (e, w) ∧ ∃ events, (s.next db (e, w)).2 = db.after w events ∧
      (s.next db (e, w)).1.Remembers m (lastKey m.key known (db.exchanges w.connection events))
        (kept ∧ s.KeepsKey db (e, w)) := by
  have hsilent : ∀ {e' : Entity} {result : Except Error Unit}, s.call ≠ .save → s.call ≠ .delete →
      e'.model = e.model → e'.stored = e.stored → e'.snapshot = e.snapshot →
      s.run db e = (pure (result, e') : Session σ Attempt) →
      s.WritesByKey db m known (e, w) ∧ ∃ events, (s.next db (e, w)).2 = db.after w events ∧
        (s.next db (e, w)).1.Remembers m (lastKey m.key known (db.exchanges w.connection events))
          (kept ∧ s.KeepsKey db (e, w)) := by
    intro e' result hsave hdelete hm hs hn hrun
    have hnext : s.next db (e, w) = (e', w) := by
      rw [Step.next, hrun]
      rfl
    rw [hnext]
    refine ⟨⟨?_, fun hc => absurd hc hsave, fun hc => absurd hc hdelete⟩, [], (db.after_nil w).symm,
      h.of_frame And.left hm hs hn⟩
    rw [hnext, db.exchanged_self]
    exact writesByKey_nil
  cases hc : s.call with
  | edit x =>
    cases hx : x.apply e with
    | error err =>
      exact hsilent (by rw [hc]; nofun) (by rw [hc]; nofun) rfl rfl rfl (by rw [Step.run, hc, Call.run, hx])
    | ok e' =>
      obtain ⟨hm, hs, hn⟩ := Edit.apply_frame hx
      exact hsilent (by rw [hc]; nofun) (by rw [hc]; nofun) hm hs hn (by rw [Step.run, hc, Call.run, hx])
  | save => exact h.step_save hedits w rfl rfl rfl (.inl hc) (by rw [Step.run, hc]; rfl)
  | touch =>
    by_cases ht : e.model.timestamps = true
    · have hrun : s.run db e = (e.set "updated_at" (.timestamp (s.handle db).now)).save (s.handle db) := by
        rw [Step.run, hc, Call.run, Entity.touch, if_pos ht]
      refine h.step_save hedits w ?_ ?_ ?_ (.inr hc) hrun <;> rfl
    · exact hsilent (by rw [hc]; nofun) (by rw [hc]; nofun) rfl rfl rfl
        (by rw [Step.run, hc, Call.run, Entity.touch, if_neg ht])
  | delete =>
    obtain ⟨events, hafter, hgoes⟩ := delete_goes (s.handle db) e w
    rw [s.after_handle db] at hafter
    rw [s.exchanges_handle db] at hgoes
    have hrun : s.run db e = e.delete (s.handle db) := by
      rw [Step.run, hc]
      rfl
    rw [← hrun] at hafter hgoes
    have hnext : (s.next db (e, w)).2 = db.after w events := hafter
    refine ⟨⟨?_, fun hsave => ?_, fun _ hstored hnone hkey => error_of_keyless_delete hgoes hstored hnone hkey⟩,
      events, hnext, (h.delete hgoes).of_frame And.left rfl rfl rfl⟩
    · rw [hnext, db.exchanged_after]
      exact h.writesByKey_delete hgoes
    · rw [hc] at hsave
      cases hsave

/-- **A run of calls.**  What is remembered is known after any run. -/
theorem runAll :
    ∀ {steps : List Step} {e : Entity} {known : Option Value} {kept : Prop} {w : World σ},
      e.Remembers m known kept → (∀ s ∈ steps, (s.handle db).EditsAttributes) →
        ∃ events, (Step.runAll db steps (e, w)).2 = db.after w events ∧
          (Step.runAll db steps (e, w)).1.Remembers m (lastKey m.key known (db.exchanges w.connection events))
            (kept ∧ Step.KeepKeys db steps (e, w))
  | [], _, _, _, w, h, _ => ⟨[], (db.after_nil w).symm, h.of_frame And.left rfl rfl rfl⟩
  | s :: rest, e, known, kept, w, h, hedits => by
    rw [List.forall_mem_cons] at hedits
    obtain ⟨-, events, hw, hstep⟩ := h.step hedits.1 w
    obtain ⟨more, hw', hrest⟩ := runAll (w := (s.next db (e, w)).2) hstep hedits.2
    refine ⟨events ++ more, ?_, ?_⟩
    · rw [← db.after_after, ← hw]
      exact hw'
    · rw [db.exchanges_append, lastKey, List.foldl_append]
      rw [show (s.next db (e, w)).2.connection = _ from congrArg World.connection hw] at hrest
      refine hrest.of_frame ?_ rfl rfl rfl
      exact fun hkept => ⟨⟨hkept.1, hkept.2.1⟩, hkept.2.2⟩

end Entity.Remembers

/-- An entity that is new, or that was read from a row, with the key that is known of it. -/
inductive Entity.Begins (m : Model) : Entity → Option Value → Prop where
  | new : Begins m (Entity.new m) none
  | read {e : Entity} (row : Row) (isRow : e.IsRow m row) : Begins m e (Value.present? (row.get? m.key))

theorem Entity.Begins.remembers {m : Model} {e : Entity} {known : Option Value} (h : e.Begins m known) :
    e.Remembers m known True := by
  cases h with
  | new => exact remembers_of_not_stored rfl rfl
  | read row hrow =>
    have hstored : e.storedKey? = Value.present? (row.get? m.key) := by
      rw [storedKey?, if_pos hrow.stored, hrow.snapshot, hrow.model]
      rfl
    exact ⟨hrow.model, fun k hk => hstored ▸ hk, fun _ _ => hstored⟩

/-- **A remembered key is the key of the row.**  Whatever calls an entity goes through, what it sends to update or delete
names the rows of one key.  While the entity remembers a key, that is the key of the row as last read or written, and
it remembers the known key unless a save found it without the attribute.  An entity that remembers none names the rows of
the key that it has then, and one that has none sends nothing and fails. -/
theorem Entity.Begins.writes_by_key {σ : Type} {db : Db σ} {m : Model} {e₀ : Entity} {known₀ : Option Value}
    (h : e₀.Begins m known₀) {steps : List Step} (hedits : ∀ s ∈ steps, (s.handle db).EditsAttributes) (w₀ : World σ)
    {x : Entity × World σ} (hx : x = Step.runAll db steps (e₀, w₀)) {known : Option Value}
    (hknown : known = lastKey m.key known₀ (db.exchanged w₀ x.2)) :
    (∀ k, x.1.storedKey? = some k → known = some k) ∧
      (Step.KeepKeys db steps (e₀, w₀) → x.1.stored = true → x.1.storedKey? = known) ∧
      ∀ s : Step, (s.handle db).EditsAttributes → s.WritesByKey db m known x := by
  obtain ⟨events, hw, hremembers⟩ := h.remembers.runAll (w := w₀) hedits
  rw [← hx] at hw hremembers
  rw [hw, db.exchanged_after] at hknown
  rw [← hknown] at hremembers
  exact ⟨hremembers.key, fun hkeep => hremembers.complete ⟨trivial, hkeep⟩, fun s hs => (hremembers.step hs x.2).1⟩

namespace Blog

/-- A call without hooks. -/
def plain (call : Call) : Step := ⟨call, [], .ofUnixSeconds 0⟩

def userDb : Db (List Row) := db (KeyedStore.exec .sqlite userModel)

theorem editsAttributes_plain (call : Call) : ((plain call).handle userDb).EditsAttributes := by
  intro m hooks hh
  obtain ⟨id, -, hid⟩ := Option.bind_eq_some_iff.1 hh
  cases hid

/-- The user gets another key. -/
def rekeying : List Step := [plain (.edit (.set "id" (.int 9))), plain .save]

/-- A user that was read without the key, and the row of another one. -/
def nameless : Entity × World (List Row) :=
  (.ofRow userModel (.ofList [("name", .text "Ada")]), ⟨[.ofList [("id", .int 9), ("name", .text "Bob")]], []⟩)

def guessing : List Step := [plain (.edit (.set "id" (.int 9))), plain (.edit (.set "name" (.text "Eve")))]

end Blog

/-- The changed key is the one that the row was last written with, and the one that a delete would name it by. -/
theorem writes_by_key_user :
    (Entity.ofRow Blog.userModel (Blog.user 1)).Begins Blog.userModel (some (.int 1)) ∧
      (∀ s ∈ Blog.rekeying, (s.handle Blog.userDb).EditsAttributes) ∧
      ∃ x, x = Step.runAll Blog.userDb Blog.rekeying (.ofRow Blog.userModel (Blog.user 1), ⟨[Blog.user 1], []⟩) ∧
        some (.int 9) = lastKey "id" (some (.int 1)) (Blog.userDb.exchanged ⟨[Blog.user 1], []⟩ x.2) ∧
        x.1.storedKey? = some (.int 9) ∧
        (Blog.plain .delete).WritesByKey Blog.userDb Blog.userModel (some (.int 9)) x := by
  have hbegins : (Entity.ofRow Blog.userModel (Blog.user 1)).Begins Blog.userModel (some (.int 1)) :=
    .read (Blog.user 1) (Entity.isRow_ofRow _ _)
  have hedits : ∀ s ∈ Blog.rekeying, (s.handle Blog.userDb).EditsAttributes := by
    intro s hs
    rcases List.mem_cons.1 hs with rfl | hs
    · exact Blog.editsAttributes_plain _
    · rw [List.mem_singleton.1 hs]
      exact Blog.editsAttributes_plain _
  have hknown : some (.int 9) = lastKey "id" (some (.int 1)) (Blog.userDb.exchanged ⟨[Blog.user 1], []⟩
      (Step.runAll Blog.userDb Blog.rekeying (.ofRow Blog.userModel (Blog.user 1), ⟨[Blog.user 1], []⟩)).2) := by
    decide +kernel
  obtain ⟨-, -, hcall⟩ := hbegins.writes_by_key hedits ⟨[Blog.user 1], []⟩ rfl hknown
  exact ⟨hbegins, hedits, _, rfl, hknown, by decide +kernel, hcall _ (Blog.editsAttributes_plain .delete)⟩

/-- No key is known of the row that the user was read from, and the key that is set later overwrites another user. -/
theorem overwrites_row_of_guessed_key :
    Blog.nameless.1.Begins Blog.userModel none ∧
      let x := Step.runAll Blog.userDb Blog.guessing Blog.nameless
      let y := (Blog.plain .save).next Blog.userDb x
      x.1.stored = true ∧ lastKey "id" none (Blog.userDb.exchanged Blog.nameless.2 x.2) = none ∧
        (Blog.userDb.exchanged x.2 y.2).map (·.1.target?) = [some (Blog.userModel.rowsAt (.int 9))] ∧
        y.2.connection = [.ofList [("id", .int 9), ("name", .text "Eve")]] := by
  refine ⟨.read _ (Entity.isRow_ofRow _ _), by decide +kernel, by decide +kernel, ?_, by decide +kernel⟩
  rfl

end SqlMapper
