import SqlMapper.Proofs.Session.KeyedTable
import SqlMapper.Relation.RelationQuery
/-!
# Snapshot — what an entity remembers of its row

A stored entity is in step with its table when the row at the key of its snapshot holds the snapshot.  No call takes the
two apart: an edit changes neither, a write that fails changes neither, and a write that succeeds brings the row to the
attributes that become the new snapshot, since what changed is written and what did not was in the row before.
-/
namespace SqlMapper

/-! ## An entity and its row -/

namespace Entity

/-- The key of the entity's row as it is bound; none if it has no row. -/
def ownKey (e : Entity) (d : Dialect) : Option Value := if e.stored then e.snapshot.bound? d e.model.key else none

/-- The row at the key of the snapshot has the attributes. -/
def RowHolds (e : Entity) (d : Dialect) (rows : List Row) (a : Attributes) : Prop :=
  ∃ row ∈ rows, row.bound? d e.model.key = e.snapshot.bound? d e.model.key ∧ row.Holds d a

/-- If the entity has a row, then the row holds the snapshot, and the entity has a key to write to it. -/
structure InStep (e : Entity) (d : Dialect) (m : Model) (rows : List Row) : Prop where
  model : e.model = m
  keyed : Keyed d m.key rows
  key : e.stored = true → e.key?.isSome = true
  row : e.stored = true → e.RowHolds d rows e.snapshot

/-- From the one entity and table to the other: they are in step again, and the rows beside the entity's are the same. -/
structure Advances (d : Dialect) (m : Model) (e : Entity) (rows : List Row) (e' : Entity) (rows' : List Row) : Prop where
  inStep : e'.InStep d m rows'
  beside : rowsBeside d m.key (e'.ownKey d) rows' = rowsBeside d m.key (e.ownKey d) rows

variable {d : Dialect} {m : Model} {e e' : Entity} {rows : List Row}

theorem Advances.trans {e'' : Entity} {rows' rows'' : List Row} (h : Advances d m e rows e' rows')
    (h' : Advances d m e' rows' e'' rows'') : Advances d m e rows e'' rows'' :=
  ⟨h'.inStep, h'.beside.trans h.beside⟩

/-- An edit of attributes leaves the entity in step if it leaves it a key. -/
theorem InStep.advances_edit (h : e.InStep d m rows) (hm : e'.model = e.model) (hs : e'.stored = e.stored)
    (hn : e'.snapshot = e.snapshot) (hk : e'.stored = true → e'.key?.isSome = true) : Advances d m e rows e' rows where
  inStep :=
    { model := hm.trans h.model
      keyed := h.keyed
      key := hk
      row := fun hst => by
        unfold RowHolds
        rw [hm, hn]
        exact h.row (hs ▸ hst) }
  beside := by rw [ownKey, ownKey, hs, hm, hn]

theorem key?_eq_some_iff {k : Value} : e.key? = some k ↔ e.get? e.model.key = some k ∧ k ≠ .null := by
  rw [key?, Option.filter_eq_some_iff]
  refine and_congr_right' ?_
  cases k <;> simp [Value.isNull]

theorem isSome_key?_iff : e.key?.isSome = true ↔ ∃ k, e.get? e.model.key = some k ∧ k ≠ .null := by
  rw [Option.isSome_iff_exists]
  exact exists_congr fun k => key?_eq_some_iff

theorem getD_key_of_key?_eq_none (h : e.key? = none) : (e.attributes.get? e.model.key).getD .null = .null := by
  by_contra hn
  cases hv : e.attributes.get? e.model.key with
  | none => exact hn (by rw [hv]; rfl)
  | some v =>
    rw [hv] at hn
    rw [key?_eq_some_iff.2 ⟨hv, hn⟩] at h
    cases h

theorem isSome_key?_set {name : String} {v : Value} (hv : v ≠ .null) (h : e.key?.isSome = true) :
    (e.set name v).key?.isSome = true := by
  obtain ⟨k, hk, hn⟩ := isSome_key?_iff.1 h
  rw [isSome_key?_iff]
  show ∃ k, (e.attributes.insert name v).get? e.model.key = some k ∧ k ≠ .null
  rw [Attributes.get?_insert]
  split
  · exact ⟨v, rfl, hv⟩
  · exact ⟨k, hk, hn⟩

theorem isSome_key?_stamp {now : Timestamp} (h : e.key?.isSome = true) : (e.stamp now).key?.isSome = true := by
  unfold stamp
  split
  · have hset : (e.set "updated_at" (.timestamp now)).key?.isSome = true := isSome_key?_set nofun h
    dsimp only
    split
    · exact isSome_key?_set nofun hset
    · exact hset
  · exact h

/-- The key that the row of an entity in step is found by. -/
theorem InStep.byKey (h : e.InStep d m rows) (hs : e.stored = true) :
    ∃ k, e.snapshot.get? m.key = some k ∧ k ≠ .null ∧
      e.byKey = .ok ((Query.table m.table).filter (.parse m.key) (.value k)) := by
  obtain ⟨row, hrow, hkey, -⟩ := h.row hs
  obtain ⟨b, hb, hn⟩ := h.keyed.present row hrow
  rw [h.model, hb] at hkey
  obtain ⟨k, hk, rfl⟩ := Option.map_eq_some_iff.1 hkey.symm
  refine ⟨k, hk, Token.binding_ne_null.1 hn, ?_⟩
  have hstored : e.storedKey? = some k := by
    rw [storedKey?, if_pos hs, h.model, hk, Option.filter_some, Value.isNull_eq_false (Token.binding_ne_null.1 hn)]
    rfl
  rw [Entity.byKey, hstored, h.model]
  rfl

/-! ## A write that was accepted -/

theorem holds_of_nothing_changed {row : Row} (hrow : row.Holds d e.snapshot) (hd : e.dirty.entries = []) :
    row.Holds d e.attributes := by
  intro name v hv
  by_cases hsame : e.snapshot.get? name = some v
  · exact hrow name v hsame
  · have hm : (name, v) ∈ e.dirty.entries := Attributes.mem_changedFrom_iff.2 ⟨hv, hsame⟩
    rw [hd] at hm
    exact absurd hm List.not_mem_nil

theorem names_changes (target : Query) : Assoc.names (e.changes target).assignments = e.dirty.names := by
  rw [changes, Assoc.names, List.map_map]
  rfl

/-- The changed attributes are written, and the others were in the row before. -/
theorem holds_of_rewrites {row row' : Row} {target : Query} (hrow : row.Holds d e.snapshot)
    (h : (e.changes target).Rewrites d row row') : row'.Holds d e.attributes := by
  intro name v hv
  by_cases hsame : e.snapshot.get? name = some v
  · have hn : name ∉ Assoc.names (e.changes target).assignments := by
      rw [names_changes]
      intro hm
      obtain ⟨⟨_, u⟩, hu, rfl⟩ := List.mem_map.1 hm
      obtain ⟨hu, hne⟩ := Attributes.mem_changedFrom_iff.1 hu
      rw [hv] at hu
      cases hu
      exact hne hsame
    rw [Attributes.bound?, h.kept name hn]
    exact hrow name v hsame
  · have hm : (name, v) ∈ e.dirty.entries := Attributes.mem_changedFrom_iff.2 ⟨hv, hsame⟩
    rw [Attributes.bound?, h.assigned name v (List.mem_map_of_mem hm)]
    exact congrArg some (Token.binding_binding d v)

/-- What is stored for a new entity holds its attributes, with the key that the answer tells if it had none. -/
theorem holds_of_insert {row : Row} {key : Option Value} (h : e.attributes.Stored d e.model.key row)
    (hkey : e.key? = none → ∃ k, key = some k ∧ row.bound? d e.model.key = some (Token.binding d k)) :
    row.Holds d (e.withGenerated key) ∧ ((e.withGenerated key).get? e.model.key).isSome = true := by
  have hbound : ∀ {name v}, e.attributes.get? name = some v → (name = e.model.key → v ≠ .null) →
      row.bound? d name = some (Token.binding d v) := by
    intro name v hv hn
    rw [Attributes.bound?, h name v hv hn]
    exact congrArg some (Token.binding_binding d v)
  cases he : e.key? with
  | some k =>
    obtain ⟨hk, hn⟩ := key?_eq_some_iff.1 he
    have hsame : e.withGenerated key = e.attributes := by
      unfold withGenerated
      rw [he]
      cases key <;> rfl
    rw [hsame]
    refine ⟨fun name v hv => hbound hv ?_, Option.isSome_iff_exists.2 ⟨k, hk⟩⟩
    rintro rfl
    rw [show e.attributes.get? e.model.key = some k from hk] at hv
    exact Option.some.inj hv ▸ hn
  | none =>
    obtain ⟨k, rfl, hk⟩ := hkey he
    have hgen : e.withGenerated (some k) = e.attributes.insert e.model.key k := by
      unfold withGenerated
      rw [he]
    rw [hgen]
    constructor
    · intro name v hv
      rw [Attributes.get?_insert] at hv
      by_cases hname : e.model.key = name
      · rw [if_pos hname] at hv
        cases hv
        exact hname ▸ hk
      · rw [if_neg hname] at hv
        exact hbound hv fun hc => absurd hc.symm hname
    · rw [Attributes.get?_insert, if_pos rfl]
      rfl

/-- A row that holds the attributes that were written, with their key, is the entity's row from then on. -/
theorem inStep_settle {a : Attributes} (hm : e.model = m) (hkeyed : Keyed d m.key rows) {row : Row} (hrow : row ∈ rows)
    (hholds : row.Holds d a) (hk : (a.get? m.key).isSome = true) :
    (e.settle a).InStep d m rows ∧ (e.settle a).ownKey d = row.bound? d m.key := by
  subst hm
  have hbound : row.bound? d e.model.key = a.bound? d e.model.key := hholds.bound? hk
  refine ⟨⟨rfl, hkeyed, fun _ => ?_, fun _ => ⟨row, hrow, hbound, hholds⟩⟩, hbound.symm⟩
  obtain ⟨b, hb, hn⟩ := hkeyed.present row hrow
  rw [hbound] at hb
  obtain ⟨k, hk, rfl⟩ := Option.map_eq_some_iff.1 hb
  exact isSome_key?_iff.2 ⟨k, hk, Token.binding_ne_null.1 hn⟩

theorem InStep.get?_key (h : e.InStep d m rows) (hs : e.stored = true) : (e.attributes.get? m.key).isSome = true := by
  obtain ⟨k, hk, -⟩ := isSome_key?_iff.1 (h.key hs)
  rw [h.model] at hk
  exact Option.isSome_iff_exists.2 ⟨k, hk⟩

theorem ownKey_of_stored (hm : e.model = m) (hs : e.stored = true) : e.ownKey d = e.snapshot.bound? d m.key := by
  rw [ownKey, if_pos hs, hm]

section

variable {σ : Type} {db : Db σ} {content : σ → List Row} {reading : Row → Reading}

/-- Nothing is sent if only removals are to be saved; the row holds what is left. -/
theorem advances_of_nothing_changed (h : e.InStep d m rows) (hs : e.stored = true) (hd : e.dirty.entries = []) :
    Advances d m e rows (e.settle e.attributes) rows := by
  obtain ⟨row, hrow, hkey, hholds⟩ := h.row hs
  rw [h.model] at hkey
  obtain ⟨hstep, hown⟩ :=
    inStep_settle h.model h.keyed hrow (holds_of_nothing_changed hholds hd) (h.get?_key hs)
  exact ⟨hstep, by rw [hown, hkey, ownKey_of_stored h.model hs]⟩

theorem advances_of_update (h : db.KeepsTable m content reading) {c : σ} (he : e.InStep db.dialect m (content c))
    (hs : e.stored = true) {target : Query} (ht : e.byKey = .ok target) {p : Prepared} {response : Response}
    (hp : (Statement.update (e.changes target)).prepare db.dialect = .ok p)
    (hr : (db.exec (.exec p false) c).1 = .ok response) :
    Advances db.dialect m e (content c) (e.settle e.attributes) (content (db.exec (.exec p false) c).2) := by
  obtain ⟨row, hrow, hkey, hholds⟩ := he.row hs
  obtain ⟨k, hk, hn, hby⟩ := he.byKey hs
  have htarget : target = (Query.table m.table).filter (.parse m.key) (.value k) := Except.ok.inj (ht.symm.trans hby)
  rw [he.model] at hkey
  have hfound : row.bound? db.dialect m.key = some (Token.binding db.dialect k) := by
    rw [hkey, Attributes.bound?, hk]
    rfl
  have hnodup : (Assoc.names (e.changes target).assignments).Nodup := by
    rw [names_changes]
    exact e.dirty.nodup
  obtain ⟨before, after, row', hc, hc', hrewrites⟩ :=
    h.split_of_update he.keyed hn htarget hnodup hp hr hrow hfound
  have hkeyed' := h.keyed (.exec p false) c he.keyed
  rw [hc'] at hkeyed' ⊢
  obtain ⟨hstep, hown⟩ :=
    inStep_settle he.model hkeyed' (List.mem_append_right before List.mem_cons_self)
      (holds_of_rewrites hholds hrewrites) (he.get?_key hs)
  have hkeyed := he.keyed
  rw [hc] at hkeyed ⊢
  refine ⟨hstep, ?_⟩
  rw [hown, hkeyed'.rowsBeside_split, ownKey_of_stored he.model hs, ← hkey, hkeyed.rowsBeside_split]

theorem advances_of_insert (h : db.KeepsTable m content reading) {c : σ} (he : e.InStep db.dialect m (content c))
    (hs : e.stored = false) {p : Prepared} {response : Response}
    (hp : (Statement.insert (db.asking (.ofAttributes e.model.table e.attributes) e.model.key)).prepare db.dialect =
      .ok p)
    (hr : (db.exec (db.inserting p) c).1 = .ok response) :
    ∃ a, e.taken db response = .ok a ∧
      Advances db.dialect m e (content c) (e.settle a) (content (db.exec (db.inserting p) c).2) := by
  obtain rfl := he.model
  obtain ⟨row, hc', hstored, hrows, htells⟩ := h.insert e.attributes p c response hp hr
  have hreported : ∃ key, db.reportedKey e.model.key response = .ok key ∧ (e.key? = none →
      ∃ k, key = some k ∧ row.bound? db.dialect e.model.key = some (Token.binding db.dialect k)) := by
    by_cases hk : e.key? = none
    · obtain ⟨k, ht, hbound⟩ := htells (getD_key_of_key?_eq_none hk)
      exact ⟨some k, Db.reportedKey_of_tells ht, fun _ => ⟨k, rfl, hbound⟩⟩
    · obtain ⟨key, hkey⟩ := Db.exists_reportedKey e.model.key hrows
      exact ⟨key, hkey, fun hn => absurd hn hk⟩
  obtain ⟨key, hkey, hgiven⟩ := hreported
  obtain ⟨hholds, hsome⟩ := holds_of_insert hstored hgiven
  refine ⟨e.withGenerated key, ?_, ?_⟩
  · rw [taken, hs, if_neg Bool.false_ne_true, hkey]
    rfl
  · have hkeyed' := h.keyed (db.inserting p) c he.keyed
    rw [hc'] at hkeyed' ⊢
    obtain ⟨hstep, hown⟩ := inStep_settle rfl hkeyed' (List.mem_append_right _ List.mem_cons_self) hholds hsome
    have hnone : e.ownKey db.dialect = none := by rw [ownKey, hs, if_neg Bool.false_ne_true]
    refine ⟨hstep, ?_⟩
    rw [hown, hnone, hkeyed'.rowsBeside_split, List.append_nil, he.keyed.rowsBeside_none]

theorem advances_of_delete (h : db.KeepsTable m content reading) {c : σ} (he : e.InStep db.dialect m (content c))
    (hs : e.stored = true) {k : Value} (hk : e.snapshot.get? m.key = some k) (hn : k ≠ .null) {p : Prepared}
    {response : Response}
    (hp : (Statement.delete ((Query.table m.table).filter (.parse m.key) (.value k))).prepare db.dialect = .ok p)
    (hr : (db.exec (.exec p false) c).1 = .ok response) :
    Advances db.dialect m e (content c) { e with stored := false } (content (db.exec (.exec p false) c).2) := by
  have hkeyed' := h.keyed (.exec p false) c he.keyed
  refine ⟨⟨he.model, hkeyed', fun hc => absurd hc Bool.false_ne_true, fun hc => absurd hc Bool.false_ne_true⟩, ?_⟩
  have hown : e.ownKey db.dialect = some (Token.binding db.dialect k) := by
    rw [ownKey_of_stored he.model hs, Attributes.bound?, hk]
    rfl
  have hnone : ({ e with stored := false } : Entity).ownKey db.dialect = none := rfl
  rw [hown, hnone, hkeyed'.rowsBeside_none, h.content_of_delete hn hp hr]

/-! ## One call -/

/-- A write leaves the table as it is or brings the row to the attributes of the entity. -/
theorem write_step (h : db.KeepsTable m content reading) {c : σ} (he : e.InStep db.dialect m (content c)) :
    match e.written db c with
    | .error _ => content (db.replay c (e.sends db)) = content c
    | .ok a => Advances db.dialect m e (content c) (e.settle a) (content (db.replay c (e.sends db))) := by
  unfold written sends
  cases hp : e.plan db with
  | error err => rfl
  | ok planned =>
    rcases e.plan_ok_cases db hp with ⟨hs, hd, rfl⟩ | ⟨hs, target, p, ht, hprepare, rfl⟩ | ⟨hs, p, hprepare, rfl⟩
    · exact advances_of_nothing_changed he hs hd
    · dsimp only
      cases hr : (db.exec (.exec p false) c).1 with
      | error err => exact h.failed _ c err hr
      | ok response =>
        have ha : e.taken db response = .ok e.attributes := by rw [taken, if_pos hs]
        simp only [Except.bind, ha]
        exact advances_of_update h he hs ht hprepare hr
    · dsimp only
      cases hr : (db.exec (db.inserting p) c).1 with
      | error err => exact h.failed _ c err hr
      | ok response =>
        obtain ⟨a, ha, hadvances⟩ := advances_of_insert h he hs hprepare hr
        simp only [Except.bind, ha]
        exact hadvances

/-- The entity is stored, and its row holds its attributes. -/
def Agrees (e : Entity) (d : Dialect) (rows : List Row) : Prop := e.stored = true ∧ e.RowHolds d rows e.attributes

theorem agrees_of_clean (he : e.InStep d m rows) (hc : e.isDirty = false) : e.Agrees d rows := by
  obtain ⟨hs, hsame⟩ := unchanged_of_clean hc
  obtain ⟨row, hrow, hkey, hholds⟩ := he.row hs
  exact ⟨hs, row, hrow, hkey, fun name v hv => hholds name v (hsame name v hv)⟩

/-- The stamps and the hook before a save edit attributes other than the key, or stamp the key. -/
theorem advances_toWrite (hh : db.SparesKey m) (he : e.InStep d m rows) : Advances d m e rows (e.toWrite db) rows := by
  obtain ⟨stamped, hstamp⟩ := stamp_eq e db.now
  have hmodel : (e.stamp db.now).model = m := by
    rw [hstamp]
    exact he.model
  obtain ⟨a, hsaving, hspared⟩ := db.saving_of_sparesKey hh hmodel
  have hkey : (e.toWrite db).key? = (e.stamp db.now).key? := by
    rw [toWrite, hsaving]
    unfold key? get?
    rw [hmodel, hspared]
    rfl
  have hframe : e.toWrite db = { e with attributes := a } := by rw [toWrite, hsaving, hstamp]
  refine he.advances_edit ?_ ?_ ?_ fun hs => ?_
  · rw [hframe]
  · rw [hframe]
  · rw [hframe]
  · rw [hframe] at hs
    rw [hkey]
    exact isSome_key?_stamp (he.key hs)

theorem save_step (h : db.KeepsTable m content reading) (hh : db.SparesKey m) {w : World σ}
    (he : e.InStep db.dialect m (content w.connection)) :
    Advances db.dialect m e (content w.connection) ((e.save db).run w).1.2 (content ((e.save db).run w).2.connection) ∧
      (((e.save db).run w).1.1 = .ok () →
        ((e.save db).run w).1.2.Agrees db.dialect (content ((e.save db).run w).2.connection)) := by
  cases hd : e.isDirty with
  | false =>
    rw [run_save_of_clean db hd]
    exact ⟨he.advances_edit rfl rfl rfl he.key, fun _ => agrees_of_clean he hd⟩
  | true =>
    have hsaving : Advances db.dialect m e (content w.connection) (e.toWrite db) (content w.connection) :=
      advances_toWrite hh he
    have hwrite := write_step h hsaving.inStep
    rw [run_save_of_dirty db hd]
    cases e.savingResult db with
    | error err =>
      dsimp only
      rw [db.connection_after_hookEvents]
      exact ⟨hsaving, nofun⟩
    | ok =>
      dsimp only
      cases ha : (e.toWrite db).written db w.connection with
      | error err =>
        rw [ha] at hwrite
        dsimp only [Db.after]
        rw [db.replay_append, db.replay_hookEvents, hwrite]
        exact ⟨hsaving, nofun⟩
      | ok a =>
        rw [ha] at hwrite
        dsimp only [Db.after]
        rw [db.replay_append, db.replay_append, db.replay_hookEvents, db.replay_hookEvents]
        exact ⟨hsaving.trans hwrite, fun _ => ⟨rfl, hwrite.inStep.row rfl⟩⟩

theorem delete_step (h : db.KeepsTable m content reading) {w : World σ}
    (he : e.InStep db.dialect m (content w.connection)) :
    Advances db.dialect m e (content w.connection) ((e.delete db).run w).1.2
      (content ((e.delete db).run w).2.connection) := by
  have hsame : Advances db.dialect m e (content w.connection) e (content w.connection) :=
    he.advances_edit rfl rfl rfl he.key
  cases hs : e.stored with
  | false =>
    rw [run_delete_of_not_stored db hs]
    exact hsame
  | true =>
    rw [run_delete db hs]
    cases db.hookResult Hooks.deleting e with
    | error err =>
      dsimp only
      rw [db.connection_after_hookEvents]
      exact hsame
    | ok =>
      obtain ⟨k, hk, hn, hby⟩ := he.byKey hs
      unfold removal
      rw [hby]
      cases hp : (Statement.delete ((Query.table m.table).filter (.parse m.key) (.value k))).prepare db.dialect with
      | error err =>
        simp only [hp, Except.map]
        rw [db.connection_after_hookEvents]
        exact hsame
      | ok p =>
        simp only [hp, Except.map]
        cases hr : (db.exec (.exec p false) w.connection).1 with
        | error err =>
          dsimp only [Db.after]
          rw [db.replay_append, db.replay_hookEvents]
          show Advances _ _ _ _ _ (content (db.exec (.exec p false) w.connection).2)
          rw [h.failed _ _ err hr]
          exact hsame
        | ok response =>
          dsimp only [Db.after]
          rw [db.replay_append, db.replay_append, db.replay_hookEvents, db.replay_hookEvents]
          exact advances_of_delete h he hs hk hn hp hr

theorem touch_step (h : db.KeepsTable m content reading) (hh : db.SparesKey m) {w : World σ}
    (he : e.InStep db.dialect m (content w.connection)) :
    Advances db.dialect m e (content w.connection) ((e.touch db).run w).1.2
      (content ((e.touch db).run w).2.connection) := by
  unfold touch
  by_cases ht : e.model.timestamps = true
  · rw [if_pos ht]
    have hset : Advances db.dialect m e (content w.connection) (e.set "updated_at" (.timestamp db.now))
        (content w.connection) :=
      he.advances_edit rfl rfl rfl fun hs => isSome_key?_set nofun (he.key hs)
    exact hset.trans (save_step h hh hset.inStep).1
  · rw [if_neg ht]
    exact he.advances_edit rfl rfl rfl he.key

end

end Entity

/-! ## Runs -/

/-- A change of an entity that sends nothing. -/
inductive Edit where
  | set (name : String) (value : Value)
  | fill (pairs : List (String × Value))
  | fillRaw (pairs : List (String × Value))
  | remove (name : String)
  | associate (name : String) (other : Entity)
  | dissociate (name : String)

def Edit.apply (e : Entity) : Edit → Except Error Entity
  | set name value => .ok (e.set name value)
  | fill pairs => .ok (e.fill pairs)
  | fillRaw pairs => .ok (e.fillRaw pairs)
  | remove name => .ok (e.remove name)
  | associate name other => e.associate name other
  | dissociate name => e.dissociate name

inductive Call where
  | edit (x : Edit)
  | save
  | touch
  | delete

/-- An edit that fails leaves the entity as it is. -/
def Call.run {σ : Type} (db : Db σ) (e : Entity) : Call → Session σ Attempt
  | edit x =>
    match x.apply e with
    | .ok e' => pure (.ok (), e')
    | .error err => pure (.error err, e)
  | save => e.save db
  | touch => e.touch db
  | delete => e.delete db

/-- A call, at its time and with the hooks as they behave then. -/
structure Step where
  call : Call
  hooks : List (Option Hooks)
  now : Timestamp

namespace Step

def handle {σ : Type} (s : Step) (db : Db σ) : Db σ := { db with hooks := s.hooks, now := s.now }

def run {σ : Type} (s : Step) (db : Db σ) (e : Entity) : Session σ Attempt := s.call.run (s.handle db) e

/-- The entity and the state after the step, however it ended. -/
def next {σ : Type} (s : Step) (db : Db σ) (x : Entity × World σ) : Entity × World σ :=
  (((s.run db x.1).run x.2).1.2, ((s.run db x.1).run x.2).2)

/-- The hook before a save spares the key, and an edit of a stored entity leaves it a key. -/
structure Allowed {σ : Type} (s : Step) (db : Db σ) (e : Entity) : Prop where
  hooks : (s.handle db).SparesKey e.model
  key : ∀ x e', s.call = .edit x → x.apply e = .ok e' → e'.stored = true → e'.key?.isSome = true

end Step

theorem Edit.apply_frame {x : Edit} {e e' : Entity} (h : x.apply e = .ok e') :
    e'.model = e.model ∧ e'.stored = e.stored ∧ e'.snapshot = e.snapshot := by
  cases x with
  | associate name other =>
    dsimp only [Edit.apply, Entity.associate] at h
    cases hk : e.ownForeignKey "associate" name with
    | error err =>
      rw [hk] at h
      cases h
    | ok key =>
      rw [hk] at h
      cases h
      exact ⟨rfl, rfl, rfl⟩
  | dissociate name =>
    dsimp only [Edit.apply, Entity.dissociate] at h
    cases hk : e.ownForeignKey "dissociate" name with
    | error err =>
      rw [hk] at h
      cases h
    | ok key =>
      rw [hk] at h
      cases h
      exact ⟨rfl, rfl, rfl⟩
  | _ =>
    cases h
    exact ⟨rfl, rfl, rfl⟩

namespace Db

variable {σ : Type} (db : Db σ)

/-- From one entity and state, the others that a run of allowed steps leads to. -/
inductive Reaches : Entity × World σ → Entity × World σ → Prop where
  | start (x : Entity × World σ) : Reaches x x
  | step {x y : Entity × World σ} (s : Step) (before : Reaches x y) (allowed : s.Allowed db y.1) :
    Reaches x (s.next db y)

end Db

/-- The entity is new, or it was read from a row of the table, of which it has the key at least. -/
inductive Entity.Starts (d : Dialect) (m : Model) (rows : List Row) : Entity → Prop where
  | new : Starts d m rows (Entity.new m)
  | read {e : Entity} {row read : Row} (stored : row ∈ rows) (holds : row.Holds d read)
      (key : (read.get? m.key).isSome = true) (isRow : e.IsRow m read) : Starts d m rows e

open Entity

section

variable {σ : Type} {db : Db σ} {m : Model} {content : σ → List Row} {reading : Row → Reading} {e : Entity}
  {w : World σ}

theorem Step.advances (h : db.KeepsTable m content reading) (he : e.InStep db.dialect m (content w.connection))
    {s : Step} (hs : s.Allowed db e) :
    Advances db.dialect m e (content w.connection) ((s.run db e).run w).1.2
      (content ((s.run db e).run w).2.connection) := by
  have hspares : (s.handle db).SparesKey m := he.model ▸ hs.hooks
  have hkeeps : (s.handle db).KeepsTable m content reading := h.handle s.hooks s.now
  unfold Step.run Call.run
  cases hc : s.call with
  | edit x =>
    dsimp only
    cases hx : x.apply e with
    | error err => exact he.advances_edit rfl rfl rfl he.key
    | ok e' =>
      obtain ⟨hm, hst, hn⟩ := Edit.apply_frame hx
      exact he.advances_edit hm hst hn (hs.key x e' hc hx)
  | save => exact (save_step hkeeps hspares he).1
  | touch => exact touch_step hkeeps hspares he
  | delete => exact delete_step hkeeps he

theorem Db.Reaches.advances (h : db.KeepsTable m content reading) {x y : Entity × World σ}
    (hx : x.1.InStep db.dialect m (content x.2.connection)) (hr : db.Reaches x y) :
    Advances db.dialect m x.1 (content x.2.connection) y.1 (content y.2.connection) := by
  induction hr with
  | start => exact hx.advances_edit rfl rfl rfl hx.key
  | step s before allowed ih => exact ih.trans (Step.advances h ih.inStep allowed)

theorem Entity.Starts.inStep {d : Dialect} {rows : List Row} (hk : Keyed d m.key rows) (h : e.Starts d m rows) :
    e.InStep d m rows := by
  cases h with
  | new => exact ⟨rfl, hk, fun hc => absurd hc Bool.false_ne_true, fun hc => absurd hc Bool.false_ne_true⟩
  | read hrow hholds hsome hread =>
    obtain ⟨hm, ha, hn, -, -⟩ := hread
    obtain rfl := hm
    have hbound := hholds.bound? hsome
    refine ⟨rfl, hk, fun _ => ?_, fun _ => ⟨_, hrow, hn ▸ hbound, hn ▸ hholds⟩⟩
    obtain ⟨b, hb, hnull⟩ := hk.present _ hrow
    rw [hbound] at hb
    obtain ⟨k, hk', rfl⟩ := Option.map_eq_some_iff.1 hb
    refine isSome_key?_iff.2 ⟨k, ?_, Token.binding_ne_null.1 hnull⟩
    rw [get?, ha]
    exact hk'

/-- **The snapshot describes the stored row.**  Whatever allowed calls an entity goes through on a connection that keeps
its table, and however they end: while the entity is stored, the row at the key of its snapshot holds the snapshot; after
a save that succeeds, that row holds all attributes of the entity; and the rows beside it are those of the start. -/
theorem Db.Reaches.snapshot_describes_row (h : db.KeepsTable m content reading) {e₀ : Entity} {w₀ : World σ}
    (hk : Keyed db.dialect m.key (content w₀.connection)) (hstart : e₀.Starts db.dialect m (content w₀.connection))
    (hr : db.Reaches (e₀, w₀) (e, w)) :
    Keyed db.dialect m.key (content w.connection) ∧
      (e.stored = true → e.RowHolds db.dialect (content w.connection) e.snapshot) ∧
      (∀ step : Step, step.Allowed db e → step.call = .save → ((step.run db e).run w).1.1 = .ok () →
        ((step.run db e).run w).1.2.Agrees db.dialect (content ((step.run db e).run w).2.connection)) ∧
      rowsBeside db.dialect m.key (e.ownKey db.dialect) (content w.connection) =
        rowsBeside db.dialect m.key (e₀.ownKey db.dialect) (content w₀.connection) := by
  obtain ⟨hstep, hbeside⟩ := hr.advances h (hstart.inStep hk)
  refine ⟨hstep.keyed, hstep.row, ?_, hbeside⟩
  intro step hallowed hcall hok
  have hspares : (step.handle db).SparesKey m := hstep.model ▸ hallowed.hooks
  unfold Step.run Call.run at hok ⊢
  rw [hcall] at hok ⊢
  exact (save_step (h.handle step.hooks step.now) hspares hstep).2 hok

end

namespace Blog

def review (call : Call) : Step := ⟨call, [some reviewing], .ofUnixSeconds 1000000000⟩

theorem sparesKey_review (call : Call) : ((review call).handle authorDb).SparesKey author := by
  intro hooks hh e hm
  obtain rfl : reviewing = hooks := Option.some.inj hh
  refine ⟨e.attributes.insert "checked" (.bool true), rfl, ?_⟩
  rw [Attributes.get?_insert, if_neg (by decide)]
  rfl

theorem allowed_save {e : Entity} (hm : e.model = author) : (review .save).Allowed authorDb e :=
  ⟨hm ▸ sparesKey_review .save, fun _ _ hc => nomatch hc⟩

theorem allowed_set {e : Entity} (hm : e.model = author) {name : String} {value : Value}
    (hk : e.stored = true → (e.set name value).key?.isSome = true) :
    (review (.edit (.set name value))).Allowed authorDb e := by
  refine ⟨hm ▸ sparesKey_review _, fun x e' hc hx hs => ?_⟩
  cases hc
  cases hx
  exact hk hs

def stranger : Entity × World (List Row) := (Entity.new author, ⟨[user 1], []⟩)

def named : Entity × World (List Row) := (review (.edit (.set "name" (.text "Ada")))).next authorDb stranger

def registered : Entity × World (List Row) := (review .save).next authorDb named

def moved : Entity × World (List Row) := (review (.edit (.set "id" (.int 9)))).next authorDb registered

def settled : Entity × World (List Row) := (review .save).next authorDb moved

theorem reaches_settled : authorDb.Reaches stranger settled := by
  have hnamed : authorDb.Reaches stranger named :=
    .step _ (.start _) (allowed_set rfl fun hs => absurd hs Bool.false_ne_true)
  have hregistered : authorDb.Reaches stranger registered := .step _ hnamed (allowed_save rfl)
  have hmoved : authorDb.Reaches stranger moved := .step _ hregistered (allowed_set rfl fun _ => by decide +kernel)
  exact .step _ hmoved (allowed_save rfl)

end Blog

/-- An author gets a key beside another author's, then another key, under which its row is found. -/
theorem snapshot_describes_row_author :
    Blog.authorDb.KeepsTable Blog.author (fun rows => rows) (KeyedStore.reading .sqlite Blog.author) ∧
      Keyed .sqlite "id" Blog.stranger.2.connection ∧ Blog.authorDb.Reaches Blog.stranger Blog.settled ∧
      Blog.settled.1.stored = true ∧ Blog.settled.1.key? = some (.int 9) ∧
      Blog.settled.1.RowHolds .sqlite Blog.settled.2.connection Blog.settled.1.snapshot ∧
      rowsBeside .sqlite "id" (Blog.settled.1.ownKey .sqlite) Blog.settled.2.connection = [Blog.user 1] := by
  have hkeeps : Blog.authorDb.KeepsTable Blog.author (fun rows => rows) (KeyedStore.reading .sqlite Blog.author) :=
    KeyedStore.keepsTable rfl
  have hkeyed : Keyed .sqlite "id" Blog.stranger.2.connection := by decide +kernel
  obtain ⟨-, hrow, -, hbeside⟩ := Blog.reaches_settled.snapshot_describes_row hkeeps hkeyed .new
  have hstored : Blog.settled.1.stored = true := by decide +kernel
  have hnone : rowsBeside .sqlite "id" (Blog.stranger.1.ownKey .sqlite) Blog.stranger.2.connection = [Blog.user 1] := by
    decide +kernel
  exact ⟨hkeeps, hkeyed, Blog.reaches_settled, hstored, by decide +kernel, hrow hstored, hbeside.trans hnone⟩

end SqlMapper
