import SqlMapper.Proofs.Relation.Linked
import SqlMapper.Proofs.Relation.Transaction
/-!
# Parent — whose rows are written through a relationship

A related row is given the parent's key after the attributes of the caller, so that none of them replaces it.  A join row
is given its two keys first.  Where it is inserted as it is, it joins the parent with the key.  Where further attributes
of the join row are accepted they are written over it, and an attribute with the name of a key column replaces the key
(`RelationQuery.exists_attach`).  `RelationQuery.linksToParent` says this for all calls that write rows for a parent.
-/
namespace SqlMapper

/-! ## Statements that write a row -/

/-- The statement writes one row of the table, and the row has the value in the column then.  A row that was there keeps
what is not assigned. -/
inductive Statement.Leaves (table column : String) (v : Value) : Option Attributes → Statement → Prop
  | insert {i : Insert} {row : List Expr} : i.table = table → i.columns.Nodup → i.IsGrid → i.rows = [row] →
      (column, .value v) ∈ i.columns.zip row → Leaves table column v none (.insert i)
  | assign {u : Update} (before : Attributes) : u.target.table? = some table → (Assoc.names u.assignments).Nodup →
      (column, .value v) ∈ u.assignments → Leaves table column v (some before) (.update u)
  | keep {u : Update} {before : Attributes} : u.target.table? = some table → column ∉ Assoc.names u.assignments →
      before.get? column = some v → Leaves table column v (some before) (.update u)

/-- The insert has one row for each key, which joins it with the parent's, and it names no column twice. -/
structure JoinTable.Joins (join : JoinTable) (key : Value) (ids : List Value) (i : Insert) : Prop where
  table : i.table = join.table
  columns_nodup : i.columns.Nodup
  grid : i.IsGrid
  rows : List.Forall₂
    (fun id row => (join.foreignKey, .value key) ∈ i.columns.zip row ∧ (join.otherKey, .value id) ∈ i.columns.zip row)
    ids i.rows

/-- The compiled statement that the operation runs. -/
def Operation.prepared? : Operation → Option Prepared
  | .query p | .exec p _ => some p
  | .begin | .commit | .rollback => none

/-- If the operation inserts rows, they join the parent's key with some of the given keys. -/
def JoinTable.JoinsAmong (join : JoinTable) (key : Value) (ids : List Value) (op : Operation) : Prop :=
  ∀ p i, op.prepared? = some p → p.statement = .insert i → ∃ missing ⊆ ids, join.Joins key missing i

/-- The value of a column once further attributes were written over it. -/
def lastGiven (pairs : List (String × Value)) (column : String) (v : Value) : Value :=
  ((Attributes.ofList pairs).get? column).getD v

/-- The insert joins what is left of the two keys once further attributes were written over them, and nothing else. -/
def JoinTable.JoinsUnder (join : JoinTable) (pairs : List (String × Value)) (key id : Value) (i : Insert) : Prop :=
  ∀ key' id', join.Joins key' [id'] i ↔
    key' = lastGiven pairs join.foreignKey key ∧ id' = lastGiven pairs join.otherKey id

theorem Insert.mem_zip_iff (names : List String) (a : Attributes) (h : names = a.names) (name : String) (v : Value) :
    (name, Expr.value v) ∈ names.zip (a.values.map .value) ↔ a.get? name = some v := by
  subst h
  have hentries : a.names.zip (a.values.map Expr.value) = a.entries.map fun p => (p.1, .value p.2) :=
    Insert.zip_headD_ofAttributes "" a
  rw [hentries, List.mem_map]
  constructor
  · rintro ⟨p, hp, he⟩
    cases he
    exact Assoc.get?_of_mem a.nodup hp
  · exact fun hv => ⟨(name, v), Attributes.mem_entries_of_get? hv, rfl⟩

theorem JoinTable.joins_ofAttributes_iff {join : JoinTable} {key id : Value} {row : Attributes} :
    join.Joins key [id] (.ofAttributes join.table row) ↔
      row.get? join.foreignKey = some key ∧ row.get? join.otherKey = some id := by
  have hrow : ∀ name v, (name, Expr.value v) ∈ row.names.zip (row.values.map .value) ↔ row.get? name = some v :=
    Insert.mem_zip_iff row.names row rfl
  constructor
  · rintro ⟨-, -, -, hrows⟩
    obtain ⟨⟨hforeign, hother⟩, -⟩ := List.forall₂_cons.1 hrows
    exact ⟨(hrow _ _).1 hforeign, (hrow _ _).1 hother⟩
  · rintro ⟨hforeign, hother⟩
    exact ⟨rfl, row.nodup, Insert.isGrid_ofAttributes _ _, .cons ⟨(hrow _ _).2 hforeign, (hrow _ _).2 hother⟩ .nil⟩

theorem JoinTable.get?_joinRow_otherKey {join : JoinTable} (hj : join.KeysApart) (key id : Value) (now : Timestamp) :
    (RelationQuery.joinRow join key id now).get? join.otherKey = some id := by
  rw [Attributes.get?, RelationQuery.entries_joinRow hj, Assoc.get?_cons, if_neg hj.distinct, Assoc.get?_cons, if_pos rfl]

/-- **Further attributes are written over the keys of a join row.** -/
theorem JoinTable.joinsUnder_insertAll {join : JoinTable} (hj : join.KeysApart) (pairs : List (String × Value))
    (key id : Value) (now : Timestamp) :
    join.JoinsUnder pairs key id (.ofAttributes join.table ((RelationQuery.joinRow join key id now).insertAll pairs)) := by
  have hlast : ∀ column v, (RelationQuery.joinRow join key id now).get? column = some v →
      ((RelationQuery.joinRow join key id now).insertAll pairs).get? column = some (lastGiven pairs column v) := by
    intro column v hv
    rw [Attributes.get?_insertAll, hv, lastGiven]
    cases (Attributes.ofList pairs).get? column <;> rfl
  intro key' id'
  rw [joins_ofAttributes_iff, hlast _ _ (JoinTable.get?_joinRow_foreignKey hj),
    hlast _ _ (JoinTable.get?_joinRow_otherKey hj key id now), Option.some.injEq, Option.some.injEq, eq_comm (a := key'),
    eq_comm (a := id')]

theorem JoinTable.JoinsUnder.joins {join : JoinTable} {key id : Value} {i : Insert} (h : join.JoinsUnder [] key id i) :
    join.Joins key [id] i :=
  (h key id).2 ⟨rfl, rfl⟩

/-- The rows that synchronising inserts join the parent with their keys. -/
theorem JoinTable.joins_joinRows {join : JoinTable} (hj : join.KeysApart) (key : Value) (ids : List Value)
    (now : Timestamp) : join.Joins key ids (RelationQuery.joinRows join key ids now) where
  table := rfl
  columns_nodup := (RelationQuery.joinRow join key .null now).nodup
  grid := RelationQuery.isGrid_joinRows join key ids now
  rows := by
    refine List.forall₂_map_right_iff.2 (List.forall₂_same.2 fun id _ => ?_)
    have hrow := Insert.mem_zip_iff _ _ (RelationQuery.names_joinRow join key .null id now)
    exact ⟨(hrow _ _).2 (JoinTable.get?_joinRow_foreignKey hj),
      (hrow _ _).2 (JoinTable.get?_joinRow_otherKey hj key id now)⟩

theorem JoinTable.joinsAmong_of_no_statement {join : JoinTable} {key : Value} {ids : List Value} {op : Operation}
    (h : op.prepared? = none) : join.JoinsAmong key ids op := by
  intro p i hp
  rw [h] at hp
  cases hp

theorem JoinTable.joinsAmong_of_prepare {join : JoinTable} {key : Value} {ids : List Value} {d : Dialect} {s : Statement}
    {p : Prepared} {op : Operation} (hp : s.prepare d = .ok p) (hop : op.prepared? = some p)
    (h : ∀ i, s = .insert i → ∃ missing ⊆ ids, join.Joins key missing i) : join.JoinsAmong key ids op := by
  intro p' i hp' hi
  obtain rfl : p = p' := Option.some.inj (hop.symm.trans hp')
  exact h i ((Statement.statement_of_prepare hp).symm.trans hi)

/-! ## What a save writes -/

namespace Db

variable {σ : Type} (db : Db σ)

/-- The operation runs the statement as it compiles. -/
def Runs (s : Statement) (op : Operation) : Prop := ∃ p, s.prepare db.dialect = .ok p ∧ op.prepared? = some p

end Db

/-- The row of the entity as it was last read or written; none for an entity that is not stored. -/
def Entity.storedRow? (e : Entity) : Option Attributes := if e.stored then some e.snapshot else none

/-- The key of the entity that an attempt leaves, if it succeeded. -/
def Attempt.savedKey? (a : Attempt) : Option Value :=
  match a.1 with
  | .ok () => a.2.key?
  | .error _ => none

namespace Db

variable {σ : Type} (db : Db σ)

/-- The hook before a save of this model's entities leaves the column alone, and what is known of the stored row. -/
def SparesColumn (m : Model) (column : String) : Prop :=
  ∀ hooks, db.hooksOf m = some hooks → ∀ e, e.model = m →
    let e' := (hooks.saving e).2
    e'.model = m ∧ e'.storedRow? = e.storedRow? ∧ e'.get? column = e.get? column

/-- All that was sent on the way from one state to another writes a row of the table with the value in the column, and
so has the entity that was returned.  Something was sent if the entity had no row. -/
structure Writes (table column : String) (v : Value) (before : Option Attributes) (w : World σ)
    (result : Except Error Entity) (w' : World σ) : Prop where
  sent : ∃ events, w' = db.after w events ∧
    (∀ op, .sent op ∈ events → ∃ s, db.Runs s op ∧ s.Leaves table column v before) ∧
    ∀ e, result = .ok e → before = none → ∃ op, .sent op ∈ events
  kept : ∀ e, result = .ok e → e.snapshot.get? column = some v

variable {db}

theorem SparesColumn.keepsColumn {m : Model} {column : String} (h : db.SparesColumn m column) :
    db.KeepsColumn m column := fun hooks hh e he => (h hooks hh e he).2.2

theorem not_sent_mem_hookEvents (moment : HookMoment) (e : Entity) (op : Operation) :
    Event.sent op ∉ db.hookEvents moment e := by
  unfold hookEvents
  cases db.hooksOf e.model <;> simp

end Db

namespace Entity

variable {σ : Type} {db : Db σ} {e : Entity} {column : String} {v : Value}

/-- A hook that leaves the column alone leaves the row that is written the row of the entity. -/
theorem toWrite_of_sparesColumn (h : db.SparesColumn e.model column) :
    (e.toWrite db).model = e.model ∧ (e.toWrite db).storedRow? = e.storedRow? := by
  obtain ⟨a, ha⟩ := e.stamp_eq db.now
  unfold toWrite Db.saving
  rw [e.model_stamp]
  cases hh : db.hooksOf e.model with
  | none =>
    dsimp only
    rw [ha]
    exact ⟨rfl, rfl⟩
  | some hooks =>
    obtain ⟨hmodel, hrow, -⟩ := h hooks hh _ (e.model_stamp db.now)
    refine ⟨hmodel, hrow.trans ?_⟩
    rw [ha]
    rfl

theorem table?_of_byKey {target : Query} (h : e.byKey = .ok target) : target.table? = some e.model.table := by
  unfold byKey at h
  split at h
  · cases h
    rfl
  · cases h

/-- What is sent for an entity leaves its values in its row: they are inserted or assigned, or the row has them. -/
theorem leaves_of_sends (hv : e.get? column = some v) {op : Operation} (hop : .sent op ∈ e.sends db) :
    ∃ s, db.Runs s op ∧ s.Leaves e.model.table column v e.storedRow? := by
  unfold sends at hop
  split at hop
  · rename_i planned hplan
    obtain rfl : op = planned := by simpa using hop
    rcases plan_ok_cases db e hplan with ⟨-, -, hnone⟩ | ⟨hs, target, p, htarget, hp, hsent⟩ | ⟨hs, p, hp, hsent⟩
    · cases hnone
    · refine ⟨.update (e.changes target), ⟨p, hp, by rw [Option.some.inj hsent, Operation.prepared?]⟩, ?_⟩
      rw [storedRow?, if_pos hs]
      by_cases hsame : e.snapshot.get? column = some v
      · refine .keep (table?_of_byKey htarget) (fun hm => ?_) hsame
        rw [names_changes] at hm
        obtain ⟨⟨_, u⟩, hu, rfl⟩ := List.mem_map.1 hm
        obtain ⟨hget, hne⟩ := Attributes.mem_changedFrom_iff.1 hu
        exact hne (hsame.trans (hv.symm.trans hget))
      · refine .assign e.snapshot (table?_of_byKey htarget) ?_ ?_
        · rw [names_changes]
          exact e.dirty.nodup
        · exact List.mem_map.2 ⟨(column, v), Attributes.mem_changedFrom_iff.2 ⟨hv, hsame⟩, rfl⟩
    · refine ⟨_, ⟨p, hp, ?_⟩, ?_⟩
      · rw [Option.some.inj hsent, Db.inserting]
        split <;> rfl
      · rw [storedRow?, hs, if_neg Bool.false_ne_true]
        have hrow := (Insert.mem_zip_iff e.attributes.names e.attributes rfl column v).2 hv
        have hgrid := Insert.isGrid_ofAttributes e.model.table e.attributes
        unfold Db.asking
        split <;> exact .insert rfl e.attributes.nodup hgrid rfl hrow
  · cases hop

theorem not_stored_of_storedRow? (h : e.storedRow? = none) : e.stored = false := by
  unfold storedRow? at h
  split at h
  · cases h
  · exact Bool.not_eq_true _ ▸ ‹_›

/-- The write of an entity that is not stored is not accepted without a question. -/
theorem exists_sent_of_not_stored (h : e.stored = false) {c : σ} {a : Attributes} (ha : e.written db c = .ok a) :
    ∃ op, .sent op ∈ e.sends db := by
  unfold written at ha
  unfold sends
  cases hplan : e.plan db with
  | error err =>
    rw [hplan] at ha
    cases ha
  | ok planned =>
    rcases plan_ok_cases db e hplan with ⟨hs, -⟩ | ⟨hs, -⟩ | ⟨-, p, -, rfl⟩
    · rw [h] at hs
      cases hs
    · rw [h] at hs
      cases hs
    · exact ⟨_, List.mem_singleton_self _⟩

/-- The operations of a save are those of writing the entity that is left to write, and a save that succeeds sends them
all. -/
theorem sent_of_save (db : Db σ) (e : Entity) (w : World σ) :
    ∃ events, ((e.save db).run w).2 = db.after w events ∧
      (∀ op, .sent op ∈ events → .sent op ∈ (e.toWrite db).sends db) ∧
      (((e.save db).run w).1.1 = .ok () → e.isDirty = true → ∃ a, (e.toWrite db).written db w.connection = .ok a ∧
        ∀ op, .sent op ∈ (e.toWrite db).sends db → .sent op ∈ events) := by
  have hhook : ∀ moment e op, Event.sent op ∉ db.hookEvents moment e := fun moment e op =>
    Db.not_sent_mem_hookEvents moment e op
  cases hd : e.isDirty with
  | false =>
    rw [run_save_of_clean db hd]
    exact ⟨[], (db.after_nil w).symm, fun _ hop => absurd hop List.not_mem_nil, fun _ hdirty => by cases hdirty⟩
  | true =>
    rw [run_save_of_dirty db hd]
    split
    · exact ⟨_, rfl, fun op hop => absurd hop (hhook _ _ op), fun hok => by cases hok⟩
    · split
      · refine ⟨_, rfl, fun op hop => ?_, fun hok => by cases hok⟩
        exact (List.mem_append.1 hop).resolve_left (hhook _ _ op)
      · rename_i a ha
        refine ⟨_, rfl, fun op hop => ?_, fun _ _ => ⟨a, ha, fun op hop => ?_⟩⟩
        · exact (List.mem_append.1 ((List.mem_append.1 hop).resolve_right (hhook _ _ op))).resolve_left (hhook _ _ op)
        · exact List.mem_append_left _ (List.mem_append_right _ hop)

/-- **A save leaves a value that no hook touches in the row**, in the database and in the entity. -/
theorem writes_save (hspares : db.SparesColumn e.model column) (hc : e.model.timestamps = true → column ≠ "updated_at")
    (hv : e.get? column = some v) (hn : v ≠ .null) (w : World σ) :
    db.Writes e.model.table column v e.storedRow? w ((e.save db).run w).1.entity ((e.save db).run w).2 where
  sent := by
    obtain ⟨hmodel, hrow⟩ := toWrite_of_sparesColumn hspares
    obtain ⟨events, hafter, hsent, hall⟩ := e.sent_of_save db w
    refine ⟨events, hafter, fun op hop => ?_, fun saved hsaved hnone => ?_⟩
    · rw [← hmodel, ← hrow]
      exact leaves_of_sends (get?_toWrite hspares.keepsColumn hc hv) (hsent op hop)
    · have hok : ((e.save db).run w).1.1 = .ok () := by
        cases hsave : ((e.save db).run w).1.1 with
        | ok => rfl
        | error err =>
          rw [Attempt.entity, hsave] at hsaved
          cases hsaved
      have hdirty : e.isDirty = true := by
        rw [isDirty, not_stored_of_storedRow? hnone]
        rfl
      obtain ⟨a, ha, hin⟩ := hall hok hdirty
      obtain ⟨op, hop⟩ := exists_sent_of_not_stored (not_stored_of_storedRow? (hrow.trans hnone)) ha
      exact ⟨op, hin op hop⟩
  kept e' he := by
    cases hrun : (e.save db).run w with
    | mk attempt w' =>
      obtain ⟨saved, e₁⟩ := attempt
      rw [hrun] at he
      cases saved with
      | error err => cases he
      | ok =>
        cases he
        exact get?_snapshot_save hspares.keepsColumn hc hv hn hrun

end Entity

/-! ## The calls that write -/

namespace RelationQuery

variable {σ : Type} (rq : RelationQuery) (db : Db σ)

/-- The call saves an entity.  If the entity was saved and has a key, one insert for the key follows; else nothing
does. -/
structure InsertsAfterSave (e : Entity) (P : Value → Insert → Prop) (w w' : World σ) : Prop where
  inserts : ∀ id, ((e.save db).run w).1.savedKey? = some id →
    ∃ i op, db.Runs (.insert i) op ∧ P id i ∧ w' = db.after ((e.save db).run w).2 [.sent op]
  else_nothing : ((e.save db).run w).1.savedKey? = none → w' = ((e.save db).run w).2

/-- Whose rows the calls of a relation query write. -/
structure LinksToParent : Prop where
  save_related : ∀ key e w, rq.relation.link = .hasOne key ∨ rq.relation.link = .hasMany key →
    db.SparesColumn e.model key → (e.model.timestamps = true → key ≠ "updated_at") →
      db.Writes e.model.table key rq.parentKey e.storedRow? w ((rq.save db e).run w).1.entity ((rq.save db e).run w).2
  /-- The related row is inserted: there was none before. -/
  insert_related : ∀ key pairs w, rq.relation.link = .hasOne key ∨ rq.relation.link = .hasMany key →
    db.SparesColumn rq.related key → (rq.related.timestamps = true → key ≠ "updated_at") →
      db.Writes rq.related.table key rq.parentKey none w ((rq.insert db pairs).run.run w).1
        ((rq.insert db pairs).run.run w).2
  save_joined : ∀ join e w, rq.relation.link = .manyToMany join → join.KeysApart →
    InsertsAfterSave db e (fun id => join.Joins rq.parentKey [id]) w ((rq.save db e).run w).2
  insert_joined : ∀ join pairs w, rq.relation.link = .manyToMany join → join.KeysApart →
    InsertsAfterSave db ((Entity.new rq.related).fill pairs) (fun id => join.Joins rq.parentKey [id]) w
      ((rq.insert db pairs).run.run w).2
  sync : ∀ join ids, rq.relation.link = .manyToMany join → join.KeysApart →
    db.Sends (join.JoinsAmong rq.parentKey ids) (rq.sync db ids)
  /-- The further attributes are written over the keys. -/
  attach : ∀ join id pairs w, rq.relation.link = .manyToMany join → join.KeysApart →
    ∃ i op, db.Runs (.insert i) op ∧ join.JoinsUnder pairs rq.parentKey id i ∧
      ((rq.attach db id pairs).run.run w).2 = db.after w [.sent op]
  /-- The further attributes are written over the keys. -/
  insertWithPivot : ∀ join pairs pivotPairs w, rq.relation.link = .manyToMany join → join.KeysApart →
    InsertsAfterSave db ((Entity.new rq.related).fill pairs) (join.JoinsUnder pivotPairs rq.parentKey) w
      ((rq.insertWithPivot db pairs pivotPairs).run.run w).2

variable {rq db}

/-! ### Related rows -/

theorem writes_save {key : String} {e : Entity} (hk : rq.parentKey ≠ .null)
    (hlink : rq.relation.link = .hasOne key ∨ rq.relation.link = .hasMany key)
    (hspares : db.SparesColumn e.model key) (hc : e.model.timestamps = true → key ≠ "updated_at") (w : World σ) :
    db.Writes e.model.table key rq.parentKey e.storedRow? w ((rq.save db e).run w).1.entity
      ((rq.save db e).run w).2 := by
  have hsave : rq.save db e = (e.set key rq.parentKey).save db := by
    unfold save
    rw [requireParentKey_eq_ok hk]
    rcases hlink with hl | hl <;> rw [hl]
  rw [hsave]
  exact Entity.writes_save (e := e.set key rq.parentKey) hspares hc (e.get?_set key rq.parentKey) hk w

/-! ### Join rows -/

section

variable {join : JoinTable} (hlink : rq.relation.link = .manyToMany join) (hk : rq.parentKey ≠ .null)
  (hj : join.KeysApart)

include hlink hk hj

/-- **To attach a key is to insert one join row**, whose keys the further attributes were written over. -/
theorem exists_attach (id : Value) (pairs : List (String × Value)) (w : World σ) :
    ∃ i op, db.Runs (.insert i) op ∧ join.JoinsUnder pairs rq.parentKey id i ∧
      ((rq.attach db id pairs).run.run w).2 = db.after w [.sent op] := by
  let row := (joinRow join rq.parentKey id db.now).insertAll pairs
  obtain ⟨sql, bindings, hp⟩ :=
    Statement.prepare_eq_ok (d := db.dialect) (s := .insert (.ofAttributes join.table row)) rfl
  refine ⟨.ofAttributes join.table row, .exec ⟨_, sql, bindings⟩ false, ⟨_, hp, rfl⟩,
    JoinTable.joinsUnder_insertAll hj pairs rq.parentKey id db.now, ?_⟩
  rw [attach_eq hlink (requireParentKey_eq_ok hk "attach"), run_bind, Db.run_execute, hp]
  dsimp only
  cases (db.exec (.exec ⟨_, sql, bindings⟩ false) w.connection).1 <;> rfl

/-- A call that saves an entity and then attaches it inserts a join row for its key. -/
theorem insertsAfterSave_of_attach {e : Entity} {pairs : List (String × Value)} {w w' : World σ}
    (herror : ∀ err, ((e.save db).run w).1.1 = .error err → w' = ((e.save db).run w).2)
    (hok : ((e.save db).run w).1.1 = .ok () →
      w' = ((rq.attachSaved db ((e.save db).run w).1.2 pairs).run.run ((e.save db).run w).2).2) :
    InsertsAfterSave db e (join.JoinsUnder pairs rq.parentKey) w w' := by
  unfold attachSaved at hok
  constructor
  · intro id hid
    unfold Attempt.savedKey? at hid
    split at hid
    · rename_i hsaved
      rw [hok hsaved, hid]
      exact exists_attach hlink hk hj id pairs _
    · cases hid
  · intro hnone
    unfold Attempt.savedKey? at hnone
    split at hnone
    · rename_i hsaved
      rw [hok hsaved, hnone]
      rfl
    · rename_i err hsaved
      exact herror err hsaved

theorem insertsAfterSave_save (e : Entity) (w : World σ) :
    InsertsAfterSave db e (join.JoinsUnder [] rq.parentKey) w ((rq.save db e).run w).2 := by
  unfold save
  rw [requireParentKey_eq_ok hk, hlink]
  dsimp only
  rw [run_session_bind]
  refine insertsAfterSave_of_attach hlink hk hj (fun err herr => ?_) fun hok => ?_
  · rw [herr]
    rfl
  · rw [hok]
    rfl

theorem insertsAfterSave_insertWithPivot (pairs pivotPairs : List (String × Value)) (w : World σ) :
    InsertsAfterSave db ((Entity.new rq.related).fill pairs) (join.JoinsUnder pivotPairs rq.parentKey) w
      ((rq.insertWithPivot db pairs pivotPairs).run.run w).2 := by
  have hattempt := Db.run_attempt (((Entity.new rq.related).fill pairs).save db)
    (fun e => rq.attachSaved db e pivotPairs >>= fun _ => pure e) w
  unfold insertWithPivot
  rw [run_bind, run_lift, requireJoin_eq_ok hlink]
  dsimp only
  rw [run_bind, run_lift, requireParentKey_eq_ok hk]
  refine insertsAfterSave_of_attach hlink hk hj (fun err herr => ?_) fun hok => ?_
  · refine (congrArg Prod.snd hattempt).trans ?_
    rw [herr]
  · refine (congrArg Prod.snd hattempt).trans ?_
    rw [hok]
    dsimp only
    rw [run_bind]
    cases (rq.attachSaved db ((((Entity.new rq.related).fill pairs).save db).run w).1.2 pivotPairs).run.run
      ((((Entity.new rq.related).fill pairs).save db).run w).2 with
    | mk r w' => cases r <;> rfl

end

theorem InsertsAfterSave.mono {e : Entity} {P Q : Value → Insert → Prop} {w w' : World σ}
    (h : InsertsAfterSave db e P w w') (hPQ : ∀ id i, P id i → Q id i) : InsertsAfterSave db e Q w w' where
  inserts id hid := by
    obtain ⟨i, op, hop, hi, hw⟩ := h.inserts id hid
    exact ⟨i, op, hop, hPQ id i hi, hw⟩
  else_nothing := h.else_nothing

/-- What synchronising inserts joins the parent with some of the desired keys. -/
theorem sends_exchange_joins {join : JoinTable} (hj : join.KeysApart) (key : Value) {desired ids : List Value}
    (hids : desired ⊆ ids) : db.Sends (join.JoinsAmong key ids) (rq.exchange db join key desired) := by
  refine rq.sends_exchange_of (fun q => ?_) (fun q => ?_) fun missing hmissing => ?_
  · exact Db.sends_select fun p hp => JoinTable.joinsAmong_of_prepare hp rfl nofun
  · exact Db.sends_execute fun p hp => JoinTable.joinsAmong_of_prepare hp rfl nofun
  · refine Db.sends_execute fun p hp => JoinTable.joinsAmong_of_prepare hp rfl fun i hi => ?_
    cases hi
    exact ⟨missing, fun v hv => hids (hmissing hv), JoinTable.joins_joinRows hj key missing db.now⟩

theorem sends_sync {join : JoinTable} (hlink : rq.relation.link = .manyToMany join) (hk : rq.parentKey ≠ .null)
    (hj : join.KeysApart) (ids : List Value) :
    db.Sends (join.JoinsAmong rq.parentKey ids) (rq.sync db ids) := by
  rw [sync_eq_transact, requireJoin_eq_ok hlink, requireParentKey_eq_ok hk]
  have hids : Value.distinct ids ⊆ ids := fun v hv => (Value.mem_distinct v ids).1 hv
  exact Db.sends_transact (JoinTable.joinsAmong_of_no_statement rfl) (JoinTable.joinsAmong_of_no_statement rfl)
    (JoinTable.joinsAmong_of_no_statement rfl) (sends_exchange_joins hj rq.parentKey hids)

/-- **What is written through a relationship belongs to the parent**, unless further attributes of a join row say
otherwise.  A related row has the parent's key in its foreign key, whatever attributes it was given.  A join row that is
inserted by `save`, `insert` or `sync` joins the parent with the related key.  `attach` and `insertWithPivot` write the
further attributes over both keys. -/
theorem linksToParent (hk : rq.parentKey ≠ .null) : rq.LinksToParent db where
  save_related key e w hlink hspares hc := writes_save hk hlink hspares hc w
  insert_related key pairs w hlink hspares hc := by
    rw [run_insert]
    exact writes_save (e := (Entity.new rq.related).fill pairs) hk hlink hspares hc w
  save_joined join e w hlink hj :=
    (insertsAfterSave_save hlink hk hj e w).mono fun _ _ h => h.joins
  insert_joined join pairs w hlink hj := by
    rw [run_insert]
    exact (insertsAfterSave_save hlink hk hj ((Entity.new rq.related).fill pairs) w).mono fun _ _ h => h.joins
  sync join ids hlink hj := sends_sync hlink hk hj ids
  attach join id pairs w hlink hj := exists_attach hlink hk hj id pairs w
  insertWithPivot join pairs pivotPairs w hlink hj := insertsAfterSave_insertWithPivot hlink hk hj pairs pivotPairs w

end RelationQuery

/-! ## The posts of a user and the tags of a post -/

namespace Blog

theorem sparesColumn_labelledDb (m : Model) (column : String) : labelledDb.SparesColumn m column := by
  intro hooks h
  cases hm : m.id <;> simp [Db.hooksOf, hm, labelledDb, db] at h

/-- The join row of the post and a tag, with an attribute that names another post. -/
def redirectedRow : Attributes :=
  (RelationQuery.joinRow tagging (.int 5) (.int 7) labelledDb.now).insertAll [("post_id", .int 9)]

def redirectedInsert : Insert := .ofAttributes "post_tags" redirectedRow

end Blog

/-- A post that is inserted for user 1 is the user's, though it is given user 9; and a tag that is attached with a note is
attached to the post. -/
theorem linksToParent_blog :
    Blog.postsOfWriter.parentKey ≠ .null ∧ Blog.tagsOfEntry.parentKey ≠ .null ∧
      Blog.labelledDb.Writes "posts" "user_id" (.int 1) none Blog.quiet
        ((Blog.postsOfWriter.insert Blog.labelledDb [("user_id", .int 9)]).run.run Blog.quiet).1
        ((Blog.postsOfWriter.insert Blog.labelledDb [("user_id", .int 9)]).run.run Blog.quiet).2 ∧
      ∃ i op, Blog.labelledDb.Runs (.insert i) op ∧ Blog.tagging.Joins (.int 5) [.int 7] i ∧
        ((Blog.tagsOfEntry.attach Blog.labelledDb (.int 7) [("note", .text "new")]).run.run Blog.quiet).2 =
          Blog.labelledDb.after Blog.quiet [.sent op] := by
  have hposts : Blog.postsOfWriter.LinksToParent Blog.labelledDb := RelationQuery.linksToParent (by decide)
  have htags : Blog.tagsOfEntry.LinksToParent Blog.labelledDb := RelationQuery.linksToParent (by decide)
  refine ⟨by decide, by decide, ?_, ?_⟩
  · exact hposts.insert_related "user_id" [("user_id", .int 9)] Blog.quiet (.inr rfl)
      (Blog.sparesColumn_labelledDb _ _) fun _ => by decide
  · obtain ⟨i, op, hop, hi, hw⟩ := htags.attach Blog.tagging (.int 7) [("note", .text "new")] Blog.quiet rfl
      Blog.legible_tagging.apart
    exact ⟨i, op, hop, (hi (.int 5) (.int 7)).2 (by decide), hw⟩

/-- **Attaching a tag to post 5 attaches it to post 9** if a further attribute has the name of the foreign key. -/
theorem attach_joins_other_post :
    Blog.entry.relation Blog.labelledDb "tags" = .ok Blog.tagsOfEntry ∧ Blog.tagsOfEntry.parentKey = .int 5 ∧
      Blog.tagging.KeysApart ∧
      (∃ p, p.statement = .insert Blog.redirectedInsert ∧
        p.sql = "INSERT INTO \"post_tags\" (\"post_id\", \"tag_id\", \"created_at\") VALUES (?1, ?2, ?3)" ∧
        p.bindings.take 2 = [.int 9, .int 7] ∧
        ((Blog.tagsOfEntry.attach Blog.labelledDb (.int 7) [("post_id", .int 9)]).run.run Blog.quiet).2.events =
          [.sent (.exec p false)]) ∧
      Blog.tagging.Joins (.int 9) [.int 7] Blog.redirectedInsert ∧
      ¬ Blog.tagging.Joins (.int 5) [.int 7] Blog.redirectedInsert := by
  have hjoins : Blog.tagging.JoinsUnder [("post_id", .int 9)] (.int 5) (.int 7) Blog.redirectedInsert :=
    JoinTable.joinsUnder_insertAll Blog.legible_tagging.apart _ _ _ _
  refine ⟨Entity.relation_eq_ok (r := Blog.tagsRelation) rfl rfl, rfl, Blog.legible_tagging.apart,
    ⟨⟨_, _, _⟩, rfl, ?_, ?_, rfl⟩,
    (hjoins _ _).2 (by decide), fun h => ?_⟩
  · decide +kernel
  · decide +kernel
  · exact absurd ((hjoins _ _).1 h) (by decide)

end SqlMapper
