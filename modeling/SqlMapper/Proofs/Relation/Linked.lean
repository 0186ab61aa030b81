import SqlMapper.Proofs.Eager.Lazy
import SqlMapper.Proofs.Entity.Outcome
import SqlMapper.Proofs.Entity.Snapshot
import SqlMapper.Proofs.Query.Alias
import SqlMapper.Proofs.Relation.Sync
import SqlMapper.Proofs.Schema.Verified
import SqlMapper.Proofs.Session.Halt
/-!
# Linked — what is written through a relationship is found through it

Linking two entities writes a column: the foreign key of the one that holds it, or both keys of a join row.  Loading the
relationship selects rows by a column and hands them to the parent by a column of what came back.  The columns are chosen
in different places, and `Relation.foundAsWritten` says that they agree, for every relationship of a schema.

The columns of a join row make a detour: they are selected under an alias that is written into a text, and the text is
read again.  A key column whose name ends in ` as` does not survive this (`not_loadsFrom_labelled`).
-/
namespace SqlMapper

/-- The row gives every name of the attributes the same value.  It may have further columns. -/
def Attributes.Within (a : Attributes) (row : Row) : Prop := ∀ name v, a.get? name = some v → row.get? name = some v

/-! ## Loading one relationship of one entity -/

section

variable {σ : Type}

/-- Loads one relationship of an entity at once. -/
def Entity.load (e : Entity) (db : Db σ) (name : String) : Action σ (List Entity) := do
  let steps ← Includes.resolve db.schema e.model "" (.node [(name, .empty)])
  LoadStep.runAll db [] e.model [e] steps

/-- Loading the relationship of the entity gives it the value, if the query for its rows is answered with this row. -/
def Entity.LoadsFrom (e : Entity) (db : Db σ) (r : Relation) (related : Model) (row : Row) (value : Related) : Prop :=
  ∃ v, e.get? (r.parentColumn e.model) = some v ∧ v ≠ .null ∧
    ∀ w w', Returns (db.select (LoadStep.query r related r.name [] [v])) w [row] w' →
      Returns (e.load db r.name) w [e.setRelated r.name value] w'

variable {db : Db σ} {r : Relation} {related : Model} {e : Entity} {v : Value}

theorem LoadStep.parentValues_singleton {column : String} (hv : e.get? column = some v) (hn : v ≠ .null) :
    parentValues column [e] = [v] := by
  have hfilter : [v].filter (fun v => !v.isNull) = [v] := by
    rw [List.filter_cons, Value.isNull_eq_false hn]
    rfl
  unfold parentValues
  rw [List.filterMap_cons, hv]
  exact congrArg Value.distinct hfilter

/-- **A row that holds the entity's value is loaded**, and another one is not. -/
theorem Entity.loadsFrom (hr : e.model.relation? r.name = some r) (ht : db.schema.model? r.target = some related)
    (hv : e.get? (r.parentColumn e.model) = some v) (hn : v ≠ .null) (row : Row) :
    e.LoadsFrom db r related row
      (r.collect (if r.rowKey? related row = some v then [r.hydrate related row] else [])) := by
  refine ⟨v, hv, hn, fun w w' hs => ?_⟩
  have hresolve : Includes.resolve db.schema e.model "" (.node [(r.name, .empty)]) = .ok [⟨r, related, r.name, []⟩] :=
    Includes.resolve_single hr ht (Includes.resolve_empty _ _ _)
  have hassign : LoadStep.assign r related (r.parentColumn e.model) [r.hydrate related row] e =
      e.setRelated r.name (r.collect (if r.rowKey? related row = some v then [r.hydrate related row] else [])) := by
    rw [LoadStep.assign, hv, LoadStep.matching_some r related _ hn, List.filter_cons, r.childKey?_hydrate]
    by_cases hrow : r.rowKey? related row = some v <;> simp [hrow]
  have hfetch : Returns (LoadStep.fetch db [] r related r.name [v]) w [r.hydrate related row] w' :=
    returns_bind.2 ⟨[row], w', hs, rfl⟩
  refine returns_bind.2 ⟨_, w, returns_lift.2 ⟨hresolve, rfl⟩, ?_⟩
  rw [LoadStep.runAll, LoadStep.run]
  refine returns_bind.2 ⟨_, w', ?_, rfl⟩
  rw [LoadStep.parentValues_singleton hv hn]
  refine returns_bind.2 ⟨_, w', hfetch, returns_bind.2 ⟨_, w', rfl, ?_⟩⟩
  rw [List.map_singleton, hassign]
  rfl

theorem Entity.loadsFrom_of_rowKey? (hr : e.model.relation? r.name = some r)
    (ht : db.schema.model? r.target = some related) (hv : e.get? (r.parentColumn e.model) = some v) (hn : v ≠ .null)
    {row : Row} (hrow : r.rowKey? related row = some v) :
    e.LoadsFrom db r related row (r.collect [r.hydrate related row]) := by
  have hloads := Entity.loadsFrom hr ht hv hn row
  rwa [if_pos hrow] at hloads

/-- Loading gives one value, on a connection that answers with the row at all. -/
theorem Entity.LoadsFrom.eq {row : Row} {value value' : Related} (h : e.LoadsFrom db r related row value)
    (h' : e.LoadsFrom db r related row value') (hanswer : ∀ q, ∃ w w', Returns (db.select q) w [row] w') :
    value = value' := by
  obtain ⟨v, hv, -, hloads⟩ := h
  obtain ⟨v', hv', -, hloads'⟩ := h'
  obtain rfl : v = v' := Option.some.inj (hv.symm.trans hv')
  obtain ⟨w, w', hs⟩ := hanswer (LoadStep.query r related r.name [] [v])
  have hsame : [e.setRelated r.name value] = [e.setRelated r.name value'] :=
    Except.ok.inj (congrArg Prod.fst ((hloads w w' hs).symm.trans (hloads' w w' hs)))
  have hget := congrArg (fun e : Entity => e.related? r.name) (List.singleton_inj.1 hsame)
  rw [e.related?_setRelated, e.related?_setRelated] at hget
  exact Option.some.inj hget

/-- The query for one entity and the query for many bind the same value. -/
theorem Entity.binds_lazily_as_eagerly (hr : e.model.relation? r.name = some r)
    (ht : db.schema.model? r.target = some related) (hv : e.get? (r.parentColumn e.model) = some v) (hn : v ≠ .null) :
    let q := LoadStep.query r related r.name [] (LoadStep.parentValues (r.parentColumn e.model) [e])
    ∃ rq lazySql eagerSql, e.relation db r.name = .ok rq ∧
      (Statement.query rq.query).prepare db.dialect = .ok ⟨.query rq.query, lazySql, [Token.binding db.dialect v]⟩ ∧
      (Statement.query q).prepare db.dialect = .ok ⟨.query q, eagerSql, [Token.binding db.dialect v]⟩ := by
  intro q
  have hrelation := Entity.relation_eq_ok hr ht
  rw [hv, Option.getD_some] at hrelation
  obtain ⟨lazySql, hlazy⟩ :=
    ((r.baseQuery related).filter (r.constrainedColumn related) v).prepare_eq_ok db.dialect
  obtain ⟨eagerSql, heager⟩ := q.prepare_eq_ok db.dialect
  have hq : q.values = [v] := by
    show (LoadStep.query r related r.name [] (LoadStep.parentValues (r.parentColumn e.model) [e])).values = [v]
    rw [LoadStep.parentValues_singleton hv hn]
    exact Relation.values_filterIn [v]
  rw [Relation.values_filter hn] at hlazy
  rw [hq] at heager
  exact ⟨_, lazySql, eagerSql, hrelation, hlazy, heager⟩

end

/-! ## What a save keeps -/

section

variable {σ : Type} {db : Db σ} {e e' : Entity} {column : String} {v : Value}

/-- The hook before a save of this model's entities leaves the column as it is. -/
def Db.KeepsColumn (db : Db σ) (m : Model) (column : String) : Prop :=
  ∀ hooks, db.hooksOf m = some hooks → ∀ e, e.model = m → (hooks.saving e).2.get? column = e.get? column

theorem Entity.model_stamp (e : Entity) (now : Timestamp) : (e.stamp now).model = e.model := by
  obtain ⟨a, ha⟩ := e.stamp_eq now
  rw [ha]

/-- Of the attributes that an entity has, a stamp replaces only the time of the change. -/
theorem Entity.get?_stamp_of_some {now : Timestamp} (hc : e.model.timestamps = true → column ≠ "updated_at")
    (hv : e.get? column = some v) : (e.stamp now).get? column = some v := by
  unfold stamp
  split
  · rename_i ht
    have hchanged : (e.set "updated_at" (.timestamp now)).get? column = some v := by
      refine (Attributes.get?_insert e.attributes "updated_at" column (.timestamp now)).trans ?_
      rw [if_neg (Ne.symm (hc ht))]
      exact hv
    dsimp only
    split
    · rename_i hnew
      have hcreated : "created_at" ≠ column := by
        rintro rfl
        rw [Bool.and_eq_true, Bool.not_eq_true', Bool.not_eq_true'] at hnew
        exact Bool.false_ne_true (hnew.2.symm.trans (congrArg Option.isSome hchanged))
      refine (Attributes.get?_insert _ "created_at" column (.timestamp now)).trans ?_
      rw [if_neg hcreated]
      exact hchanged
    · exact hchanged
  · exact hv

theorem Entity.get?_toWrite (hk : db.KeepsColumn e.model column)
    (hc : e.model.timestamps = true → column ≠ "updated_at") (hv : e.get? column = some v) :
    (e.toWrite db).get? column = some v := by
  have hstamp : (e.stamp db.now).get? column = some v := Entity.get?_stamp_of_some hc hv
  unfold toWrite Db.saving
  rw [e.model_stamp]
  cases hh : db.hooksOf e.model with
  | none => exact hstamp
  | some hooks => exact (hk hooks hh _ (e.model_stamp _)).trans hstamp

/-- A generated key replaces no value. -/
theorem Entity.get?_withGenerated (hv : e.get? column = some v) (hn : v ≠ .null) (key : Option Value) :
    (e.withGenerated key).get? column = some v := by
  unfold withGenerated
  split
  · rename_i k hkey
    have hne : e.model.key ≠ column := by
      rintro rfl
      rw [Entity.key?_eq_some_iff.2 ⟨hv, hn⟩] at hkey
      cases hkey
    rw [Attributes.get?_insert, if_neg hne]
    exact hv
  · exact hv

theorem Entity.get?_written {c : σ} {a : Attributes} (hv : e.get? column = some v) (hn : v ≠ .null)
    (h : e.written db c = .ok a) : a.get? column = some v := by
  unfold written at h
  split at h
  · cases h
  · cases h
    exact hv
  · rename_i op _
    cases hresponse : (db.exec op c).1 with
    | error err =>
      rw [hresponse] at h
      cases h
    | ok response =>
      rw [hresponse] at h
      change e.taken db response = .ok a at h
      unfold taken at h
      split at h
      · cases h
        exact hv
      · cases hkey : db.reportedKey e.model.key response with
        | error err =>
          rw [hkey] at h
          cases h
        | ok key =>
          rw [hkey] at h
          cases h
          exact Entity.get?_withGenerated hv hn key

/-- **A value that no hook touches is in the row that a save leaves.** -/
theorem Entity.get?_snapshot_save {w w' : World σ} (hk : db.KeepsColumn e.model column)
    (hc : e.model.timestamps = true → column ≠ "updated_at") (hv : e.get? column = some v) (hn : v ≠ .null)
    (h : (e.save db).run w = ((.ok (), e'), w')) : e'.snapshot.get? column = some v := by
  by_cases hd : e.isDirty = true
  · have hwrite := Entity.get?_toWrite hk hc hv
    rw [run_save_of_dirty db hd] at h
    split at h
    · cases h
    · split at h
      · cases h
      · rename_i a ha
        obtain rfl : (e.toWrite db).settle a = e' := congrArg (·.1.2) h
        exact Entity.get?_written hwrite hn ha
  · have hclean : e.isDirty = false := Bool.not_eq_true _ ▸ hd
    rw [run_save_of_clean db hclean] at h
    cases h
    exact (unchanged_of_clean hclean).2 _ _ hv

end

/-- Only a belongs-to relationship meets in another attribute of the parent than its key. -/
theorem Relation.parentColumn_eq_key {r : Relation} (h : ∀ key, r.link ≠ .belongsTo key) (m : Model) :
    r.parentColumn m = m.key := by
  unfold parentColumn
  split
  · rename_i key hlink
    exact absurd hlink (h key)
  · rfl

theorem Entity.get?_set (e : Entity) (name : String) (value : Value) : (e.set name value).get? name = some value :=
  (Attributes.get?_insert e.attributes name name value).trans (if_pos rfl)

/-! ## Linking by a foreign key -/

/-- The entity that an attempt leaves, if it succeeded. -/
def Attempt.entity (a : Attempt) : Except Error Entity := a.1.map fun _ => a.2

section

variable {σ : Type} {db : Db σ} {r : Relation} {related : Model} {p e e' : Entity} {k : Value} {key : String}
  {row : Row}

/-- An entity that is pointed at another has the key by which the other's row is found. -/
theorem Entity.loadsFrom_associate (hr : e.model.relation? r.name = some r)
    (ht : db.schema.model? r.target = some related) (hlink : r.link = .belongsTo key) {other : Entity}
    (hm : other.model = related) (hk : other.key? = some k) :
    ∃ e', e.associate r.name other = .ok e' ∧
      ∀ row, other.attributes.Within row → e'.LoadsFrom db r related row (.one (some (.ofRow related row))) := by
  subst hm
  obtain ⟨hkey, hn⟩ := Entity.key?_eq_some_iff.1 hk
  let e' := (e.set key k).setRelated r.name (.one (some other))
  have hassociate : e.associate r.name other = .ok e' := by
    unfold associate ownForeignKey
    rw [Model.relation_eq_ok_iff.2 hr, hk]
    simp only [bind, Except.bind, hlink]
    rfl
  refine ⟨e', hassociate, fun row hrow => ?_⟩
  have hv : e'.get? (r.parentColumn e'.model) = some k := by
    rw [Relation.parentColumn, hlink]
    exact e.get?_set key k
  have hrowKey : r.rowKey? other.model row = some k := by
    rw [Relation.rowKey?, hlink]
    exact hrow _ _ hkey
  have hloads := Entity.loadsFrom_of_rowKey? (e := e') hr ht hv hn hrowKey
  rw [Relation.collect, Relation.hydrate, hlink] at hloads
  exact hloads

/-- The relation query of an entity with a key holds the key. -/
theorem Entity.relation_eq_of_key? {rq : RelationQuery} (hr : e.model.relation? r.name = some r)
    (ht : db.schema.model? r.target = some related) (hcolumn : r.parentColumn e.model = e.model.key)
    (hk : e.key? = some k) (h : e.relation db r.name = .ok rq) :
    rq.relation = r ∧ rq.related = related ∧ rq.requireParentKey = fun _ => .ok k := by
  obtain ⟨hv, hn⟩ := Entity.key?_eq_some_iff.1 hk
  have hrelation := Entity.relation_eq_ok hr ht
  rw [hcolumn, hv, Option.getD_some, h] at hrelation
  cases hrelation
  refine ⟨rfl, rfl, funext fun _ => ?_⟩
  unfold RelationQuery.requireParentKey
  rw [Value.isNull_eq_false hn]
  rfl

/-- An entity that is saved through a relationship has the parent's key in the column that its row is found by. -/
theorem RelationQuery.loadsFrom_save {rq : RelationQuery} {w w' : World σ} (hr : p.model.relation? r.name = some r)
    (ht : db.schema.model? r.target = some related) (hlink : r.link = .hasOne key ∨ r.link = .hasMany key)
    (hc : key ∉ ["created_at", "updated_at"]) (hp : p.key? = some k) (hrq : p.relation db r.name = .ok rq)
    (hkeeps : db.KeepsColumn e.model key) (h : (rq.save db e).run w = ((.ok (), e'), w'))
    (hrow : e'.snapshot.Within row) : p.LoadsFrom db r related row (r.collect [.ofRow related row]) := by
  obtain ⟨hv, hn⟩ := Entity.key?_eq_some_iff.1 hp
  have hcolumn := Relation.parentColumn_eq_key (r := r) (by rcases hlink with hl | hl <;> simp [hl]) p.model
  obtain ⟨hrelation, -, hkey⟩ := Entity.relation_eq_of_key? hr ht hcolumn hp hrq
  have hsave : rq.save db e = (e.set key k).save db := by
    unfold save
    rw [hkey, hrelation]
    rcases hlink with hl | hl <;> rw [hl]
  rw [hsave] at h
  have hrowKey : r.rowKey? related row = some k := by
    have hunstamped : (e.set key k).model.timestamps = true → key ≠ "updated_at" := fun _ he => hc (by simp [he])
    have hsnapshot := hrow _ _ (Entity.get?_snapshot_save (e := e.set key k) hkeeps hunstamped (e.get?_set key k) hn h)
    unfold Relation.rowKey?
    rcases hlink with hl | hl <;> rw [hl] <;> exact hsnapshot
  have hhydrate : r.hydrate related row = .ofRow related row := by
    unfold Relation.hydrate
    rcases hlink with hl | hl <;> rw [hl]
  rw [← hhydrate]
  exact Entity.loadsFrom_of_rowKey? hr ht (hcolumn ▸ hv) hn hrowKey

/-- An insert through a relationship is a save of a new entity. -/
theorem RelationQuery.run_insert {rq : RelationQuery} (pairs : List (String × Value)) (w : World σ) :
    (rq.insert db pairs).run.run w =
      (((rq.save db ((Entity.new rq.related).fill pairs)).run w).1.entity,
        ((rq.save db ((Entity.new rq.related).fill pairs)).run w).2) := by
  unfold insert
  rw [Db.run_attempt, Attempt.entity]
  cases ((rq.save db ((Entity.new rq.related).fill pairs)).run w).1.1 <;> rfl

theorem RelationQuery.returns_insert {rq : RelationQuery} {pairs : List (String × Value)} {w w' : World σ}
    (h : Returns (rq.insert db pairs) w e' w') :
    (rq.save db ((Entity.new rq.related).fill pairs)).run w = ((.ok (), e'), w') := by
  unfold Returns at h
  rw [run_insert] at h
  cases hs : (rq.save db ((Entity.new rq.related).fill pairs)).run w with
  | mk attempt w₁ =>
    obtain ⟨saved, e₁⟩ := attempt
    rw [hs] at h
    cases saved with
    | error err => cases h
    | ok =>
      cases h
      rfl

end

/-! ## Linking by a join row -/

namespace JoinTable

variable (join : JoinTable)

/-- The columns of the join table that are selected with a related row. -/
def columns : List String := join.foreignKey :: join.otherKey :: join.pivotColumns

/-- The key columns are told apart, and their names are read back from the text that they are selected by
(`Column.parse_as_iff`). -/
structure Legible : Prop where
  apart : join.KeysApart
  table_name : Column.parse join.table = .name join.table
  foreign_name : Column.parse join.foreignKey = .name join.foreignKey
  other_name : Column.parse join.otherKey = .name join.otherKey
  foreign_end : ¬ Column.EndsInAs join.foreignKey.toList
  other_end : ¬ Column.EndsInAs join.otherKey.toList

/-- The row has the columns of a related row, and those of a join row under the names that they are selected under. -/
structure Combines (own joined : Attributes) (row : Row) : Prop where
  joined : ∀ column ∈ join.columns, ∀ name ∈ (Relation.pivotColumn join column).shownAs?, ∀ v ∈ joined.get? column,
    row.get? name = some v
  own : ∀ name v, own.get? name = some v →
    (∀ column ∈ join.columns, (Relation.pivotColumn join column).shownAs? ≠ some name) → row.get? name = some v

variable {join} {column : String} {key id v : Value} {now : Timestamp}

/-- A column whose name is read back is selected under the prefixed name. -/
theorem shownAs?_pivotColumn (ht : Column.parse join.table = .name join.table) (hc : Column.parse column = .name column)
    (he : ¬ Column.EndsInAs column.toList) :
    (Relation.pivotColumn join column).shownAs? = some ("pivot_" ++ column) := by
  have hend : ¬ Column.EndsInAs (join.table ++ "." ++ column).toList := by
    rw [String.toList_append, String.toList_append, List.append_assoc]
    exact fun h => he (Column.endsInAs_dot h)
  have htrim : trim ("pivot_" ++ column) = "pivot_" ++ column := by
    rw [← String.toList_inj, toList_trim, String.toList_append]
    exact trimChars_append (by decide) (Column.parse_eq_name_iff.1 hc).2
  rw [Relation.pivotColumn_eq, (Column.parse_as_iff (Column.parse_dot ht hc) htrim).2 hend]
  rfl

theorem get?_joinRow_foreignKey (hj : join.KeysApart) :
    (RelationQuery.joinRow join key id now).get? join.foreignKey = some key := by
  rw [Attributes.get?, RelationQuery.entries_joinRow hj, Assoc.get?_cons, if_pos rfl]

/-- The columns that a join row has. -/
theorem eq_of_get?_joinRow (hj : join.KeysApart) (h : (RelationQuery.joinRow join key id now).get? column = some v) :
    column = join.foreignKey ∨ column = join.otherKey ∨ column ∈ ["created_at", "updated_at"] := by
  have hmem := Attributes.mem_entries_of_get? h
  rw [RelationQuery.entries_joinRow hj, List.mem_cons, List.mem_cons] at hmem
  rcases hmem with h | h | h
  · exact .inl (congrArg Prod.fst h)
  · exact .inr (.inl (congrArg Prod.fst h))
  · exact .inr (.inr ((RelationQuery.names_stamps_sublist join now).mem (List.mem_map_of_mem h)))

/-- Every column that a join row has is selected under its prefixed name. -/
theorem Legible.shownAs? (hj : join.Legible) (h : (RelationQuery.joinRow join key id now).get? column = some v) :
    (Relation.pivotColumn join column).shownAs? = some ("pivot_" ++ column) := by
  rcases eq_of_get?_joinRow hj.apart h with rfl | rfl | hstamp
  · exact shownAs?_pivotColumn hj.table_name hj.foreign_name hj.foreign_end
  · exact shownAs?_pivotColumn hj.table_name hj.other_name hj.other_end
  · simp only [List.mem_cons, List.not_mem_nil, or_false] at hstamp
    rcases hstamp with rfl | rfl
    · exact shownAs?_pivotColumn hj.table_name (by decide) (by decide)
    · exact shownAs?_pivotColumn hj.table_name (by decide) (by decide)

/-- The pivot agrees with the join row. -/
theorem Combines.get?_pivotPart {own : Attributes} {row : Row}
    (h : join.Combines own (RelationQuery.joinRow join key id now) row) (hj : join.Legible) (hc : column ∈ join.columns)
    (hv : (RelationQuery.joinRow join key id now).get? column = some v) : row.pivotPart.get? column = some v := by
  rw [SqlMapper.get?_pivotPart]
  exact h.joined column hc _ (hj.shownAs? hv) v hv

/-- The related entity keeps the columns of its own row. -/
theorem Combines.get?_ownPart {own joined : Attributes} {row : Row} {name : String} (h : join.Combines own joined row)
    (hu : unpivoted? name = none)
    (hs : ∀ column ∈ join.columns, (Relation.pivotColumn join column).shownAs? ≠ some name)
    (hv : own.get? name = some v) : row.ownPart.get? name = some v := by
  have hmem := Attributes.mem_entries_of_get? (h.own name v hv hs)
  refine Assoc.get?_of_mem row.ownPart.nodup (List.mem_filter.2 ⟨hmem, ?_⟩)
  show (unpivoted? name).isNone = true
  rw [hu]
  rfl

end JoinTable

section

variable {σ : Type} {db : Db σ} {r : Relation} {related : Model} {p : Entity} {k : Value} {join : JoinTable}
  {rq : RelationQuery}

/-- To attach a key is to insert the join row, with the further attributes written over it. -/
theorem RelationQuery.attach_eq (hlink : rq.relation.link = .manyToMany join)
    (hkey : rq.requireParentKey "attach" = .ok k) (id : Value) (pairs : List (String × Value)) :
    rq.attach db id pairs =
      db.execute (.insert (.ofAttributes join.table ((joinRow join k id db.now).insertAll pairs))) >>= fun _ => pure () := by
  unfold attach
  rw [requireJoin_eq_ok hlink, hkey]
  rfl

theorem RelationQuery.returns_attach_iff (hlink : rq.relation.link = .manyToMany join)
    (hkey : rq.requireParentKey = fun _ => .ok k) (id : Value) {w w' : World σ} :
    Returns (rq.attach db id []) w () w' ↔
      ∃ n, Returns (db.execute (.insert (.ofAttributes join.table (joinRow join k id db.now)))) w n w' := by
  rw [attach_eq hlink (congrFun hkey "attach")]
  constructor
  · intro h
    obtain ⟨n, _, hn, h⟩ := returns_bind.1 h
    obtain ⟨-, rfl⟩ := returns_pure.1 h
    exact ⟨n, hn⟩
  · rintro ⟨n, hn⟩
    exact returns_bind.2 ⟨n, _, hn, rfl⟩

/-- A related row that comes with the join row is loaded. -/
theorem Entity.loadsFrom_combined (hr : p.model.relation? r.name = some r) (ht : db.schema.model? r.target = some related)
    (hlink : r.link = .manyToMany join) (hj : join.Legible) (hp : p.key? = some k) {own : Attributes} {id : Value}
    {now : Timestamp} {row : Row} (h : join.Combines own (RelationQuery.joinRow join k id now) row) :
    p.LoadsFrom db r related row (.many [r.hydrate related row]) := by
  obtain ⟨hv, hn⟩ := Entity.key?_eq_some_iff.1 hp
  have hcolumn := Relation.parentColumn_eq_key (r := r) (by simp [hlink]) p.model
  have hforeign := h.get?_pivotPart hj List.mem_cons_self (JoinTable.get?_joinRow_foreignKey hj.apart)
  have hrowKey : r.rowKey? related row = some k := by
    rw [Relation.rowKey?, hlink]
    rwa [get?_pivotPart] at hforeign
  have hloads := Entity.loadsFrom_of_rowKey? hr ht (hcolumn ▸ hv) hn hrowKey
  rwa [Relation.collect, hlink] at hloads

end

/-! ## All relationships -/

/-- What is written through a relationship is found through it. -/
structure Relation.FoundAsWritten {σ : Type} (r : Relation) (db : Db σ) (m related : Model) : Prop where
  /-- The query for one entity and the query for many bind the same value. -/
  binds : ∀ (p : Entity) (v : Value), p.model = m → p.get? (r.parentColumn m) = some v → v ≠ .null →
    let q := LoadStep.query r related r.name [] (LoadStep.parentValues (r.parentColumn m) [p])
    ∃ rq lazySql eagerSql, p.relation db r.name = .ok rq ∧
      (Statement.query rq.query).prepare db.dialect = .ok ⟨.query rq.query, lazySql, [Token.binding db.dialect v]⟩ ∧
      (Statement.query q).prepare db.dialect = .ok ⟨.query q, eagerSql, [Token.binding db.dialect v]⟩
  /-- An entity that was pointed at another finds the other's row. -/
  associate : ∀ (key : String) (owner e : Entity), r.link = .belongsTo key → owner.model = m → e.model = related →
    e.key?.isSome = true →
      ∃ owner', owner.associate r.name e = .ok owner' ∧
        ∀ row, e.attributes.Within row → owner'.LoadsFrom db r related row (.one (some (.ofRow related row)))
  /-- The parent finds the row of an entity that was saved through the relationship. -/
  save : ∀ (key : String) (p e e' : Entity) (rq : RelationQuery) (w w' : World σ) (row : Row),
    r.link = .hasOne key ∨ r.link = .hasMany key → key ∉ ["created_at", "updated_at"] →
      db.KeepsColumn e.model key → p.model = m → p.key?.isSome = true → p.relation db r.name = .ok rq →
        (rq.save db e).run w = ((.ok (), e'), w') → e'.snapshot.Within row →
          p.LoadsFrom db r related row (r.collect [.ofRow related row])
  /-- The parent finds the row of an entity that was inserted through the relationship. -/
  insert : ∀ (key : String) (p e' : Entity) (pairs : List (String × Value)) (rq : RelationQuery) (w w' : World σ)
    (row : Row), r.link = .hasOne key ∨ r.link = .hasMany key → key ∉ ["created_at", "updated_at"] →
      db.KeepsColumn related key → p.model = m → p.key?.isSome = true → p.relation db r.name = .ok rq →
        Returns (rq.insert db pairs) w e' w' → e'.snapshot.Within row →
          p.LoadsFrom db r related row (r.collect [.ofRow related row])
  /-- To attach a key is to insert a join row, and the parent finds a related row that comes with the join row.  The
  pivot agrees with the join row. -/
  attach : ∀ (join : JoinTable) (p : Entity) (k id : Value) (rq : RelationQuery), r.link = .manyToMany join →
    join.Legible → p.model = m → p.key? = some k → p.relation db r.name = .ok rq →
      let joined := RelationQuery.joinRow join k id db.now
      (∀ w w', Returns (rq.attach db id []) w () w' ↔
        ∃ n, Returns (db.execute (.insert (.ofAttributes join.table joined))) w n w') ∧
      ∀ own row, join.Combines own joined row →
        p.LoadsFrom db r related row (.many [r.hydrate related row]) ∧
          (∃ pivot, (r.hydrate related row).pivot = some pivot ∧
            ∀ column ∈ join.columns, ∀ v, joined.get? column = some v → pivot.get? column = some v) ∧
          ∀ name v, own.get? name = some v → unpivoted? name = none →
            (∀ column ∈ join.columns, (pivotColumn join column).shownAs? ≠ some name) →
              (r.hydrate related row).get? name = some v

/-- **What is written through a relationship of a schema is found through it**, whatever the kind of the relationship and
its keys are. -/
theorem Relation.foundAsWritten {σ : Type} (db : Db σ) {m : Model} {r : Relation} (hm : m ∈ db.schema.models)
    (hr : r ∈ m.relations) : ∃ related, db.schema.model? r.target = some related ∧ r.FoundAsWritten db m related := by
  obtain ⟨related, ht⟩ := db.schema.exists_model? hm hr
  have hfind : m.relation? r.name = some r := Model.relation?_eq_some_iff.2 ⟨hr, rfl⟩
  refine ⟨related, ht, ?_⟩
  exact
    { binds := by
        rintro p v rfl hv hn
        exact Entity.binds_lazily_as_eagerly hfind ht hv hn
      associate := by
        rintro key owner e hlink rfl he hk
        obtain ⟨k, hk⟩ := Option.isSome_iff_exists.1 hk
        exact Entity.loadsFrom_associate hfind ht hlink he hk
      save := by
        rintro key p e e' rq w w' row hlink hc hkeeps rfl hp hrq h hrow
        obtain ⟨k, hp⟩ := Option.isSome_iff_exists.1 hp
        exact RelationQuery.loadsFrom_save hfind ht hlink hc hp hrq hkeeps h hrow
      insert := by
        rintro key p e' pairs rq w w' row hlink hc hkeeps rfl hp hrq h hrow
        obtain ⟨k, hp⟩ := Option.isSome_iff_exists.1 hp
        have hcolumn := parentColumn_eq_key (r := r) (by rcases hlink with hl | hl <;> simp [hl]) p.model
        obtain ⟨-, hrelated, -⟩ := Entity.relation_eq_of_key? hfind ht hcolumn hp hrq
        exact RelationQuery.loadsFrom_save hfind ht hlink hc hp hrq (hrelated ▸ hkeeps)
          (RelationQuery.returns_insert h) hrow
      attach := by
        rintro join p k id rq hlink hj rfl hp hrq joined
        have hcolumn := parentColumn_eq_key (r := r) (by simp [hlink]) p.model
        obtain ⟨hrelation, -, hkey⟩ := Entity.relation_eq_of_key? hfind ht hcolumn hp hrq
        refine ⟨fun w w' => RelationQuery.returns_attach_iff (hrelation ▸ hlink) hkey id, fun own row hrow => ?_⟩
        have hloads := Entity.loadsFrom_combined hfind ht hlink hj hp hrow
        have hhydrate : r.hydrate related row =
            (Entity.ofRow related row.ownPart).withPivot (.ofRow join.model row.pivotPart) := by
          rw [hydrate, hlink]
        refine ⟨hloads, ⟨.ofRow join.model row.pivotPart, by rw [hhydrate]; rfl, ?_⟩, ?_⟩
        · exact fun column hc v hv => hrow.get?_pivotPart hj hc hv
        · intro name v hv hu hs
          rw [hhydrate]
          exact hrow.get?_ownPart hu hs hv }

/-! ## A blog with labels -/

namespace Blog

def tagging : JoinTable := ⟨"post_tags", "post_id", "tag_id", ["created_at"]⟩

/-- The name of the first key column ends in ` as`. -/
def labelling : JoinTable := ⟨"post_labels", "post as", "tag_id", []⟩

def labelledSchema : Schema where
  models :=
    [(Model.conventional 0 "user").declare ⟨"posts", 1, .hasMany "user_id", []⟩,
      (((Model.conventional 1 "post").declare ⟨"author", 0, .belongsTo "user_id", []⟩).declare
        ⟨"tags", 2, .manyToMany tagging, []⟩).declare ⟨"labels", 2, .manyToMany labelling, []⟩,
      Model.conventional 2 "tag"]
  positional := by decide
  verified := by decide +kernel

def labelledDb : Db Script := { db Script.exec with schema := labelledSchema }

def labelledUser : Model := labelledSchema.models.get ⟨0, by decide⟩

def labelledPost : Model := labelledSchema.models.get ⟨1, by decide⟩

theorem legible_tagging : tagging.Legible where
  apart := ⟨by decide, by decide, by decide⟩
  table_name := by decide
  foreign_name := by decide
  other_name := by decide
  foreign_end := by decide
  other_end := by decide

def authorRelation : Relation := ⟨"author", 0, .belongsTo "user_id", []⟩

def postsRelation : Relation := ⟨"posts", 1, .hasMany "user_id", []⟩

def tagsRelation : Relation := ⟨"tags", 2, .manyToMany tagging, []⟩

def labelsRelation : Relation := ⟨"labels", 2, .manyToMany labelling, []⟩

def writer : Entity := .ofRow labelledUser (user 1)

def entry : Entity := .ofRow labelledPost (post 5 2)

/-- The query of a relationship of an entity that holds the value. -/
def queryFor (e : Entity) (r : Relation) (related : Model) (v : Value) : RelationQuery :=
  ⟨e.model, r, related, v, (r.baseQuery related).filter (r.constrainedColumn related) v⟩

def postsOfWriter : RelationQuery := queryFor writer postsRelation labelledPost (.int 1)

def tagsOfEntry : RelationQuery := queryFor entry tagsRelation tagModel (.int 5)

def labelsOfEntry : RelationQuery := queryFor entry labelsRelation tagModel (.int 5)

def quiet : World Script := ⟨⟨[], 0⟩, []⟩

def plainTag : Row := .ofList [("id", .int 3)]

/-- A tag with the join row of the post, as they are selected. -/
def taggedRow : Row :=
  .ofList [("id", .int 3), ("pivot_post_id", .int 5), ("pivot_tag_id", .int 3),
    ("pivot_created_at", .timestamp (.ofUnixSeconds 0))]

def labelledRow : Row := .ofList [("id", .int 3), ("as pivot_post as", .int 5), ("pivot_tag_id", .int 3)]

theorem get?_of_plainTag {row : Row} (h : row.get? "id" = some (.int 3)) {name : String} {v : Value}
    (hv : plainTag.get? name = some v) : row.get? name = some v := by
  have hmem := Attributes.mem_entries_of_get? hv
  cases List.mem_singleton.1 (show (name, v) ∈ [("id", Value.int 3)] from hmem)
  exact h

theorem combines_taggedRow :
    tagging.Combines plainTag (RelationQuery.joinRow tagging (.int 5) (.int 3) labelledDb.now) taggedRow where
  joined := by decide
  own := fun _ _ hv _ => get?_of_plainTag rfl hv

theorem combines_labelledRow :
    labelling.Combines plainTag (RelationQuery.joinRow labelling (.int 5) (.int 3) labelledDb.now) labelledRow where
  joined := by decide
  own := fun _ _ hv _ => get?_of_plainTag rfl hv

theorem keepsColumn_labelledDb (m : Model) (column : String) : labelledDb.KeepsColumn m column := by
  intro hooks h
  cases hm : m.id <;> simp [Db.hooksOf, hm, labelledDb, db] at h

theorem exists_answer (row : Row) (q : Query) : ∃ w w', Returns (labelledDb.select q) w [row] w' := by
  obtain ⟨sql, hq⟩ := q.prepare_eq_ok labelledDb.dialect
  exact ⟨⟨⟨[.answer ⟨.rows [row], none⟩], 0⟩, []⟩, _, (Db.returns_select labelledDb).2 ⟨_, none, _, hq, rfl, rfl⟩⟩

theorem exists_attempt {x : Session Script Attempt} (h : (x.run quiet).1.1.isOk = true) :
    ∃ e w, x.run quiet = ((.ok (), e), w) := by
  cases hx : x.run quiet with
  | mk attempt w =>
    obtain ⟨saved, e⟩ := attempt
    rw [hx] at h
    cases saved with
    | error err => cases h
    | ok => exact ⟨e, w, rfl⟩

end Blog

/-- A post finds its author, a user the post that was saved, and a post the tag that was attached. -/
theorem foundAsWritten_labelledDb :
    (∃ owner, Blog.entry.associate "author" Blog.writer = .ok owner ∧
      owner.LoadsFrom Blog.labelledDb Blog.authorRelation Blog.labelledUser (Blog.user 1) (.one (some Blog.writer))) ∧
    (∃ rq e' w', Blog.writer.relation Blog.labelledDb "posts" = .ok rq ∧
      (rq.save Blog.labelledDb (.new Blog.labelledPost)).run Blog.quiet = ((.ok (), e'), w') ∧
      Blog.writer.LoadsFrom Blog.labelledDb Blog.postsRelation Blog.labelledPost e'.snapshot
        (.many [.ofRow Blog.labelledPost e'.snapshot])) ∧
    ∃ rq w', Blog.entry.relation Blog.labelledDb "tags" = .ok rq ∧
      Returns (rq.attach Blog.labelledDb (.int 3) []) Blog.quiet () w' ∧
      Blog.entry.LoadsFrom Blog.labelledDb Blog.tagsRelation Blog.tagModel Blog.taggedRow
        (.many [Blog.tagsRelation.hydrate Blog.tagModel Blog.taggedRow]) := by
  refine ⟨?_, ?_, ?_⟩
  · obtain ⟨related, ht, h⟩ := Relation.foundAsWritten Blog.labelledDb (m := Blog.labelledPost) (r := Blog.authorRelation)
      (List.get_mem _ _) (by decide)
    obtain rfl : Blog.labelledUser = related := Option.some.inj ht
    obtain ⟨owner, ho, hloads⟩ := h.associate "user_id" Blog.entry Blog.writer rfl rfl rfl rfl
    exact ⟨owner, ho, hloads (Blog.user 1) fun _ _ hv => hv⟩
  · obtain ⟨related, ht, h⟩ := Relation.foundAsWritten Blog.labelledDb (m := Blog.labelledUser) (r := Blog.postsRelation)
      (List.get_mem _ _) (by decide)
    obtain rfl : Blog.labelledPost = related := Option.some.inj ht
    have hrq : Blog.writer.relation Blog.labelledDb "posts" = .ok Blog.postsOfWriter := Entity.relation_eq_ok rfl ht
    obtain ⟨e', w', hrun⟩ := Blog.exists_attempt (x := Blog.postsOfWriter.save Blog.labelledDb (.new Blog.labelledPost))
      (by decide +kernel)
    refine ⟨_, e', w', hrq, hrun, ?_⟩
    exact h.save "user_id" Blog.writer _ e' _ _ w' _ (.inr rfl) (by decide) (Blog.keepsColumn_labelledDb _ _) rfl rfl hrq
      hrun fun _ _ hv => hv
  · obtain ⟨related, ht, h⟩ := Relation.foundAsWritten Blog.labelledDb (m := Blog.labelledPost) (r := Blog.tagsRelation)
      (List.get_mem _ _) (by decide)
    obtain rfl : Blog.tagModel = related := Option.some.inj ht
    have hrq : Blog.entry.relation Blog.labelledDb "tags" = .ok Blog.tagsOfEntry := Entity.relation_eq_ok rfl ht
    obtain ⟨⟨⟩, w', hrun⟩ := exists_returns (x := Blog.tagsOfEntry.attach Blog.labelledDb (.int 3) []) (w := Blog.quiet)
      (by decide +kernel)
    obtain ⟨-, hfinds⟩ := h.attach Blog.tagging Blog.entry (.int 5) (.int 3) _ rfl Blog.legible_tagging rfl rfl hrq
    exact ⟨_, w', hrq, hrun, (hfinds _ _ Blog.combines_taggedRow).1⟩

/-- **A join row is not found again if the name of a key column ends in ` as`.**  The post has a key, all names are read
as they stand, the key columns are told apart, there are no hooks, and the label was attached.  The row of the label that
comes with the join row is handed to no post. -/
theorem not_loadsFrom_labelled :
    Blog.labelsRelation ∈ Blog.labelledPost.relations ∧ Blog.labelsRelation.link = .manyToMany Blog.labelling ∧
      (∀ name ∈ ["posts", "tags", "id", "post_labels", "post as", "tag_id"], Column.parse name = .name name) ∧
      Blog.labelling.KeysApart ∧ Blog.labelledDb.hooks = [] ∧
      Blog.entry.key? = some (.int 5) ∧ Blog.entry.relation Blog.labelledDb "labels" = .ok Blog.labelsOfEntry ∧
      (∃ w', Returns (Blog.labelsOfEntry.attach Blog.labelledDb (.int 3) []) Blog.quiet () w') ∧
      Blog.labelling.Combines Blog.plainTag
        (RelationQuery.joinRow Blog.labelling (.int 5) (.int 3) Blog.labelledDb.now) Blog.labelledRow ∧
      Blog.entry.LoadsFrom Blog.labelledDb Blog.labelsRelation Blog.tagModel Blog.labelledRow (.many []) ∧
      ¬ ∃ child, Blog.entry.LoadsFrom Blog.labelledDb Blog.labelsRelation Blog.tagModel Blog.labelledRow
        (.many [child]) := by
  have hnothing : Blog.entry.LoadsFrom Blog.labelledDb Blog.labelsRelation Blog.tagModel Blog.labelledRow (.many []) :=
    Entity.loadsFrom (v := .int 5) rfl rfl rfl (by decide) Blog.labelledRow
  obtain ⟨⟨⟩, w', hrun⟩ := exists_returns (x := Blog.labelsOfEntry.attach Blog.labelledDb (.int 3) []) (w := Blog.quiet)
    (by decide +kernel)
  refine ⟨by decide, rfl, by decide, ⟨by decide, by decide, by decide⟩, rfl, rfl,
    Entity.relation_eq_ok (r := Blog.labelsRelation) rfl rfl, ⟨w', hrun⟩, Blog.combines_labelledRow, hnothing, ?_⟩
  rintro ⟨child, hchild⟩
  cases hnothing.eq hchild (Blog.exists_answer Blog.labelledRow)

end SqlMapper
