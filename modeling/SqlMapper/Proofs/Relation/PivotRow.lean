import SqlMapper.Proofs.Entity.Addressed
import SqlMapper.Proofs.Relation.Constrained
/-!
# PivotRow — what writing a pivot writes

A related entity carries the join row that it was loaded through as an entity of its own, its pivot, whose model has the
foreign key for a key.  All join rows of a parent hold the same foreign key.  To save or delete a pivot is therefore to
write every join row of the parent, and no row of another parent.
-/
namespace SqlMapper

namespace Entity

/-! ## Edits -/

/-- The entity after edits, of which those that fail change nothing. -/
def edited (e : Entity) (edits : List Edit) : Entity := edits.foldl (fun e x => (x.apply e).toOption.getD e) e

theorem frame_edited :
    ∀ (edits : List Edit) (e : Entity), (e.edited edits).model = e.model ∧ (e.edited edits).stored = e.stored ∧
      (e.edited edits).snapshot = e.snapshot
  | [], _ => ⟨rfl, rfl, rfl⟩
  | x :: rest, e => by
    have hrest := frame_edited rest ((x.apply e).toOption.getD e)
    have hfirst : ((x.apply e).toOption.getD e).model = e.model ∧ ((x.apply e).toOption.getD e).stored = e.stored ∧
        ((x.apply e).toOption.getD e).snapshot = e.snapshot := by
      cases hx : x.apply e with
      | error err => exact ⟨rfl, rfl, rfl⟩
      | ok e' => exact Edit.apply_frame hx
    exact ⟨hrest.1.trans hfirst.1, hrest.2.1.trans hfirst.2.1, hrest.2.2.trans hfirst.2.2⟩

/-! ## Models that leave entities alone -/

variable {σ : Type} {db : Db σ} {e : Entity}

/-- Without hooks and timestamps a save sends what is to be written, and nothing else happens. -/
theorem run_save_of_plain (hh : db.hooksOf e.model = none) (ht : e.model.timestamps = false) (w : World σ) :
    ((e.save db).run w).2 = db.after w (if e.isDirty then e.sends db else []) := by
  cases hd : e.isDirty with
  | false =>
    rw [run_save_of_clean db hd]
    exact (db.after_nil w).symm
  | true =>
    have hstamp : e.stamp db.now = e := by
      rw [stamp, ht]
      rfl
    have hsaving : db.saving e = (.ok (), e) := by rw [Db.saving, hh]
    have hwrite : e.toWrite db = e := by rw [toWrite, hstamp, hsaving]
    have hresult : e.savingResult db = .ok () := by rw [savingResult, hstamp, hsaving]
    have hevents : ∀ moment (e' : Entity), e'.model = e.model → db.hookEvents moment e' = [] := by
      intro moment e' hm
      rw [Db.hookEvents, hm, hh]
    rw [run_save_of_dirty db hd, hresult, hwrite, hstamp]
    dsimp only
    cases e.written db w.connection with
    | error err =>
      rw [hevents _ e rfl]
      rfl
    | ok a =>
      dsimp only
      rw [hevents _ e rfl, hevents _ (e.settle a) rfl, List.append_nil]
      rfl

theorem run_delete_of_plain (hh : db.hooksOf e.model = none) (hs : e.stored = true) {op : Operation}
    (hop : e.removal db = .ok op) (w : World σ) : ((e.delete db).run w).2 = db.after w [.sent op] := by
  have hresult : db.hookResult Hooks.deleting e = .ok () := by rw [Db.hookResult, hh]
  have hevents : ∀ moment (e' : Entity), e'.model = e.model → db.hookEvents moment e' = [] := by
    intro moment e' hm
    rw [Db.hookEvents, hm, hh]
  rw [run_delete db hs, hresult, hop]
  dsimp only
  cases (db.exec op w.connection).1 with
  | error err =>
    rw [hevents _ e rfl]
    rfl
  | ok response =>
    dsimp only
    rw [hevents _ e rfl, hevents _ { e with stored := false } rfl]
    rfl

/-! ## Writes by the stored key -/

/-- A save, if there is something to write, is one update of the rows that hold the key, and a delete is one delete of
them. -/
structure WritesRowsAt (e : Entity) (m : Model) (k : Value) : Prop where
  unchanged : ∀ {σ : Type} (db : Db σ) (w : World σ), e.dirty.entries = [] → ((e.save db).run w).2 = w
  save : ∀ {σ : Type} (db : Db σ) (w : World σ), e.dirty.entries ≠ [] → ∃ p : Prepared,
    p.statement = .update (e.changes (m.rowsAt k)) ∧ ((e.save db).run w).2 = db.after w [.sent (.exec p false)]
  delete : ∀ {σ : Type} (db : Db σ) (w : World σ), ∃ p : Prepared,
    p.statement = .delete (m.rowsAt k) ∧ ((e.delete db).run w).2 = db.after w [.sent (.exec p false)]

variable {k : Value}

theorem byKey_of_storedKey? (h : e.storedKey? = some k) : e.byKey = .ok (e.model.rowsAt k) := by
  rw [byKey, h]
  rfl

theorem stored_of_storedKey? (h : e.storedKey? = some k) : e.stored = true := by
  by_contra hn
  rw [storedKey?, if_neg hn] at h
  cases h

theorem isDirty_of_dirty (h : e.dirty.entries ≠ []) : e.isDirty = true := by
  by_contra hclean
  obtain ⟨⟨name, v⟩, hp⟩ := List.exists_mem_of_ne_nil _ h
  obtain ⟨hv, hne⟩ := Attributes.mem_changedFrom_iff.1 hp
  exact hne ((unchanged_of_clean (Bool.not_eq_true _ ▸ hclean)).2 name v hv)

/-- An entity of a model without hooks and timestamps writes by its stored key, however it was edited. -/
theorem writesRowsAt_of_plain (hid : e.model.id = none) (ht : e.model.timestamps = false)
    (hk : e.storedKey? = some k) : e.WritesRowsAt e.model k := by
  have hh : ∀ {σ : Type} (db : Db σ), db.hooksOf e.model = none := fun db => by
    rw [Db.hooksOf, hid]
    rfl
  have hs := stored_of_storedKey? hk
  refine ⟨fun db w hd => ?_, fun db w hd => ?_, fun db w => ?_⟩
  · have hsends : e.sends db = [] := by rw [sends, plan, if_pos hs, if_pos hd]
    rw [run_save_of_plain (hh db) ht, hsends, ite_self, db.after_nil]
  · have hassigned : (e.changes (e.model.rowsAt k)).assignments ≠ [] := fun hc => hd (List.map_eq_nil_iff.1 hc)
    have htable : (e.changes (e.model.rowsAt k)).target.table? ≠ none := Option.some_ne_none e.model.table
    have hrefusal : (Statement.update (e.changes (e.model.rowsAt k))).refusal? db.dialect = none := by
      rw [Statement.refusal?, if_neg htable, if_neg hassigned]
    obtain ⟨sql, bindings, hp⟩ := Statement.prepare_eq_ok hrefusal
    have hplan : e.plan db = .ok (some (.exec ⟨.update (e.changes (e.model.rowsAt k)), sql, bindings⟩ false)) := by
      rw [plan, if_pos hs, if_neg hd, byKey_of_storedKey? hk]
      dsimp only
      rw [hp]
      rfl
    refine ⟨⟨.update (e.changes (e.model.rowsAt k)), sql, bindings⟩, rfl, ?_⟩
    rw [run_save_of_plain (hh db) ht, if_pos (isDirty_of_dirty hd), sends, hplan]
  · have hrefusal : (Statement.delete (e.model.rowsAt k)).refusal? db.dialect = none := rfl
    obtain ⟨sql, bindings, hp⟩ := Statement.prepare_eq_ok hrefusal
    have hremoval : e.removal db = .ok (.exec ⟨.delete (e.model.rowsAt k), sql, bindings⟩ false) := by
      rw [removal, byKey_of_storedKey? hk]
      dsimp only
      rw [hp]
      rfl
    exact ⟨_, rfl, run_delete_of_plain (hh db) hs hremoval w⟩

end Entity

/-! ## Pivots -/

/-- The entity carries the join row of the row, and to write it after any edits is to write all rows of the join table
that hold the same foreign key. -/
structure JoinTable.PivotWrites (join : JoinTable) (row : Row) (child : Entity) : Prop where
  pivot : child.pivot = some (.ofRow join.model row.pivotPart)
  writes : ∀ k, row.get? ("pivot_" ++ join.foreignKey) = some k → k ≠ .null → ∀ edits,
    ((Entity.ofRow join.model row.pivotPart).edited edits).WritesRowsAt join.model k

theorem JoinTable.pivotWrites {join : JoinTable} {row : Row} {child : Entity}
    (h : child.pivot = some (.ofRow join.model row.pivotPart)) : join.PivotWrites row child where
  pivot := h
  writes k hk hn edits := by
    obtain ⟨hm, hs, hsnapshot⟩ := Entity.frame_edited edits (.ofRow join.model row.pivotPart)
    have hkey : ((Entity.ofRow join.model row.pivotPart).edited edits).storedKey? = some k := by
      rw [Entity.storedKey?_of_frame hm hs hsnapshot]
      show (row.pivotPart.get? join.foreignKey).filter (fun v => !v.isNull) = some k
      rw [get?_pivotPart, hk, Option.filter_some, Value.isNull_eq_false hn]
      rfl
    have hwrites := Entity.writesRowsAt_of_plain (e := (Entity.ofRow join.model row.pivotPart).edited edits)
      (by rw [hm]; rfl) (by rw [hm]; rfl) hkey
    rw [hm] at hwrites
    exact hwrites

namespace Relation

variable {σ : Type} {db : Db σ} {r : Relation} {join : JoinTable}

theorem pivot_hydrate (hlink : r.link = .manyToMany join) (related : Model) (row : Row) :
    (r.hydrate related row).pivot = some (.ofRow join.model row.pivotPart) := by
  rw [hydrate, hlink]
  rfl

theorem pivotWrites_hydrate (hlink : r.link = .manyToMany join) (related : Model) (rows : List Row) :
    List.Forall₂ join.PivotWrites rows (rows.map (r.hydrate related)) := by
  rw [List.forall₂_map_right_iff, List.forall₂_same]
  exact fun row _ => JoinTable.pivotWrites (pivot_hydrate hlink related row)

theorem pivotWrites_get (hlink : r.link = .manyToMany join) {rq : RelationQuery} (hr : rq.relation = r) {w w' : World σ}
    {es : List Entity} (h : Returns (rq.get db) w es w') :
    ∃ rows, (rq.parentKey ≠ .null → Returns (db.select rq.query) w rows w') ∧
      List.Forall₂ join.PivotWrites rows es := by
  by_cases hk : rq.parentKey = .null
  · unfold RelationQuery.get RelationQuery.fetch at h
    rw [hk] at h
    obtain ⟨rfl, -⟩ := returns_pure.1 h
    exact ⟨[], fun hn => absurd hk hn, .nil⟩
  · obtain ⟨rows, hrows, rfl⟩ := RelationQuery.returns_get hk h
    rw [hr]
    exact ⟨rows, fun _ => hrows, pivotWrites_hydrate hlink rq.related rows⟩

theorem pivotWrites_first (hlink : r.link = .manyToMany join) {rq : RelationQuery} (hr : rq.relation = r)
    {w w' : World σ} {e : Entity} (h : Returns (rq.first db) w (some e) w') :
    ∃ row rest, Returns (db.select (rq.query.limitTo 1)) w (row :: rest) w' ∧ join.PivotWrites row e := by
  obtain ⟨es, w₁, hes, hp⟩ := returns_bind.1 h
  obtain ⟨hhead, rfl⟩ := returns_pure.1 hp
  have hget : Returns ((rq.refine (·.limitTo 1)).get db) w es w' := hes
  have hk : rq.parentKey ≠ .null := by
    intro hk
    unfold RelationQuery.fetch at hes
    rw [hk] at hes
    obtain ⟨rfl, -⟩ := returns_pure.1 hes
    cases hhead
  obtain ⟨rows, hrows, hwrites⟩ := pivotWrites_get hlink (show (rq.refine (·.limitTo 1)).relation = r from hr) hget
  cases hwrites with
  | nil => cases hhead
  | cons hrow hrest =>
    cases hhead
    exact ⟨_, _, hrows hk, hrow⟩

theorem pivotWrites_load (hlink : r.link = .manyToMany join) {step : LoadStep} (hr : step.relation = r)
    {constraints : Constraints} {owner : Model} {parents forest : List Entity} {w w' : World σ}
    (h : Returns (LoadStep.run db constraints owner parents step) w forest w') :
    ∃ rows : List Row, (∃ w₁, Returns (LoadStep.fetch db constraints r step.related step.path
        (LoadStep.parentValues (r.parentColumn owner) parents)) w (rows.map (r.hydrate step.related)) w₁) ∧
      ∀ parent ∈ forest, ∃ children, parent.related? r.name = some (.many children) ∧
        ∀ child ∈ children, ∃ row ∈ rows, join.PivotWrites row child := by
  subst hr
  obtain ⟨rows, loaded, w₁, hf, -, hn, rfl⟩ := LoadStep.returns_run h
  have hwrites : ∀ child ∈ loaded, ∃ row ∈ rows, join.PivotWrites row child := by
    have hsame := LoadStep.sameRow_runAll hn
    rw [List.forall₂_map_left_iff] at hsame
    intro child hchild
    obtain ⟨row, hrow, hrest⟩ := exists_mem_of_forall₂ hsame child hchild
    exact ⟨row, hrow, JoinTable.pivotWrites (hrest.pivot.trans (pivot_hydrate hlink _ row))⟩
  refine ⟨rows, ⟨w₁, hf⟩, fun parent hparent => ?_⟩
  obtain ⟨e, -, rfl⟩ := List.mem_map.1 hparent
  have hmany : step.relation.link.isSingle = false := by rw [hlink]; rfl
  refine ⟨LoadStep.matching step.relation step.related loaded (e.get? (step.relation.parentColumn owner)), ?_,
    fun child hchild => hwrites child (LoadStep.mem_of_mem_matching hchild)⟩
  rw [LoadStep.assign, Entity.related?_setRelated, collect, hmany]
  rfl

/-- **To write a pivot is to write every join row of the parent.**  Every entity that a many-to-many relationship yields,
asked for one parent or loaded for many, carries the join row that came with it.  After any edits a save of that pivot
updates, and a delete deletes, the rows of the join table that hold the foreign key of this join row: all of them,
whatever key they join it with, and no others. -/
theorem pivot_writes_rows_of_parent (hlink : r.link = .manyToMany join) :
    (∀ (rq : RelationQuery) (w w' : World σ) (es : List Entity), rq.relation = r → Returns (rq.get db) w es w' →
        ∃ rows, (rq.parentKey ≠ .null → Returns (db.select rq.query) w rows w') ∧
          List.Forall₂ join.PivotWrites rows es) ∧
      (∀ (rq : RelationQuery) (w w' : World σ) (e : Entity), rq.relation = r → Returns (rq.first db) w (some e) w' →
        ∃ row rest, Returns (db.select (rq.query.limitTo 1)) w (row :: rest) w' ∧ join.PivotWrites row e) ∧
      (∀ (step : LoadStep) (constraints : Constraints) (owner : Model) (parents forest : List Entity) (w w' : World σ),
        step.relation = r → Returns (LoadStep.run db constraints owner parents step) w forest w' →
          ∃ rows : List Row, (∃ w₁, Returns (LoadStep.fetch db constraints r step.related step.path
              (LoadStep.parentValues (r.parentColumn owner) parents)) w (rows.map (r.hydrate step.related)) w₁) ∧
            ∀ parent ∈ forest, ∃ children, parent.related? r.name = some (.many children) ∧
              ∀ child ∈ children, ∃ row ∈ rows, join.PivotWrites row child) ∧
      ∀ k, k ≠ .null → ∀ ρ : Reading, (join.model.rowsAt k).selects ρ = true ↔
        ρ.column (.parse join.foreignKey) = ρ.bound k ∧ ρ.bound k ≠ .null :=
  ⟨fun _ _ _ _ hr h => pivotWrites_get hlink hr h, fun _ _ _ _ hr h => pivotWrites_first hlink hr h,
    fun _ _ _ _ _ _ _ hr h => pivotWrites_load hlink hr h, fun _ hk ρ => Query.selects_filter_iff _ _ hk ρ⟩

end Relation

namespace Blog

def weighted : JoinTable := ⟨"post_tags", "post_id", "tag_id", ["weight"]⟩

def tagsByWeight : Relation := ⟨"tags", 2, .manyToMany weighted, []⟩

/-- The tags of the fifth post. -/
def tagsOfPost : RelationQuery :=
  ⟨postModel, tagsByWeight, tagModel, .int 5,
    (tagsByWeight.baseQuery tagModel).filter (tagsByWeight.constrainedColumn tagModel) (.value (.int 5))⟩

/-- The post has two tags. -/
def twoTags : World Script := ⟨⟨[.answer ⟨.rows [tag 3 5, tag 4 5], none⟩], 0⟩, []⟩

/-- A connection that holds the rows of the join table. -/
def joinDb : Db (List Row) :=
  db fun op rows =>
    (.ok (KeyedStore.effect .sqlite weighted.model op rows).1, (KeyedStore.effect .sqlite weighted.model op rows).2)

def pivotOfTag : Entity := .ofRow weighted.model (tag 3 5).pivotPart

end Blog

theorem pivot_writes_rows_of_parent_tags :
    Blog.tagsByWeight.link = .manyToMany Blog.weighted ∧
      ∃ es w', Returns (Blog.tagsOfPost.get (Blog.db Script.exec)) Blog.twoTags es w' ∧
        ∃ rows, List.Forall₂ Blog.weighted.PivotWrites rows es := by
  obtain ⟨es, w', h⟩ :=
    exists_returns (x := Blog.tagsOfPost.get (Blog.db Script.exec)) (w := Blog.twoTags) (by decide +kernel)
  obtain ⟨hget, -⟩ := @Relation.pivot_writes_rows_of_parent _ (Blog.db Script.exec) Blog.tagsByWeight Blog.weighted rfl
  obtain ⟨rows, -, hrows⟩ := hget Blog.tagsOfPost Blog.twoTags w' es rfl h
  exact ⟨rfl, es, w', h, rows, hrows⟩

/-- The post is joined with two tags, by rows with different pairs of keys.  Saving the pivot of the one tag changes the
row of the other, and deleting it deletes both. -/
theorem pivot_writes_row_of_other_tag :
    let rows := [(5, 3), (5, 4)].map Blog.joined
    (rows.map fun row => (row.get? "post_id", row.get? "tag_id")).Nodup ∧
      (∃ w', Returns (Blog.tagsOfPost.get (Blog.db Script.exec)) Blog.twoTags
        [Blog.tagsByWeight.hydrate Blog.tagModel (Blog.tag 3 5),
          Blog.tagsByWeight.hydrate Blog.tagModel (Blog.tag 4 5)] w') ∧
      (Blog.tagsByWeight.hydrate Blog.tagModel (Blog.tag 3 5)).pivot = some Blog.pivotOfTag ∧
      (((Blog.pivotOfTag.set "weight" (.int 9)).save Blog.joinDb).run ⟨rows, []⟩).2.connection.map
          (fun row => (row.get? "tag_id", row.get? "weight")) =
        [(some (.int 3), some (.int 9)), (some (.int 4), some (.int 9))] ∧
      ((Blog.pivotOfTag.delete Blog.joinDb).run ⟨rows, []⟩).2.connection = [] := by
  exact ⟨by decide +kernel, ⟨_, rfl⟩, rfl, by decide +kernel, by decide +kernel⟩

end SqlMapper
