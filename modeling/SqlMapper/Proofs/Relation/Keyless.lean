import SqlMapper.Proofs.Relation.Linked
/-!
# Keyless — relation queries of a parent without a key

A parent without a value to meet in has nothing related.  Reading answers that without asking the connection, and the
calls that write check for the value before they send anything (`RelationQuery.run_guarded`).  One call does not check:
`updatePivot` compares the column of the parent's key with null, which is true of the join rows that belong to no parent,
and updates them.
-/
namespace SqlMapper

/-- The value that a relation query meets its rows in is the entity's, or null if the entity has none. -/
theorem Entity.parentKey_of_relation {σ : Type} {db : Db σ} {e : Entity} {name : String} {rq : RelationQuery}
    (h : e.relation db name = .ok rq) : rq.parentKey = (e.get? (rq.relation.parentColumn e.model)).getD .null := by
  obtain ⟨r, -, h⟩ := exists_ok_of_bind h
  obtain ⟨related, -, h⟩ := exists_ok_of_bind h
  cases h
  rfl

namespace RelationQuery

variable {σ : Type} (rq : RelationQuery) (db : Db σ)

/-- The update of the join row of a key. -/
def pivotUpdate (join : JoinTable) (id : Value) (pairs : List (String × Value)) (now : Timestamp) : Update where
  target := (rq.parentRows join).filter (Column.parse join.otherKey) id
  assignments := pairs.map (fun (name, v) => (name, .value v)) ++
    if join.pivotColumns.contains "updated_at" then [("updated_at", .value (.timestamp now))] else []

/-- Why a call on the join table fails for a parent without a key. -/
def refusal (operation : String) : Error :=
  match rq.relation.link with
  | .manyToMany _ => .ofCause (.keylessParent operation rq.relation.name)
  | _ => rq.unavailable operation

/-- What the calls of a relation query do when the parent has no key. -/
structure KeylessCalls : Prop where
  get : ∀ w, (rq.get db).run.run w = (.ok [], w)
  first : ∀ w, (rq.first db).run.run w = (.ok none, w)
  results : ∀ w, (rq.results db).run.run w = (.ok (rq.relation.collect []), w)
  resolve_unloaded : ∀ (e : Entity) (name : String) w, e.relation db name = .ok rq → e.related? name = none →
    (e.resolve db name).run.run w = (.ok (rq.relation.collect [], e.setRelated name (rq.relation.collect [])), w)
  resolve_loaded : ∀ (e : Entity) (name : String) (related : Related) w, e.related? name = some related →
    (e.resolve db name).run.run w = (.ok (related, e), w)
  save : ∀ e w, (rq.save db e).run w = ((.error (.ofCause (.keylessParent "save" rq.relation.name)), e), w)
  insert : ∀ pairs w,
    (rq.insert db pairs).run.run w = (.error (.ofCause (.keylessParent "save" rq.relation.name)), w)
  attach : ∀ id pairs w, (rq.attach db id pairs).run.run w = (.error (rq.refusal "attach"), w)
  detach : ∀ ids w, (rq.detach db ids).run.run w = (.error (rq.refusal "detach"), w)
  sync : ∀ ids w, (rq.sync db ids).run.run w = (.error (rq.refusal "sync"), w)
  insertWithPivot : ∀ pairs pivotPairs w,
    (rq.insertWithPivot db pairs pivotPairs).run.run w = (.error (rq.refusal "insert_with_pivot"), w)
  /-- There is no join table to update. -/
  updatePivot_unavailable : ∀ id pairs w, (∀ join, rq.relation.link ≠ .manyToMany join) →
    (rq.updatePivot db id pairs).run.run w = (.error (rq.unavailable "update_pivot"), w)
  /-- The join rows of the key that belong to no parent are updated, unless there is nothing to assign. -/
  updatePivot_sent : ∀ join id pairs w, rq.relation.link = .manyToMany join →
    let u := rq.pivotUpdate join id pairs db.now
    u.assignments ≠ [] →
      (∀ ρ : Reading, u.target.selects ρ = true ↔ ρ.column (.parse join.foreignKey) = .null ∧
        (Predicate.compare (.parse join.otherKey) .eq (.value id)).truth ρ = some true) ∧
      ∃ p, p.statement = .update u ∧
        (rq.updatePivot db id pairs).run.run w =
          ((db.exec (.exec p false) w.connection).1.map (·.outcome.affected), db.after w [.sent (.exec p false)])
  updatePivot_empty : ∀ join id pairs w, rq.relation.link = .manyToMany join →
    (rq.pivotUpdate join id pairs db.now).assignments = [] →
      (rq.updatePivot db id pairs).run.run w = (.error (.ofCause .updateWithoutAssignment), w)

variable {rq}

/-! ## The calls that check -/

theorem requireParentKey_of_null (hk : rq.parentKey = .null) (operation : String) :
    rq.requireParentKey operation = .error (.ofCause (.keylessParent operation rq.relation.name)) := by
  unfold requireParentKey
  rw [hk]
  rfl

/-- **A call that asks for the join table and then for the parent's key sends nothing for a parent without one.** -/
theorem run_guarded {α : Type} (hk : rq.parentKey = .null) (operation : String)
    (rest : JoinTable → Value → Action σ α) (w : World σ) :
    (do
      let join ← rq.requireJoin operation
      let key ← rq.requireParentKey operation
      rest join key : Action σ α).run.run w = (.error (rq.refusal operation), w) := by
  rw [run_bind, run_lift, requireJoin, refusal]
  cases rq.relation.link with
  | manyToMany join =>
    dsimp only
    rw [run_bind, run_lift, requireParentKey_of_null hk]
  | _ => rfl

theorem run_fetch_of_null (hk : rq.parentKey = .null) (q : Query) (w : World σ) :
    (rq.fetch db q).run.run w = (.ok [], w) := by
  unfold fetch
  rw [hk]
  rfl

theorem run_first_of_null (hk : rq.parentKey = .null) (w : World σ) : (rq.first db).run.run w = (.ok none, w) := by
  unfold first
  rw [run_bind, run_fetch_of_null db hk]
  rfl

theorem run_results_of_null (hk : rq.parentKey = .null) (w : World σ) :
    (rq.results db).run.run w = (.ok (rq.relation.collect []), w) := by
  unfold results Relation.collect
  split
  · rw [run_bind, run_first_of_null db hk]
    rfl
  · rw [run_bind, get, run_fetch_of_null db hk]
    rfl

theorem run_save_of_null (hk : rq.parentKey = .null) (e : Entity) (w : World σ) :
    (rq.save db e).run w = ((.error (.ofCause (.keylessParent "save" rq.relation.name)), e), w) := by
  unfold save
  rw [requireParentKey_of_null hk]
  rfl

/-! ## The call that does not -/

theorem run_updatePivot {join : JoinTable} (hlink : rq.relation.link = .manyToMany join) (id : Value)
    (pairs : List (String × Value)) (w : World σ) :
    (rq.updatePivot db id pairs).run.run w =
      (db.execute (.update (rq.pivotUpdate join id pairs db.now))).run.run w := by
  unfold updatePivot
  rw [run_bind, run_lift, requireJoin_eq_ok hlink]
  simp only [Entity.foldl_set, Update.on, List.nil_append, pivotUpdate]
  split
  · rfl
  · rw [List.append_nil]

/-- A comparison with null is true of null, and of nothing else. -/
theorem selects_pivotUpdate_iff (hk : rq.parentKey = .null) (join : JoinTable) (id : Value)
    (pairs : List (String × Value)) (now : Timestamp) (ρ : Reading) :
    (rq.pivotUpdate join id pairs now).target.selects ρ = true ↔ ρ.column (.parse join.foreignKey) = .null ∧
      (Predicate.compare (.parse join.otherKey) .eq (.value id)).truth ρ = some true := by
  have hfilters : (rq.pivotUpdate join id pairs now).target.filters =
      [⟨.and, .compare (.parse join.foreignKey) .eq (.value rq.parentKey)⟩,
        ⟨.and, .compare (.parse join.otherKey) .eq (.value id)⟩] := rfl
  have hnull : (Predicate.compare (.parse join.foreignKey) .eq (.value rq.parentKey)).truth ρ = some true ↔
      ρ.column (.parse join.foreignKey) = .null := by
    rw [hk, Predicate.truth, Option.some.injEq]
    cases ρ.column (.parse join.foreignKey) <;> simp [Value.isNull]
  rw [Query.selects, beq_iff_eq, hfilters, Filter.listTruth, Filter.moreTruth, Filter.moreTruth, Truth.and_eq_true_iff,
    hnull]

/-- **Through a parent without a key nothing is sent, but by one call.**  Reads answer that nothing is related, and writes
fail before anything is sent, whatever the kind of the relationship and whatever query is underneath.  `updatePivot`
updates the join rows of the key that belong to no parent. -/
theorem keylessCalls (hk : rq.parentKey = .null) : rq.KeylessCalls db where
  get := run_fetch_of_null db hk rq.query
  first := run_first_of_null db hk
  results := run_results_of_null db hk
  resolve_unloaded e name w hrq hnone := by
    unfold Entity.resolve
    rw [hnone]
    dsimp only
    rw [run_bind, run_lift, hrq]
    dsimp only
    rw [run_bind, run_results_of_null db hk]
    rfl
  resolve_loaded e name related w hsome := by
    unfold Entity.resolve
    rw [hsome]
    rfl
  save := run_save_of_null db hk
  insert pairs w := by
    unfold insert
    rw [Db.run_attempt, run_save_of_null db hk]
  attach id pairs w := run_guarded hk "attach" _ w
  detach ids w := run_guarded hk "detach" _ w
  sync ids w := run_guarded hk "sync" _ w
  insertWithPivot pairs pivotPairs w := run_guarded hk "insert_with_pivot" _ w
  updatePivot_unavailable id pairs w hlink := by
    have hjoin : rq.requireJoin "update_pivot" = .error (rq.unavailable "update_pivot") := by
      unfold requireJoin
      split
      · rename_i join hjoin
        exact absurd hjoin (hlink join)
      · rfl
    unfold updatePivot
    rw [run_bind, run_lift, hjoin]
  updatePivot_sent := by
    intro join id pairs w hlink u hne
    have hrefusal : (Statement.update u).refusal? db.dialect = none := by
      have htable : u.target.table? ≠ none := Option.some_ne_none join.table
      rw [Statement.refusal?, if_neg htable, if_neg hne]
    obtain ⟨sql, bindings, hp⟩ := Statement.prepare_eq_ok hrefusal
    refine ⟨selects_pivotUpdate_iff hk join id pairs db.now, ⟨.update u, sql, bindings⟩, rfl, ?_⟩
    rw [run_updatePivot db hlink, Db.run_execute, hp]
  updatePivot_empty join id pairs w hlink hempty := by
    have hrefusal : (Statement.update (rq.pivotUpdate join id pairs db.now)).refusal? db.dialect =
        some .updateWithoutAssignment := by
      have htable : (rq.pivotUpdate join id pairs db.now).target.table? ≠ none := Option.some_ne_none join.table
      rw [Statement.refusal?, if_neg htable, if_pos hempty]
    rw [run_updatePivot db hlink, Db.run_execute, Statement.prepare, Statement.compile,
      Statement.compileAfter_of_refusal hrefusal]

end RelationQuery

/-! ## A post without a key -/

namespace Blog

def weightedTags : Relation := ⟨"tags", 2, .manyToMany ⟨"post_tags", "post_id", "tag_id", ["weight"]⟩, []⟩

def draft : Entity := .new postModel

def tagsOfDraft : RelationQuery where
  parent := postModel
  relation := weightedTags
  related := tagModel
  parentKey := .null
  query := (weightedTags.baseQuery tagModel).filter (weightedTags.constrainedColumn tagModel) (.value .null)

theorem relation_draft : draft.relation (db Script.exec) "tags" = .ok tagsOfDraft :=
  Entity.relation_eq_ok (r := weightedTags) rfl rfl

/-- A join row that belongs to no post. -/
def orphan : Row := .ofList [("post_id", .null), ("tag_id", .int 3), ("weight", .int 0)]

end Blog

theorem keylessCalls_draft :
    Blog.draft.relation (Blog.db Script.exec) "tags" = .ok Blog.tagsOfDraft ∧ Blog.tagsOfDraft.parentKey = .null ∧
      (Blog.tagsOfDraft.get (Blog.db Script.exec)).run.run Blog.quiet = (.ok [], Blog.quiet) ∧
      (Blog.tagsOfDraft.attach (Blog.db Script.exec) (.int 3) []).run.run Blog.quiet =
        (.error (.ofCause (.keylessParent "attach" "tags")), Blog.quiet) := by
  have h : Blog.tagsOfDraft.KeylessCalls (Blog.db Script.exec) := RelationQuery.keylessCalls _ rfl
  exact ⟨Blog.relation_draft, rfl, h.get Blog.quiet, h.attach (.int 3) [] Blog.quiet⟩

/-- **Updating the join row of a post without a key sends an update**, and it changes a join row that belongs to no
post. -/
theorem updatePivot_sends_draft :
    Blog.draft.relation (Blog.db Script.exec) "tags" = .ok Blog.tagsOfDraft ∧ Blog.tagsOfDraft.parentKey = .null ∧
      ∃ u p, p.statement = .update u ∧
        p.sql = "UPDATE \"post_tags\" SET \"weight\" = ?1 WHERE \"post_id\" IS NULL AND \"tag_id\" = ?2" ∧
        p.bindings = [.int 1, .int 3] ∧
        ((Blog.tagsOfDraft.updatePivot (Blog.db Script.exec) (.int 3) [("weight", .int 1)]).run.run Blog.quiet).2.events =
          [.sent (.exec p false)] ∧
        u.target.selects (RowStore.reading .sqlite Blog.orphan) = true := by
  let u := Blog.tagsOfDraft.pivotUpdate ⟨"post_tags", "post_id", "tag_id", ["weight"]⟩ (.int 3) [("weight", .int 1)]
    (Blog.db Script.exec).now
  let tokens := (Statement.update u).tokens .sqlite
  refine ⟨Blog.relation_draft, rfl, u, ⟨.update u, String.ofList (Token.layout .sqlite 0 tokens),
    Token.bindings .sqlite tokens⟩, rfl, by decide +kernel, by decide +kernel, ?_,
    by decide +kernel⟩
  rw [RelationQuery.run_updatePivot (Blog.db Script.exec) rfl, Db.run_execute, Statement.prepare_eq rfl]
  rfl

end SqlMapper
