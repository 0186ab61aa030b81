import SqlMapper.Proofs.Relation.Keyless
import SqlMapper.Proofs.Relation.Parent
import SqlMapper.Proofs.Session.KeyedTable
import SqlMapper.Proofs.Sql.Identifier
/-!
# Assigned — the columns that an update assigns

Three calls update rows.  A save assigns the attributes that changed, and attributes have each name once
(`Entity.assignsOnce_of_sends`).  A bulk update and the update of a join row assign the pairs of the caller, and after
them the time of the change.  They do not look whether a pair assigns it already, so `updated_at` is assigned twice where
it is both given and stamped (`Update.assignsOnce_stamped_iff`).
-/
namespace SqlMapper

open Token (layout)

/-! ## Columns as they are written -/

namespace Update

/-- The columns of the assignments, as they are written. -/
def columnTexts (d : Dialect) (u : Update) : List String :=
  u.assignments.map fun a => String.ofList (layout d 0 (Token.name a.1))

/-- No column is assigned a second time. -/
def AssignsOnce (d : Dialect) (u : Update) : Prop := (u.columnTexts d).Nodup

theorem assignsOnce_iff {d : Dialect} {u : Update} : u.AssignsOnce d ↔ (Assoc.names u.assignments).Nodup := by
  have htexts : u.columnTexts d = (Assoc.names u.assignments).map fun s => String.ofList (layout d 0 (Token.name s)) := by
    rw [Assoc.names, List.map_map]
    rfl
  rw [AssignsOnce, htexts, List.nodup_map_iff (Token.layout_name_injective d 0)]

/-- **A stamp behind pairs of different names repeats a column exactly when a pair has its name.** -/
theorem assignsOnce_stamped_iff {d : Dialect} {u : Update} {pairs : List (String × Value)} {stamped : Prop}
    [Decidable stamped] {stamp : Expr} (hn : (Assoc.names pairs).Nodup)
    (hu : u.assignments = pairs.map (fun p => (p.1, .value p.2)) ++ if stamped then [("updated_at", stamp)] else []) :
    u.AssignsOnce d ↔ ¬ (stamped ∧ "updated_at" ∈ Assoc.names pairs) := by
  have hpairs : (pairs.map fun p => (p.1, Expr.value p.2)).map Prod.fst = Assoc.names pairs := List.map_map
  rw [assignsOnce_iff, hu, Assoc.names, List.map_append, hpairs]
  by_cases hs : stamped
  · rw [if_pos hs, List.map_singleton, List.nodup_append_comm, List.singleton_append, List.nodup_cons]
    simp only [hn, hs, and_true, true_and]
  · rw [if_neg hs, List.map_nil, List.append_nil]
    simp only [hn, hs, false_and, not_false_eq_true]

end Update

/-! ## Calls that send one update -/

namespace Db

variable {σ α : Type} (db : Db σ)

/-- The call sends the update as it compiles and nothing else; if it does not compile, the call fails and sends
nothing. -/
def IssuesUpdate (u : Update) (x : Action σ α) : Prop :=
  ∀ w, match (Statement.update u).prepare db.dialect with
    | .ok p => (x.run.run w).2 = db.after w [.sent (.exec p false)]
    | .error err => x.run.run w = (.error err, w)

theorem issuesUpdate_execute (u : Update) : db.IssuesUpdate u (db.execute (.update u)) := by
  intro w
  rw [run_execute]
  cases (Statement.update u).prepare db.dialect <;> rfl

end Db

theorem ModelQuery.assignments_updateStatement (mq : ModelQuery) (pairs : List (String × Value)) (now : Timestamp) :
    (mq.updateStatement pairs now).assignments = pairs.map (fun p => (p.1, .value p.2)) ++
      if mq.model.timestamps = true then [("updated_at", .value (.timestamp now))] else [] := by
  unfold updateStatement
  simp only [Entity.foldl_set]
  split
  · rfl
  · exact (List.append_nil _).symm

theorem RelationQuery.issuesUpdate_updatePivot {σ : Type} (db : Db σ) {rq : RelationQuery} {join : JoinTable}
    (hlink : rq.relation.link = .manyToMany join) (id : Value) (pairs : List (String × Value)) :
    db.IssuesUpdate (rq.pivotUpdate join id pairs db.now) (rq.updatePivot db id pairs) := by
  intro w
  rw [run_updatePivot db hlink]
  exact db.issuesUpdate_execute _ w

/-! ## Saves -/

namespace Entity

variable {σ : Type} {db : Db σ}

/-- **A write updates no column twice**: it assigns changed attributes, and these have each name once. -/
theorem assignsOnce_of_sends {e : Entity} {op : Operation} (hop : .sent op ∈ e.sends db) {u : Update}
    (hu : db.Runs (.update u) op) : u.AssignsOnce db.dialect := by
  obtain ⟨p, hp, hprepared⟩ := hu
  have hstatement := Statement.statement_of_prepare hp
  unfold sends at hop
  split at hop
  · rename_i planned hplan
    obtain rfl : op = planned := by simpa using hop
    rcases plan_ok_cases db e hplan with ⟨-, -, hnone⟩ | ⟨-, target, p', -, hp', hsent⟩ | ⟨-, p', hp', hsent⟩
    · cases hnone
    · cases Option.some.inj hsent
      cases Option.some.inj hprepared
      cases hstatement.symm.trans (Statement.statement_of_prepare hp')
      rw [Update.assignsOnce_iff, names_changes]
      exact e.dirty.nodup
    · have hinserted : op.prepared? = some p' := by
        rw [Option.some.inj hsent, Db.inserting]
        split <;> rfl
      cases Option.some.inj (hprepared.symm.trans hinserted)
      cases hstatement.symm.trans (Statement.statement_of_prepare hp')
  · cases hop

end Entity

/-! ## The three calls -/

/-- **An update assigns a column twice only where the stamp meets a pair of its name.**  The pairs that a bulk update or
the update of a join row gets have different names, and the one column that may be repeated is `updated_at`.  No update
of a save repeats a column, whatever the hooks do. -/
theorem Db.updates_assignOnce_iff {σ : Type} (db : Db σ) {pairs : List (String × Value)}
    (hn : (Assoc.names pairs).Nodup) :
    (∀ mq : ModelQuery, db.IssuesUpdate (mq.updateStatement pairs db.now) (mq.update db pairs) ∧
        ((mq.updateStatement pairs db.now).AssignsOnce db.dialect ↔
          ¬ (mq.model.timestamps = true ∧ "updated_at" ∈ Assoc.names pairs))) ∧
      (∀ (rq : RelationQuery) (join : JoinTable) (id : Value), rq.relation.link = .manyToMany join →
        db.IssuesUpdate (rq.pivotUpdate join id pairs db.now) (rq.updatePivot db id pairs) ∧
          ((rq.pivotUpdate join id pairs db.now).AssignsOnce db.dialect ↔
            ¬ (join.pivotColumns.contains "updated_at" = true ∧ "updated_at" ∈ Assoc.names pairs))) ∧
      ∀ (e : Entity) (w : World σ), ∃ events, ((e.save db).run w).2 = db.after w events ∧
        ∀ op u, .sent op ∈ events → db.Runs (.update u) op → u.AssignsOnce db.dialect := by
  refine ⟨fun mq => ⟨db.issuesUpdate_execute _, ?_⟩, fun rq join id hlink =>
    ⟨RelationQuery.issuesUpdate_updatePivot db hlink id pairs, ?_⟩, fun e w => ?_⟩
  · exact Update.assignsOnce_stamped_iff hn (mq.assignments_updateStatement pairs db.now)
  · exact Update.assignsOnce_stamped_iff hn rfl
  · obtain ⟨events, hafter, hsent, -⟩ := e.sent_of_save db w
    exact ⟨events, hafter, fun op u hop hu => Entity.assignsOnce_of_sends (hsent op hop) hu⟩

/-! ## Authors, and the tags of a post -/

namespace Blog

def authors : ModelQuery := .all author

def stampedTagging : JoinTable := ⟨"post_tags", "post_id", "tag_id", ["created_at", "updated_at"]⟩

def stampedTagsOfEntry : RelationQuery := queryFor entry ⟨"tags", 2, .manyToMany stampedTagging, []⟩ tagModel (.int 5)

def newRole : List (String × Value) := [("name", .text "Ada"), ("role", .text "editor")]

def backdated : List (String × Value) := [("name", .text "Ada"), ("updated_at", .timestamp (.ofUnixSeconds 1))]

end Blog

theorem updates_assignOnce_authors :
    (Assoc.names Blog.newRole).Nodup ∧
      Blog.stampedTagsOfEntry.relation.link = .manyToMany Blog.stampedTagging ∧
      (Blog.authors.updateStatement Blog.newRole (Blog.db Script.exec).now).AssignsOnce .sqlite ∧
      (Blog.stampedTagsOfEntry.pivotUpdate Blog.stampedTagging (.int 3) Blog.newRole (Blog.db Script.exec).now).AssignsOnce
        .sqlite := by
  have hn : (Assoc.names Blog.newRole).Nodup := by decide
  obtain ⟨hupdate, hpivot, -⟩ := Db.updates_assignOnce_iff (Blog.db Script.exec) hn
  exact ⟨hn, rfl, (hupdate Blog.authors).2.2 (by decide),
    (hpivot Blog.stampedTagsOfEntry Blog.stampedTagging (.int 3) rfl).2.2 (by decide)⟩

/-- **A given time of change is assigned beside the stamped one**, by a bulk update and by the update of a join row. -/
theorem updates_assign_updated_at_twice :
    (Assoc.names Blog.backdated).Nodup ∧
      (∃ p, p.sql = "UPDATE \"users\" SET \"name\" = ?1, \"updated_at\" = ?2, \"updated_at\" = ?3" ∧
        ((Blog.authors.update (Blog.db Script.exec) Blog.backdated).run.run Blog.quiet).2.events =
          [.sent (.exec p false)] ∧
        ¬ (Blog.authors.updateStatement Blog.backdated (Blog.db Script.exec).now).AssignsOnce .sqlite) ∧
      ∃ p, p.sql = "UPDATE \"post_tags\" SET \"name\" = ?1, \"updated_at\" = ?2, \"updated_at\" = ?3 " ++
          "WHERE \"post_id\" = ?4 AND \"tag_id\" = ?5" ∧
        ((Blog.stampedTagsOfEntry.updatePivot (Blog.db Script.exec) (.int 3) Blog.backdated).run.run Blog.quiet).2.events =
          [.sent (.exec p false)] ∧
        ¬ (Blog.stampedTagsOfEntry.pivotUpdate Blog.stampedTagging (.int 3) Blog.backdated
          (Blog.db Script.exec).now).AssignsOnce .sqlite := by
  refine ⟨by decide, ⟨⟨_, _, _⟩, ?_, rfl, ?_⟩, ⟨_, _, _⟩, ?_, rfl, ?_⟩
  · decide +kernel
  · rw [Update.assignsOnce_iff]
    decide
  · decide +kernel
  · rw [Update.assignsOnce_iff]
    decide

end SqlMapper
