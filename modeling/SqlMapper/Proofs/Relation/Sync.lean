import SqlMapper.Proofs.Eager.Loaded
import SqlMapper.Proofs.Relation.Joined
/-!
# Sync — making the desired keys the joined ones

Synchronising reads the keys that the parent is joined with, deletes the rows of those that are not desired, and inserts
one row for every desired key that is missing.  A connection that executes these statements holds the right rows
afterwards (`RelationQuery.sync_returns`), and synchronising with the same keys again writes nothing.
-/
namespace SqlMapper

namespace RelationQuery

variable {rq : RelationQuery} {join : JoinTable} {d : Dialect} {ρ : Reading} {row : Row}

/-! ## What a call needs -/

theorem requireJoin_eq_ok (hlink : rq.relation.link = .manyToMany join) (operation : String) :
    rq.requireJoin operation = .ok join := by
  unfold requireJoin
  rw [hlink]

theorem requireParentKey_eq_ok (hk : rq.parentKey ≠ .null) (operation : String) :
    rq.requireParentKey operation = .ok rq.parentKey := by
  unfold requireParentKey
  rw [Value.isNull_eq_false hk]
  rfl

/-! ## The rows that the statements select -/

theorem column_eq_iff (hρ : ρ.Reads d row) {name : String} (hn : IsPlainName name) {v : Value} (hv : v ≠ .null) :
    ρ.column (Column.parse name) = v ↔ row.get? name = some v := by
  rw [hn.parse, hρ.column, hn.segment]
  cases row.get? name with
  | none => simp [Ne.symm hv]
  | some u => simp

theorem truth_compare_eq_iff (hρ : ρ.Reads d row) {name : String} (hn : IsPlainName name) {v : Value} (hv : v.IsKey) :
    (Predicate.compare (Column.parse name) .eq (.value v)).truth ρ = some true ↔ row.get? name = some v := by
  rw [Predicate.truth_equal_iff ρ _ hv.not_null, hρ.bound, hv.binding, and_iff_left hv.not_null,
    column_eq_iff hρ hn hv.not_null]

theorem truth_isIn_iff (hρ : ρ.Reads d row) {name : String} (hn : IsPlainName name) {ids : List Value}
    (hids : ∀ v ∈ ids, v.IsKey) :
    (Predicate.isIn (Column.parse name) (ids.map .value) false).truth ρ = some true ↔
      ∃ v ∈ ids, row.get? name = some v := by
  have hb : (ids.map Expr.value).map ρ.expr = ids := by
    rw [List.map_map]
    refine (List.map_congr_left fun v hv => ?_).trans (List.map_id ids)
    rw [Function.comp_apply, Reading.expr, hρ.bound, (hids v hv).binding]
    rfl
  rw [Predicate.truth, Truth.negatedIf_false, hb, ρ.isAmong_eq_true_iff]
  constructor
  · rintro ⟨hm, hnull⟩
    exact ⟨_, hm, (column_eq_iff hρ hn hnull).1 rfl⟩
  · rintro ⟨v, hm, hv⟩
    have he := (column_eq_iff hρ hn (hids v hm).not_null).2 hv
    exact ⟨he ▸ hm, he ▸ (hids v hm).not_null⟩

theorem selects_parentRows (hρ : ρ.Reads d row) (hj : join.KeyColumns) (hkey : rq.parentKey.IsKey) :
    (rq.parentRows join).selects ρ = join.links rq.parentKey row := by
  rw [Bool.eq_iff_iff, join.links_iff, ← truth_compare_eq_iff hρ hj.foreign_plain hkey]
  exact beq_iff_eq

theorem selects_rowsOf (hρ : ρ.Reads d row) (hj : join.KeyColumns) (hkey : rq.parentKey.IsKey) {ids : List Value}
    (hids : ∀ v ∈ ids, v.IsKey) (hne : ids ≠ []) :
    (rq.rowsOf join ids).selects ρ = (join.links rq.parentKey row && join.reaches ids row) := by
  have hrows : rq.rowsOf join ids =
      (rq.parentRows join).filterIn (.parse join.otherKey) (ids.map .value) := by
    cases ids with
    | nil => exact absurd rfl hne
    | cons v vs => rfl
  rw [Bool.eq_iff_iff, Bool.and_eq_true, join.links_iff, join.reaches_iff, hrows,
    ← truth_compare_eq_iff hρ hj.foreign_plain hkey, ← truth_isIn_iff hρ hj.other_plain hids, ← Truth.and_eq_true_iff]
  exact beq_iff_eq

theorem readsOnly_parentRows (columns : List Column) : ((rq.parentRows join).select columns).ReadsOnly join.table := rfl

theorem readsOnly_rowsOf (ids : List Value) : (rq.rowsOf join ids).ReadsOnly join.table := by
  cases ids <;> rfl

/-! ## The rows that are inserted -/

def stamps (join : JoinTable) (now : Timestamp) : List (String × Value) :=
  (["created_at", "updated_at"].filter join.pivotColumns.contains).map fun column => (column, .timestamp now)

theorem names_stamps_sublist (join : JoinTable) (now : Timestamp) :
    (Assoc.names (stamps join now)).Sublist ["created_at", "updated_at"] := by
  have hn : Assoc.names (stamps join now) = ["created_at", "updated_at"].filter join.pivotColumns.contains := by
    rw [Assoc.names, stamps, List.map_map]
    exact List.map_id' _
  rw [hn]
  exact List.filter_sublist

theorem nodup_joinRow (hj : join.KeysApart) (now : Timestamp) :
    (join.foreignKey :: join.otherKey :: Assoc.names (stamps join now)).Nodup := by
  have hs := names_stamps_sublist join now
  rw [List.nodup_cons, List.nodup_cons, List.mem_cons, not_or]
  exact ⟨⟨hj.distinct, fun hm => hj.foreign_unstamped (hs.mem hm)⟩, fun hm => hj.other_unstamped (hs.mem hm),
    hs.nodup (by decide)⟩

theorem entries_joinRow (hj : join.KeysApart) (key id : Value) (now : Timestamp) :
    (joinRow join key id now).entries = (join.foreignKey, key) :: (join.otherKey, id) :: stamps join now := by
  have hrow : joinRow join key id now =
      .ofList ((join.foreignKey, key) :: (join.otherKey, id) :: stamps join now) := by
    unfold joinRow Attributes.ofList Attributes.insertAll stamps
    rw [List.foldl_cons, List.foldl_cons, List.foldl_map]
  rw [hrow]
  exact Attributes.entries_ofList (nodup_joinRow hj now)

theorem lastSegment_stamp {column : String} (h : column ∈ ["created_at", "updated_at"]) : lastSegment column = column := by
  simp only [List.mem_cons, List.not_mem_nil, or_false] at h
  rcases h with rfl | rfl <;> decide

theorem columns_joinRows (hj : join.KeyColumns) (key : Value) (ids : List Value) (now : Timestamp) :
    (joinRows join key ids now).columns = join.foreignKey :: join.otherKey :: Assoc.names (stamps join now) := by
  show Assoc.names (joinRow join key .null now).entries = _
  rw [entries_joinRow hj.apart]
  rfl

theorem nodup_columns_joinRows (hj : join.KeyColumns) (key : Value) (ids : List Value) (now : Timestamp) :
    ((joinRows join key ids now).columns.map lastSegment).Nodup := by
  have hsame : (Assoc.names (stamps join now)).map lastSegment = Assoc.names (stamps join now) := by
    refine (List.map_congr_left fun column hm => ?_).trans (List.map_id _)
    exact lastSegment_stamp ((names_stamps_sublist join now).mem hm)
  rw [columns_joinRows hj, List.map_cons, List.map_cons, hj.foreign_plain.segment, hj.other_plain.segment, hsame]
  exact nodup_joinRow hj.apart now

/-- What is stored for an inserted row joins the parent with the key of the row. -/
theorem stores_joinRows (hj : join.KeyColumns) {key : Value} (hkey : key.IsKey) {ids : List Value}
    (hids : ∀ v ∈ ids, v.IsKey) (now : Timestamp) {added : List Row}
    (h : List.Forall₂ ((joinRows join key ids now).Stores d) (joinRows join key ids now).rows added) :
    List.Forall₂ (fun id row => row.get? join.foreignKey = some key ∧ row.get? join.otherKey = some id) ids added := by
  have hrows : (joinRows join key ids now).rows = ids.map fun id => (joinRow join key id now).values.map .value := rfl
  rw [hrows, List.forall₂_map_left_iff] at h
  refine ((List.forall₂_and_left _ _).2 ⟨hids, h⟩).imp fun id row hrow => ?_
  obtain ⟨hid, hstores⟩ := hrow
  have hvalues : (joinRow join key id now).values.map Expr.value =
      .value key :: .value id :: (stamps join now).map fun stamp => .value stamp.2 := by
    rw [Attributes.values, entries_joinRow hj.apart, List.map_cons, List.map_cons, List.map_cons, List.map_cons, List.map_map]
    rfl
  rw [hvalues] at hstores
  unfold Insert.Stores at hstores
  rw [columns_joinRows hj, List.zip_cons_cons, List.zip_cons_cons] at hstores
  have hforeign := hstores join.foreignKey key List.mem_cons_self
  have hother := hstores join.otherKey id (List.mem_cons_of_mem _ List.mem_cons_self)
  rw [hj.foreign_plain.segment, hkey.binding] at hforeign
  rw [hj.other_plain.segment, hid.binding] at hother
  exact ⟨hforeign, hother⟩

end RelationQuery

/-! ## What is sent -/

/-- The operation changes data. -/
def Event.isWrite : Event → Bool
  | .sent (.exec _ _) => true
  | _ => false

/-- An operation that deletes rows asks for some keys. -/
def Event.DeletesSome (e : Event) : Prop :=
  ∀ p wantsKey q, e = .sent (.exec p wantsKey) → p.statement = .delete q →
    ∃ column values, values ≠ [] ∧ (⟨.and, .isIn column values false⟩ : Filter) ∈ q.filters

theorem Event.deletesSome_of_not_isWrite {e : Event} (h : e.isWrite = false) : e.DeletesSome := by
  rintro p wantsKey q rfl -
  cases h

namespace RelationQuery

section

variable {σ : Type} {db : Db σ} {rq : RelationQuery} {join : JoinTable} {content : σ → List Row} {reading : Row → Reading}

/-- Deleting the rows of some keys, if there are any, leaves the other rows. -/
theorem delete_step (h : db.Executes join.table content reading) (hj : join.KeyColumns) (hkey : rq.parentKey.IsKey)
    {ids : List Value} (hids : ∀ v ∈ ids, v.IsKey) (w : World σ) :
    ∃ events c, (ids ≠ [] → ∃ n, Returns (db.execute (.delete (rq.rowsOf join ids))) w n ⟨c, w.events ++ events⟩) ∧
      (¬ids ≠ [] → (⟨c, w.events ++ events⟩ : World σ) = w) ∧
      content c = (content w.connection).filter (fun row => !(join.links rq.parentKey row && join.reaches ids row)) ∧
      (∀ e ∈ events, e.DeletesSome) ∧ (ids = [] → events = []) := by
  by_cases hne : ids = []
  · subst hne
    exact ⟨[], w.connection, fun hc => absurd rfl hc, fun _ => by rw [List.append_nil],
      (join.filter_reaches_nil _ _).symm, fun e he => absurd he List.not_mem_nil, fun _ => rfl⟩
  · obtain ⟨n, p, c, hp, hr, hc⟩ := h.returns_delete (rq.readsOnly_rowsOf ids) w
    refine ⟨[.sent (.exec p false)], c, fun _ => ⟨n, hr⟩, fun hn => absurd hne hn, ?_, ?_, fun he => absurd he hne⟩
    · rw [hc]
      refine List.filter_congr fun row _ => ?_
      rw [selects_rowsOf (h.reads row) hj hkey hids hne]
    · rw [List.forall_mem_singleton]
      rintro p' wantsKey q he hq
      cases he
      rw [hp] at hq
      cases hq
      refine ⟨.parse join.otherKey, ids.map .value, fun hm => hne (List.map_eq_nil_iff.1 hm), ?_⟩
      cases ids with
      | nil => exact absurd rfl hne
      | cons v vs => exact List.mem_cons_of_mem _ List.mem_cons_self

/-- Inserting the rows of some keys, if there are any, adds one row for each. -/
theorem insert_step (h : db.Executes join.table content reading) (hj : join.KeyColumns) (hkey : rq.parentKey.IsKey)
    {ids : List Value} (hids : ∀ v ∈ ids, v.IsKey) (w : World σ) :
    ∃ added events c,
      (ids ≠ [] → ∃ n, Returns (db.execute (.insert (joinRows join rq.parentKey ids db.now))) w n
        ⟨c, w.events ++ events⟩) ∧
      (¬ids ≠ [] → (⟨c, w.events ++ events⟩ : World σ) = w) ∧ content c = content w.connection ++ added ∧
      List.Forall₂ (fun id row => row.get? join.foreignKey = some rq.parentKey ∧ row.get? join.otherKey = some id)
        ids added ∧
      (∀ e ∈ events, e.DeletesSome) ∧ (ids = [] → events = []) := by
  by_cases hne : ids = []
  · subst hne
    exact ⟨[], [], w.connection, fun hc => absurd rfl hc, fun _ => by rw [List.append_nil], (List.append_nil _).symm,
      .nil, fun e he => absurd he List.not_mem_nil, fun _ => rfl⟩
  · obtain ⟨n, p, added, c, hp, hr, hc, hs⟩ :=
      h.returns_insert (i := joinRows join rq.parentKey ids db.now) rfl rfl (isGrid_joinRows _ _ _ _)
        (nodup_columns_joinRows hj _ _ _) w
    refine ⟨added, [.sent (.exec p false)], c, fun _ => ⟨n, hr⟩, fun hn => absurd hne hn, hc,
      stores_joinRows hj hkey hids db.now hs, ?_, fun he => absurd he hne⟩
    rw [List.forall_mem_singleton]
    rintro p' wantsKey q he hq
    cases he
    rw [hp] at hq
    cases hq

theorem present_of_select (h : db.Executes join.table content reading) (hj : join.KeyColumns)
    (hkey : rq.parentKey.IsKey) {rows : List Row}
    (hrows : ∀ row ∈ rows, join.links rq.parentKey row = true → ∃ v, row.get? join.otherKey = some v) :
    Value.distinct (((rows.filter fun row =>
        ((rq.parentRows join).select [.parse join.otherKey]).selects (reading row)).map
          (·.project [.parse join.otherKey])).filterMap (·.get? join.otherKey)) =
      join.present rq.parentKey rows := by
  have hfilter : (rows.filter fun row =>
      ((rq.parentRows join).select [.parse join.otherKey]).selects (reading row)) =
        rows.filter (join.links rq.parentKey) :=
    List.filter_congr fun row _ => selects_parentRows (h.reads row) hj hkey
  rw [hfilter, List.filterMap_map, JoinTable.present]
  refine congrArg Value.distinct (List.filterMap_congr fun row hrow => ?_)
  obtain ⟨hm, hl⟩ := List.mem_filter.1 hrow
  obtain ⟨v, hv⟩ := hrows row hm hl
  rw [Function.comp_apply, hj.other_plain.parse, Attributes.get?_project_name hj.other_plain, hv]
  rfl

def settle (db : Db σ) (rq : RelationQuery) (join : JoinTable) (changes : Changes) : Action σ Changes :=
  let inserting : Action σ Changes :=
    if changes.attached ≠ [] then
      db.execute (.insert (joinRows join rq.parentKey changes.attached db.now)) >>= fun _ => pure changes
    else pure changes
  if changes.detached ≠ [] then db.execute (.delete (rq.rowsOf join changes.detached)) >>= fun _ => inserting
  else inserting

theorem exchange_eq_settle (desired : List Value) :
    rq.exchange db join rq.parentKey desired =
      db.select ((rq.parentRows join).select [.parse join.otherKey]) >>= fun rows =>
        let read := Value.distinct (rows.filterMap (·.get? join.otherKey))
        settle db rq join ⟨desired.filter (!read.contains ·), read.filter (!desired.contains ·)⟩ :=
  rfl

theorem exchange_returns (h : db.Executes join.table content reading) (hj : join.KeyColumns) (hkey : rq.parentKey.IsKey)
    {desired : List Value} (hdesired : ∀ v ∈ desired, v.IsKey) (w : World σ)
    (hrows : ∀ row ∈ content w.connection, join.links rq.parentKey row = true →
      ∃ v, row.get? join.otherKey = some v ∧ v.IsKey) :
    let changes := join.changes rq.parentKey desired (content w.connection)
    ∃ added events c, Returns (rq.exchange db join rq.parentKey desired) w changes ⟨c, w.events ++ events⟩ ∧
      content c = (content w.connection).filter
        (fun row => !(join.links rq.parentKey row && join.reaches changes.detached row)) ++ added ∧
      List.Forall₂ (fun id row => row.get? join.foreignKey = some rq.parentKey ∧ row.get? join.otherKey = some id)
        changes.attached added ∧
      (∀ e ∈ events, e.DeletesSome) ∧ (changes = ⟨[], []⟩ → ∀ e ∈ events, e.isWrite = false) := by
  intro changes
  have hdetached : ∀ v ∈ changes.detached, v.IsKey := by
    intro v hv
    obtain ⟨row, hrow, hl, ho⟩ := join.mem_present.1 (join.mem_detached.1 hv).1
    obtain ⟨u, hu, hk⟩ := hrows row hrow hl
    rw [hu] at ho
    cases ho
    exact hk
  have hattached : ∀ v ∈ changes.attached, v.IsKey := fun v hv => hdesired v (join.mem_attached.1 hv).1
  obtain ⟨p, c₁, hp, hselect, hc₁⟩ := h.returns_select (rq.readsOnly_parentRows [.parse join.otherKey]) w
  obtain ⟨deletes, c₂, hdelete, hkept, hc₂, hsome, hnone⟩ :=
    delete_step h hj hkey hdetached ⟨c₁, w.events ++ [.sent (.query p)]⟩
  obtain ⟨added, inserts, c₃, hinsert, hsame, hc₃, hadded, hsome', hnone'⟩ :=
    insert_step h hj hkey hattached ⟨c₂, w.events ++ [.sent (.query p)] ++ deletes⟩
  refine ⟨added, .sent (.query p) :: (deletes ++ inserts), c₃, ?_, by rw [hc₃, hc₂, hc₁], hadded, ?_, ?_⟩
  · have hpresent := present_of_select h hj hkey fun row hrow hl => (hrows row hrow hl).imp fun v hv => hv.1
    have hsettle : Returns (settle db rq join changes) ⟨c₁, w.events ++ [.sent (.query p)]⟩ changes
        ⟨c₃, w.events ++ [.sent (.query p)] ++ deletes ++ inserts⟩ :=
      returns_step hdelete hkept (returns_step hinsert hsame (returns_pure.2 ⟨rfl, rfl⟩))
    rw [exchange_eq_settle]
    refine returns_bind.2 ⟨_, _, hselect, ?_⟩
    simp only [Query.select] at hpresent ⊢
    have hevents : w.events ++ .sent (.query p) :: (deletes ++ inserts) =
        w.events ++ [.sent (.query p)] ++ deletes ++ inserts := by simp
    rw [hpresent, hevents]
    exact hsettle
  · rw [List.forall_mem_cons]
    refine ⟨Event.deletesSome_of_not_isWrite rfl, fun e he => ?_⟩
    exact (List.mem_append.1 he).elim (hsome e) (hsome' e)
  · intro hempty
    rw [hnone (by rw [hempty]), hnone' (by rw [hempty])]
    rw [List.append_nil, List.forall_mem_singleton]
    rfl

theorem sync_run (h : db.Executes join.table content reading) (hlink : rq.relation.link = .manyToMany join)
    (hj : join.KeyColumns) (hkey : rq.parentKey.IsKey) {ids : List Value} (hids : ∀ v ∈ ids, v.IsKey) (w : World σ)
    (hrows : ∀ row ∈ content w.connection, join.links rq.parentKey row = true →
      ∃ v, row.get? join.otherKey = some v ∧ v.IsKey) :
    let changes := join.changes rq.parentKey (Value.distinct ids) (content w.connection)
    ∃ events w', Returns (rq.sync db ids) w changes w' ∧ w'.events = w.events ++ events ∧
      join.Synced rq.parentKey ids (content w.connection) (content w'.connection) changes ∧
      (∀ e ∈ events, e.DeletesSome) ∧
      (changes = ⟨[], []⟩ → (∀ e ∈ events, e.isWrite = false) ∧ content w'.connection = content w.connection) := by
  intro changes
  have hdesired : ∀ v ∈ Value.distinct ids, v.IsKey := fun v hv => hids v ((Value.mem_distinct v ids).1 hv)
  obtain ⟨c₁, hbegin, hc₁⟩ := h.returns_begin w
  have hrows₁ := hrows
  rw [← hc₁] at hrows₁
  obtain ⟨added, events, c₂, hexchange, hc₂, hadded, hsome, hnone⟩ :=
    exchange_returns h hj hkey hdesired ⟨c₁, w.events ++ [.sent .begin]⟩ hrows₁
  obtain ⟨c₃, hcommit, hc₃⟩ := h.returns_commit ⟨c₂, w.events ++ [.sent .begin] ++ events⟩
  simp only [hc₁] at hexchange hc₂ hadded hnone
  have hcontent : content c₃ = (content w.connection).filter
      (fun row => !(join.links rq.parentKey row && join.reaches changes.detached row)) ++ added := hc₃.trans hc₂
  refine ⟨.sent .begin :: (events ++ [.sent .commit]), ⟨c₃, w.events ++ [.sent .begin] ++ events ++ [.sent .commit]⟩,
    ?_, ?_, ?_, ?_, fun hempty => ⟨?_, ?_⟩⟩
  · exact returns_bind.2 ⟨_, _, returns_lift.2 ⟨requireJoin_eq_ok hlink _, rfl⟩,
      returns_bind.2 ⟨_, _, returns_lift.2 ⟨requireParentKey_eq_ok hkey.not_null _, rfl⟩,
      returns_bind.2 ⟨_, _, hbegin, returns_bind.2 ⟨_, _, returns_tryCatch hexchange,
        returns_bind.2 ⟨_, _, hcommit, returns_pure.2 ⟨rfl, rfl⟩⟩⟩⟩⟩⟩
  · simp
  · rw [hcontent]
    refine (JoinTable.synced_of_changes (Value.nodup_distinct ids) ?_ hadded).of_same_members fun v =>
      (Value.mem_distinct v ids).symm
    exact fun row hrow hl => (hrows row hrow hl).imp fun v hv => hv.1
  · rw [List.forall_mem_cons, List.forall_mem_append, List.forall_mem_singleton]
    exact ⟨Event.deletesSome_of_not_isWrite rfl, hsome, Event.deletesSome_of_not_isWrite rfl⟩
  · rw [List.forall_mem_cons, List.forall_mem_append, List.forall_mem_singleton]
    exact ⟨rfl, hnone hempty, rfl⟩
  · have hnothing : added = [] := by
      have ha : changes.attached = [] := by rw [hempty]
      rw [ha] at hadded
      exact List.forall₂_nil_left_iff.1 hadded
    have hd : changes.detached = [] := by rw [hempty]
    rw [hcontent, hnothing, hd, List.append_nil, join.filter_reaches_nil]

/-- **Synchronising makes the desired keys the joined ones.**  On a connection that executes statements on the join table
it succeeds, whatever rows the table holds, and every delete that is sent asks for some keys.  The rows of other parents
and of the parent's desired keys are as before, the parent has one new row for every key that was missing and no row of
a key that is not desired, and the changes name the keys that were attached and detached.  Synchronising with the same
keys again, in any order and number and at any time, changes nothing and writes nothing. -/
theorem sync_returns (h : db.Executes join.table content reading) (hlink : rq.relation.link = .manyToMany join)
    (hj : join.KeyColumns) (hkey : rq.parentKey.IsKey) {ids : List Value} (hids : ∀ v ∈ ids, v.IsKey) (w : World σ)
    (hrows : ∀ row ∈ content w.connection, join.links rq.parentKey row = true →
      ∃ v, row.get? join.otherKey = some v ∧ v.IsKey) :
    ∃ changes w' events, Returns (rq.sync db ids) w changes w' ∧ w'.events = w.events ++ events ∧
      (∀ e ∈ events, e.DeletesSome) ∧
      join.Synced rq.parentKey ids (content w.connection) (content w'.connection) changes ∧
      ∀ (again : List Value) (now : Timestamp), (∀ v, v ∈ again ↔ v ∈ ids) →
        ∃ w'' more, Returns (rq.sync { db with now := now } again) w' ⟨[], []⟩ w'' ∧ w''.events = w'.events ++ more ∧
          (∀ e ∈ more, e.isWrite = false) ∧ content w''.connection = content w'.connection := by
  obtain ⟨events, w', hr, he, hsynced, hsome, -⟩ := sync_run h hlink hj hkey hids w hrows
  refine ⟨_, w', events, hr, he, hsome, hsynced, fun again now hsame => ?_⟩
  have hlater : ({ db with now := now } : Db σ).Executes join.table content reading :=
    ⟨h.reads, h.begin, h.commit, h.select, h.delete, h.insert⟩
  have hrows' : ∀ row ∈ content w'.connection, join.links rq.parentKey row = true →
      ∃ v, row.get? join.otherKey = some v ∧ v.IsKey := by
    intro row hrow hl
    obtain ⟨id, hid, ho⟩ := join.reaches_iff.1 (hsynced.desired row hrow hl)
    exact ⟨id, ho, hids id hid⟩
  obtain ⟨more, w'', hr', he', -, -, hnothing⟩ :=
    sync_run hlater hlink hj hkey (fun v hv => hids v ((hsame v).1 hv)) w' hrows'
  have hempty : join.changes rq.parentKey (Value.distinct again) (content w'.connection) = ⟨[], []⟩ :=
    JoinTable.changes_eq_nil fun v => by rw [hsynced.mem_present, Value.mem_distinct, hsame]
  obtain ⟨hreads, hcontent⟩ := hnothing hempty
  rw [hempty] at hr'
  exact ⟨w'', more, hr', he', hreads, hcontent⟩

end

end RelationQuery

/-! ## The tags of a post -/

theorem Value.isKey_int (n : Int64) : (Value.int n).IsKey := ⟨nofun, rfl⟩

namespace Blog

/-- The table that joins posts with tags, under some name for the column of the tags. -/
def postTags (otherKey : String) : JoinTable := ⟨"post_tags", "post_id", otherKey, ["created_at"]⟩

theorem keyColumns_postTags : (postTags "tag_id").KeyColumns where
  foreign_plain := ⟨by decide, by decide, by decide⟩
  other_plain := ⟨by decide, by decide, by decide⟩
  distinct := by decide
  foreign_unstamped := by decide
  other_unstamped := by decide

def tags (otherKey : String) : RelationQuery where
  parent := postModel
  relation := ⟨"tags", 2, .manyToMany (postTags otherKey), []⟩
  related := tagModel
  parentKey := .int 5
  query := .table "tags"

def joined (pair : Int64 × Int64) : Row := .ofList [("post_id", .int pair.1), ("tag_id", .int pair.2)]

def joinedRows : List Row := [(5, 3), (5, 3), (6, 3), (5, 4)].map joined

def rowDb : Db (List Row) := db (RowStore.exec .sqlite)

def syncTwice (rq : RelationQuery) (ids : List Value) (rows : List Row) : List Changes :=
  match (rq.sync rowDb ids).run.run ⟨rows, []⟩ with
  | (.ok first, w) =>
    match ((rq.sync rowDb ids).run.run w).1 with
    | .ok second => [first, second]
    | .error _ => [first]
  | (.error _, _) => []

theorem syncTwice_eq {rq : RelationQuery} {ids : List Value} {rows : List Row} {first second : Changes}
    {w w' : World (List Row)} (h : Returns (rq.sync rowDb ids) ⟨rows, []⟩ first w)
    (h' : Returns (rq.sync rowDb ids) w second w') : syncTwice rq ids rows = [first, second] := by
  unfold Returns at h h'
  simp only [syncTwice, h, h']

def syncOnce (rq : RelationQuery) (ids : List Value) (rows : List Row) : List (Changes × List Row) :=
  match (rq.sync rowDb ids).run.run ⟨rows, []⟩ with
  | (.ok changes, w) => [(changes, w.connection)]
  | (.error _, _) => []

end Blog

theorem sync_returns_tags :
    ∃ changes w' events,
      Returns ((Blog.tags "tag_id").sync Blog.rowDb ([4, 9, 4].map .int)) ⟨Blog.joinedRows, []⟩ changes w' ∧
      w'.events = events ∧ (∀ e ∈ events, e.DeletesSome) ∧
      (Blog.postTags "tag_id").Synced (.int 5) ([4, 9, 4].map .int) Blog.joinedRows w'.connection changes := by
  have hrows : ∀ row ∈ Blog.joinedRows, (Blog.postTags "tag_id").links (.int 5) row = true →
      ∃ v, row.get? "tag_id" = some v ∧ v.IsKey :=
    List.forall_mem_map.2 fun pair _ _ => ⟨.int pair.2, rfl, Value.isKey_int pair.2⟩
  have hexecutes : Blog.rowDb.Executes (Blog.postTags "tag_id").table (fun rows => rows) (RowStore.reading .sqlite) :=
    RowStore.executes rfl "post_tags"
  have hlink : (Blog.tags "tag_id").relation.link = .manyToMany (Blog.postTags "tag_id") := rfl
  obtain ⟨changes, w', events, hr, he, hsome, hsynced, -⟩ :=
    RelationQuery.sync_returns hexecutes hlink Blog.keyColumns_postTags (Value.isKey_int 5)
      (List.forall_mem_map.2 fun n _ => Value.isKey_int n) ⟨Blog.joinedRows, []⟩ hrows
  exact ⟨changes, w', events, hr, he, hsome, hsynced⟩

/-- A timestamp is stored as text, so the next run neither finds it nor knows its row.  A qualified name selects the
column under its last segment, so the rows of the parent are not seen and stay. -/
theorem sync_fails_of_timestamp_or_qualified_name :
    Blog.rowDb.Executes "post_tags" (fun rows => rows) (RowStore.reading .sqlite) ∧
      (¬∃ changes w w',
        Returns ((Blog.tags "tag_id").sync Blog.rowDb [.timestamp (.ofUnixSeconds 1000000000)]) ⟨[], []⟩ changes w ∧
        Returns ((Blog.tags "tag_id").sync Blog.rowDb [.timestamp (.ofUnixSeconds 1000000000)]) w ⟨[], []⟩ w') ∧
      ¬∃ changes w,
        Returns ((Blog.tags "post_tags.tag_id").sync Blog.rowDb []) ⟨[Blog.joined (5, 3)], []⟩ changes w ∧
        ∀ row ∈ w.connection, (Blog.postTags "post_tags.tag_id").links (.int 5) row = false := by
  refine ⟨RowStore.executes rfl "post_tags", ?_, ?_⟩
  · rintro ⟨changes, w, w', h, h'⟩
    have htwice : (Blog.syncTwice (Blog.tags "tag_id") [.timestamp (.ofUnixSeconds 1000000000)] []).getLast? =
        some ⟨[.timestamp (.ofUnixSeconds 1000000000)], [.text "2001-09-09 01:46:40"]⟩ := by decide +kernel
    rw [Blog.syncTwice_eq h h'] at htwice
    cases htwice
  · rintro ⟨changes, w, h, hnone⟩
    have honce : Blog.syncOnce (Blog.tags "post_tags.tag_id") [] [Blog.joined (5, 3)] =
        [(⟨[], []⟩, [Blog.joined (5, 3)])] := by decide +kernel
    unfold Returns at h
    simp only [Blog.syncOnce, h, List.cons.injEq, Prod.mk.injEq, and_true] at honce
    have hlinks := hnone (Blog.joined (5, 3)) (by rw [honce.2]; exact List.mem_cons_self)
    exact absurd hlinks (by decide)

end SqlMapper
