import Mathlib.Data.List.Forall2
import SqlMapper.Proofs.Session.Table
import SqlMapper.Relation.Pivot
/-!
# Joined — the rows of a join table

A parent is joined with the keys that its rows hold.  `JoinTable.changes` is the difference between the keys that are
desired and those that are present, and `JoinTable.Synced` says what has to be true of the rows once it was applied:
the rows of other parents and of the keys that stay are as before, and the parent has one new row for every key that
was missing.
-/
namespace SqlMapper

/-! ## Rows of a join table -/

/-- A value that a row can be found by: it is not null, and it is bound as it is. -/
structure Value.IsKey (v : Value) : Prop where
  not_null : v ≠ .null
  not_timestamp : v.asTimestamp? = none

theorem Value.IsKey.binding {v : Value} (h : v.IsKey) (d : Dialect) : Token.binding d v = v :=
  Token.binding_of_not_timestamp h.not_timestamp

namespace JoinTable

variable (join : JoinTable)

/-- The two key columns are columns of their own, and no statement reads their names as anything else. -/
structure KeyColumns : Prop where
  foreign_plain : IsPlainName join.foreignKey
  other_plain : IsPlainName join.otherKey
  distinct : join.foreignKey ≠ join.otherKey
  foreign_unstamped : join.foreignKey ∉ ["created_at", "updated_at"]
  other_unstamped : join.otherKey ∉ ["created_at", "updated_at"]

/-- The two key columns are told apart from each other and from the columns that are stamped. -/
structure KeysApart : Prop where
  distinct : join.foreignKey ≠ join.otherKey
  foreign_unstamped : join.foreignKey ∉ ["created_at", "updated_at"]
  other_unstamped : join.otherKey ∉ ["created_at", "updated_at"]

variable {join} in
theorem KeyColumns.apart (h : join.KeyColumns) : join.KeysApart := ⟨h.distinct, h.foreign_unstamped, h.other_unstamped⟩

def links (key : Value) (row : Row) : Bool := row.get? join.foreignKey == some key

def reaches (ids : List Value) (row : Row) : Bool := ids.any fun id => row.get? join.otherKey == some id

theorem links_iff {key : Value} {row : Row} : join.links key row = true ↔ row.get? join.foreignKey = some key :=
  beq_iff_eq

theorem reaches_iff {ids : List Value} {row : Row} :
    join.reaches ids row = true ↔ ∃ id ∈ ids, row.get? join.otherKey = some id := by
  simp [reaches]

/-- Deleting the rows of no keys deletes nothing. -/
theorem filter_reaches_nil (key : Value) (rows : List Row) :
    rows.filter (fun row => !(join.links key row && join.reaches [] row)) = rows := by
  refine List.filter_eq_self.2 fun row _ => ?_
  rw [reaches, List.any_nil, Bool.and_false, Bool.not_false]

/-- The keys that the parent is joined with, in the order of their rows. -/
def present (key : Value) (rows : List Row) : List Value :=
  Value.distinct ((rows.filter (join.links key)).filterMap (·.get? join.otherKey))

/-- What has to change for the parent to be joined with the desired keys. -/
def changes (key : Value) (desired : List Value) (rows : List Row) : Changes :=
  ⟨desired.filter (!(join.present key rows).contains ·), (join.present key rows).filter (!desired.contains ·)⟩

theorem mem_present {key v : Value} {rows : List Row} :
    v ∈ join.present key rows ↔ ∃ row ∈ rows, join.links key row = true ∧ row.get? join.otherKey = some v := by
  simp only [present, Value.mem_distinct, List.mem_filterMap, List.mem_filter, and_assoc]

theorem mem_attached {key v : Value} {desired : List Value} {rows : List Row} :
    v ∈ (join.changes key desired rows).attached ↔ v ∈ desired ∧ v ∉ join.present key rows := by
  simp [changes, List.mem_filter]

theorem mem_detached {key v : Value} {desired : List Value} {rows : List Row} :
    v ∈ (join.changes key desired rows).detached ↔ v ∈ join.present key rows ∧ v ∉ desired := by
  simp [changes, List.mem_filter]

end JoinTable

/-! ## The rows after synchronising -/

theorem exists_mem_of_forall₂ {α β : Type} {R : α → β → Prop} {as : List α} {bs : List β} (h : List.Forall₂ R as bs) :
    ∀ b ∈ bs, ∃ a ∈ as, R a b := by
  induction h with
  | nil => exact fun b hb => absurd hb List.not_mem_nil
  | cons hr _ ih =>
    rw [List.forall_mem_cons]
    exact ⟨⟨_, List.mem_cons_self, hr⟩, fun b hb => (ih b hb).imp fun a ha => ⟨List.mem_cons_of_mem _ ha.1, ha.2⟩⟩

namespace JoinTable

variable (join : JoinTable)

/-- The parent was joined with the given keys and no others, and the rows say what changed. -/
structure Synced (key : Value) (ids : List Value) (before after : List Row) (changes : Changes) : Prop where
  /-- The rows of other parents are as before. -/
  others : after.filter (fun row => !join.links key row) = before.filter fun row => !join.links key row
  /-- The parent has its rows of desired keys as before, and one row for every attached key. -/
  linked : ∃ added, after.filter (join.links key) =
      before.filter (fun row => join.links key row && join.reaches ids row) ++ added ∧
    List.Forall₂ (fun id row => row.get? join.foreignKey = some key ∧ row.get? join.otherKey = some id)
      changes.attached added
  /-- The parent has no other rows. -/
  desired : ∀ row ∈ after, join.links key row = true → join.reaches ids row = true
  attached_iff : ∀ v, v ∈ changes.attached ↔
    v ∈ ids ∧ ¬ ∃ row ∈ before, join.links key row = true ∧ row.get? join.otherKey = some v
  detached_iff : ∀ v, v ∈ changes.detached ↔
    v ∉ ids ∧ ∃ row ∈ before, join.links key row = true ∧ row.get? join.otherKey = some v
  attached_nodup : changes.attached.Nodup
  detached_nodup : changes.detached.Nodup
  disjoint : ∀ v ∈ changes.attached, v ∉ changes.detached

variable {join} {key : Value} {desired : List Value} {before added : List Row}

/-- A row of the parent stays exactly when its key is desired. -/
theorem reaches_detached {row : Row} (hrow : row ∈ before) (hl : join.links key row = true) {v : Value}
    (hv : row.get? join.otherKey = some v) :
    join.reaches (join.changes key desired before).detached row = !join.reaches desired row := by
  have hp : v ∈ join.present key before := join.mem_present.2 ⟨row, hrow, hl, hv⟩
  have hreach : ∀ ids : List Value, join.reaches ids row = true ↔ v ∈ ids := by
    intro ids
    rw [reaches_iff, hv]
    constructor
    · rintro ⟨id, hm, he⟩
      cases he
      exact hm
    · exact fun hm => ⟨v, hm, rfl⟩
  rw [Bool.eq_iff_iff, hreach, mem_detached, Bool.not_eq_true', ← Bool.not_eq_true, hreach]
  exact ⟨And.right, fun hn => ⟨hp, hn⟩⟩

theorem synced_of_changes (hn : desired.Nodup)
    (hother : ∀ row ∈ before, join.links key row = true → ∃ v, row.get? join.otherKey = some v)
    (hadded : List.Forall₂ (fun id row => row.get? join.foreignKey = some key ∧ row.get? join.otherKey = some id)
      (join.changes key desired before).attached added) :
    join.Synced key desired before
      (before.filter (fun row => !(join.links key row && join.reaches (join.changes key desired before).detached row)) ++
        added)
      (join.changes key desired before) := by
  have hkept : before.filter (fun row => join.links key row &&
        !(join.links key row && join.reaches (join.changes key desired before).detached row)) =
      before.filter fun row => join.links key row && join.reaches desired row := by
    refine List.filter_congr fun row hrow => ?_
    cases hl : join.links key row with
    | false => rfl
    | true =>
      obtain ⟨v, hv⟩ := hother row hrow hl
      rw [reaches_detached hrow hl hv]
      simp
  have hnew : ∀ row ∈ added, join.links key row = true ∧ join.reaches desired row = true := by
    intro row hrow
    obtain ⟨id, hid, hf, ho⟩ := exists_mem_of_forall₂ hadded row hrow
    exact ⟨join.links_iff.2 hf, join.reaches_iff.2 ⟨id, (join.mem_attached.1 hid).1, ho⟩⟩
  have hlinked : (before.filter (fun row =>
        !(join.links key row && join.reaches (join.changes key desired before).detached row)) ++ added).filter
        (join.links key) =
      before.filter (fun row => join.links key row && join.reaches desired row) ++ added := by
    rw [List.filter_append, List.filter_filter, hkept, List.filter_eq_self.2 fun row hrow => (hnew row hrow).1]
  constructor
  case others =>
    have hnone : added.filter (fun row => !join.links key row) = [] :=
      List.filter_eq_nil_iff.2 fun row hrow => by simp [(hnew row hrow).1]
    rw [List.filter_append, List.filter_filter, hnone, List.append_nil]
    refine List.filter_congr fun row _ => ?_
    cases join.links key row <;> rfl
  case linked => exact ⟨added, hlinked, hadded⟩
  case desired =>
    intro row hrow hl
    have hm := List.mem_filter.2 ⟨hrow, hl⟩
    rw [hlinked, List.mem_append] at hm
    rcases hm with hm | hm
    · have hb := (List.mem_filter.1 hm).2
      rw [Bool.and_eq_true] at hb
      exact hb.2
    · exact (hnew row hm).2
  case attached_iff => exact fun v => by rw [mem_attached, mem_present]
  case detached_iff => exact fun v => by rw [mem_detached, mem_present, and_comm]
  case attached_nodup => exact hn.filter _
  case detached_nodup => exact (Value.nodup_distinct _).filter _
  case disjoint => exact fun v ha hd => (join.mem_attached.1 ha).2 (join.mem_detached.1 hd).1

theorem Synced.mem_present {ids : List Value} {after : List Row} {changes : Changes}
    (h : join.Synced key ids before after changes) {v : Value} : v ∈ join.present key after ↔ v ∈ ids := by
  obtain ⟨added, hlinked, hadded⟩ := h.linked
  rw [join.mem_present]
  constructor
  · rintro ⟨row, hrow, hl, ho⟩
    obtain ⟨id, hid, he⟩ := join.reaches_iff.1 (h.desired row hrow hl)
    rw [ho] at he
    cases he
    exact hid
  · intro hv
    have hfound : ∃ row ∈ after.filter (join.links key), row.get? join.otherKey = some v := by
      rw [hlinked]
      by_cases hold : ∃ row ∈ before, join.links key row = true ∧ row.get? join.otherKey = some v
      · obtain ⟨row, hrow, hl, ho⟩ := hold
        have hr := join.reaches_iff.2 ⟨v, hv, ho⟩
        exact ⟨row, List.mem_append_left _ (List.mem_filter.2 ⟨hrow, by rw [hl, hr]; rfl⟩), ho⟩
      · obtain ⟨row, hrow, -, ho⟩ := exists_mem_of_forall₂ hadded.flip v ((h.attached_iff v).2 ⟨hv, hold⟩)
        exact ⟨row, List.mem_append_right _ hrow, ho⟩
    obtain ⟨row, hrow, ho⟩ := hfound
    exact ⟨row, (List.mem_filter.1 hrow).1, (List.mem_filter.1 hrow).2, ho⟩

theorem changes_eq_nil {rows : List Row} (h : ∀ v, v ∈ join.present key rows ↔ v ∈ desired) :
    join.changes key desired rows = ⟨[], []⟩ := by
  unfold changes
  congr 1
  · exact List.filter_eq_nil_iff.2 fun v hv => by simpa using (h v).2 hv
  · exact List.filter_eq_nil_iff.2 fun v hv => by simpa using (h v).1 hv

/-- The desired keys count as a set. -/
theorem Synced.of_same_members {ids ids' : List Value} {after : List Row} {changes : Changes}
    (h : join.Synced key ids before after changes) (hm : ∀ v, v ∈ ids' ↔ v ∈ ids) :
    join.Synced key ids' before after changes := by
  have hr : join.reaches ids' = join.reaches ids := by
    funext row
    rw [Bool.eq_iff_iff, reaches_iff, reaches_iff]
    simp only [hm]
  constructor
  case others => exact h.others
  case linked => rw [hr]; exact h.linked
  case desired => rw [hr]; exact h.desired
  case attached_iff => exact fun v => by rw [hm, h.attached_iff]
  case detached_iff => exact fun v => by rw [hm, h.detached_iff]
  case attached_nodup => exact h.attached_nodup
  case detached_nodup => exact h.detached_nodup
  case disjoint => exact h.disjoint

end JoinTable

end SqlMapper
