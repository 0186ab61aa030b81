import Mathlib.Data.List.Nodup
import Mathlib.Data.List.Perm.Subperm
import Mathlib.Data.List.Range
/-!
# Page — the rows that a query shows

A query projects its rows, drops duplicates if it is distinct, skips its offset and stops at its limit.  A database
without an offset clause numbers the rows from one and keeps a range of the numbers: the rows in the range are a page
of the list (`inRange_between`, `inRange_from`).  Numbered rows are never duplicates of each other, which
is why duplicates have to go before the rows are numbered (`distinctRows_numbered`).
-/
namespace SqlMapper

variable {β : Type}

/-! ## Pages -/

/-- The rows without duplicates if that is asked for; of equal rows the first stays. -/
def distinctRows [DecidableEq β] (distinct : Bool) (rows : List β) : List β :=
  if distinct then rows.eraseDups else rows

def takeLimit (limit : Option UInt64) (rows : List β) : List β :=
  match limit with
  | some n => rows.take n.toNat
  | none => rows

def dropOffset (offset : Option UInt64) (rows : List β) : List β :=
  match offset with
  | some n => rows.drop n.toNat
  | none => rows

def pageOf [DecidableEq β] (distinct : Bool) (limit offset : Option UInt64) (rows : List β) : List β :=
  takeLimit limit (dropOffset offset (distinctRows distinct rows))

theorem distinctRows_false [DecidableEq β] (rows : List β) : distinctRows false rows = rows := rfl

/-- A limit that no list of this length reaches does nothing. -/
theorem takeLimit_of_length_le {n : UInt64} {rows : List β} (h : rows.length ≤ n.toNat) :
    takeLimit (some n) rows = rows := List.take_of_length_le h

theorem length_dropOffset_le (offset : Option UInt64) (rows : List β) :
    (dropOffset offset rows).length ≤ rows.length := by
  cases offset with
  | some n =>
    rw [dropOffset, List.length_drop]
    exact Nat.sub_le _ _
  | none => exact Nat.le_refl _

theorem takeLimit_map {γ : Type} (f : β → γ) (limit : Option UInt64) (rows : List β) :
    takeLimit limit (rows.map f) = (takeLimit limit rows).map f := by
  cases limit with
  | some n => exact List.map_take.symm
  | none => rfl

theorem dropOffset_map {γ : Type} (f : β → γ) (offset : Option UInt64) (rows : List β) :
    dropOffset offset (rows.map f) = (dropOffset offset rows).map f := by
  cases offset with
  | some n => exact List.map_drop.symm
  | none => rfl

theorem page_sublist (limit offset : Option UInt64) (rows : List β) :
    (takeLimit limit (dropOffset offset rows)).Sublist rows := by
  have hdrop : (dropOffset offset rows).Sublist rows := by
    cases offset with
    | some n => exact List.drop_sublist _ _
    | none => exact List.Sublist.refl _
  cases limit with
  | some n => exact (List.take_sublist _ _).trans hdrop
  | none => exact hdrop

/-- There is a row on the page if rows may be on it and the offset leaves one. -/
theorem page_ne_nil_iff (limit offset : Option UInt64) (rows : List β) :
    takeLimit limit (dropOffset offset rows) ≠ [] ↔ limit ≠ some 0 ∧ (offset.getD 0).toNat < rows.length := by
  have hdrop : dropOffset offset rows ≠ [] ↔ (offset.getD 0).toNat < rows.length := by
    cases offset with
    | some n => rw [dropOffset, ne_eq, List.drop_eq_nil_iff, Nat.not_le, Option.getD_some]
    | none => exact List.length_pos_iff.symm
  rw [← hdrop]
  cases limit with
  | some n =>
    have hzero : n.toNat = 0 ↔ n = 0 := UInt64.toNat_inj (b := 0)
    rw [takeLimit, ne_eq, List.take_eq_nil_iff, not_or, hzero, ne_eq, Option.some.injEq]
  | none => exact (and_iff_right (by decide)).symm

/-- Nothing is cut off a page that skips nothing and does not end before the rows do. -/
theorem page_eq_self_iff (limit offset : Option UInt64) (rows : List β) :
    takeLimit limit (dropOffset offset rows) = rows ↔
      rows = [] ∨ offset.getD 0 = 0 ∧ ∀ n, limit = some n → rows.length ≤ n.toNat := by
  have hzero : offset.getD 0 = 0 ↔ (offset.getD 0).toNat = 0 := (UInt64.toNat_inj (b := 0)).symm
  have hnil : rows = [] ↔ rows.length = 0 := List.length_eq_zero_iff.symm
  rw [← (page_sublist limit offset rows).length_eq, hzero, hnil]
  cases offset <;> cases limit <;> simp [takeLimit, dropOffset, -List.length_eq_zero_iff] <;> omega

/-- A page shows all rows exactly when nothing is cut off it. -/
theorem forall_mem_page_iff {limit offset : Option UInt64} {rows ordered : List β} (hp : ordered.Perm rows)
    (hn : rows.Nodup) :
    (∀ row ∈ rows, row ∈ takeLimit limit (dropOffset offset ordered)) ↔
      rows = [] ∨ offset.getD 0 = 0 ∧ ∀ n, limit = some n → rows.length ≤ n.toNat := by
  have hnil : ordered = [] ↔ rows = [] := ⟨fun h => (h ▸ hp).symm.eq_nil, fun h => (h ▸ hp).eq_nil⟩
  rw [← hnil, ← hp.length_eq, ← page_eq_self_iff]
  constructor
  · intro h
    refine (page_sublist limit offset ordered).eq_of_length_le ?_
    rw [hp.length_eq]
    exact (hn.subperm h).length_le
  · intro h row hrow
    rw [h]
    exact hp.mem_iff.2 hrow

/-- One row is on its page if a row may be on it and the offset skips none. -/
theorem page_singleton (limit offset : Option UInt64) (row : β) :
    takeLimit limit (dropOffset offset [row]) = if limit ≠ some 0 ∧ offset.getD 0 = 0 then [row] else [] := by
  have hshown := page_ne_nil_iff limit offset [row]
  have hzero : (offset.getD 0).toNat = 0 ↔ offset.getD 0 = 0 := UInt64.toNat_inj (b := 0)
  rw [List.length_singleton, Nat.lt_one_iff, hzero] at hshown
  split
  · next h => exact (List.sublist_singleton.1 (page_sublist limit offset [row])).resolve_left (hshown.2 h)
  · next h => exact not_not.1 (mt hshown.1 h)

theorem length_eraseDups_le [DecidableEq β] (rows : List β) : rows.eraseDups.length ≤ rows.length := by
  cases rows with
  | nil => exact Nat.le_refl _
  | cons a rest =>
    -- the copies of the first row go before the rest is looked at, so the induction is on the length
    have hfilter := List.length_filter_le (fun b => !b == a) rest
    have ih := length_eraseDups_le (rest.filter fun b => !b == a)
    rw [List.eraseDups_cons, List.length_cons, List.length_cons]
    omega
termination_by rows.length
decreasing_by exact Nat.lt_succ_of_le (List.length_filter_le _ _)

theorem length_distinctRows_le [DecidableEq β] (distinct : Bool) (rows : List β) :
    (distinctRows distinct rows).length ≤ rows.length := by
  cases distinct with
  | true => exact length_eraseDups_le rows
  | false => exact Nat.le_refl _

/-! ## Numbered rows -/

/-- The rows with their numbers, counted from one. -/
def numbered (rows : List β) : List (β × Nat) := rows.zipIdx 1

/-- The rows whose numbers reach from the first to the last one; there may be no last one. -/
def inRange (first : Nat) (last : Option Nat) (rows : List (β × Nat)) : List β :=
  (rows.filter fun r => decide (first ≤ r.2) && last.all fun n => decide (r.2 ≤ n)).map Prod.fst

theorem nodup_numbered (rows : List β) : (numbered rows).Nodup := by
  refine List.Nodup.of_map Prod.snd ?_
  rw [numbered, List.zipIdx_map_snd]
  exact List.nodup_range' 1

theorem eraseDups_of_nodup [DecidableEq β] {rows : List β} (h : rows.Nodup) : rows.eraseDups = rows := by
  induction rows with
  | nil => rfl
  | cons a rest ih =>
    obtain ⟨hnot, hrest⟩ := List.nodup_cons.1 h
    have hkeep : rest.filter (fun b => !b == a) = rest := by
      refine List.filter_eq_self.2 fun b hb => ?_
      have hne : b ≠ a := fun e => hnot (e ▸ hb)
      simp [hne]
    rw [List.eraseDups_cons, hkeep, ih hrest]

/-- Numbers make rows different, so there are no duplicates to drop any more. -/
theorem distinctRows_numbered [DecidableEq β] (distinct : Bool) (rows : List β) :
    distinctRows distinct (numbered rows) = numbered rows := by
  cases distinct with
  | true => exact eraseDups_of_nodup (nodup_numbered rows)
  | false => rfl

/-- The rows numbered `first` or more, where the numbers start at `k`. -/
theorem filter_le_zipIdx (first : Nat) (rows : List β) (k : Nat) :
    (rows.zipIdx k).filter (fun r => decide (first ≤ r.2)) = (rows.drop (first - k)).zipIdx (max first k) := by
  induction rows generalizing k with
  | nil => simp
  | cons a rest ih =>
    rw [List.zipIdx_cons, List.filter_cons, ih (k + 1)]
    by_cases h : first ≤ k
    · have h₁ : first - k = 0 := by omega
      have h₂ : first - (k + 1) = 0 := by omega
      have h₄ : max first (k + 1) = k + 1 := by omega
      simp [h, h₁, h₂, h₄]
    · have h₁ : first - k = first - (k + 1) + 1 := by omega
      have h₂ : max first k = max first (k + 1) := by omega
      simp [h, h₁, h₂]

/-- The rows numbered `last` or less, where the numbers start at `k`. -/
theorem filter_ge_zipIdx (last : Nat) (rows : List β) (k : Nat) :
    (rows.zipIdx k).filter (fun r => decide (r.2 ≤ last)) = (rows.take (last + 1 - k)).zipIdx k := by
  induction rows generalizing k with
  | nil => simp
  | cons a rest ih =>
    rw [List.zipIdx_cons, List.filter_cons, ih (k + 1)]
    by_cases h : k ≤ last
    · have h₁ : last + 1 - k = last + 1 - (k + 1) + 1 := by omega
      simp [h, h₁]
    · have h₁ : last + 1 - k = 0 := by omega
      have h₂ : last + 1 - (k + 1) = 0 := by omega
      simp [h, h₁, h₂]

theorem inRange_from (first : Nat) (rows : List β) : inRange first none (numbered rows) = rows.drop (first - 1) := by
  simp only [inRange, Option.all_none, Bool.and_true, numbered]
  rw [filter_le_zipIdx, List.zipIdx_map_fst]

theorem inRange_between (first last : Nat) (rows : List β) :
    inRange first (some last) (numbered rows) = (rows.take last).drop (first - 1) := by
  simp only [inRange, Option.all_some, numbered]
  rw [← List.filter_filter, filter_ge_zipIdx, filter_le_zipIdx, List.zipIdx_map_fst, Nat.add_sub_cancel]

end SqlMapper
