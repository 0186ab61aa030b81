import SqlMapper.Proofs.Attributes
import SqlMapper.Relation.Link
/-!
# Hydrate — what is read from a row

A row becomes an entity that is stored and clean and holds the columns of the row.  For a many-to-many relationship the
columns of the join table are told by their prefix and become the pivot; every column of the row goes to exactly one of
the two (`splits_parts`).  The value that a related entity meets its parent in can therefore be read off the row
(`childKey?_hydrate`).
-/
namespace SqlMapper

theorem Relation.filters_baseQuery (r : Relation) (related : Model) : (r.baseQuery related).filters = [] := by
  unfold Relation.baseQuery
  cases r.link <;> rfl

/-! ## Prefixed names -/

theorem unpivoted?_eq_some_iff {name column : String} : unpivoted? name = some column ↔ name = "pivot_" ++ column := by
  have hl : ("pivot_".toList).length = 6 := by decide
  unfold unpivoted?
  constructor
  · intro h
    split at h
    · rename_i hp
      obtain ⟨rest, hr⟩ := List.isPrefixOf_iff_prefix.1 hp
      simp only [Option.some.injEq] at h
      apply String.toList_inj.1
      rw [← hr, List.drop_left' hl] at h
      rw [← h, String.toList_append, show (String.ofList rest).toList = rest from String.toList_ofList]
      exact hr.symm
    · cases h
  · rintro rfl
    rw [String.toList_append, if_pos (List.isPrefixOf_iff_prefix.2 (List.prefix_append _ _)), List.drop_left' hl,
      String.ofList_toList]

theorem unpivoted?_prefixed (column : String) : unpivoted? ("pivot_" ++ column) = some column :=
  unpivoted?_eq_some_iff.2 rfl

/-! ## The two parts of a row -/

/-- The pairs whose names have the prefix, without it. -/
def pivotEntries (entries : List (String × Value)) : List (String × Value) :=
  entries.filterMap fun (name, v) => (unpivoted? name).map fun column => (column, v)

def prefixed (pair : String × Value) : String × Value := ("pivot_" ++ pair.1, pair.2)

theorem map_prefixed_pivotEntries :
    ∀ entries : List (String × Value),
      (pivotEntries entries).map prefixed = entries.filter fun (name, _) => (unpivoted? name).isSome
  | [] => rfl
  | (name, v) :: rest => by
    have ih := map_prefixed_pivotEntries rest
    cases hu : unpivoted? name with
    | none => simpa [pivotEntries, hu] using ih
    | some column =>
      have hp : prefixed (column, v) = (name, v) := by rw [prefixed, unpivoted?_eq_some_iff.1 hu]
      simpa [pivotEntries, hu, hp] using ih

theorem nodup_names_pivotEntries {entries : List (String × Value)} (h : (Assoc.names entries).Nodup) :
    (Assoc.names (pivotEntries entries)).Nodup := by
  have hm : (Assoc.names (pivotEntries entries)).map ("pivot_" ++ ·) =
      Assoc.names ((pivotEntries entries).map prefixed) := by
    simp [Assoc.names, prefixed, Function.comp_def]
  have hn : ((Assoc.names (pivotEntries entries)).map ("pivot_" ++ ·)).Nodup := by
    rw [hm, map_prefixed_pivotEntries]
    exact Assoc.nodup_names_filter _ h
  exact List.Pairwise.of_map _ (fun a b hab he => hab (congrArg _ he)) hn

theorem entries_pivotPart (row : Row) : row.pivotPart.entries = pivotEntries row.entries :=
  Attributes.entries_ofList (nodup_names_pivotEntries row.nodup)

theorem get?_pivotEntries (column : String) :
    ∀ entries : List (String × Value), Assoc.get? (pivotEntries entries) column = Assoc.get? entries ("pivot_" ++ column)
  | [] => rfl
  | (name, v) :: rest => by
    have ih := get?_pivotEntries column rest
    rw [Assoc.get?_cons]
    cases hu : unpivoted? name with
    | none =>
      have hn : name ≠ "pivot_" ++ column := by
        rintro rfl
        rw [unpivoted?_prefixed] at hu
        cases hu
      simpa [pivotEntries, hu, hn] using ih
    | some c =>
      have hc : c = column ↔ name = "pivot_" ++ column := by
        rw [← unpivoted?_eq_some_iff, hu, Option.some.injEq]
      have hcons : pivotEntries ((name, v) :: rest) = (c, v) :: pivotEntries rest := by simp [pivotEntries, hu]
      rw [hcons, Assoc.get?_cons, ih]
      simp only [hc]

theorem get?_pivotPart (row : Row) (column : String) : row.pivotPart.get? column = row.get? ("pivot_" ++ column) := by
  rw [Attributes.get?, entries_pivotPart, get?_pivotEntries]
  rfl

/-- Every column of a row is in one of two parts, and has lost the prefix in the second. -/
structure Splits (row own joined : Row) : Prop where
  columns : row.entries.Perm (own.entries ++ joined.entries.map prefixed)
  own_unprefixed : ∀ name ∈ own.names, ∀ column, name ≠ "pivot_" ++ column

theorem splits_parts (row : Row) : Splits row row.ownPart row.pivotPart where
  columns := by
    have hp := List.filter_append_perm (fun p : String × Value => (unpivoted? p.1).isNone) row.entries
    rw [entries_pivotPart, map_prefixed_pivotEntries]
    refine hp.symm.trans (List.Perm.of_eq ?_)
    simp only [Attributes.ownPart, Attributes.filter, Option.not_isNone]
  own_unprefixed := by
    rintro _ hn column rfl
    obtain ⟨p, hp, he⟩ := List.mem_map.1 hn
    have hs := (List.mem_filter.1 hp).2
    simp only [he, unpivoted?_prefixed] at hs
    cases hs

/-! ## Reading a row -/

/-- The entity is the row, as it was just read. -/
structure Entity.IsRow (model : Model) (row : Row) (e : Entity) : Prop where
  model : e.model = model
  attributes : e.attributes = row
  snapshot : e.snapshot = row
  stored : e.stored = true
  clean : e.isDirty = false

/-- What a related entity and its pivot hold of a row. -/
def Relation.Reads (r : Relation) (related : Model) (row : Row) (e : Entity) : Prop :=
  match r.link with
  | .manyToMany join =>
    ∃ own joined pivot, Splits row own joined ∧ e.IsRow related own ∧
      e.pivot = some pivot ∧ pivot.IsRow join.model joined ∧ pivot.relations = [] ∧ pivot.pivot = none
  | _ => e.IsRow related row ∧ e.pivot = none

/-- The value of a row by which its parent is found. -/
def Relation.rowKey? (r : Relation) (related : Model) (row : Row) : Option Value :=
  match r.link with
  | .belongsTo _ => row.get? related.key
  | .hasOne key | .hasMany key => row.get? key
  | .manyToMany join => row.get? ("pivot_" ++ join.foreignKey)

/-- Only what an entity holds, and not what hangs below it, makes it the row. -/
theorem Entity.IsRow.of_eq {model : Model} {row : Row} {e e' : Entity} (h : e.IsRow model row) (hm : e'.model = e.model)
    (ha : e'.attributes = e.attributes) (hs : e'.snapshot = e.snapshot) (ht : e'.stored = e.stored) :
    e'.IsRow model row where
  model := hm.trans h.model
  attributes := ha.trans h.attributes
  snapshot := hs.trans h.snapshot
  stored := ht.trans h.stored
  clean := by
    unfold Entity.isDirty
    rw [ha, hs, ht]
    exact h.clean

theorem Entity.isRow_ofRow (model : Model) (row : Row) : (Entity.ofRow model row).IsRow model row where
  model := rfl
  attributes := rfl
  snapshot := rfl
  stored := rfl
  clean := by simp [Entity.isDirty, Entity.ofRow, Attributes.sameAs_self]

theorem Relation.reads_hydrate (r : Relation) (related : Model) (row : Row) :
    r.Reads related row (r.hydrate related row) := by
  unfold Relation.Reads Relation.hydrate
  cases r.link with
  | belongsTo key => exact ⟨Entity.isRow_ofRow related row, rfl⟩
  | hasOne key => exact ⟨Entity.isRow_ofRow related row, rfl⟩
  | hasMany key => exact ⟨Entity.isRow_ofRow related row, rfl⟩
  | manyToMany join =>
    exact ⟨row.ownPart, row.pivotPart, .ofRow join.model row.pivotPart, splits_parts row,
      (Entity.isRow_ofRow related row.ownPart).of_eq rfl rfl rfl rfl, rfl, Entity.isRow_ofRow _ _, rfl, rfl⟩

theorem Relation.model_hydrate (r : Relation) (related : Model) (row : Row) :
    (r.hydrate related row).model = related := by
  unfold Relation.hydrate
  split <;> rfl

theorem Relation.relations_hydrate (r : Relation) (related : Model) (row : Row) :
    (r.hydrate related row).relations = [] := by
  unfold Relation.hydrate
  split <;> rfl

/-- **A related entity meets its parent in a value of its row.** -/
theorem Relation.childKey?_hydrate (r : Relation) (related : Model) (row : Row) :
    r.childKey? related (r.hydrate related row) = r.rowKey? related row := by
  unfold Relation.childKey? Relation.hydrate Relation.rowKey?
  cases r.link with
  | belongsTo key => rfl
  | hasOne key => rfl
  | hasMany key => rfl
  | manyToMany join => exact get?_pivotPart row join.foreignKey

end SqlMapper
