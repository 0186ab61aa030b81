import Mathlib.Tactic.Convert
import SqlMapper.Proofs.Eager.Forest
/-!
# Fetch — loads that succeed

The query of a relationship is asked for the values of all parents, and a parent only sees the rows that match its own.
So nothing matters of what is fetched but the rows of each value: if these are known for every relationship of a tree,
then loading succeeds with what they make of every parent (`LoadStep.runAll_yields`), whatever other rows are fetched
beside them.
-/
namespace SqlMapper.LoadStep

variable {σ : Type} {db : Db σ} {constraints : Constraints}

mutual

/-- For every relationship of the tree, fetching the rows of some values succeeds, and the rows of each value among them
are those of the source. -/
def FetchesFrom (db : Db σ) (constraints : Constraints) (source : RowSource) : LoadStep → Prop
  | ⟨r, related, path, nested⟩ =>
    (∀ values : List Value, (∀ v ∈ values, v ≠ .null) → ∃ rows,
      Yields (fetch db constraints r related path values) (rows.map (r.hydrate related)) ∧
        ∀ v ∈ values, r.rowsFor related rows (some v) =
          r.rowsFor related (source [r.name] r related) (some v)) ∧
    AllFetchFrom db constraints (source.below r.name) nested

def AllFetchFrom (db : Db σ) (constraints : Constraints) (source : RowSource) : List LoadStep → Prop
  | [] => True
  | step :: rest => FetchesFrom db constraints source step ∧ AllFetchFrom db constraints source rest

end

theorem ne_null_of_mem_parentValues {column : String} {parents : List Entity} {v : Value}
    (h : v ∈ parentValues column parents) : v ≠ .null := by
  rintro rfl
  have hnull := (List.mem_filter.1 ((Value.mem_distinct _ _).1 h)).2
  cases hnull

/-- A parent sees the same rows of what was fetched for all of them as of the source. -/
theorem rowsFor_fetched {r : Relation} {related : Model} {rows rows' : List Row} {column : String}
    {parents : List Entity} (h : ∀ v ∈ parentValues column parents,
      r.rowsFor related rows (some v) = r.rowsFor related rows' (some v)) {e : Entity} (he : e ∈ parents) :
    r.rowsFor related rows (e.get? column) = r.rowsFor related rows' (e.get? column) := by
  cases hv : e.get? column with
  | none => rfl
  | some v =>
    by_cases hn : v = .null
    · subst hn
      rfl
    · exact h v (mem_parentValues he hv hn)

mutual

theorem run_yields (owner : Model) :
    ∀ (step : LoadStep) (parents : List Entity) {source : RowSource}, step.FetchesFrom db constraints source →
      Yields (run db constraints owner parents step) (parents.map fun e => step.attach source owner e)
  | ⟨r, related, path, nested⟩, parents, source, ⟨hfetches, hbelow⟩ => by
    obtain ⟨rows, hfetch, hrows⟩ :=
      hfetches (parentValues (r.parentColumn owner) parents) fun _ hv => ne_null_of_mem_parentValues hv
    refine hfetch.bind ((runAll_yields related nested (rows.map (r.hydrate related)) hbelow).bind ?_)
    convert yields_pure _ using 1
    refine List.map_congr_left fun e he => ?_
    rw [assign, List.map_map, Function.comp_def,
      matching_map r related _ (fun row => attachAll (source.below r.name) related (r.hydrate related row) nested)
        (fun row => sameRow_attachAll _ related nested _),
      rowsFor_fetched hrows he, attach_eq]
    rfl

/-- **Loading makes of every parent what the rows of its values make of it.** -/
theorem runAll_yields (owner : Model) :
    ∀ (steps : List LoadStep) (parents : List Entity) {source : RowSource}, AllFetchFrom db constraints source steps →
      Yields (runAll db constraints owner parents steps) (parents.map fun e => attachAll source owner e steps)
  | [], parents, source, _ => by
    have hid : parents.map (fun e => attachAll source owner e []) = parents := List.map_id' _
    rw [hid]
    exact yields_pure _
  | step :: rest, parents, source, ⟨hs, hk⟩ => by
    refine (run_yields owner step parents hs).bind ?_
    convert runAll_yields owner rest _ hk using 1
    rw [List.map_map]
    rfl

end

end SqlMapper.LoadStep
