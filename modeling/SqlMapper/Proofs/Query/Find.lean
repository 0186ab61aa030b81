import SqlMapper.Proofs.Eager.Constraint
import SqlMapper.Proofs.Eager.Forest
import SqlMapper.Proofs.Relation.Constrained
/-!
# Find — the row that a key is looked up by

Finding an entity by its key puts the test of the key behind the predicates that the query has already, joined by `AND`,
and takes the first row of the answer.  `AND` binds tighter than `OR`, so the test belongs to the last conjunction of
the list alone: a row that any earlier one is true of is selected whatever its key is (`ModelQuery.find_selects`).
-/
namespace SqlMapper

namespace ModelQuery

variable (mq : ModelQuery) (key : Value)

/-- What is run to find the entity of a key. -/
def lookup : ModelQuery := (mq.withKey key).limit 1

/-- The column of the model's key, as it is named in a query. -/
def keyColumn : Column := .parse (mq.model.table ++ "." ++ mq.model.key)

/-- The row has the key. -/
def HoldsKey (ρ : Reading) : Prop := ρ.column mq.keyColumn = ρ.bound key ∧ ρ.bound key ≠ .null

/-- The test of the key. -/
def keyTest : Predicate := .compare mq.keyColumn .eq (.value key)

theorem filters_lookup : (mq.lookup key).query.filters = mq.query.filters ++ [⟨.and, mq.keyTest key⟩] := rfl

variable {key}

theorem truth_keyTest_iff (hkey : key ≠ .null) (ρ : Reading) :
    (mq.keyTest key).truth ρ = some true ↔ mq.HoldsKey key ρ :=
  Predicate.truth_equal_iff ρ _ hkey

/-! ## What is sent and returned -/

variable {σ : Type} {db : Db σ}

theorem sends_find (key : Value) : db.Sends ((mq.lookup key).Sent db) (mq.find db key) :=
  ((mq.lookup key).sends_get).bind fun _ => Db.sends_pure _

theorem sends_findOrFail (key : Value) : db.Sends ((mq.lookup key).Sent db) (mq.findOrFail db key) :=
  (mq.sends_find key).bind fun found => by
    cases found with
    | some e => exact Db.sends_pure e
    | none => exact Db.sends_of_silent fun _ => rfl

variable {mq}

/-- The entities of a model query are the rows of the answer to its own query. -/
theorem returns_get_rows {w w' : World σ} {es : List Entity} (h : Returns (mq.get db) w es w') :
    ∃ rows w₁, Returns (db.select mq.query) w rows w₁ ∧ List.Forall₂ (fun row e => e.IsRow mq.model row) rows es := by
  obtain ⟨steps, w₀, hl, hload⟩ := returns_bind.1 h
  obtain ⟨-, rfl⟩ := returns_lift.1 hl
  obtain ⟨rows, w₁, hs, hr⟩ := returns_bind.1 hload
  have hsame := LoadStep.sameRow_runAll hr
  rw [List.forall₂_map_left_iff] at hsame
  refine ⟨rows, w₁, hs, hsame.imp fun row e he => ?_⟩
  exact (Entity.isRow_ofRow mq.model row).of_eq he.model he.attributes he.snapshot he.stored

/-- An entity that is found is the first row of the answer. -/
theorem returns_find {w w' : World σ} {e : Entity} (h : Returns (mq.find db key) w (some e) w') :
    ∃ row rest w₁, Returns (db.select (mq.lookup key).query) w (row :: rest) w₁ ∧ e.IsRow mq.model row := by
  obtain ⟨es, w₂, hget, hp⟩ := returns_bind.1 h
  obtain ⟨hhead, rfl⟩ := returns_pure.1 hp
  obtain ⟨rows, w₁, hs, hrows⟩ := returns_get_rows (show Returns ((mq.lookup key).get db) w es _ from hget)
  cases hrows with
  | nil => cases hhead
  | cons hrow hrest =>
    cases hhead
    exact ⟨_, _, w₁, hs, hrow⟩

theorem returns_findOrFail {w w' : World σ} {e : Entity} (h : Returns (mq.findOrFail db key) w e w') :
    Returns (mq.find db key) w (some e) w' := by
  obtain ⟨found, w₁, hfind, hp⟩ := returns_bind.1 h
  cases found with
  | some e' =>
    obtain ⟨rfl, rfl⟩ := returns_pure.1 hp
    exact hfind
  | none => cases hp

/-! ## What is selected -/

/-- **The rows that a lookup of a key selects** are those with the key of which all is true that stands after the last
`OR`, and those, of whatever key, that an alternative before it is true of.  The first row of the answer is what is
found.  Without an `OR` behind the first predicate every selected row has the key. -/
theorem find_selects (mq : ModelQuery) (hkey : key ≠ .null) :
    db.Sends ((mq.lookup key).Sent db) (mq.find db key) ∧ db.Sends ((mq.lookup key).Sent db) (mq.findOrFail db key) ∧
      (∀ w e w', Returns (mq.find db key) w (some e) w' ∨ Returns (mq.findOrFail db key) w e w' →
        ∃ row rest w₁, Returns (db.select (mq.lookup key).query) w (row :: rest) w₁ ∧ e.IsRow mq.model row) ∧
      ∃ earlier last, Filter.conjunctions mq.query.filters = earlier ++ [last] ∧
        (∀ ρ : Reading, (mq.lookup key).query.selects ρ = true ↔
          (∃ run ∈ earlier, ∀ p ∈ run, p.truth ρ = some true) ∨
            ((∀ p ∈ last, p.truth ρ = some true) ∧ mq.HoldsKey key ρ)) ∧
        ((∀ f ∈ mq.query.filters.tail, f.connector = .and) →
          ∀ ρ : Reading, (mq.lookup key).query.selects ρ = true → mq.HoldsKey key ρ) := by
  refine ⟨mq.sends_find key, mq.sends_findOrFail key, fun w e w' h => returns_find (h.elim id returns_findOrFail), ?_⟩
  obtain ⟨earlier, last, hbefore, hafter, hnone⟩ :=
    Filter.conjunctions_append_and mq.query.filters (mq.keyTest key)
  have hselects : ∀ ρ : Reading, (mq.lookup key).query.selects ρ = true ↔
      (∃ run ∈ earlier, ∀ p ∈ run, p.truth ρ = some true) ∨
        ((∀ p ∈ last, p.truth ρ = some true) ∧ mq.HoldsKey key ρ) := by
    intro ρ
    have hlast : (∀ p ∈ last ++ [mq.keyTest key], p.truth ρ = some true) ↔
        (∀ p ∈ last, p.truth ρ = some true) ∧ mq.HoldsKey key ρ := by
      rw [List.forall_mem_append, List.forall_mem_singleton, mq.truth_keyTest_iff hkey]
    rw [Query.selects_eq_true_iff, filters_lookup, Filter.listTruth_iff_exists_conjunction, hafter, ← hlast]
    simp only [List.mem_append, List.mem_singleton, or_and_right, exists_or, exists_eq_left]
  refine ⟨earlier, last, hbefore, hselects, fun hand ρ hsel => ?_⟩
  rcases (hselects ρ).1 hsel with ⟨run, hrun, -⟩ | ⟨-, hholds⟩
  · rw [hnone hand] at hrun
    cases hrun
  · exact hholds

end ModelQuery

namespace Blog

def row (id : Int64) (role name : String) : Row :=
  .ofList [("id", .int id), ("role", .text role), ("name", .text name)]

def admins : ModelQuery := (ModelQuery.all userModel).filter "role" (.text "admin")

/-- The admins, or whoever is called Ada. -/
def adminsOrAda : ModelQuery := admins.scope fun q => q.orFilter (.parse "name") (.value (.text "Ada"))

/-- An admin who is not called Ada, and Ada. -/
def staff : World (List Row) := ⟨[row 1 "admin" "Bob", row 5 "editor" "Ada"], []⟩

def foundKey (found : Except Error (Option Entity)) : Option Value :=
  match found with
  | .ok (some e) => e.key?
  | _ => none

end Blog

/-- Among the admins the key is tested of every row. -/
theorem find_selects_admins :
    Value.int 5 ≠ .null ∧ (∀ f ∈ Blog.admins.query.filters.tail, f.connector = .and) ∧
      ∀ ρ : Reading, (Blog.admins.lookup (.int 5)).query.selects ρ = true → Blog.admins.HoldsKey (.int 5) ρ := by
  have hkey : Value.int 5 ≠ .null := by decide
  have hand : ∀ f ∈ Blog.admins.query.filters.tail, f.connector = .and := List.forall_mem_nil _
  obtain ⟨-, -, -, earlier, last, -, -, hholds⟩ :=
    @ModelQuery.find_selects (.int 5) _ Blog.rowDb Blog.admins hkey
  exact ⟨hkey, hand, hholds hand⟩

/-- To look up the fifth user selects the first one, who has another key, and finds them. -/
theorem find_selects_row_of_other_key :
    Value.int 5 ≠ .null ∧
      (Blog.adminsOrAda.lookup (.int 5)).query.selects (RowStore.reading .sqlite (Blog.row 1 "admin" "Bob")) = true ∧
      ¬ Blog.adminsOrAda.HoldsKey (.int 5) (RowStore.reading .sqlite (Blog.row 1 "admin" "Bob")) ∧
      Blog.foundKey ((Blog.adminsOrAda.find Blog.rowDb (.int 5)).run.run Blog.staff).1 = some (.int 1) := by
  refine ⟨by decide, by decide +kernel, ?_, by decide +kernel⟩
  rintro ⟨heq, -⟩
  revert heq
  decide +kernel

end SqlMapper
