import SqlMapper.Query.Build
/-!
# Meaning — what a list of predicates says of a row

A predicate is true or false of a row, or nothing is known, as of every comparison with null.  In a list the predicates
joined by `AND` belong together, and one group of them has to be true; the connector of the first predicate is not
read.  A row is selected when the list is known to be true of it.
-/
namespace SqlMapper

/-! ## Truth values -/

abbrev Truth := Option Bool

namespace Truth

def and : Truth → Truth → Truth
  | some true, t => t
  | some false, _ => some false
  | none, some false => some false
  | none, _ => none

def or : Truth → Truth → Truth
  | some false, t => t
  | some true, _ => some true
  | none, some true => some true
  | none, _ => none

def negatedIf (negated : Bool) (t : Truth) : Truth := t.map (· != negated)

theorem negatedIf_false (t : Truth) : t.negatedIf false = t := by
  rcases t with _ | _ | _ <;> rfl

theorem and_eq_true_iff {a b : Truth} : a.and b = some true ↔ a = some true ∧ b = some true := by
  rcases a with _ | _ | _ <;> rcases b with _ | _ | _ <;> simp [and]

theorem or_eq_true_iff {a b : Truth} : a.or b = some true ↔ a = some true ∨ b = some true := by
  rcases a with _ | _ | _ <;> rcases b with _ | _ | _ <;> simp [or]

end Truth

/-! ## Predicates -/

/-- How a database reads a predicate about one row. -/
structure Reading where
  column : Column → Value
  /-- A bound value as it arrives. -/
  bound : Value → Value
  /-- Comparisons of values that are not null, other than for equality. -/
  order : Comparison → Value → Value → Bool
  rawValue : String → Value
  rawTruth : String → Truth
  hasRow : Query → Bool

namespace Reading

variable (ρ : Reading)

def expr : Expr → Value
  | .value v => ρ.bound v
  | .raw sql => ρ.rawValue sql

/-- Values are equal when they are of one kind and the same.  Nothing is known of null. -/
def compared (op : Comparison) (a b : Value) : Truth :=
  if a = .null ∨ b = .null then none
  else some (match op with | .eq => a == b | .ne => a != b | op => ρ.order op a b)

def isAmong (a : Value) : List Value → Truth
  | [] => some false
  | b :: rest => (ρ.compared .eq a b).or (isAmong a rest)

theorem compared_eq_true_iff {a b : Value} : ρ.compared .eq a b = some true ↔ a = b ∧ b ≠ .null := by
  unfold compared
  split
  · rename_i h
    constructor
    · intro hn
      cases hn
    · rintro ⟨rfl, hn⟩
      exact absurd (h.elim id id) hn
  · rename_i h
    rw [not_or] at h
    simp [h.2]

theorem isAmong_eq_true_iff {a : Value} :
    ∀ {values : List Value}, ρ.isAmong a values = some true ↔ a ∈ values ∧ a ≠ .null
  | [] => by simp [isAmong]
  | b :: rest => by
    rw [isAmong, Truth.or_eq_true_iff, ρ.compared_eq_true_iff, isAmong_eq_true_iff, List.mem_cons]
    constructor
    · rintro (⟨rfl, hn⟩ | ⟨hm, hn⟩)
      · exact ⟨.inl rfl, hn⟩
      · exact ⟨.inr hm, hn⟩
    · rintro ⟨rfl | hm, hn⟩
      · exact .inl ⟨rfl, hn⟩
      · exact .inr ⟨hm, hn⟩

end Reading

mutual

def Predicate.truth (ρ : Reading) : Predicate → Truth
  | .compare column .eq (.value .null) => some (ρ.column column).isNull
  | .compare column .ne (.value .null) => some !(ρ.column column).isNull
  | .compare column op value => ρ.compared op (ρ.column column) (ρ.expr value)
  | .isIn column values negated => (ρ.isAmong (ρ.column column) (values.map ρ.expr)).negatedIf negated
  | .between column low high negated =>
    ((ρ.compared .ge (ρ.column column) (ρ.expr low)).and (ρ.compared .le (ρ.column column) (ρ.expr high))).negatedIf
      negated
  | .isNull column negated => some ((ρ.column column).isNull != negated)
  | .hasRow query negated => some (ρ.hasRow query != negated)
  | .raw sql => ρ.rawTruth sql
  | .group filters => Filter.listTruth ρ filters

def Filter.listTruth (ρ : Reading) : List Filter → Truth
  | [] => some true
  | ⟨_, predicate⟩ :: rest => Filter.moreTruth ρ (predicate.truth ρ) rest

/-- The rest of a list after predicates joined by `AND`, of whose conjunction the truth is given. -/
def Filter.moreTruth (ρ : Reading) (conjunction : Truth) : List Filter → Truth
  | [] => conjunction
  | ⟨.and, predicate⟩ :: rest => Filter.moreTruth ρ (conjunction.and (predicate.truth ρ)) rest
  | ⟨.or, predicate⟩ :: rest => conjunction.or (Filter.moreTruth ρ (predicate.truth ρ) rest)

end

theorem Predicate.truth_compare_eq (ρ : Reading) (column : Column) {v : Value} (hv : v ≠ .null) :
    (Predicate.compare column .eq (.value v)).truth ρ = ρ.compared .eq (ρ.column column) (ρ.bound v) := by
  cases v with
  | null => exact absurd rfl hv
  | _ => rfl

theorem Predicate.truth_equal_iff (ρ : Reading) (column : Column) {v : Value} (hv : v ≠ .null) :
    (Predicate.compare column .eq (.value v)).truth ρ = some true ↔
      ρ.column column = ρ.bound v ∧ ρ.bound v ≠ .null := by
  rw [Predicate.truth_compare_eq ρ column hv, ρ.compared_eq_true_iff]

/-- The predicates of a query are known to be true. -/
def Query.selects (q : Query) (ρ : Reading) : Bool := Filter.listTruth ρ q.filters == some true

/-- The rows of a table that hold a value in a column. -/
theorem Query.selects_filter_iff (table : String) (column : Column) {v : Value} (hv : v ≠ .null) (ρ : Reading) :
    ((Query.table table).filter column (.value v)).selects ρ = true ↔
      ρ.column column = ρ.bound v ∧ ρ.bound v ≠ .null :=
  beq_iff_eq.trans (Predicate.truth_equal_iff ρ column hv)

end SqlMapper
