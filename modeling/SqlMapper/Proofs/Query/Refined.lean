import Mathlib.Data.List.TakeWhile
import SqlMapper.Proofs.Query.Meaning
/-!
# Refined — predicates added to a query

Every method that filters a query puts one more predicate behind those that are there, joined by `AND` or by `OR`, and
changes nothing else.  `AND` binds tighter: what is added narrows the query down as far as the first `OR`, and from there
on it is an alternative to all that stands before (`Filter.listTruth_cons_iff`).
-/
namespace SqlMapper

/-! ## Alternatives -/

namespace Filter

/-- The predicates that `AND` joins to what stands before the list. -/
def leading (filters : List Filter) : List Filter := filters.takeWhile fun f => f.connector = .and

/-- The predicates from the first `OR` on. -/
def alternatives (filters : List Filter) : List Filter := filters.dropWhile fun f => f.connector = .and

theorem alternatives_eq_nil_iff {filters : List Filter} :
    alternatives filters = [] ↔ ∀ f ∈ filters, f.connector = .and := by
  rw [alternatives, List.dropWhile_eq_nil_iff]
  simp only [decide_eq_true_eq]

variable (ρ : Reading)

/-- After predicates whose conjunction is given: that conjunction and what `AND` joins to it, or the alternatives. -/
theorem moreTruth_eq_true_iff :
    ∀ (filters : List Filter) (conjunction : Truth),
      moreTruth ρ conjunction filters = some true ↔
        (conjunction = some true ∧ ∀ f ∈ leading filters, f.predicate.truth ρ = some true) ∨
          (alternatives filters ≠ [] ∧ listTruth ρ (alternatives filters) = some true)
  | [], conjunction => by simp [moreTruth, leading, alternatives]
  | ⟨.and, predicate⟩ :: rest, conjunction => by
    have ih := moreTruth_eq_true_iff rest (conjunction.and (predicate.truth ρ))
    have hleading : leading (⟨.and, predicate⟩ :: rest) = ⟨.and, predicate⟩ :: leading rest := rfl
    have halternatives : alternatives (⟨.and, predicate⟩ :: rest) = alternatives rest := rfl
    rw [moreTruth, ih, hleading, halternatives, Truth.and_eq_true_iff, List.forall_mem_cons, and_assoc]
  | ⟨.or, predicate⟩ :: rest, conjunction => by
    have hleading : leading (⟨.or, predicate⟩ :: rest) = [] := rfl
    have halternatives : alternatives (⟨.or, predicate⟩ :: rest) = ⟨.or, predicate⟩ :: rest := rfl
    rw [moreTruth, Truth.or_eq_true_iff, hleading, halternatives, listTruth]
    simp

/-- **A list is true when its first run of conjunctions is, or when the alternatives to it are.** -/
theorem listTruth_cons_iff (connector : Connector) (predicate : Predicate) (rest : List Filter) :
    listTruth ρ (⟨connector, predicate⟩ :: rest) = some true ↔
      (predicate.truth ρ = some true ∧ ∀ f ∈ leading rest, f.predicate.truth ρ = some true) ∨
        (alternatives rest ≠ [] ∧ listTruth ρ (alternatives rest) = some true) := by
  rw [listTruth]
  exact moreTruth_eq_true_iff ρ rest (predicate.truth ρ)

/-- The conjunctions that `OR` separates, after one that has begun. -/
def conjunctionsAfter (begun : List Predicate) : List Filter → List (List Predicate)
  | [] => [begun]
  | ⟨.and, predicate⟩ :: rest => conjunctionsAfter (begun ++ [predicate]) rest
  | ⟨.or, predicate⟩ :: rest => begun :: conjunctionsAfter [predicate] rest

/-- The conjunctions that a list is an alternative of; an empty list is one empty conjunction. -/
def conjunctions : List Filter → List (List Predicate)
  | [] => [[]]
  | ⟨_, predicate⟩ :: rest => conjunctionsAfter [predicate] rest

theorem moreTruth_iff_exists_conjunction :
    ∀ (filters : List Filter) {begun : List Predicate} {conjunction : Truth},
      (conjunction = some true ↔ ∀ p ∈ begun, p.truth ρ = some true) →
        (moreTruth ρ conjunction filters = some true ↔
          ∃ run ∈ conjunctionsAfter begun filters, ∀ p ∈ run, p.truth ρ = some true)
  | [], begun, conjunction, h => by simp [moreTruth, conjunctionsAfter, h]
  | ⟨.and, predicate⟩ :: rest, begun, conjunction, h => by
    rw [moreTruth, conjunctionsAfter]
    refine moreTruth_iff_exists_conjunction rest ?_
    rw [Truth.and_eq_true_iff, h, List.forall_mem_append, List.forall_mem_singleton]
  | ⟨.or, predicate⟩ :: rest, begun, conjunction, h => by
    have hrest : moreTruth ρ (predicate.truth ρ) rest = some true ↔
        ∃ run ∈ conjunctionsAfter [predicate] rest, ∀ p ∈ run, p.truth ρ = some true :=
      moreTruth_iff_exists_conjunction rest (by rw [List.forall_mem_singleton])
    rw [moreTruth, conjunctionsAfter, Truth.or_eq_true_iff, h, hrest]
    simp only [List.mem_cons, exists_eq_or_imp]

/-- **A list is true when all predicates of one of its conjunctions are.** -/
theorem listTruth_iff_exists_conjunction (filters : List Filter) :
    listTruth ρ filters = some true ↔ ∃ run ∈ conjunctions filters, ∀ p ∈ run, p.truth ρ = some true := by
  cases filters with
  | nil => simp [listTruth, conjunctions]
  | cons f rest =>
    obtain ⟨connector, predicate⟩ := f
    rw [listTruth, conjunctions]
    exact moreTruth_iff_exists_conjunction ρ rest (by rw [List.forall_mem_singleton])

/-- What is joined by `AND` at the end belongs to the last conjunction alone. -/
theorem conjunctionsAfter_append_and (predicate : Predicate) :
    ∀ (filters : List Filter) (begun : List Predicate), ∃ earlier last,
      conjunctionsAfter begun filters = earlier ++ [last] ∧
        conjunctionsAfter begun (filters ++ [⟨.and, predicate⟩]) = earlier ++ [last ++ [predicate]] ∧
        ((∀ f ∈ filters, f.connector = .and) → earlier = [])
  | [], begun => ⟨[], begun, rfl, rfl, fun _ => rfl⟩
  | ⟨.and, first⟩ :: rest, begun => by
    obtain ⟨earlier, last, hbefore, hafter, hnone⟩ := conjunctionsAfter_append_and predicate rest (begun ++ [first])
    exact ⟨earlier, last, hbefore, hafter, fun h => hnone (List.forall_mem_cons.1 h).2⟩
  | ⟨.or, first⟩ :: rest, begun => by
    obtain ⟨earlier, last, hbefore, hafter, -⟩ := conjunctionsAfter_append_and predicate rest [first]
    refine ⟨begun :: earlier, last, ?_, ?_, fun h => ?_⟩
    · rw [conjunctionsAfter, hbefore, List.cons_append]
    · rw [List.cons_append, conjunctionsAfter, hafter, List.cons_append]
    · cases (List.forall_mem_cons.1 h).1

theorem conjunctions_append_and (filters : List Filter) (predicate : Predicate) : ∃ earlier last,
    conjunctions filters = earlier ++ [last] ∧
      conjunctions (filters ++ [⟨.and, predicate⟩]) = earlier ++ [last ++ [predicate]] ∧
      ((∀ f ∈ filters.tail, f.connector = .and) → earlier = []) := by
  cases filters with
  | nil => exact ⟨[], [], rfl, rfl, fun _ => rfl⟩
  | cons f rest =>
    obtain ⟨connector, first⟩ := f
    exact conjunctionsAfter_append_and predicate rest [first]

end Filter

/-! ## Refinements -/

namespace Query

/-- The second query is the first after some of the methods that filter.  Each of them adds one predicate, or a group of
the predicates that are put on an empty query. -/
inductive Filtered (q : Query) : Query → Prop where
  | refl : Filtered q q
  | push {q' : Query} (h : Filtered q q') (connector : Connector) (predicate : Predicate) :
    Filtered q (q'.pushFilter connector predicate)
  | group {q' : Query} (h : Filtered q q') (connector : Connector) (build : Query → Query) :
    Filtered q (q'.pushGroup connector build)

/-- The query with more predicates behind its own. -/
def withAdded (q : Query) (added : List Filter) : Query := { q with filters := q.filters ++ added }

theorem withAdded_nil (q : Query) : q.withAdded [] = q := by
  cases q
  simp [withAdded]

theorem pushFilter_withAdded (q : Query) (added : List Filter) (connector : Connector) (predicate : Predicate) :
    (q.withAdded added).pushFilter connector predicate = q.withAdded (added ++ [⟨connector, predicate⟩]) := by
  simp [withAdded, pushFilter]

/-- What the methods add stands behind the predicates that were there; nothing else of the query changes. -/
theorem Filtered.exists_added {q q' : Query} (h : q.Filtered q') : ∃ added, q' = q.withAdded added := by
  induction h with
  | refl => exact ⟨[], q.withAdded_nil.symm⟩
  | push _ connector predicate ih =>
    obtain ⟨added, rfl⟩ := ih
    exact ⟨_, pushFilter_withAdded q added connector predicate⟩
  | group _ connector build ih =>
    obtain ⟨added, rfl⟩ := ih
    unfold pushGroup
    split
    · exact ⟨added, rfl⟩
    · exact ⟨_, pushFilter_withAdded q added connector _⟩

theorem selects_eq_true_iff (q : Query) (ρ : Reading) :
    q.selects ρ = true ↔ Filter.listTruth ρ q.filters = some true := by
  rw [selects, beq_iff_eq]

end Query

end SqlMapper
