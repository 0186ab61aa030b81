import SqlMapper.Schema.Model
/-!
# EagerOrder — the order in which relationships are loaded

Requested relationships keep their order, but one declared `after` another waits until every request for that other has
been placed.  Names that are not declared, and names to wait for that were not requested, change nothing.
-/
namespace SqlMapper

/-- The first element that is ready, and the others in order. -/
def takeReady {α : Type} (ready : α → Bool) : List α → Option (α × List α)
  | [] => none
  | a :: rest => if ready a then some (a, rest) else (takeReady ready rest).map fun (b, others) => (b, a :: others)

theorem length_takeReady {α : Type} {ready : α → Bool} :
    ∀ {pending : List α} {a : α} {others : List α},
      takeReady ready pending = some (a, others) → pending.length = others.length + 1
  | [], _, _, h => by cases h
  | b :: rest, a, others, h => by
    rw [takeReady] at h
    split at h
    · cases h; rfl
    · obtain ⟨⟨c, more⟩, hc, hp⟩ := Option.map_eq_some_iff.1 h
      simp only [Prod.mk.injEq] at hp
      rw [← hp.2, List.length_cons, List.length_cons, length_takeReady hc]

namespace Model

/-- No pending name has to be loaded before the given one. -/
def isReady (m : Model) (pending : List String) (name : String) : Bool :=
  match m.relation? name with
  | none => true
  | some r => r.after.all fun dependency => !pending.contains dependency

/-- Orders elements by the relationships that `name` gives them.  Where every element waits for another, the first one
goes ahead; in a verified schema that does not happen. -/
def eagerOrderBy {α : Type} (m : Model) (name : α → String) : List α → List α
  | [] => []
  | a :: rest =>
    match _h : takeReady (fun b => m.isReady ((a :: rest).map name) (name b)) (a :: rest) with
    | some (b, others) => b :: m.eagerOrderBy name others
    | none => a :: m.eagerOrderBy name rest
termination_by pending => pending.length
decreasing_by
  · have := length_takeReady _h
    simp only [List.length_cons] at this ⊢
    omega
  · simp

/-- The order in which the requested names are loaded. -/
def eagerOrder (m : Model) (requested : List String) : List String := m.eagerOrderBy (fun name => name) requested

end Model

end SqlMapper
