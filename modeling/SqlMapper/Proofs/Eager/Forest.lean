import Mathlib.Data.List.Forall2
import SqlMapper.ModelQuery
import SqlMapper.Proofs.Eager.Resolve
import SqlMapper.Proofs.Relation.Hydrate
import SqlMapper.Proofs.Session.Run
/-!
# Forest — the entities that loading makes of rows

Loading a level sends one query for all parents and hands every parent the rows that match its value.  `attachAll` says
what becomes of one parent, given the rows of every relationship; it knows neither the other parents nor the
connection.  A load that returns has made this of every parent (`runAll_returns`), with the rows that the connection
answered.
-/
namespace SqlMapper

/-! ## Rows -/

/-- Rows by the names that lead to a relationship, and by the relationship and its related model. -/
abbrev RowSource := List String → Relation → Model → List Row

/-- The rows that a connection returned, by the names that lead to the relationship; no names lead to the query itself. -/
abbrev Returned := List String → List Row

def Returned.below (returned : Returned) (name : String) : Returned := fun path => returned (name :: path)

def RowSource.below (source : RowSource) (name : String) : RowSource := fun path => source (name :: path)

/-- The rows of a relationship itself, and those of the relationships below it. -/
def Returned.under (rows : List Row) (nested : Returned) : Returned
  | [] | [_] => rows
  | _ :: path => nested path

/-- One name's rows from the one, all others from the other. -/
def Returned.splice (name : String) (first others : Returned) : Returned := fun path =>
  if path.head? = some name then first path else others path

def Returned.source (returned : Returned) : RowSource := fun path _ _ => returned path

/-- The rows that match a parent's value, in order.  Null matches nothing. -/
def Relation.rowsFor (r : Relation) (related : Model) (rows : List Row) : Option Value → List Row
  | none | some .null => []
  | some v => rows.filter fun row => r.rowKey? related row == some v

theorem Relation.rowsFor_some (r : Relation) (related : Model) (rows : List Row) {v : Value} (hv : v ≠ .null) :
    r.rowsFor related rows (some v) = rows.filter fun row => r.rowKey? related row == some v := by
  cases v with
  | null => exact absurd rfl hv
  | _ => rfl

theorem Relation.mem_of_mem_rowsFor (r : Relation) {related : Model} {rows : List Row} {v : Option Value} {row : Row}
    (h : row ∈ r.rowsFor related rows v) : row ∈ rows := by
  unfold Relation.rowsFor at h
  split at h
  · cases h
  · cases h
  · exact (List.mem_filter.1 h).1

/-! ## What becomes of a parent -/

namespace LoadStep

mutual

def attach (source : RowSource) (owner : Model) (e : Entity) : LoadStep → Entity
  | ⟨relation, related, _, nested⟩ =>
    e.setRelated relation.name (relation.collect
      ((relation.rowsFor related (source [relation.name] relation related) (e.get? (relation.parentColumn owner))).map fun row =>
        attachAll (source.below relation.name) related (relation.hydrate related row) nested))

def attachAll (source : RowSource) (owner : Model) (e : Entity) : List LoadStep → Entity
  | [] => e
  | step :: rest => attachAll source owner (attach source owner e step) rest

end

def kids (source : RowSource) (owner : Model) (e : Entity) (step : LoadStep) : List Entity :=
  (step.relation.rowsFor step.related (source [step.relation.name] step.relation step.related)
      (e.get? (step.relation.parentColumn owner))).map fun row =>
    attachAll (source.below step.relation.name) step.related (step.relation.hydrate step.related row) step.nested

mutual

/-- The queries that load a step, each with the rows that it returned.  Without a value nothing is asked, neither for
the relationship nor below it. -/
def requests (constraints : Constraints) (returned : Returned) (owner : Model) (parents : List Entity) :
    LoadStep → List (Query × List Row)
  | ⟨relation, related, path, nested⟩ =>
    let values := parentValues (relation.parentColumn owner) parents
    if values = [] then []
    else (query relation related path constraints values, returned [relation.name]) ::
      requestsAll constraints (returned.below relation.name) related
        ((returned [relation.name]).map (relation.hydrate related)) nested

def requestsAll (constraints : Constraints) (returned : Returned) (owner : Model) (parents : List Entity) :
    List LoadStep → List (Query × List Row)
  | [] => []
  | step :: rest =>
    requests constraints returned owner parents step ++ requestsAll constraints returned owner parents rest

end

end LoadStep

/-! ## Frames -/

theorem Entity.related?_setRelated (e : Entity) (name : String) (related : Related) :
    (e.setRelated name related).related? name = some related :=
  (Assoc.get?_insert name name related e.relations).trans (if_pos rfl)

/-- The entities hold the same; they may differ in what was loaded below them. -/
structure Entity.SameRow (e e' : Entity) : Prop where
  model : e'.model = e.model
  attributes : e'.attributes = e.attributes
  snapshot : e'.snapshot = e.snapshot
  stored : e'.stored = e.stored
  pivot : e'.pivot = e.pivot

namespace Entity.SameRow

theorem refl (e : Entity) : SameRow e e := ⟨rfl, rfl, rfl, rfl, rfl⟩

theorem trans {e e' e'' : Entity} (h : SameRow e e') (h' : SameRow e' e'') : SameRow e e'' where
  model := h'.model.trans h.model
  attributes := h'.attributes.trans h.attributes
  snapshot := h'.snapshot.trans h.snapshot
  stored := h'.stored.trans h.stored
  pivot := h'.pivot.trans h.pivot

theorem setRelated (e : Entity) (name : String) (related : Related) : SameRow e (e.setRelated name related) :=
  ⟨rfl, rfl, rfl, rfl, rfl⟩

theorem get? {e e' : Entity} (h : SameRow e e') (column : String) : e'.get? column = e.get? column := by
  unfold Entity.get?
  rw [h.attributes]

theorem childKey? {e e' : Entity} (h : SameRow e e') (r : Relation) (related : Model) :
    r.childKey? related e' = r.childKey? related e := by
  unfold Relation.childKey?
  simp only [h.get?, h.pivot]

theorem reads {e e' : Entity} (h : SameRow e e') {r : Relation} {related : Model} {row : Row}
    (hr : r.Reads related row e) : r.Reads related row e' := by
  have hi : ∀ {m : Model} {own : Row}, e.IsRow m own → e'.IsRow m own := fun hi =>
    hi.of_eq h.model h.attributes h.snapshot h.stored
  unfold Relation.Reads at hr ⊢
  rw [h.pivot]
  split at hr
  · obtain ⟨own, joined, pivot, hs, he, hrest⟩ := hr
    exact ⟨own, joined, pivot, hs, hi he, hrest⟩
  · exact ⟨hi hr.1, hr.2⟩

end Entity.SameRow

namespace LoadStep

theorem attach_eq (source : RowSource) (owner : Model) (e : Entity) (step : LoadStep) :
    step.attach source owner e = e.setRelated step.relation.name (step.relation.collect (step.kids source owner e)) := by
  cases step
  rfl

theorem sameRow_attach (source : RowSource) (owner : Model) (e : Entity) (step : LoadStep) :
    e.SameRow (step.attach source owner e) := by
  rw [attach_eq]
  exact .setRelated e _ _

theorem sameRow_attachAll (source : RowSource) (owner : Model) :
    ∀ (steps : List LoadStep) (e : Entity), e.SameRow (attachAll source owner e steps)
  | [], e => .refl e
  | step :: rest, e =>
    (sameRow_attach source owner e step).trans (sameRow_attachAll source owner rest (step.attach source owner e))

theorem kids_of_sameRow {source : RowSource} {owner : Model} {e e' : Entity} (h : e.SameRow e') (step : LoadStep) :
    step.kids source owner e' = step.kids source owner e := by
  unfold kids
  rw [h.get?]

theorem matching_some (r : Relation) (related : Model) (children : List Entity) {v : Value} (hv : v ≠ .null) :
    matching r related children (some v) = children.filter fun c => r.childKey? related c == some v := by
  cases v with
  | null => exact absurd rfl hv
  | _ => rfl

theorem mem_of_mem_matching {r : Relation} {related : Model} {children : List Entity} {v : Option Value} {child : Entity}
    (h : child ∈ matching r related children v) : child ∈ children := by
  unfold matching at h
  split at h
  · cases h
  · cases h
  · exact (List.mem_filter.1 h).1

/-- Matching children after they were loaded picks the children of the matching rows. -/
theorem matching_map (r : Relation) (related : Model) (rows : List Row) (loaded : Row → Entity)
    (h : ∀ row, (r.hydrate related row).SameRow (loaded row)) (v : Option Value) :
    matching r related (rows.map loaded) v = (r.rowsFor related rows v).map loaded := by
  rcases v with _ | v
  · rfl
  by_cases hv : v = .null
  · rw [hv]
    rfl
  rw [matching_some r related _ hv, r.rowsFor_some related rows hv, List.filter_map]
  congr 2
  funext row
  rw [Function.comp_apply, (h row).childKey?, r.childKey?_hydrate]

/-! ## Only the rows below a name matter -/

theorem attach_congr {source source' : RowSource} {step : LoadStep}
    (h : source.below step.relation.name = source'.below step.relation.name) (owner : Model) (e : Entity) :
    step.attach source owner e = step.attach source' owner e := by
  have hr : source [step.relation.name] = source' [step.relation.name] := congrFun h []
  rw [attach_eq, attach_eq, kids, kids, h, hr]

theorem attachAll_congr {source source' : RowSource} {owner : Model} :
    ∀ {steps : List LoadStep} {e : Entity},
      (∀ step ∈ steps, source.below step.relation.name = source'.below step.relation.name) →
        attachAll source owner e steps = attachAll source' owner e steps
  | [], _, _ => rfl
  | step :: rest, e, h => by
    rw [attachAll, attachAll, attach_congr (h step List.mem_cons_self) owner e,
      attachAll_congr fun step hs => h step (List.mem_cons_of_mem _ hs)]

theorem requests_eq (constraints : Constraints) (returned : Returned) (owner : Model) (parents : List Entity)
    (step : LoadStep) :
    step.requests constraints returned owner parents =
      if parentValues (step.relation.parentColumn owner) parents = [] then []
      else (query step.relation step.related step.path constraints
            (parentValues (step.relation.parentColumn owner) parents), returned [step.relation.name]) ::
        requestsAll constraints (returned.below step.relation.name) step.related
          ((returned [step.relation.name]).map (step.relation.hydrate step.related)) step.nested := by
  cases step
  rfl

theorem requests_congr {returned returned' : Returned} {step : LoadStep}
    (h : returned.below step.relation.name = returned'.below step.relation.name) (constraints : Constraints)
    (owner : Model) (parents : List Entity) :
    step.requests constraints returned owner parents = step.requests constraints returned' owner parents := by
  have hr : returned [step.relation.name] = returned' [step.relation.name] := congrFun h []
  rw [requests_eq, requests_eq, h, hr]

theorem requestsAll_congr {returned returned' : Returned} {constraints : Constraints} {owner : Model}
    {parents : List Entity} :
    ∀ {steps : List LoadStep},
      (∀ step ∈ steps, returned.below step.relation.name = returned'.below step.relation.name) →
        requestsAll constraints returned owner parents steps = requestsAll constraints returned' owner parents steps
  | [], _ => rfl
  | step :: rest, h => by
    rw [requestsAll, requestsAll, requests_congr (h step List.mem_cons_self),
      requestsAll_congr fun step hs => h step (List.mem_cons_of_mem _ hs)]

theorem parentValues_map {f : Entity → Entity} (hf : ∀ e : Entity, e.SameRow (f e)) (column : String) (parents : List Entity) :
    parentValues column (parents.map f) = parentValues column parents := by
  unfold parentValues
  rw [List.filterMap_map]
  congr 3
  funext e
  exact (hf e).get? column

theorem requestsAll_map {f : Entity → Entity} (hf : ∀ e : Entity, e.SameRow (f e)) (constraints : Constraints)
    (returned : Returned) (owner : Model) (parents : List Entity) (steps : List LoadStep) :
    requestsAll constraints returned owner (parents.map f) steps =
      requestsAll constraints returned owner parents steps := by
  induction steps with
  | nil => rfl
  | cons step rest ih => rw [requestsAll, requestsAll, requests_eq, requests_eq, parentValues_map hf, ih]

/-! ## A load that returns -/

variable {σ : Type} {db : Db σ} {constraints : Constraints}

theorem mem_parentValues {column : String} {parents : List Entity} {e : Entity} {v : Value} (he : e ∈ parents)
    (hv : e.get? column = some v) (hn : v ≠ .null) : v ∈ parentValues column parents := by
  refine (Value.mem_distinct v _).2 (List.mem_filter.2 ⟨List.mem_filterMap.2 ⟨e, he, hv⟩, ?_⟩)
  rw [Value.isNull_eq_false hn, Bool.not_false]

theorem returns_fetch {r : Relation} {related : Model} {path : String} {values : List Value} {w w' : World σ}
    {children : List Entity} (h : Returns (fetch db constraints r related path values) w children w') :
    ∃ rows, children = rows.map (r.hydrate related) ∧
      if values = [] then rows = [] ∧ w' = w
      else Returns (db.select (query r related path constraints values)) w rows w' := by
  unfold fetch at h
  split at h
  · rename_i hv
    obtain ⟨rfl, rfl⟩ := returns_pure.1 h
    exact ⟨[], rfl, by rw [if_pos hv]; exact ⟨rfl, rfl⟩⟩
  · rename_i hv
    obtain ⟨rows, w₁, hs, hp⟩ := returns_bind.1 h
    obtain ⟨rfl, rfl⟩ := returns_pure.1 hp
    exact ⟨rows, rfl, by rwa [if_neg hv]⟩

/-- A step fetches the related rows, loads what is below them, and hands every parent those that match. -/
theorem returns_run {owner : Model} {parents : List Entity} {step : LoadStep} {w w' : World σ} {forest : List Entity}
    (h : Returns (run db constraints owner parents step) w forest w') :
    ∃ (rows : List Row) (loaded : List Entity) (w₁ : World σ),
      Returns (fetch db constraints step.relation step.related step.path
        (parentValues (step.relation.parentColumn owner) parents)) w (rows.map (step.relation.hydrate step.related)) w₁ ∧
      (if parentValues (step.relation.parentColumn owner) parents = [] then rows = [] ∧ w₁ = w
        else Returns (db.select (query step.relation step.related step.path constraints
          (parentValues (step.relation.parentColumn owner) parents))) w rows w₁) ∧
      Returns (runAll db constraints step.related (rows.map (step.relation.hydrate step.related)) step.nested) w₁ loaded
        w' ∧
      forest = parents.map (assign step.relation step.related (step.relation.parentColumn owner) loaded) := by
  obtain ⟨r, related, path, nested⟩ := step
  rw [run] at h
  obtain ⟨children, w₁, hf, h⟩ := returns_bind.1 h
  obtain ⟨loaded, w₂, hn, hp⟩ := returns_bind.1 h
  obtain ⟨rfl, rfl⟩ := returns_pure.1 hp
  obtain ⟨rows, rfl, hq⟩ := returns_fetch hf
  exact ⟨rows, loaded, w₁, hf, hq, hn, rfl⟩

/-- Loading changes what hangs below the parents, and nothing that they hold. -/
theorem sameRow_runAll {owner : Model} :
    ∀ {steps : List LoadStep} {parents forest : List Entity} {w w' : World σ},
      Returns (runAll db constraints owner parents steps) w forest w' → List.Forall₂ Entity.SameRow parents forest
  | [], _, _, _, _, h => by
    obtain ⟨rfl, rfl⟩ := returns_pure.1 h
    exact List.forall₂_same.2 fun e _ => .refl e
  | step :: rest, parents, forest, w, w', h => by
    rw [runAll] at h
    obtain ⟨partly, w₁, hs, hr⟩ := returns_bind.1 h
    obtain ⟨rows, loaded, w₂, -, -, -, rfl⟩ := returns_run hs
    have hrest := sameRow_runAll hr
    rw [List.forall₂_map_left_iff] at hrest
    exact hrest.imp fun _ _ hsame => (Entity.SameRow.setRelated _ _ _).trans hsame

mutual

theorem run_nil (owner : Model) :
    ∀ step : LoadStep, run db constraints owner [] step = (pure [] : Action σ (List Entity))
  | ⟨r, related, path, nested⟩ => by
    have hfetch : fetch db constraints r related path (parentValues (r.parentColumn owner) []) = pure [] := rfl
    simp only [run, hfetch, pure_bind, runAll_nil related nested, List.map_nil]

/-- Without parents nothing is sent. -/
theorem runAll_nil (owner : Model) :
    ∀ steps : List LoadStep, runAll db constraints owner [] steps = (pure [] : Action σ (List Entity))
  | [] => rfl
  | step :: rest => by rw [runAll, run_nil owner step, pure_bind, runAll_nil owner rest]

end

mutual

/-- One relationship: a query for the values of the parents, the queries below it, and every parent with its own
rows. -/
theorem run_returns (owner : Model) (parents : List Entity) :
    ∀ (step : LoadStep) {w w' : World σ} {forest : List Entity}, step.Distinct →
      Returns (run db constraints owner parents step) w forest w' →
        ∃ returned : Returned, db.Asked w (step.requests constraints returned owner parents) w' ∧
          forest = parents.map fun e => step.attach returned.source owner e
  | ⟨r, related, path, nested⟩, w, w', forest, hd, h => by
    obtain ⟨rows, loaded, w₁, -, hq, hn, rfl⟩ := returns_run h
    dsimp only at hq hn ⊢
    obtain ⟨below, hb, rfl⟩ := runAll_returns related _ nested hd hn
    have hbelow : ∀ step ∈ nested, ((Returned.under rows below).below r.name).below step.relation.name =
        below.below step.relation.name := fun _ _ => rfl
    refine ⟨.under rows below, ?_, List.map_congr_left fun e _ => ?_⟩
    · rw [requests_eq]
      by_cases hv : parentValues (r.parentColumn owner) parents = []
      · rw [if_pos hv] at hq
        obtain ⟨rfl, rfl⟩ := hq
        rw [List.map_nil, runAll_nil] at hn
        obtain ⟨-, rfl⟩ := returns_pure.1 hn
        rw [if_pos hv]
        exact .nil _
      · rw [if_neg hv] at hq
        rw [if_neg hv]
        refine .cons hq ?_
        rw [requestsAll_congr hbelow]
        exact hb
    · rw [assign, List.map_map, Function.comp_def,
        matching_map r related rows (fun row => attachAll below.source related (r.hydrate related row) nested)
          (fun row => sameRow_attachAll _ related nested _),
        attach_eq, kids]
      refine congrArg (fun kids => e.setRelated r.name (r.collect kids)) (List.map_congr_left fun row _ => ?_)
      exact attachAll_congr fun _ _ => rfl

/-- **A load that returns has sent the requests of its steps and nothing else, and has made of every parent what the
rows that came back make of it.** -/
theorem runAll_returns (owner : Model) (parents : List Entity) :
    ∀ (steps : List LoadStep) {w w' : World σ} {forest : List Entity}, AllDistinct steps →
      Returns (runAll db constraints owner parents steps) w forest w' →
        ∃ returned : Returned, db.Asked w (requestsAll constraints returned owner parents steps) w' ∧
          forest = parents.map fun e => attachAll returned.source owner e steps
  | [], w, w', forest, _, h => by
    obtain ⟨rfl, rfl⟩ := returns_pure.1 h
    exact ⟨fun _ => [], .nil _, (List.map_id' _).symm⟩
  | step :: rest, w, w', forest, ⟨hname, hstep, hrest⟩, h => by
    rw [runAll] at h
    obtain ⟨partly, w₁, hs, hr⟩ := returns_bind.1 h
    obtain ⟨first, hfirst, rfl⟩ := run_returns owner parents step hstep hs
    obtain ⟨others, hothers, rfl⟩ := runAll_returns owner _ rest hrest hr
    rw [requestsAll_map fun e => sameRow_attach _ owner e step] at hothers
    -- the first step's rows stand under a name that no other step has
    have hf : (Returned.splice step.relation.name first others).below step.relation.name =
        first.below step.relation.name := by
      funext path
      exact if_pos rfl
    have ho : ∀ other ∈ rest, (Returned.splice step.relation.name first others).below other.relation.name =
        others.below other.relation.name := by
      intro other hm
      funext path
      refine if_neg fun he => hname ?_
      rw [← Option.some.inj he]
      exact List.mem_map_of_mem hm
    refine ⟨.splice step.relation.name first others, ?_, ?_⟩
    · rw [requestsAll, requests_congr hf, requestsAll_congr ho]
      exact hfirst.append hothers
    · rw [List.map_map]
      refine List.map_congr_left fun e _ => ?_
      have hstepSource : (Returned.splice step.relation.name first others).source.below step.relation.name =
          first.source.below step.relation.name :=
        congrArg Returned.source hf
      have hsource : ∀ other ∈ rest,
          (Returned.splice step.relation.name first others).source.below other.relation.name =
            others.source.below other.relation.name :=
        fun other hm => congrArg Returned.source (ho other hm)
      rw [attachAll, attach_congr hstepSource, attachAll_congr hsource]
      rfl

end

end LoadStep

end SqlMapper
