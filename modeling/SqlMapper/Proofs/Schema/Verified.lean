import SqlMapper.Proofs.Schema.Walk
/-!
# Verified — which lists of models are a schema

Verification accepts exactly the lists with unique names, targets in range, and dependencies that are declared and free
of cycles (`Schema.ofModels_ok_iff_wellFormed`).  Each error names a fault that the models have, and none of them says
that the walk over the dependencies lost its way.
-/
namespace SqlMapper

/-- What follows a call that may fail succeeds only behind a call that did. -/
theorem exists_ok_of_bind {ε α β : Type} {x : Except ε α} {f : α → Except ε β} {b : β} (h : x >>= f = .ok b) :
    ∃ a, x = .ok a ∧ f a = .ok b := by
  cases x with
  | error e => cases h
  | ok a => exact ⟨a, rfl, h⟩

namespace Model

variable {m : Model}

theorem waitsFor_of_mem {r : Relation} {name : String} (hr : r ∈ m.relations) (hn : name ∈ r.after) :
    m.WaitsFor r.name name :=
  ⟨r, relation?_eq_some_iff.2 ⟨hr, rfl⟩, hn⟩

theorem relation?_isNone_iff {name : String} : (m.relation? name).isNone = true ↔ name ∉ m.relationNames := by
  rw [Option.isNone_iff_eq_none]
  constructor
  · intro hr hn
    obtain ⟨r, hr'⟩ := exists_relation?_of_mem hn
    rw [hr] at hr'
    cases hr'
  · intro hn
    cases hr : m.relation? name with
    | none => rfl
    | some r => exact absurd (mem_relationNames_of_relation? hr) hn

/-! ## Targets -/

theorem verifyTargets_eq_ok_iff {count : Nat} : m.verifyTargets count = .ok () ↔ ∀ r ∈ m.relations, r.target < count := by
  have hnone : (m.relations.find? fun r => count ≤ r.target) = none ↔ ∀ r ∈ m.relations, r.target < count := by
    simp [List.find?_eq_none]
  rw [← hnone, verifyTargets]
  split
  · rename_i r hr
    simp [hr]
  · rename_i hr
    simp [hr]

theorem verifyTargets_error {count : Nat} {e : Error} (h : m.verifyTargets count = .error e) :
    ∃ r ∈ m.relations, count ≤ r.target ∧
      e = .ofCause (.unknownModel ("target of `" ++ m.name ++ "." ++ r.name ++ "`")) := by
  rw [verifyTargets] at h
  split at h
  · rename_i r hr
    cases h
    exact ⟨r, List.mem_of_find?_eq_some hr, by simpa using List.find?_some hr, rfl⟩
  · cases h

/-! ## Dependencies -/

/-- Why the dependencies of a model are refused. -/
inductive DependencyFault (m : Model) : Cause → Prop
  | undeclared {a b : String} (waits : m.WaitsFor a b) (unknown : b ∉ m.relationNames) :
    DependencyFault m (.unknownRelationship m.name b)
  | cyclic {a b : String} (waits : m.WaitsFor a b) (back : Relation.ReflTransGen m.WaitsFor b a) :
    DependencyFault m (.invalidDependency m.name a b)

theorem dependencyFault?_eq_none_iff {r : Relation} {name : String} :
    m.dependencyFault? r name = none ↔ name ≠ r.name ∧ name ∈ m.relationNames := by
  rw [dependencyFault?]
  split
  · rename_i hn
    simp [hn]
  · rename_i hn
    split
    · rename_i hr
      simp [relation?_isNone_iff.1 hr]
    · rename_i hr
      rw [relation?_isNone_iff, not_not] at hr
      simp [hn, hr]

theorem dependencyFault_of_eq_some {r : Relation} {name : String} {cause : Cause} (hr : r ∈ m.relations)
    (hn : name ∈ r.after) (h : m.dependencyFault? r name = some cause) : m.DependencyFault cause := by
  have hwaits := waitsFor_of_mem hr hn
  rw [dependencyFault?] at h
  split at h
  · rename_i hself
    cases h
    exact .cyclic hwaits (hself ▸ .refl)
  · split at h
    · rename_i hnone
      cases h
      exact .undeclared hwaits (relation?_isNone_iff.1 hnone)
    · cases h

theorem not_transGen_of_acyclic {a b : String} (hm : m.Acyclic) (hab : m.WaitsFor a b) :
    ¬ Relation.ReflTransGen m.WaitsFor b a := fun hba => hm a (.head' hab hba)

theorem firstFault_eq_none_iff :
    (m.relations.findSome? fun r => r.after.findSome? (m.dependencyFault? r)) = none ↔
      m.Declares ∧ ∀ name, ¬ m.WaitsFor name name := by
  simp only [List.findSome?_eq_none_iff, dependencyFault?_eq_none_iff]
  constructor
  · intro h
    refine ⟨?_, ?_⟩
    · rintro a b ⟨r, hr, hb⟩
      exact (h r (relation?_eq_some_iff.1 hr).1 b hb).2
    · rintro name ⟨r, hr, hn⟩
      obtain ⟨hmem, rfl⟩ := relation?_eq_some_iff.1 hr
      exact (h r hmem r.name hn).1 rfl
  · rintro ⟨hd, hself⟩ r hr name hn
    have hwaits := waitsFor_of_mem hr hn
    refine ⟨?_, hd _ _ hwaits⟩
    rintro rfl
    exact hself r.name hwaits

theorem verifyDependencies_error {e : Error} (h : m.verifyDependencies = .error e) :
    ∃ cause, e = .ofCause cause ∧ m.DependencyFault cause := by
  rw [verifyDependencies] at h
  split at h
  · rename_i cause hf
    cases h
    obtain ⟨r, hr, hf⟩ := List.exists_of_findSome?_eq_some hf
    obtain ⟨name, hn, hf⟩ := List.exists_of_findSome?_eq_some hf
    exact ⟨cause, rfl, dependencyFault_of_eq_some hr hn hf⟩
  · rename_i hf
    have hd := (firstFault_eq_none_iff.1 hf).1
    split at h
    · cases h
    · rename_i hv
      cases h
      obtain ⟨a, b, rfl, hwaits, hback⟩ := visitAll_error hd hv
      exact ⟨_, rfl, .cyclic hwaits hback⟩

theorem verifyDependencies_eq_ok_iff : m.verifyDependencies = .ok () ↔ m.Declares ∧ m.Acyclic := by
  constructor
  · intro h
    rw [verifyDependencies] at h
    split at h
    · cases h
    · rename_i hf
      split at h
      · rename_i after hv
        exact ⟨(firstFault_eq_none_iff.1 hf).1, acyclic_of_visitAll hv⟩
      · cases h
  · rintro ⟨hd, hm⟩
    cases h : m.verifyDependencies with
    | ok u => rfl
    | error e =>
      obtain ⟨cause, -, hfault⟩ := verifyDependencies_error h
      cases hfault with
      | undeclared hwaits hunknown => exact absurd (hd _ _ hwaits) hunknown
      | cyclic hwaits hback => exact absurd hback (not_transGen_of_acyclic hm hwaits)

end Model

/-! ## Lists of models -/

theorem repeatedName?_eq_none_iff :
    ∀ {models : List Model} {seen : List String}, repeatedName? seen models = none ↔
      (models.map Model.name).Nodup ∧ ∀ m ∈ models, m.name ∉ seen
  | [], seen => by simp [repeatedName?]
  | m :: rest, seen => by
    rw [repeatedName?]
    by_cases hm : m.name ∈ seen
    · simp [hm]
    · rw [if_neg hm, repeatedName?_eq_none_iff, List.map_cons, List.nodup_cons, List.forall_mem_cons]
      simp only [List.mem_cons, not_or, List.mem_map, not_exists, not_and]
      constructor
      · rintro ⟨hn, hseen⟩
        exact ⟨⟨fun m' hm' he => (hseen m' hm').1 he, hn⟩, hm, fun m' hm' => (hseen m' hm').2⟩
      · rintro ⟨⟨hne, hn⟩, -, hseen⟩
        exact ⟨hn, fun m' hm' => ⟨hne m' hm', hseen m' hm'⟩⟩

theorem count_of_repeatedName? {name : String} :
    ∀ {models : List Model} {seen : List String}, repeatedName? seen models = some name →
      (name ∈ seen ∧ name ∈ models.map Model.name) ∨ 1 < (models.map Model.name).count name
  | m :: rest, seen, h => by
    rw [repeatedName?] at h
    split at h
    · rename_i hm
      cases h
      exact .inl ⟨hm, List.mem_cons_self⟩
    · rw [List.map_cons, List.count_cons]
      rcases count_of_repeatedName? h with ⟨hs, hmem⟩ | hcount
      · rcases List.mem_cons.1 hs with rfl | hs
        · have := List.count_pos_iff.2 hmem
          right
          simp only [beq_self_eq_true, ↓reduceIte]
          omega
        · exact .inl ⟨hs, List.mem_cons_of_mem _ hmem⟩
      · right
        omega

theorem verifyEach_error {count : Nat} {e : Error} :
    ∀ {models : List Model}, verifyEach count models = .error e →
      ∃ m ∈ models, m.verifyTargets count = .error e ∨ m.verifyDependencies = .error e
  | m :: rest, h => by
    rw [verifyEach] at h
    split at h
    · rename_i e' ht
      cases h
      exact ⟨m, List.mem_cons_self, .inl ht⟩
    · split at h
      · rename_i e' hd
        cases h
        exact ⟨m, List.mem_cons_self, .inr hd⟩
      · obtain ⟨m', hm', h'⟩ := verifyEach_error h
        exact ⟨m', List.mem_cons_of_mem _ hm', h'⟩

theorem verifyEach_eq_ok_iff {count : Nat} :
    ∀ {models : List Model}, verifyEach count models = .ok () ↔
      ∀ m ∈ models, m.verifyTargets count = .ok () ∧ m.verifyDependencies = .ok ()
  | [] => by simp [verifyEach]
  | m :: rest => by
    rw [verifyEach, List.forall_mem_cons, ← verifyEach_eq_ok_iff]
    cases m.verifyTargets count with
    | error e => simp
    | ok u =>
      cases m.verifyDependencies with
      | error e => simp
      | ok u => simp

namespace Schema

/-- What makes a list of models a schema. -/
structure WellFormed (models : List Model) : Prop where
  names : (models.map Model.name).Nodup
  targets : ∀ m ∈ models, ∀ r ∈ m.relations, r.target < models.length
  declared : ∀ m ∈ models, m.Declares
  acyclic : ∀ m ∈ models, m.Acyclic

/-- Why a list of models is no schema. -/
inductive Fault (models : List Model) : Cause → Prop
  | repeated {name : String} (twice : 1 < (models.map Model.name).count name) : Fault models (.duplicateModel name)
  | target {m : Model} {r : Relation} (model : m ∈ models) (relation : r ∈ m.relations)
    (out_of_range : models.length ≤ r.target) :
    Fault models (.unknownModel ("target of `" ++ m.name ++ "." ++ r.name ++ "`"))
  | dependency {m : Model} {cause : Cause} (model : m ∈ models) (fault : m.DependencyFault cause) : Fault models cause

variable {models : List Model}

theorem verifyModels_error {e : Error} (h : verifyModels models = .error e) :
    ∃ cause, e = .ofCause cause ∧ Fault models cause := by
  rw [verifyModels] at h
  split at h
  · rename_i name hn
    cases h
    rcases count_of_repeatedName? hn with ⟨hseen, -⟩ | hcount
    · cases hseen
    · exact ⟨_, rfl, .repeated hcount⟩
  · obtain ⟨m, hm, ht | hd⟩ := verifyEach_error h
    · obtain ⟨r, hr, hrange, rfl⟩ := Model.verifyTargets_error ht
      exact ⟨_, rfl, .target hm hr hrange⟩
    · obtain ⟨cause, rfl, hfault⟩ := Model.verifyDependencies_error hd
      exact ⟨cause, rfl, .dependency hm hfault⟩

theorem verifyModels_eq_ok_iff : verifyModels models = .ok () ↔ WellFormed models := by
  have hnames : repeatedName? [] models = none ↔ (models.map Model.name).Nodup := by
    rw [repeatedName?_eq_none_iff]
    exact and_iff_left fun _ _ => List.not_mem_nil
  constructor
  · intro h
    rw [verifyModels] at h
    split at h
    · cases h
    · rename_i hn
      rw [verifyEach_eq_ok_iff] at h
      exact
        { names := hnames.1 hn
          targets := fun m hm => Model.verifyTargets_eq_ok_iff.1 (h m hm).1
          declared := fun m hm => (Model.verifyDependencies_eq_ok_iff.1 (h m hm).2).1
          acyclic := fun m hm => (Model.verifyDependencies_eq_ok_iff.1 (h m hm).2).2 }
  · intro h
    rw [verifyModels, hnames.2 h.names]
    refine verifyEach_eq_ok_iff.2 fun m hm => ⟨Model.verifyTargets_eq_ok_iff.2 (h.targets m hm), ?_⟩
    exact Model.verifyDependencies_eq_ok_iff.2 ⟨h.declared m hm, h.acyclic m hm⟩

/-- Every relationship of a schema leads to a model. -/
theorem exists_model? (s : Schema) {m : Model} {r : Relation} (hm : m ∈ s.models) (hr : r ∈ m.relations) :
    ∃ related, s.model? r.target = some related :=
  ⟨_, List.getElem?_eq_getElem ((verifyModels_eq_ok_iff.1 s.verified).targets m hm r hr)⟩

theorem ofModels_eq_of_ok (hp : Positional models) (hv : verifyModels models = .ok ()) :
    ofModels models = .ok ⟨models, hp, hv⟩ := by
  rw [ofModels, dif_pos hp]
  split
  · rfl
  · rename_i e he
    rw [hv] at he
    cases he

theorem ofModels_eq_of_error (hp : Positional models) {e : Error} (hv : verifyModels models = .error e) :
    ofModels models = .error e := by
  rw [ofModels, dif_pos hp]
  split
  · rename_i h
    rw [hv] at h
    cases h
  · rename_i e' he
    rw [hv] at he
    cases he
    rfl

theorem verifyModels_of_ofModels_error (hp : Positional models) {e : Error} (h : ofModels models = .error e) :
    verifyModels models = .error e := by
  cases hv : verifyModels models with
  | ok u =>
    rw [ofModels_eq_of_ok hp hv] at h
    cases h
  | error e' =>
    rw [ofModels_eq_of_error hp hv] at h
    cases h
    rfl

/-- **Verification accepts exactly the well-formed lists of models**, and what it says of the others is true.  The walk
over the dependencies is a total function, it never comes to a name that is not declared, and a dependency that it
refuses lies on a cycle. -/
theorem ofModels_ok_iff_wellFormed (hp : Positional models) :
    ((∃ s, ofModels models = .ok s ∧ s.models = models) ↔ WellFormed models) ∧
      (∀ e, ofModels models = .error e → ∃ cause, e = .ofCause cause ∧ Fault models cause) ∧
      (∀ model name, ofModels models ≠ .error (.ofCause (.strayName model name))) ∧
      ∀ model a b, ofModels models = .error (.ofCause (.invalidDependency model a b)) →
        ∃ m ∈ models, m.name = model ∧ m.WaitsFor a b ∧ (a = b ∨ Relation.TransGen m.WaitsFor b a) := by
  have herror : ∀ e, ofModels models = .error e → ∃ cause, e = .ofCause cause ∧ Fault models cause := fun e h =>
    verifyModels_error (verifyModels_of_ofModels_error hp h)
  refine ⟨?_, herror, ?_, ?_⟩
  · rw [← verifyModels_eq_ok_iff]
    constructor
    · rintro ⟨s, -, rfl⟩
      exact s.verified
    · intro hv
      exact ⟨_, ofModels_eq_of_ok hp hv, rfl⟩
  · intro model name h
    obtain ⟨cause, hc, hfault⟩ := herror _ h
    cases hc
    cases hfault with
    | dependency _ hdep => cases hdep
  · intro model a b h
    obtain ⟨cause, hc, hfault⟩ := herror _ h
    cases hc
    cases hfault with
    | dependency hm hdep =>
      cases hdep with
      | cyclic hwaits hback =>
        exact ⟨_, hm, rfl, hwaits, Relation.reflTransGen_iff_eq_or_transGen.1 hback⟩

/-- A model whose three relationships wait for each other in a ring. -/
def ring : List Model :=
  [(((Model.conventional 0 "post").declare ⟨"tags", 0, .hasMany "post_id", ["likes"]⟩).declare
    ⟨"comments", 0, .hasMany "post_id", ["tags"]⟩).declare ⟨"likes", 0, .hasMany "post_id", ["comments"]⟩]

theorem ofModels_ok_iff_wellFormed_ring :
    Positional ring ∧ (¬ ∃ s, ofModels ring = .ok s ∧ s.models = ring) ∧ ¬ WellFormed ring ∧
      ∃ m ∈ ring, m.name = "post" ∧ m.WaitsFor "comments" "tags" ∧
        ("comments" = "tags" ∨ Relation.TransGen m.WaitsFor "tags" "comments") := by
  have hp : Positional ring := by decide
  have hv : verifyModels ring = .error (.ofCause (.invalidDependency "post" "comments" "tags")) := by decide +kernel
  have herror := ofModels_eq_of_error hp hv
  obtain ⟨hiff, -, -, hcycle⟩ := ofModels_ok_iff_wellFormed hp
  have hnone : ¬ ∃ s, ofModels ring = .ok s ∧ s.models = ring := by
    rintro ⟨s, hs, -⟩
    rw [herror] at hs
    cases hs
  exact ⟨hp, hnone, fun h => hnone (hiff.2 h), hcycle "post" "comments" "tags" herror⟩

end Schema

end SqlMapper
