import SqlMapper.Eager.Load
import SqlMapper.Proofs.Schema.LoadOrder
/-!
# Resolve — trees of names and the steps they resolve to

Sibling names of a tree are distinct, and adding paths keeps them so.  A tree that resolves gives one step for every
child, in the order in which the relationships of the model wait for each other, and below every step the steps of the
child's own tree.
-/
namespace SqlMapper

/-! ## Distinct names -/

mutual

def Includes.Distinct : Includes → Prop
  | .node children => (Assoc.names children).Nodup ∧ Includes.EachDistinct children

def Includes.EachDistinct : List (String × Includes) → Prop
  | [] => True
  | (_, tree) :: rest => Includes.Distinct tree ∧ Includes.EachDistinct rest

end

namespace Includes

theorem distinct_empty : empty.Distinct := ⟨List.nodup_nil, trivial⟩

theorem EachDistinct.get? {name : String} {tree : Includes} :
    ∀ {children : List (String × Includes)}, EachDistinct children → Assoc.get? children name = some tree →
      tree.Distinct
  | [], _, h => by cases h
  | (n, t) :: rest, hd, h => by
    rw [Assoc.get?_cons] at h
    split at h
    · cases h
      exact hd.1
    · exact hd.2.get? h

theorem EachDistinct.insert {name : String} {tree : Includes} (ht : tree.Distinct) :
    ∀ {children : List (String × Includes)}, EachDistinct children → EachDistinct (Assoc.insert name tree children)
  | [], _ => ⟨ht, trivial⟩
  | (n, t) :: rest, hd => by
    rw [Assoc.insert]
    split
    · exact ⟨ht, hd.2⟩
    · exact ⟨hd.1, hd.2.insert ht⟩

theorem distinct_insertNames : ∀ (names : List String) {tree : Includes}, tree.Distinct → (insertNames names tree).Distinct
  | [], _, h => h
  | name :: rest, .node children, h => by
    have hsub : ((Assoc.get? children name).getD empty).Distinct := by
      cases hg : Assoc.get? children name with
      | none => exact distinct_empty
      | some t => exact h.2.get? hg
    exact ⟨Assoc.nodup_names_insert _ _ h.1, h.2.insert (distinct_insertNames rest hsub)⟩

/-- Adding a path keeps siblings distinct, so every tree that is built from paths has distinct names. -/
theorem Distinct.insert {tree : Includes} (h : tree.Distinct) (path : String) : (tree.insert path).Distinct :=
  distinct_insertNames _ h

end Includes

/-! ## Resolving -/

theorem Includes.resolve_node {s : Schema} {m : Model} {path : String} {children : List (String × Includes)}
    {steps : List LoadStep} (h : Includes.resolve s m path (.node children) = .ok steps) :
    ∃ listed, Includes.resolveAll s m path children = .ok listed ∧
      steps = m.eagerOrderBy (·.relation.name) listed := by
  rw [Includes.resolve] at h
  cases hr : Includes.resolveAll s m path children with
  | error e => rw [hr] at h; cases h
  | ok listed =>
    rw [hr] at h
    cases h
    exact ⟨listed, rfl, rfl⟩

theorem Model.relation_eq_ok_iff {m : Model} {name : String} {r : Relation} :
    m.relation name = .ok r ↔ m.relation? name = some r := by
  unfold Model.relation
  cases m.relation? name <;> simp

theorem Model.name_of_relation? {m : Model} {name : String} {r : Relation} (h : m.relation? name = some r) :
    r.name = name :=
  (Model.relation?_eq_some_iff.1 h).2

theorem Schema.related_eq_ok_iff {s : Schema} {r : Relation} {related : Model} :
    s.related r = .ok related ↔ s.model? r.target = some related := by
  unfold Schema.related
  cases s.model? r.target <;> simp

/-- **The steps of a list of children**: the first child's relationship with the steps of its tree, then the others. -/
theorem Includes.resolveAll_cons_eq {s : Schema} {m : Model} {path name : String} {tree : Includes}
    {rest : List (String × Includes)} {listed : List LoadStep}
    (h : Includes.resolveAll s m path ((name, tree) :: rest) = .ok listed) :
    ∃ r related nested more, m.relation? name = some r ∧ s.model? r.target = some related ∧
      Includes.resolve s related (if path = "" then name else path ++ "." ++ name) tree = .ok nested ∧
      Includes.resolveAll s m path rest = .ok more ∧
      listed = ⟨r, related, if path = "" then name else path ++ "." ++ name, nested⟩ :: more := by
  rw [Includes.resolveAll] at h
  obtain ⟨r, hm, h⟩ := exists_ok_of_bind h
  obtain ⟨related, hs, h⟩ := exists_ok_of_bind h
  obtain ⟨nested, hn, h⟩ := exists_ok_of_bind h
  obtain ⟨more, hr, h⟩ := exists_ok_of_bind h
  cases h
  exact ⟨r, related, nested, more, Model.relation_eq_ok_iff.1 hm, Schema.related_eq_ok_iff.1 hs, hn, hr, rfl⟩

theorem Includes.resolveAll_cons {s : Schema} {m : Model} {path name : String} {tree : Includes}
    {rest : List (String × Includes)} {listed : List LoadStep}
    (h : Includes.resolveAll s m path ((name, tree) :: rest) = .ok listed) :
    ∃ step more, m.relation? name = some step.relation ∧ s.model? step.relation.target = some step.related ∧
      Includes.resolve s step.related step.path tree = .ok step.nested ∧
      Includes.resolveAll s m path rest = .ok more ∧ listed = step :: more := by
  obtain ⟨r, related, nested, more, hm, hs, hn, hr, rfl⟩ := Includes.resolveAll_cons_eq h
  exact ⟨_, more, hm, hs, hn, hr, rfl⟩

theorem Includes.resolveAll_nil {s : Schema} {m : Model} {path : String} {listed : List LoadStep}
    (h : Includes.resolveAll s m path [] = .ok listed) : listed = [] := by
  rw [Includes.resolveAll] at h
  cases h
  rfl

theorem Includes.resolve_empty (s : Schema) (m : Model) (path : String) : Includes.resolve s m path .empty = .ok [] := by
  rw [Includes.empty, Includes.resolve, Includes.resolveAll]
  exact congrArg Except.ok (List.perm_nil.1 (m.perm_eagerOrderBy _ []))

theorem Includes.resolve_single {s : Schema} {m related : Model} {path name : String} {tree : Includes} {r : Relation}
    {nested : List LoadStep} (hm : m.relation? name = some r) (hs : s.model? r.target = some related)
    (hn : Includes.resolve s related (if path = "" then name else path ++ "." ++ name) tree = .ok nested) :
    Includes.resolve s m path (.node [(name, tree)]) =
      .ok [⟨r, related, if path = "" then name else path ++ "." ++ name, nested⟩] := by
  have hall : Includes.resolveAll s m path [(name, tree)] =
      .ok [⟨r, related, if path = "" then name else path ++ "." ++ name, nested⟩] := by
    rw [Includes.resolveAll, Model.relation_eq_ok_iff.2 hm]
    simp only [bind, Except.bind, Schema.related_eq_ok_iff.2 hs, hn]
    rw [Includes.resolveAll]
    rfl
  rw [Includes.resolve, hall]
  exact congrArg Except.ok (Model.eagerOrderBy_singleton _ _ _)

theorem Includes.names_resolveAll {s : Schema} {m : Model} {path : String} :
    ∀ {children : List (String × Includes)} {listed : List LoadStep},
      Includes.resolveAll s m path children = .ok listed →
        listed.map (·.relation.name) = Assoc.names children
  | [], _, h => by
    rw [Includes.resolveAll_nil h]
    rfl
  | (name, tree) :: rest, listed, h => by
    obtain ⟨step, more, hm, -, -, hr, rfl⟩ := Includes.resolveAll_cons h
    rw [List.map_cons, Includes.names_resolveAll hr, Model.name_of_relation? hm]
    rfl

/-! ## Steps of distinct names -/

mutual

def LoadStep.Distinct : LoadStep → Prop
  | ⟨_, _, _, nested⟩ => LoadStep.AllDistinct nested

/-- No two steps of a level load the same relationship, at any depth. -/
def LoadStep.AllDistinct : List LoadStep → Prop
  | [] => True
  | step :: rest =>
    step.relation.name ∉ rest.map (·.relation.name) ∧ LoadStep.Distinct step ∧ LoadStep.AllDistinct rest

end

theorem LoadStep.distinct_iff {step : LoadStep} : step.Distinct ↔ LoadStep.AllDistinct step.nested := by
  cases step
  exact Iff.rfl

theorem LoadStep.allDistinct_iff :
    ∀ {steps : List LoadStep},
      LoadStep.AllDistinct steps ↔ (steps.map (·.relation.name)).Nodup ∧ ∀ step ∈ steps, step.Distinct
  | [] => by simp [LoadStep.AllDistinct]
  | step :: rest => by
    simp only [LoadStep.AllDistinct, LoadStep.allDistinct_iff, List.map_cons, List.nodup_cons,
      List.mem_cons, forall_eq_or_imp]
    constructor
    · rintro ⟨h₁, h₂, h₃, h₄⟩
      exact ⟨⟨h₁, h₃⟩, h₂, h₄⟩
    · rintro ⟨⟨h₁, h₃⟩, h₂, h₄⟩
      exact ⟨h₁, h₂, h₃, h₄⟩

theorem LoadStep.AllDistinct.perm {steps steps' : List LoadStep} (h : LoadStep.AllDistinct steps)
    (hp : steps.Perm steps') : LoadStep.AllDistinct steps' := by
  rw [LoadStep.allDistinct_iff] at h ⊢
  exact ⟨(hp.map _).nodup_iff.1 h.1, fun step hs => h.2 step (hp.mem_iff.2 hs)⟩

mutual

theorem Includes.allDistinct_resolve {s : Schema} :
    ∀ (tree : Includes) {m : Model} {path : String} {steps : List LoadStep}, tree.Distinct →
      Includes.resolve s m path tree = .ok steps → LoadStep.AllDistinct steps
  | .node children, m, path, steps, hd, h => by
    obtain ⟨listed, hl, rfl⟩ := Includes.resolve_node h
    refine LoadStep.AllDistinct.perm ?_ (m.perm_eagerOrderBy _ listed).symm
    refine LoadStep.allDistinct_iff.2 ⟨?_, Includes.distinct_resolveAll children hd.2 hl⟩
    rw [Includes.names_resolveAll hl]
    exact hd.1

theorem Includes.distinct_resolveAll {s : Schema} :
    ∀ (children : List (String × Includes)) {m : Model} {path : String} {listed : List LoadStep},
      Includes.EachDistinct children → Includes.resolveAll s m path children = .ok listed →
        ∀ step ∈ listed, step.Distinct
  | [], _, _, _, _, h => by
    rw [Includes.resolveAll_nil h]
    exact fun step hs => absurd hs List.not_mem_nil
  | (name, tree) :: rest, m, path, listed, hd, h => by
    obtain ⟨step, more, -, -, hn, hr, rfl⟩ := Includes.resolveAll_cons h
    intro step' hs
    rcases List.mem_cons.1 hs with rfl | hs
    · exact LoadStep.distinct_iff.2 (Includes.allDistinct_resolve tree hd.1 hn)
    · exact Includes.distinct_resolveAll rest hd.2 hr step' hs

end

/-! ## Steps of a schema -/

mutual

/-- The relationship is the model's own, and its related model and the steps below are the schema's. -/
def LoadStep.Known (s : Schema) (owner : Model) : LoadStep → Prop
  | ⟨r, related, _, nested⟩ =>
    owner.relation? r.name = some r ∧ s.model? r.target = some related ∧ LoadStep.AllKnown s related nested

def LoadStep.AllKnown (s : Schema) (owner : Model) : List LoadStep → Prop
  | [] => True
  | step :: rest => LoadStep.Known s owner step ∧ LoadStep.AllKnown s owner rest

end

theorem LoadStep.allKnown_iff {s : Schema} {owner : Model} :
    ∀ {steps : List LoadStep}, LoadStep.AllKnown s owner steps ↔ ∀ step ∈ steps, step.Known s owner
  | [] => by simp [LoadStep.AllKnown]
  | step :: rest => by
    rw [LoadStep.AllKnown, LoadStep.allKnown_iff, List.forall_mem_cons]

mutual

theorem Includes.allKnown_resolve {s : Schema} :
    ∀ (tree : Includes) {m : Model} {path : String} {steps : List LoadStep},
      Includes.resolve s m path tree = .ok steps → LoadStep.AllKnown s m steps
  | .node children, m, path, steps, h => by
    obtain ⟨listed, hl, rfl⟩ := Includes.resolve_node h
    have hk := LoadStep.allKnown_iff.1 (Includes.allKnown_resolveAll children hl)
    exact LoadStep.allKnown_iff.2 fun step hs => hk step ((m.perm_eagerOrderBy _ listed).mem_iff.1 hs)

theorem Includes.allKnown_resolveAll {s : Schema} :
    ∀ (children : List (String × Includes)) {m : Model} {path : String} {listed : List LoadStep},
      Includes.resolveAll s m path children = .ok listed → LoadStep.AllKnown s m listed
  | [], _, _, _, h => by
    rw [Includes.resolveAll_nil h]
    trivial
  | (name, tree) :: rest, m, path, listed, h => by
    obtain ⟨⟨r, related, here, nested⟩, more, hm, hs, hn, hr, rfl⟩ := Includes.resolveAll_cons h
    obtain rfl := Model.name_of_relation? hm
    exact ⟨⟨hm, hs, Includes.allKnown_resolve tree hn⟩, Includes.allKnown_resolveAll rest hr⟩

end

end SqlMapper
