import Mathlib.Data.List.Nodup
import SqlMapper.Proofs.Eager.Resolve
import SqlMapper.Proofs.Sql.Unambiguous
/-!
# Paths — the names that lead to a relationship

A tree of names is read from paths, and resolving it writes the path of every relationship anew.  Reading drops empty
names and writing makes none, so a relationship's path is the one that it was asked for by exactly when that has no empty
name (`Includes.pathFrom_pathNames_iff`).  The names themselves are never lost: they are read back from the written path
(`Includes.pathNames_pathFrom`), and no other relationship of the tree has the same path.
-/
namespace SqlMapper

/-! ## Splitting -/

theorem splitWhere_append {p : Char → Bool} {c : Char} (hc : p c = true) (rest : List Char) :
    ∀ cs : List Char, splitWhere p (cs ++ c :: rest) = splitWhere p cs ++ splitWhere p rest
  | [] => by
    rw [List.nil_append, splitWhere.eq_2, if_pos hc]
    rfl
  | d :: cs => by
    have ih := splitWhere_append hc rest cs
    rw [List.cons_append, splitWhere, splitWhere, ih]
    by_cases hd : p d = true
    · rw [if_pos hd, if_pos hd, List.cons_append]
    · rw [if_neg hd, if_neg hd]
      cases hs : splitWhere p cs with
      | nil => exact absurd hs (splitWhere_ne_nil p cs)
      | cons part parts => rfl

theorem splitWhere_of_not {p : Char → Bool} : ∀ {cs : List Char}, (∀ c ∈ cs, p c = false) → splitWhere p cs = [cs]
  | [], _ => rfl
  | c :: cs, h => by
    rw [List.forall_mem_cons] at h
    rw [splitWhere, if_neg (by rw [h.1]; exact Bool.false_ne_true), splitWhere_of_not h.2]

namespace Includes

/-! ## Paths -/

/-- A name that a path can hold. -/
structure IsName (name : String) : Prop where
  nonempty : name ≠ ""
  dotless : ∀ c ∈ name.toList, (c == '.') = false

theorem IsName.split {name : String} (h : IsName name) : splitAtChar '.' name = [name] := by
  rw [splitAtChar, splitWhere_of_not h.dotless, List.map_singleton, String.ofList_toList]

theorem isName_of_mem_pathNames {path name : String} (h : name ∈ pathNames path) : IsName name := by
  obtain ⟨hm, hn⟩ := List.mem_filter.1 h
  obtain ⟨part, hpart, rfl⟩ := List.mem_map.1 hm
  refine ⟨of_decide_eq_true hn, ?_⟩
  rw [String.toList_ofList]
  exact not_of_mem_splitWhere _ _ part hpart

/-- The path of a relationship below another, whose path is empty at the root. -/
def pathBelow (path name : String) : String := if path = "" then name else path ++ "." ++ name

/-- The path that names lead to. -/
def pathFrom (path : String) (names : List String) : String := names.foldl pathBelow path

theorem pathBelow_ne_empty {path name : String} (h : IsName name) : pathBelow path name ≠ "" := by
  unfold pathBelow
  split
  · exact h.nonempty
  · intro he
    have hlist := congrArg String.toList he
    rw [String.toList_append, String.toList_append] at hlist
    simp at hlist

theorem splitAtChar_pathBelow {path name : String} (hp : path ≠ "") (hn : IsName name) :
    splitAtChar '.' (pathBelow path name) = splitAtChar '.' path ++ [name] := by
  have htext : (path ++ "." ++ name).toList = path.toList ++ '.' :: name.toList := by
    rw [String.toList_append, String.toList_append, List.append_assoc]
    rfl
  rw [pathBelow, if_neg hp, splitAtChar, htext, splitWhere_append (by rfl), List.map_append]
  exact congrArg _ hn.split

theorem splitAtChar_pathFrom :
    ∀ {names : List String} {path : String}, path ≠ "" → (∀ n ∈ names, IsName n) →
      splitAtChar '.' (pathFrom path names) = splitAtChar '.' path ++ names
  | [], path, _, _ => (List.append_nil _).symm
  | name :: rest, path, hp, h => by
    rw [List.forall_mem_cons] at h
    show splitAtChar '.' (pathFrom (pathBelow path name) rest) = _
    rw [splitAtChar_pathFrom (pathBelow_ne_empty h.1) h.2, splitAtChar_pathBelow hp h.1, List.append_assoc]
    rfl

/-- The parts of a written path are the names that lead to it. -/
theorem splitAtChar_pathFrom_root {names : List String} (hne : names ≠ []) (h : ∀ n ∈ names, IsName n) :
    splitAtChar '.' (pathFrom "" names) = names := by
  cases names with
  | nil => exact absurd rfl hne
  | cons name rest =>
    rw [List.forall_mem_cons] at h
    have hroot : pathBelow "" name = name := if_pos rfl
    show splitAtChar '.' (pathFrom (pathBelow "" name) rest) = _
    rw [hroot, splitAtChar_pathFrom h.1.nonempty h.2, h.1.split]
    rfl

/-- **The names that lead to a relationship are read back from its path.** -/
theorem pathNames_pathFrom {names : List String} (h : ∀ n ∈ names, IsName n) : pathNames (pathFrom "" names) = names := by
  by_cases hne : names = []
  · subst hne
    rfl
  · rw [pathNames, splitAtChar_pathFrom_root hne h]
    exact List.filter_eq_self.2 fun n hn => decide_eq_true (h n hn).nonempty

/-- A path is the written path of its names exactly when it has no empty name. -/
theorem pathFrom_pathNames_iff {path : String} (hne : pathNames path ≠ []) :
    pathFrom "" (pathNames path) = path ↔ "" ∉ splitAtChar '.' path := by
  have hsplit := splitAtChar_pathFrom_root hne fun n hn => isName_of_mem_pathNames hn
  constructor
  · intro he hmem
    rw [he] at hsplit
    rw [hsplit] at hmem
    exact (isName_of_mem_pathNames hmem).nonempty rfl
  · intro hnot
    have hall : pathNames path = splitAtChar '.' path :=
      List.filter_eq_self.2 fun n hn => decide_eq_true fun he => hnot (he ▸ hn)
    exact splitAtChar_injective '.' (hsplit.trans hall)

/-! ## Names in a tree -/

/-- The names lead somewhere in the tree. -/
def Has : List String → Includes → Prop
  | [], _ => True
  | name :: rest, tree => ∃ below, Assoc.get? tree.children name = some below ∧ Has rest below

theorem has_empty_iff {names : List String} : Has names empty ↔ names = [] := by
  cases names with
  | nil => exact iff_of_true trivial rfl
  | cons name rest =>
    refine iff_of_false ?_ (List.cons_ne_nil _ _)
    rintro ⟨below, h, -⟩
    cases h

/-- **What is added to a tree are the beginnings of the names**, and nothing else changes. -/
theorem has_insertNames_iff :
    ∀ (added names : List String) (tree : Includes), Has names (insertNames added tree) ↔ names <+: added ∨ Has names tree
  | [], names, tree => by
    rw [insertNames, List.prefix_nil]
    exact ⟨.inr, fun h => h.elim (fun he => he ▸ trivial) id⟩
  | _ :: _, [], _ => iff_of_true trivial (.inl List.nil_prefix)
  | first :: added, name :: names, tree => by
    have hget : Assoc.get? (insertNames (first :: added) tree).children name =
        if first = name then some (insertNames added ((Assoc.get? tree.children first).getD empty))
        else Assoc.get? tree.children name :=
      Assoc.get?_insert _ _ _ _
    rw [Has, hget, List.cons_prefix_cons]
    by_cases hn : first = name
    · subst hn
      have ih := has_insertNames_iff added names ((Assoc.get? tree.children first).getD empty)
      simp only [if_true, Option.some.injEq, exists_eq_left', ih, true_and, Has]
      cases hg : Assoc.get? tree.children first with
      | some below => simp
      | none =>
        -- below a new name there is nothing but what is added
        have hbegins : names = [] → names <+: added := fun he => he ▸ List.nil_prefix
        simp [has_empty_iff, or_iff_left_of_imp hbegins]
    · simp only [hn, Ne.symm hn, if_false, false_and, false_or, Has]

theorem has_insert_iff (tree : Includes) (path : String) (names : List String) :
    Has names (tree.insert path) ↔ names <+: pathNames path ∨ Has names tree :=
  has_insertNames_iff (pathNames path) names tree

/-- All names of the tree are ones that a path can hold. -/
def HoldsNames (tree : Includes) : Prop := ∀ names, Has names tree → ∀ n ∈ names, IsName n

theorem holdsNames_empty : HoldsNames empty := by
  intro names h
  rw [has_empty_iff.1 h]
  exact List.forall_mem_nil _

theorem HoldsNames.insert {tree : Includes} (h : tree.HoldsNames) (path : String) : (tree.insert path).HoldsNames := by
  intro names hnames n hn
  rcases (has_insert_iff tree path names).1 hnames with hasked | hold
  · exact isName_of_mem_pathNames (hasked.subset hn)
  · exact h names hold n hn

end Includes

/-! ## Steps by their names -/

namespace LoadStep

open Includes (pathBelow pathFrom Has)

/-- The names lead to the step. -/
inductive Leads : List LoadStep → List String → LoadStep → Prop where
  | top {steps : List LoadStep} {step : LoadStep} (h : step ∈ steps) : Leads steps [step.relation.name] step
  | deeper {steps : List LoadStep} {step inner : LoadStep} {names : List String} (h : step ∈ steps)
    (hinner : Leads step.nested names inner) : Leads steps (step.relation.name :: names) inner

mutual

/-- Every step has the path of its name, below the path of its owner. -/
def Pathed (path : String) : LoadStep → Prop
  | ⟨r, _, here, nested⟩ => here = pathBelow path r.name ∧ AllPathed here nested

def AllPathed (path : String) : List LoadStep → Prop
  | [] => True
  | step :: rest => Pathed path step ∧ AllPathed path rest

end

theorem pathed_iff {path : String} {step : LoadStep} :
    step.Pathed path ↔ step.path = pathBelow path step.relation.name ∧ AllPathed step.path step.nested := by
  cases step
  exact Iff.rfl

theorem allPathed_iff {path : String} : ∀ {steps : List LoadStep}, AllPathed path steps ↔ ∀ step ∈ steps, step.Pathed path
  | [] => by simp [AllPathed]
  | step :: rest => by rw [AllPathed, allPathed_iff, List.forall_mem_cons]

/-- A step has the path of the names that lead to it. -/
theorem Leads.path_eq {steps : List LoadStep} {names : List String} {step : LoadStep} (h : Leads steps names step) :
    ∀ {path : String}, AllPathed path steps → step.path = pathFrom path names := by
  induction h with
  | top hm => exact fun hp => (pathed_iff.1 (allPathed_iff.1 hp _ hm)).1
  | deeper hm _ ih =>
    intro path hp
    obtain ⟨hpath, hnested⟩ := pathed_iff.1 (allPathed_iff.1 hp _ hm)
    rw [ih hnested, hpath]
    rfl

theorem eq_of_name_eq {steps : List LoadStep} (hd : AllDistinct steps) {step step' : LoadStep} (hm : step ∈ steps)
    (hm' : step' ∈ steps) (hname : step.relation.name = step'.relation.name) : step = step' :=
  List.inj_on_of_nodup_map (allDistinct_iff.1 hd).1 hm hm' hname

/-- The same names lead to one step at most. -/
theorem Leads.unique {steps : List LoadStep} {names : List String} {step step' : LoadStep} (h : Leads steps names step)
    (h' : Leads steps names step') (hd : AllDistinct steps) : step = step' := by
  induction h with
  | top hm =>
    generalize hnames : [_] = names at h'
    cases h' with
    | top hm' => exact eq_of_name_eq hd hm hm' (List.singleton_inj.1 hnames)
    | deeper _ hinner =>
      obtain ⟨-, rfl⟩ := List.cons.inj hnames
      cases hinner
  | deeper hm hinner ih =>
    generalize hnames : _ :: _ = names at h'
    cases h' with
    | top _ =>
      obtain ⟨-, rfl⟩ := List.cons.inj hnames
      cases hinner
    | deeper hm' hinner' =>
      obtain ⟨hname, rfl⟩ := List.cons.inj hnames
      obtain rfl := eq_of_name_eq hd hm hm' hname
      exact ih hinner' (distinct_iff.1 ((allDistinct_iff.1 hd).2 _ hm))

end LoadStep

namespace Includes

open LoadStep (Leads AllPathed AllDistinct)

mutual

theorem allPathed_resolve {s : Schema} :
    ∀ (tree : Includes) {m : Model} {path : String} {steps : List LoadStep},
      Includes.resolve s m path tree = .ok steps → AllPathed path steps
  | .node children, m, path, steps, h => by
    obtain ⟨listed, hl, rfl⟩ := Includes.resolve_node h
    have hpathed := LoadStep.allPathed_iff.1 (allPathed_resolveAll children hl)
    exact LoadStep.allPathed_iff.2 fun step hs => hpathed step ((m.perm_eagerOrderBy _ listed).mem_iff.1 hs)

theorem allPathed_resolveAll {s : Schema} :
    ∀ (children : List (String × Includes)) {m : Model} {path : String} {listed : List LoadStep},
      Includes.resolveAll s m path children = .ok listed → AllPathed path listed
  | [], _, _, _, h => by
    rw [Includes.resolveAll_nil h]
    trivial
  | (name, tree) :: rest, m, path, listed, h => by
    obtain ⟨r, related, nested, more, hm, hs, hn, hr, rfl⟩ := Includes.resolveAll_cons_eq h
    obtain rfl := Model.name_of_relation? hm
    exact ⟨⟨rfl, allPathed_resolve tree hn⟩, allPathed_resolveAll rest hr⟩

end

/-- The children of a tree and the steps that it resolves to are the same names, each with its own tree below. -/
theorem resolveAll_child {s : Schema} {m : Model} {path : String} :
    ∀ {children : List (String × Includes)} {listed : List LoadStep} {name : String} {tree : Includes},
      Includes.resolveAll s m path children = .ok listed → Assoc.get? children name = some tree →
        ∃ step ∈ listed, m.relation? name = some step.relation ∧ s.model? step.relation.target = some step.related ∧
          Includes.resolve s step.related step.path tree = .ok step.nested
  | [], _, _, _, _, hg => by cases hg
  | (first, subtree) :: rest, listed, name, tree, h, hg => by
    obtain ⟨step, more, hm, ht, hn, hr, rfl⟩ := Includes.resolveAll_cons h
    rw [Assoc.get?_cons] at hg
    split at hg
    · rename_i heq
      cases hg
      exact ⟨step, List.mem_cons_self, heq ▸ hm, ht, hn⟩
    · obtain ⟨found, hf, hrest⟩ := resolveAll_child hr hg
      exact ⟨found, List.mem_cons_of_mem _ hf, hrest⟩

/-- Names of the tree lead to a step. -/
theorem exists_leads {s : Schema} :
    ∀ {names : List String} {tree : Includes} {m : Model} {path : String} {steps : List LoadStep}, names ≠ [] →
      Has names tree → Includes.resolve s m path tree = .ok steps → ∃ step, Leads steps names step
  | [], _, _, _, _, hne, _, _ => absurd rfl hne
  | name :: rest, .node children, m, path, steps, _, ⟨below, hg, hb⟩, h => by
    obtain ⟨listed, hl, rfl⟩ := Includes.resolve_node h
    obtain ⟨step, hm, hr, -, hn⟩ := resolveAll_child hl hg
    obtain rfl := Model.name_of_relation? hr
    have hm' := (m.perm_eagerOrderBy (·.relation.name) listed).mem_iff.2 hm
    by_cases hrest : rest = []
    · subst hrest
      exact ⟨step, .top hm'⟩
    · obtain ⟨inner, hinner⟩ := exists_leads hrest hb hn
      exact ⟨inner, .deeper hm' hinner⟩

theorem resolveAll_step {s : Schema} {m : Model} {path : String} :
    ∀ {children : List (String × Includes)} {listed : List LoadStep} {step : LoadStep},
      (Assoc.names children).Nodup → Includes.resolveAll s m path children = .ok listed → step ∈ listed →
        ∃ tree, Assoc.get? children step.relation.name = some tree ∧
          Includes.resolve s step.related step.path tree = .ok step.nested
  | [], listed, step, _, h, hm => by
    rw [Includes.resolveAll_nil h] at hm
    cases hm
  | (first, tree) :: rest, listed, step, hd, h, hm => by
    obtain ⟨head, more, hfirst, -, hn, hr, rfl⟩ := Includes.resolveAll_cons h
    obtain rfl := Model.name_of_relation? hfirst
    rcases List.mem_cons.1 hm with rfl | hm
    · exact ⟨tree, by rw [Assoc.get?_cons, if_pos rfl], hn⟩
    · have hother : head.relation.name ≠ step.relation.name := by
        intro he
        have hmem : step.relation.name ∈ Assoc.names rest :=
          Includes.names_resolveAll hr ▸ List.mem_map_of_mem hm
        exact (List.nodup_cons.1 hd).1 (he ▸ hmem)
      rw [Assoc.get?_cons, if_neg hother]
      exact resolveAll_step (List.nodup_cons.1 hd).2 hr hm

/-- The names that lead to a step are names of the tree. -/
theorem has_of_leads {s : Schema} {steps : List LoadStep} {names : List String} {step : LoadStep}
    (hl : Leads steps names step) : ∀ {tree : Includes} {m : Model} {path : String}, tree.Distinct →
      Includes.resolve s m path tree = .ok steps → Has names tree := by
  induction hl with
  | top hm =>
    rintro ⟨children⟩ m path hd h
    obtain ⟨listed, hl, rfl⟩ := Includes.resolve_node h
    obtain ⟨tree, hg, -⟩ := resolveAll_step hd.1 hl ((m.perm_eagerOrderBy _ listed).mem_iff.1 hm)
    exact ⟨tree, hg, trivial⟩
  | deeper hm _ ih =>
    rintro ⟨children⟩ m path hd h
    obtain ⟨listed, hl, rfl⟩ := Includes.resolve_node h
    obtain ⟨tree, hg, hn⟩ := resolveAll_step hd.1 hl ((m.perm_eagerOrderBy _ listed).mem_iff.1 hm)
    exact ⟨tree, hg, ih (hd.2.get? hg) hn⟩

end Includes

end SqlMapper
