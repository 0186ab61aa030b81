import SqlMapper.Proofs.Eager.Constraint
/-!
# Requested — the tree that paths ask for

A tree of names is built by adding one path after the other, and nothing but the paths decides what it is: the names
that lead to its nodes are the beginnings of the paths, and below a node stand the names that the paths go on with, in
the order of their first mention (`ModelQuery.includes_closes_prefixes`).  Both are read off one step, which adds the
next name of the path below every node that the path passes (`Includes.childNames_insertNames`).
-/
namespace SqlMapper

/-- A last element is a duplicate if it is there before. -/
theorem eraseDups_concat (names : List String) (name : String) :
    (names ++ [name]).eraseDups = if name ∈ names then names.eraseDups else names.eraseDups ++ [name] := by
  rw [List.eraseDups_append]
  split
  · simp_all [List.removeAll]
  · simp_all [List.removeAll, List.eraseDups_cons]

namespace Includes

/-! ## Nodes -/

/-- The node that names lead to. -/
def at? : List String → Includes → Option Includes
  | [], tree => some tree
  | name :: rest, tree => (Assoc.get? tree.children name).bind (at? rest)

theorem has_iff_at? : ∀ {names : List String} {tree : Includes}, Has names tree ↔ ∃ node, at? names tree = some node
  | [], _ => iff_of_true trivial ⟨_, rfl⟩
  | _ :: _, _ => by
    simp only [Has, at?, Option.bind_eq_some_iff, has_iff_at?, ← exists_and_left]
    exact exists_comm

/-- The children of the node that names lead to; none where they lead nowhere. -/
def childNames (names : List String) (tree : Includes) : List String :=
  ((at? names tree).map fun node => Assoc.names node.children).getD []

/-- The name that a path goes on with behind names that it starts with. -/
def nextAfter (names path : List String) : Option String := if names <+: path then path[names.length]? else none

theorem childNames_cons (name : String) (names : List String) (tree : Includes) :
    childNames (name :: names) tree = childNames names ((Assoc.get? tree.children name).getD empty) := by
  unfold childNames
  rw [at?]
  cases Assoc.get? tree.children name with
  | some below => rfl
  | none => cases names <;> rfl

theorem nextAfter_cons_cons (name : String) (names : List String) (first : String) (path : List String) :
    nextAfter (name :: names) (first :: path) = if first = name then nextAfter names path else none := by
  unfold nextAfter
  simp only [List.cons_prefix_cons, List.length_cons, List.getElem?_cons_succ, eq_comm (a := name), ite_and]

theorem nextAfter_nil_right (names : List String) : nextAfter names [] = none := by
  unfold nextAfter
  split <;> rfl

/-! ## One path -/

/-- The names with one more behind them, unless it is there. -/
def withName (known : List String) : Option String → List String
  | none => known
  | some name => if name ∈ known then known else known ++ [name]

/-- **Adding a path puts its next name below every node that it passes**, behind the names that are there. -/
theorem childNames_insertNames :
    ∀ (added names : List String) (tree : Includes),
      childNames names (insertNames added tree) = withName (childNames names tree) (nextAfter names added)
  | [], names, tree => by
    rw [nextAfter_nil_right]
    rfl
  | first :: added, [], tree => Assoc.names_insert first _ tree.children
  | first :: added, name :: names, tree => by
    have hget : Assoc.get? (insertNames (first :: added) tree).children name =
        if first = name then some (insertNames added ((Assoc.get? tree.children first).getD empty))
        else Assoc.get? tree.children name :=
      Assoc.get?_insert _ _ _ _
    rw [childNames_cons, childNames_cons, nextAfter_cons_cons, hget]
    by_cases hn : first = name
    · subst hn
      rw [if_pos rfl, if_pos rfl, Option.getD_some, childNames_insertNames added names]
    · rw [if_neg hn, if_neg hn]
      rfl

/-- Names that are there already add nothing. -/
theorem insertNames_of_has : ∀ {names : List String} {tree : Includes}, tree.Has names → insertNames names tree = tree
  | [], _, _ => rfl
  | name :: rest, .node children, ⟨below, hget, hbelow⟩ => by
    have hget' : Assoc.get? children name = some below := hget
    show node (Assoc.insert name (insertNames rest ((Assoc.get? children name).getD empty)) children) = node children
    rw [hget', Option.getD_some, insertNames_of_has hbelow, Assoc.insert_of_get? hget']

/-! ## Many paths -/

theorem has_foldl_insert_iff {names : List String} :
    ∀ {paths : List String} {tree : Includes}, Has names (paths.foldl insert tree) ↔
      (∃ path ∈ paths, names <+: pathNames path) ∨ Has names tree
  | [], tree => by simp
  | path :: rest, tree => by
    rw [List.foldl_cons, has_foldl_insert_iff, has_insert_iff]
    simp only [List.mem_cons, exists_eq_or_imp]
    exact or_left_comm.trans (or_assoc).symm

theorem childNames_foldl_insert (names : List String) :
    ∀ (paths : List String) (tree : Includes) (mentioned : List String), childNames names tree = mentioned.eraseDups →
      childNames names (paths.foldl insert tree) =
        (mentioned ++ paths.filterMap fun path => nextAfter names (pathNames path)).eraseDups
  | [], tree, mentioned, h => by simpa using h
  | path :: rest, tree, mentioned, h => by
    have hstep : childNames names (tree.insert path) =
        (mentioned ++ (nextAfter names (pathNames path)).toList).eraseDups := by
      rw [insert, childNames_insertNames, h]
      cases nextAfter names (pathNames path) with
      | none => rw [Option.toList_none, List.append_nil, withName]
      | some name =>
        rw [Option.toList_some, eraseDups_concat, withName]
        simp only [List.mem_eraseDups]
    rw [List.foldl_cons, childNames_foldl_insert names rest _ _ hstep, List.append_assoc, List.filterMap_cons]
    cases nextAfter names (pathNames path) <;> rfl

end Includes

/-! ## Model queries -/

/-- The paths that a call asks for. -/
def Refinement.paths : Refinement → List String
  | .scope _ => []
  | .withPaths paths => paths
  | .withConstraint path _ => [path]

namespace ModelQuery

open Includes (pathNames at? childNames nextAfter)

/-- It does not matter by which calls the paths are asked for. -/
theorem includes_refineAll_eq :
    ∀ (calls : List Refinement) (mq : ModelQuery),
      (mq.refineAll calls).includes = (calls.flatMap Refinement.paths).foldl Includes.insert mq.includes
  | [], _ => rfl
  | call :: calls, mq => by
    rw [List.flatMap_cons, List.foldl_append]
    refine (includes_refineAll_eq calls (mq.refine call)).trans ?_
    cases call <;> rfl

/-- **The tree of a model query is the beginnings of its paths, in the order of their mention.**  Names lead to a node
exactly when a path begins with them, and the children of a node are the names that the paths go on with, each where it
was mentioned first.  Paths that begin others ask for nothing more. -/
theorem includes_closes_prefixes (m : Model) (calls : List Refinement) :
    let tree := ((ModelQuery.all m).refineAll calls).includes
    let paths := calls.flatMap Refinement.paths
    (∀ names, names ≠ [] →
      ((∃ node, at? names tree = some node) ↔ ∃ path ∈ paths, names <+: pathNames path)) ∧
      (∀ names node, at? names tree = some node →
        Assoc.names node.children = (paths.filterMap fun path => nextAfter names (pathNames path)).eraseDups) ∧
      ∀ call : Refinement, (∀ again ∈ call.paths, ∃ path ∈ paths, pathNames again <+: pathNames path) →
        ((ModelQuery.all m).refineAll (calls ++ [call])).includes = tree := by
  intro tree paths
  have htree : tree = paths.foldl Includes.insert .empty := includes_refineAll_eq calls (.all m)
  have hhas (names) : Includes.Has names tree ↔ (∃ path ∈ paths, names <+: pathNames path) ∨ names = [] := by
    rw [htree, Includes.has_foldl_insert_iff, Includes.has_empty_iff]
  refine ⟨fun names hne => ?_, fun names node hnode => ?_, fun call hcall => ?_⟩
  · rw [← Includes.has_iff_at?, hhas, or_iff_left hne]
  · have hchildren : childNames names tree = Assoc.names node.children := by
      rw [childNames, hnode]
      rfl
    have hnone : childNames names Includes.empty = ([] : List String).eraseDups := by cases names <;> rfl
    rw [← hchildren, htree, Includes.childNames_foldl_insert names paths _ [] hnone, List.nil_append]
  · have hknown : ∀ again ∈ call.paths, Includes.Has (pathNames again) tree := fun again ha =>
      (hhas _).2 (.inl (hcall again ha))
    rw [includes_refineAll_eq, List.flatMap_append, List.foldl_append, List.flatMap_singleton]
    show call.paths.foldl Includes.insert (paths.foldl Includes.insert .empty) = tree
    rw [← htree]
    exact List.foldlRecOn call.paths Includes.insert (motive := (· = tree)) rfl fun t ht again ha => by
      rw [ht, Includes.insert, Includes.insertNames_of_has (hknown again ha)]

end ModelQuery

/-- Comments are asked for with their authors and with their likes; the tags stand behind them, and empty names ask for
nothing. -/
theorem includes_closes_prefixes_post :
    let calls : List Refinement := [.withPaths ["comments..author", ".tags."], .scope (·.limitTo 3),
      .withConstraint "comments.likes" id]
    let tree := ((ModelQuery.all Blog.postModel).refineAll calls).includes
    (∃ node, Includes.at? ["comments"] tree = some node ∧ Assoc.names node.children = ["author", "likes"]) ∧
      Assoc.names tree.children = ["comments", "tags"] ∧
      ((ModelQuery.all Blog.postModel).refineAll (calls ++ [.withPaths ["tags", "comments"]])).includes = tree := by
  intro calls tree
  obtain ⟨hnodes, hchildren, hagain⟩ := ModelQuery.includes_closes_prefixes Blog.postModel calls
  obtain ⟨node, hnode⟩ := (hnodes ["comments"] (by decide)).2 ⟨"comments..author", by decide, by decide⟩
  refine ⟨⟨node, hnode, (hchildren _ _ hnode).trans (by decide)⟩, (hchildren [] tree rfl).trans (by decide),
    hagain _ fun again ha => ?_⟩
  rcases List.mem_pair.1 ha with rfl | rfl
  · exact ⟨".tags.", by decide, by decide⟩
  · exact ⟨"comments..author", by decide, by decide⟩

end SqlMapper
