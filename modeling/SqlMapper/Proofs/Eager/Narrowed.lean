import SqlMapper.Proofs.Eager.Lazy
import SqlMapper.Proofs.Eager.Paths
import SqlMapper.Proofs.Query.Refined
import SqlMapper.Proofs.Session.Table
/-!
# Narrowed — relationships that are loaded in part

The query that loads a relationship asks for the keys of all parents, and a refinement appends its predicates to the same
list.  From the first `OR` on these are an alternative to the membership in the keys, so the rows of other keys may come
back.  They match no parent.  Of the rows of a key that was asked for the membership is true, and with a true predicate in
front a list that goes on with `AND` is as true as without it (`Filter.listTruth_cons_of_true`).  So every parent gets the
rows that match its key and satisfy the refinement's own predicates (`Includes.load_narrowed`).
-/
namespace SqlMapper

open Includes (pathBelow pathFrom)

/-! ## A true predicate in front -/

/-- The predicates can be joined to what stands before them by `AND`. -/
def Filter.StartsWithAnd (filters : List Filter) : Prop := ∀ first ∈ filters.head?, first.connector = .and

/-- **A true predicate in front does not change what a list says** that goes on with `AND`. -/
theorem Filter.listTruth_cons_of_true {ρ : Reading} {predicate : Predicate} (hp : predicate.truth ρ = some true)
    (connector : Connector) :
    ∀ {filters : List Filter}, StartsWithAnd filters →
      (listTruth ρ (⟨connector, predicate⟩ :: filters) = some true ↔ listTruth ρ filters = some true)
  | [], _ => iff_of_true hp rfl
  | ⟨first, second⟩ :: rest, h => by
    obtain rfl : first = .and := h _ rfl
    have hleading : leading (⟨.and, second⟩ :: rest) = ⟨.and, second⟩ :: leading rest := rfl
    have halternatives : alternatives (⟨.and, second⟩ :: rest) = alternatives rest := rfl
    rw [listTruth_cons_iff, listTruth_cons_iff, hleading, halternatives, List.forall_mem_cons, and_iff_right hp]

/-- Values that are compared as they are: the membership is true of the rows that hold one of them. -/
theorem Reading.truth_isIn_iff {ρ : Reading} (hbound : ∀ v, ρ.bound v = v) (column : Column) {values : List Value}
    (hvalues : ∀ v ∈ values, v ≠ .null) {key : Option Value} (hkey : ρ.column column = key.getD .null) :
    (Predicate.isIn column (values.map .value) false).truth ρ = some true ↔ ∃ v ∈ values, key = some v := by
  have hexpr : (values.map Expr.value).map ρ.expr = values := by
    rw [List.map_map]
    exact (List.map_congr_left fun v _ => hbound v).trans (List.map_id values)
  rw [Predicate.truth, Truth.negatedIf_false, hexpr, ρ.isAmong_eq_true_iff, hkey]
  cases key with
  | none => simp
  | some k =>
    simp only [Option.getD_some, Option.some.injEq, exists_eq_right']
    exact and_iff_left_of_imp (hvalues k)

/-! ## A connection that evaluates predicates -/

/-- A row as it is returned, with the database's reading of predicates about it. -/
structure StoredRow where
  row : Row
  reading : Reading

/-- The rows of which the predicates are known to be true, in order. -/
def rowsWhere (filters : List Filter) (stored : List StoredRow) : List Row :=
  (stored.filter fun s => Filter.listTruth s.reading filters == some true).map (·.row)

/-- The connection answers the queries of every relationship of the schema from a list of rows: those of which the
query's predicates are true, in order.  A row's membership in keys is that of the value it is matched by. -/
structure Db.Evaluates {σ : Type} (db : Db σ) (rowsOf : Relation → List StoredRow) : Prop where
  select : ∀ (m related : Model) (r : Relation) (filters : List Filter) (p : Prepared) (c : σ),
    m ∈ db.schema.models → r ∈ m.relations → db.schema.model? r.target = some related →
      (Statement.query ((r.baseQuery related).withAdded filters)).prepare db.dialect = .ok p →
        ∃ key c', db.exec (.query p) c = (.ok ⟨.rows (rowsWhere filters (rowsOf r)), key⟩, c')
  key : ∀ (m related : Model) (r : Relation) (values : List Value),
    m ∈ db.schema.models → r ∈ m.relations → db.schema.model? r.target = some related →
      (∀ v ∈ values, v ≠ .null) → ∀ s ∈ rowsOf r,
        ((Predicate.isIn (r.constrainedColumn related) (values.map .value) false).truth s.reading = some true ↔
          ∃ v ∈ values, r.rowKey? related s.row = some v)

/-! ## Refinements that append predicates -/

namespace Constraints

/-- Every refinement appends its predicates, the first of them by `AND`, and does nothing else. -/
def Narrow (constraints : Constraints) : Prop :=
  ∀ path f, Assoc.get? constraints path = some f →
    ∃ added, (∀ q : Query, f q = q.withAdded added) ∧ Filter.StartsWithAnd added

/-- The predicates of the refinement of a path. -/
def ownFilters (constraints : Constraints) (path : String) : List Filter :=
  match Assoc.get? constraints path with
  | some f => (f .empty).filters
  | none => []

variable {constraints : Constraints}

theorem Narrow.startsWithAnd (h : constraints.Narrow) (path : String) :
    Filter.StartsWithAnd (constraints.ownFilters path) := by
  unfold ownFilters
  cases hf : Assoc.get? constraints path with
  | none => exact fun first hfirst => by cases hfirst
  | some f =>
    obtain ⟨added, hadded, hand⟩ := h path f hf
    dsimp only
    rw [hadded]
    exact hand

theorem Narrow.query_eq (h : constraints.Narrow) (r : Relation) (related : Model) (path : String)
    (values : List Value) :
    LoadStep.query r related path constraints values = (r.baseQuery related).withAdded
      (⟨.and, .isIn (r.constrainedColumn related) (values.map .value) false⟩ :: constraints.ownFilters path) := by
  have hbase : (r.baseQuery related).filterIn (r.constrainedColumn related) (values.map .value) =
      (r.baseQuery related).withAdded [⟨.and, .isIn (r.constrainedColumn related) (values.map .value) false⟩] := rfl
  unfold LoadStep.query ownFilters
  rw [hbase]
  cases hf : Assoc.get? constraints path with
  | none => rfl
  | some f =>
    obtain ⟨added, hadded, -⟩ := h path f hf
    simp [hadded, Query.withAdded, Query.empty]

end Constraints

/-! ## The rows that satisfy a refinement -/

/-- The relationship that names lead to from another. -/
def Schema.relationBelow? (s : Schema) (r : Relation) : List String → Option Relation
  | [] => some r
  | name :: rest => do
    let m ← s.model? r.target
    let next ← m.relation? name
    s.relationBelow? next rest

/-- The rows of the relationships below one, as far as they satisfy the refinements of their paths. -/
def satisfyingBelow (s : Schema) (rowsOf : Relation → List StoredRow) (constraints : Constraints) (r : Relation)
    (path : String) : Returned := fun names =>
  match s.relationBelow? r names with
  | some found => rowsWhere (constraints.ownFilters (pathFrom path names)) (rowsOf found)
  | none => []

/-- The rows of the relationships of a model, as far as they satisfy the refinements of their paths. -/
def satisfying (s : Schema) (rowsOf : Relation → List StoredRow) (constraints : Constraints) (m : Model)
    (path : String) : Returned
  | [] => []
  | name :: rest =>
    match m.relation? name with
    | some r => satisfyingBelow s rowsOf constraints r (pathBelow path name) rest
    | none => []

section

variable {s : Schema} {rowsOf : Relation → List StoredRow} {constraints : Constraints}

theorem below_satisfying {m : Model} {path name : String} {r : Relation} (h : m.relation? name = some r) :
    (satisfying s rowsOf constraints m path).below name =
      satisfyingBelow s rowsOf constraints r (pathBelow path name) := by
  funext names
  rw [Returned.below, satisfying, h]

theorem below_satisfyingBelow {r next : Relation} {related : Model} {path name : String}
    (ht : s.model? r.target = some related) (h : related.relation? name = some next) :
    (satisfyingBelow s rowsOf constraints r path).below name =
      satisfyingBelow s rowsOf constraints next (pathBelow path name) := by
  funext names
  have hsame : s.relationBelow? r (name :: names) = s.relationBelow? next names := by
    simp only [Schema.relationBelow?, ht, h, Option.bind_eq_bind, Option.bind_some]
  rw [Returned.below, satisfyingBelow, hsame]
  rfl

end

/-! ## Loading -/

namespace LoadStep

variable {σ : Type} {db : Db σ} {rowsOf : Relation → List StoredRow} {constraints : Constraints}

/-- Among the rows that are fetched for some values, those of each value are the ones that satisfy the refinement. -/
theorem rowsFor_rowsWhere (h : db.Evaluates rowsOf) (hc : constraints.Narrow) {m related : Model} {r : Relation}
    (hm : m ∈ db.schema.models) (hr : r ∈ m.relations) (ht : db.schema.model? r.target = some related) (path : String)
    {values : List Value} (hvalues : ∀ v ∈ values, v ≠ .null) {v : Value} (hv : v ∈ values) :
    r.rowsFor related (rowsWhere (⟨.and, .isIn (r.constrainedColumn related) (values.map .value) false⟩ ::
        constraints.ownFilters path) (rowsOf r)) (some v) =
      r.rowsFor related (rowsWhere (constraints.ownFilters path) (rowsOf r)) (some v) := by
  rw [r.rowsFor_some related _ (hvalues v hv), r.rowsFor_some related _ (hvalues v hv), rowsWhere, rowsWhere,
    List.filter_map, List.filter_map, List.filter_filter, List.filter_filter]
  refine congrArg _ (List.filter_congr fun stored hstored => ?_)
  simp only [Function.comp_apply]
  by_cases hkey : r.rowKey? related stored.row = some v
  · have hmember := (h.key m related r values hm hr ht hvalues stored hstored).2 ⟨v, hv, hkey⟩
    have hsame := Filter.listTruth_cons_of_true hmember .and (hc.startsWithAnd path)
    rw [Bool.eq_iff_iff, Bool.and_eq_true, Bool.and_eq_true, beq_iff_eq, beq_iff_eq, hsame, beq_iff_eq]
  · rw [beq_eq_false_iff_ne.2 hkey, Bool.false_and, Bool.false_and]

theorem exists_fetch (h : db.Evaluates rowsOf) (hc : constraints.Narrow) {m related : Model} {r : Relation}
    (hm : m ∈ db.schema.models) (hr : r ∈ m.relations) (ht : db.schema.model? r.target = some related) (path : String)
    {values : List Value} (hvalues : ∀ v ∈ values, v ≠ .null) :
    ∃ rows, Yields (fetch db constraints r related path values) (rows.map (r.hydrate related)) ∧
      ∀ v ∈ values, r.rowsFor related rows (some v) =
        r.rowsFor related (rowsWhere (constraints.ownFilters path) (rowsOf r)) (some v) := by
  by_cases hne : values = []
  · subst hne
    refine ⟨[], ?_, List.forall_mem_nil _⟩
    unfold fetch
    rw [if_pos rfl]
    exact yields_pure []
  · refine ⟨_, ?_, fun v hv => rowsFor_rowsWhere h hc hm hr ht path hvalues hv⟩
    unfold fetch
    rw [if_neg hne, hc.query_eq]
    refine Yields.bind (fun w => ?_) (yields_pure _)
    obtain ⟨sql, hp⟩ := ((r.baseQuery related).withAdded
      (⟨.and, .isIn (r.constrainedColumn related) (values.map .value) false⟩ ::
        constraints.ownFilters path)).prepare_eq_ok db.dialect
    obtain ⟨key, c, he⟩ := h.select m related r _ _ w.connection hm hr ht hp
    exact ⟨_, (Db.returns_select db).2 ⟨_, key, c, hp, he, rfl⟩⟩

mutual

theorem fetchesFrom_satisfying (h : db.Evaluates rowsOf) (hc : constraints.Narrow) {owner : Model}
    (ho : owner ∈ db.schema.models) :
    ∀ (step : LoadStep) {path : String} {returned : Returned}, step.Known db.schema owner → step.Pathed path →
      (∀ name r, owner.relation? name = some r →
        returned.below name = satisfyingBelow db.schema rowsOf constraints r (pathBelow path name)) →
        step.FetchesFrom db constraints returned.source
  | ⟨r, related, here, nested⟩, path, returned, ⟨hr, ht, hk⟩, ⟨hpath, hpaths⟩, hreturned => by
    have hbelow := hreturned r.name r hr
    rw [← hpath] at hbelow
    refine ⟨fun values hvalues => ?_, ?_⟩
    · obtain ⟨rows, hfetch, hrows⟩ := exists_fetch h hc ho (Model.mem_of_relation? hr) ht here hvalues
      have hsource : returned.source [r.name] r related = rowsWhere (constraints.ownFilters here) (rowsOf r) :=
        congrFun hbelow []
      exact ⟨rows, hfetch, fun v hv => by rw [hsource, hrows v hv]⟩
    · have hsource : returned.source.below r.name =
          (satisfyingBelow db.schema rowsOf constraints r here).source :=
        congrArg Returned.source hbelow
      rw [hsource]
      exact allFetchFrom_satisfying h hc (Schema.mem_of_model? ht) nested hk hpaths fun name next hnext =>
        below_satisfyingBelow ht hnext

theorem allFetchFrom_satisfying (h : db.Evaluates rowsOf) (hc : constraints.Narrow) {owner : Model}
    (ho : owner ∈ db.schema.models) :
    ∀ (steps : List LoadStep) {path : String} {returned : Returned}, AllKnown db.schema owner steps →
      AllPathed path steps →
      (∀ name r, owner.relation? name = some r →
        returned.below name = satisfyingBelow db.schema rowsOf constraints r (pathBelow path name)) →
        AllFetchFrom db constraints returned.source steps
  | [], _, _, _, _, _ => trivial
  | step :: rest, _, _, ⟨hk, hks⟩, ⟨hp, hps⟩, hreturned =>
    ⟨fetchesFrom_satisfying h hc ho step hk hp hreturned, allFetchFrom_satisfying h hc ho rest hks hps hreturned⟩

end

end LoadStep

/-- **A refinement narrows a relationship down, and its `OR` does not widen it.**  On a connection that evaluates
predicates over a list of rows for every relationship, a tree is loaded for any parents under refinements that append
predicates, the first of them by `AND`.  Every parent is as before and has loaded the tree: under each name, at any depth,
it has the rows that match its own value and satisfy the refinement's predicates on their own, in order, and the first of
them for a to-one relationship. -/
theorem Includes.load_narrowed {σ : Type} {db : Db σ} {rowsOf : Relation → List StoredRow} (h : db.Evaluates rowsOf)
    {m : Model} (hm : m ∈ db.schema.models) {tree : Includes} (hd : tree.Distinct) {steps : List LoadStep}
    (hs : tree.resolve db.schema m "" = .ok steps) {constraints : Constraints} (hc : constraints.Narrow)
    {parents : List Entity} (hfresh : ∀ e ∈ parents, e.relations = []) :
    ∃ forest, Yields (LoadStep.runAll db constraints m parents steps) forest ∧
      List.Forall₂ (fun e loaded => e.SameRow loaded ∧
        tree.LoadedOn db.schema m (satisfying db.schema rowsOf constraints m "") loaded) parents forest := by
  have hfetch : LoadStep.AllFetchFrom db constraints (satisfying db.schema rowsOf constraints m "").source steps :=
    LoadStep.allFetchFrom_satisfying h hc hm steps (Includes.allKnown_resolve tree hs)
      (Includes.allPathed_resolve tree hs) fun name r hr => below_satisfying hr
  refine ⟨_, LoadStep.runAll_yields m steps parents hfetch, ?_⟩
  rw [List.forall₂_map_right_iff, List.forall₂_same]
  intro e he
  exact ⟨LoadStep.sameRow_attachAll _ m steps e, Includes.loadedOn_attachAll tree _ e hd hs (hfresh e he)⟩

/-! ## Some of the posts of users -/

namespace Blog

/-- Predicates about a row, with integers in their order. -/
def readingOf (row : Row) : Reading where
  column := (RowStore.reading .sqlite row).column
  bound v := v
  order
    | .lt, .int a, .int b => a < b
    | .gt, .int a, .int b => b < a
    | _, _, _ => false
  rawValue _ := .null
  rawTruth _ := none
  hasRow _ := false

def storedPost (id user : Int64) : StoredRow := ⟨post id user, readingOf (post id user)⟩

/-- A tag is read together with its join row, whose columns are returned under other names. -/
def storedTag (id post : Int64) : StoredRow :=
  ⟨tag id post, readingOf (.ofList [("id", .int id), ("post_id", .int post)])⟩

def storedRowsOf (r : Relation) : List StoredRow :=
  if r.name = "posts" then [storedPost 4 9, storedPost 5 2, storedPost 6 1, storedPost 7 2] else [storedTag 3 5]

def evaluating (op : Operation) (_ : Unit) : Except Error Response × Unit :=
  match op with
  | .query ⟨.query q, _, _⟩ =>
    match relationOf? q with
    | some found => (.ok ⟨.rows (rowsWhere q.filters (storedRowsOf found.1)), none⟩, ())
    | none => (.ok ⟨.rows [], none⟩, ())
  | _ => (.ok ⟨.count 0, none⟩, ())

theorem evaluates_evaluating : (db evaluating).Evaluates storedRowsOf where
  select m related r filters p c hm hr ht hp := by
    obtain ⟨sql, hprep⟩ := ((r.baseQuery related).withAdded filters).prepare_eq_ok (db evaluating).dialect
    rw [hprep] at hp
    cases hp
    have hfound : relationOf? ((r.baseQuery related).withAdded filters) = some (r, related) :=
      relationOf?_eq hm hr ht Relation.source_baseQuery
    have hfilters : ((r.baseQuery related).withAdded filters).filters = filters := by
      rw [Query.withAdded, r.filters_baseQuery, List.nil_append]
    refine ⟨none, (), ?_⟩
    simp only [db, evaluating, hfound, hfilters]
  key m related r values hm hr ht hvalues s hs := by
    refine Reading.truth_isIn_iff ?_ _ hvalues ?_
    all_goals
      rcases relation_cases hm hr ht with ⟨rfl, rfl⟩ | ⟨rfl, rfl⟩
      · simp only [storedRowsOf, postsStep, ↓reduceIte, List.mem_cons, List.not_mem_nil, or_false] at hs
        rcases hs with rfl | rfl | rfl | rfl <;> first | exact fun _ => rfl | rfl
      · rw [List.mem_singleton.1 (show s ∈ [storedTag 3 5] from hs)]
        first | exact fun _ => rfl | rfl

/-- The posts before and after the sixth. -/
def besideSixth (q : Query) : Query :=
  (q.filterOp (.name "id") .gt (.value (.int 6))).orFilterOp (.name "id") .lt (.value (.int 6))

theorem narrow_besideSixth : Constraints.Narrow [("posts", besideSixth)] := by
  intro path f hf
  rw [Assoc.get?_cons] at hf
  split at hf
  · cases hf
    exact ⟨_, fun q => Query.pushFilter_withAdded q [⟨.and, _⟩] .or _, fun first hfirst => by cases hfirst; rfl⟩
  · cases hf

end Blog

/-- The post of another user comes back with those of the two, and neither of them gets it. -/
theorem load_narrowed_readers :
    (rowsWhere (⟨.and, .isIn (.name "posts.user_id") [.value (.int 1), .value (.int 2)] false⟩ ::
        Constraints.ownFilters [("posts", Blog.besideSixth)] "posts") (Blog.storedRowsOf (Blog.postsStep []).relation)).map
          (·.get? "id") = [some (.int 4), some (.int 5), some (.int 7)] ∧
      ∃ forest,
        Yields (LoadStep.runAll (Blog.db Blog.evaluating) [("posts", Blog.besideSixth)] Blog.userModel Blog.readers
          [Blog.postsStep []]) forest ∧
        Blog.postCounts (.ok forest) = [0, 2] ∧
        List.Forall₂ (fun e loaded => e.SameRow loaded ∧ (Includes.empty.insert "posts").LoadedOn Blog.schema
          Blog.userModel (satisfying Blog.schema Blog.storedRowsOf [("posts", Blog.besideSixth)] Blog.userModel "")
          loaded) Blog.readers forest := by
  have hs : (Includes.empty.insert "posts").resolve Blog.schema Blog.userModel "" = .ok [Blog.postsStep []] :=
    Includes.resolve_single rfl rfl (Includes.resolve_empty _ _ _)
  have hfresh : ∀ e ∈ Blog.readers, e.relations = [] := List.forall_mem_map.2 fun _ _ => rfl
  obtain ⟨forest, hyields, hloaded⟩ := Includes.load_narrowed Blog.evaluates_evaluating (List.get_mem _ _)
    (Includes.distinct_empty.insert "posts") hs Blog.narrow_besideSixth hfresh
  refine ⟨by decide +kernel, forest, hyields, ?_, hloaded⟩
  rw [← Blog.postCounts_eq_of_yields hyields ⟨(), []⟩]
  decide +kernel

end SqlMapper
