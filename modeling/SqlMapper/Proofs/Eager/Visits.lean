import SqlMapper.Proofs.Eager.Lazy
import SqlMapper.Proofs.Session.Trace
/-!
# Visits — which queries load a tree of names

Loading goes through a tree of names from the root, a name before the names below it, siblings in the order in which
their relationships wait for each other.  `Includes.visits` lists the relationships in this order, each with the
parents it is loaded for.  A relationship is asked for once, whatever the number of its parents, and not at all if none
of them has a value for it (`ModelQuery.get_sends`).
-/
namespace SqlMapper

/-! ## Relationships in the order of loading -/

/-- A relationship as loading comes to it. -/
structure Visit where
  relation : Relation
  related : Model
  /-- The names that lead to it, joined by dots. -/
  path : String
  owner : Model
  parents : List Entity
  /-- What its query returns, if it is asked for. -/
  rows : List Row

namespace Visit

variable (v : Visit)

/-- The value of a parent that the relationship is found by. -/
def key? (parent : Entity) : Option Value := parent.get? (v.relation.parentColumn v.owner)

/-- Some parent has a value for the relationship. -/
def Asks : Prop := ∃ parent ∈ v.parents, ∃ k, v.key? parent = some k ∧ k ≠ .null

/-- The values of the parents without null, each at its first place. -/
def keys : List Value := ((v.parents.filterMap v.key?).filter (!·.isNull)).eraseDups

theorem mem_keys {k : Value} : k ∈ v.keys ↔ k ≠ .null ∧ ∃ parent ∈ v.parents, v.key? parent = some k := by
  have hnull : k.isNull = false ↔ k ≠ .null := by cases k <;> simp [Value.isNull]
  rw [keys, List.mem_eraseDups, List.mem_filter, Bool.not_eq_true', hnull, List.mem_filterMap, and_comm]

theorem keys_ne_nil_iff : v.keys ≠ [] ↔ v.Asks := by
  constructor
  · intro h
    obtain ⟨k, hk⟩ := List.exists_mem_of_ne_nil _ h
    obtain ⟨hnull, parent, hparent, hkey⟩ := v.mem_keys.1 hk
    exact ⟨parent, hparent, k, hkey, hnull⟩
  · rintro ⟨parent, hparent, k, hkey, hnull⟩
    exact List.ne_nil_of_mem (v.mem_keys.2 ⟨hnull, parent, hparent, hkey⟩)

instance : Decidable v.Asks := decidable_of_iff (v.keys ≠ []) v.keys_ne_nil_iff

/-- The parents of the relationships below. -/
def children : List Entity := if v.Asks then v.rows.map (v.relation.hydrate v.related) else []

/-- The query with the rows that it returns. -/
def request (constraints : Constraints) : Query × List Row :=
  (LoadStep.query v.relation v.related v.path constraints v.keys, v.rows)

end Visit

/-- The relationship of a name, for the entities of a model whose path and rows below are given. -/
def Visit.named? (s : Schema) (returned : Returned) (m : Model) (path : String) (parents : List Entity) (name : String) :
    Option Visit := do
  let r ← m.relation? name
  let related ← s.model? r.target
  pure ⟨r, related, if path = "" then name else path ++ "." ++ name, m, parents, returned [name]⟩

mutual

/-- The relationships of a tree below the entities of a model, in pre-order. -/
def Includes.visits (s : Schema) (returned : Returned) (m : Model) (path : String) (parents : List Entity) :
    Includes → List Visit
  | .node children =>
    (m.eagerOrder (Assoc.names children)).flatMap fun name =>
      (Assoc.get? (Includes.visitsEach s returned m path parents children) name).getD []

/-- The relationship of every child with those below it, by the child's name. -/
def Includes.visitsEach (s : Schema) (returned : Returned) (m : Model) (path : String) (parents : List Entity) :
    List (String × Includes) → List (String × List Visit)
  | [] => []
  | (name, tree) :: rest =>
    (name,
      match Visit.named? s returned m path parents name with
      | none => []
      | some v => v :: Includes.visits s (returned.below name) v.related v.path v.children tree) ::
    Includes.visitsEach s returned m path parents rest

end

mutual

/-- The number of names in a tree. -/
def Includes.size : Includes → Nat
  | .node children => Includes.sizeAll children

def Includes.sizeAll : List (String × Includes) → Nat
  | [] => 0
  | (_, tree) :: rest => 1 + Includes.size tree + Includes.sizeAll rest

end

/-! ## Levels without parents -/

theorem Visit.not_asks_of_parents {v : Visit} (h : v.parents = []) : ¬ v.Asks := by
  rintro ⟨parent, hparent, -⟩
  rw [h] at hparent
  cases hparent

theorem Visit.parents_of_named? {s : Schema} {returned : Returned} {m : Model} {path : String} {parents : List Entity}
    {name : String} {v : Visit} (h : Visit.named? s returned m path parents name = some v) : v.parents = parents := by
  unfold Visit.named? at h
  cases hr : m.relation? name with
  | none => rw [hr] at h; cases h
  | some r =>
    cases hs : s.model? r.target with
    | none => simp [hr, hs] at h
    | some related =>
      simp only [hr, hs, Option.bind_eq_bind, Option.bind_some] at h
      cases h
      rfl

namespace Includes

mutual

/-- Below a level without entities nothing is asked for. -/
theorem not_asks_visits {s : Schema} :
    ∀ (tree : Includes) {m : Model} {path : String} {returned : Returned},
      ∀ v ∈ Includes.visits s returned m path [] tree, ¬ v.Asks
  | .node children, m, path, returned, v, hv => by
    rw [Includes.visits, List.mem_flatMap] at hv
    obtain ⟨name, -, hv⟩ := hv
    cases hg : Assoc.get? (Includes.visitsEach s returned m path [] children) name with
    | none =>
      rw [hg] at hv
      cases hv
    | some visits =>
      rw [hg] at hv
      exact not_asks_visitsEach children hg v hv

theorem not_asks_visitsEach {s : Schema} :
    ∀ (children : List (String × Includes)) {m : Model} {path name : String} {returned : Returned} {visits : List Visit},
      Assoc.get? (Includes.visitsEach s returned m path [] children) name = some visits → ∀ v ∈ visits, ¬ v.Asks
  | [], _, _, _, _, _, h => by
    rw [Includes.visitsEach] at h
    cases h
  | (first, tree) :: rest, m, path, name, returned, visits, h => by
    rw [Includes.visitsEach, Assoc.get?_cons] at h
    split at h
    · obtain rfl := Option.some.inj h
      cases hv : Visit.named? s returned m path [] first with
      | none => exact List.forall_mem_nil _
      | some v =>
        have hnot := Visit.not_asks_of_parents (Visit.parents_of_named? hv)
        refine List.forall_mem_cons.2 ⟨hnot, ?_⟩
        rw [Visit.children, if_neg hnot]
        exact not_asks_visits tree
    · exact not_asks_visitsEach rest h

end

end Includes

/-! ## Steps and visits -/

theorem Value.distinct_filter (p : Value → Bool) :
    ∀ vs : List Value, Value.distinct (vs.filter p) = (Value.distinct vs).filter p
  | [] => rfl
  | v :: vs => by
    by_cases hv : p v = true
    · rw [List.filter_cons_of_pos hv, Value.distinct, Value.distinct, List.filter_cons_of_pos hv,
        Value.distinct_filter p vs, List.filter_filter, List.filter_filter]
      simp only [Bool.and_comm]
    · rw [List.filter_cons_of_neg hv, Value.distinct, List.filter_cons_of_neg hv, Value.distinct_filter p vs,
        List.filter_filter]
      refine List.filter_congr fun w _ => ?_
      by_cases hw : w = v
      · simp [hw, hv]
      · simp [hw]

theorem Value.distinct_eq_eraseDups : ∀ vs : List Value, Value.distinct vs = vs.eraseDups
  | [] => rfl
  | v :: vs => by
    have ih := Value.distinct_eq_eraseDups (vs.filter fun w => !w == v)
    rw [Value.distinct, List.eraseDups_cons, ← ih, Value.distinct_filter]
    congr 1
    refine List.filter_congr fun w _ => ?_
    by_cases hw : w = v <;> simp [hw]
termination_by vs => vs.length
decreasing_by
  have := List.length_filter_le (fun w => !w == v) vs
  simp only [List.length_cons]
  omega

theorem Visit.keys_eq_parentValues (v : Visit) :
    v.keys = LoadStep.parentValues (v.relation.parentColumn v.owner) v.parents :=
  (Value.distinct_eq_eraseDups _).symm

theorem LoadStep.requestsAll_eq_flatMap (constraints : Constraints) (returned : Returned) (owner : Model)
    (parents : List Entity) (steps : List LoadStep) :
    requestsAll constraints returned owner parents steps =
      steps.flatMap (requests constraints returned owner parents) := by
  induction steps with
  | nil => rfl
  | cons step rest ih => rw [requestsAll, List.flatMap_cons, ih]

/-- What is sent for a relationship and below it. -/
theorem Visit.requests_eq (constraints : Constraints) (v : Visit) (returned : Returned)
    (h : returned [v.relation.name] = v.rows) (nested : List LoadStep) :
    LoadStep.requests constraints returned v.owner v.parents ⟨v.relation, v.related, v.path, nested⟩ =
      if v.Asks then v.request constraints ::
        LoadStep.requestsAll constraints (returned.below v.relation.name) v.related v.children nested
      else [] := by
  rw [LoadStep.requests_eq, ← v.keys_eq_parentValues, h]
  by_cases hasks : v.Asks
  · rw [if_pos hasks, if_neg (v.keys_ne_nil_iff.2 hasks), Visit.children, if_pos hasks]
    rfl
  · rw [if_neg hasks, if_pos (not_not.1 (mt v.keys_ne_nil_iff.1 hasks))]

theorem Visit.exists_named {s : Schema} {m : Model} {name : String} {r : Relation} {related : Model}
    (hm : m.relation? name = some r) (hs : s.model? r.target = some related) (returned : Returned) (path : String)
    (parents : List Entity) :
    ∃ v, Visit.named? s returned m path parents name = some v ∧ v.relation = r ∧ v.related = related ∧
      v.path = (if path = "" then name else path ++ "." ++ name) ∧ v.owner = m ∧ v.parents = parents ∧
        v.rows = returned [name] := by
  refine ⟨⟨r, related, if path = "" then name else path ++ "." ++ name, m, parents, returned [name]⟩, ?_, rfl, rfl,
    rfl, rfl, rfl, rfl⟩
  simp only [Visit.named?, hm, hs, Option.bind_eq_bind, Option.bind_some]
  rfl

namespace Includes

mutual

/-- The requests of the steps that a tree resolves to are those of its visits that have a value. -/
theorem requestsAll_resolve {s : Schema} (constraints : Constraints) :
    ∀ (tree : Includes) {m : Model} {path : String} {steps : List LoadStep} (returned : Returned)
      (parents : List Entity), tree.Distinct → Includes.resolve s m path tree = .ok steps →
        LoadStep.requestsAll constraints returned m parents steps =
          ((Includes.visits s returned m path parents tree).filter (·.Asks)).map (·.request constraints)
  | .node children, m, path, steps, returned, parents, hd, h => by
    obtain ⟨listed, hl, rfl⟩ := Includes.resolve_node h
    have hperm := m.perm_eagerOrderBy (·.relation.name) listed
    rw [LoadStep.requestsAll_eq_flatMap, Includes.visits, ← Includes.names_resolveAll hl, ← Model.map_eagerOrderBy,
      List.flatMap_map, List.filter_flatMap, List.map_flatMap]
    refine List.flatMap_congr fun step hstep => ?_
    obtain ⟨visits, hget, hrequests⟩ :=
      requests_resolveAll constraints children returned parents hd.1 hd.2 hl step (hperm.mem_iff.1 hstep)
    rw [hget, hrequests]
    rfl

theorem requests_resolveAll {s : Schema} (constraints : Constraints) :
    ∀ (children : List (String × Includes)) {m : Model} {path : String} {listed : List LoadStep} (returned : Returned)
      (parents : List Entity), (Assoc.names children).Nodup → Includes.EachDistinct children →
        Includes.resolveAll s m path children = .ok listed → ∀ step ∈ listed, ∃ visits,
          Assoc.get? (Includes.visitsEach s returned m path parents children) step.relation.name = some visits ∧
            step.requests constraints returned m parents = (visits.filter (·.Asks)).map (·.request constraints)
  | [], _, _, _, _, _, _, _, h, step, hstep => by
    rw [Includes.resolveAll_nil h] at hstep
    cases hstep
  | (name, tree) :: rest, m, path, listed, returned, parents, hn, hd, h, step, hstep => by
    obtain ⟨r, related, nested, more, hm, hs, htree, hr, rfl⟩ := Includes.resolveAll_cons_eq h
    obtain rfl := Model.name_of_relation? hm
    have hfresh : r.name ∉ Assoc.names rest := (List.nodup_cons.1 hn).1
    obtain ⟨v, hnamed, rfl, rfl, hpath, rfl, rfl, hrows⟩ := Visit.exists_named hm hs returned path parents
    rw [← hpath] at htree hstep
    rw [Includes.visitsEach, hnamed]
    rcases List.mem_cons.1 hstep with rfl | hstep
    · rw [Assoc.get?_cons, if_pos rfl]
      refine ⟨_, rfl, ?_⟩
      rw [v.requests_eq constraints returned hrows.symm]
      by_cases hasks : v.Asks
      · rw [if_pos hasks, List.filter_cons_of_pos (by simpa using hasks), List.map_cons,
          requestsAll_resolve constraints tree (returned.below v.relation.name) v.children hd.1 htree]
      · rw [if_neg hasks, List.filter_cons_of_neg (by simpa using hasks), Visit.children, if_neg hasks,
          List.filter_eq_nil_iff.2 fun v hv => by simpa using not_asks_visits tree v hv]
        rfl
    · have hne : v.relation.name ≠ step.relation.name := by
        intro he
        rw [he, ← Includes.names_resolveAll hr] at hfresh
        exact hfresh (List.mem_map_of_mem hstep)
      rw [Assoc.get?_cons, if_neg hne]
      exact requests_resolveAll constraints rest returned v.parents (List.nodup_cons.1 hn).2 hd.2 hr step hstep

end

mutual

/-- Loading comes to every name of the tree once. -/
theorem length_visits {s : Schema} :
    ∀ (tree : Includes) {m : Model} {path : String} {steps : List LoadStep} (returned : Returned)
      (parents : List Entity), tree.Distinct → Includes.resolve s m path tree = .ok steps →
        (Includes.visits s returned m path parents tree).length = tree.size
  | .node children, m, path, steps, returned, parents, hd, h => by
    obtain ⟨listed, hl, -⟩ := Includes.resolve_node h
    have hperm : (m.eagerOrder (Assoc.names children)).Perm (Assoc.names children) := m.perm_eagerOrderBy _ _
    rw [Includes.visits, (hperm.flatMap_right _).length_eq, Includes.size]
    exact length_visitsEach children returned parents hd.1 hd.2 hl

theorem length_visitsEach {s : Schema} :
    ∀ (children : List (String × Includes)) {m : Model} {path : String} {listed : List LoadStep} (returned : Returned)
      (parents : List Entity), (Assoc.names children).Nodup → Includes.EachDistinct children →
        Includes.resolveAll s m path children = .ok listed →
          ((Assoc.names children).flatMap fun name =>
            (Assoc.get? (Includes.visitsEach s returned m path parents children) name).getD []).length =
              Includes.sizeAll children
  | [], _, _, _, _, _, _, _, _ => rfl
  | (name, tree) :: rest, m, path, listed, returned, parents, hn, hd, h => by
    obtain ⟨r, related, nested, more, hm, hs, htree, hr, rfl⟩ := Includes.resolveAll_cons_eq h
    have hfresh : name ∉ Assoc.names rest := (List.nodup_cons.1 hn).1
    have hothers := length_visitsEach rest returned parents (List.nodup_cons.1 hn).2 hd.2 hr
    have hnames : Assoc.names ((name, tree) :: rest) = name :: Assoc.names rest := rfl
    obtain ⟨v, hnamed, -, rfl, hpath, -⟩ := Visit.exists_named hm hs returned path parents
    rw [← hpath] at htree
    have hkept : ∀ other ∈ Assoc.names rest,
        (Assoc.get? (Includes.visitsEach s returned m path parents ((name, tree) :: rest)) other).getD [] =
          (Assoc.get? (Includes.visitsEach s returned m path parents rest) other).getD [] := by
      intro other hother
      have hne : name ≠ other := fun he => hfresh (he ▸ hother)
      rw [Includes.visitsEach, Assoc.get?_cons, if_neg hne]
    rw [hnames, List.flatMap_cons, List.length_append, List.flatMap_congr hkept, hothers, Includes.visitsEach, hnamed,
      Assoc.get?_cons, if_pos rfl, Option.getD_some, List.length_cons, length_visits tree _ _ hd.1 htree,
      Includes.sizeAll, Nat.add_comm 1]

end

end Includes

/-! ## What is sent -/

/-- Refinements add predicates after the ones that are there. -/
def Constraints.KeepFilters (constraints : Constraints) : Prop :=
  ∀ path f, Assoc.get? constraints path = some f → ∀ q : Query, q.filters <+: (f q).filters

/-- The query of a visit: its first predicate is a membership in the keys, and the keys are the first values that it
binds.  A visit whose path has no refinement binds nothing else. -/
structure Visit.SentAs (d : Dialect) (constraints : Constraints) (v : Visit) (p : Prepared) : Prop where
  filters : ∃ q more, p.statement = .query q ∧ q.filters =
    ⟨.and, .isIn (v.relation.constrainedColumn v.related) (v.keys.map .value) false⟩ :: more
  bindings : ∃ more, p.bindings = v.keys.map (Token.binding d) ++ more ∧
    (Assoc.get? constraints v.path = none → more = [])

theorem Relation.filters_filterIn (r : Relation) (related : Model) (values : List Value) :
    ((r.baseQuery related).filterIn (r.constrainedColumn related) (values.map .value)).filters =
      [⟨.and, .isIn (r.constrainedColumn related) (values.map .value) false⟩] := by
  show (r.baseQuery related).filters ++ _ = _
  rw [r.filters_baseQuery]
  rfl

theorem Query.values_of_filters {q : Query} {connector : Connector} {column : Column} {values : List Value}
    {negated : Bool} {more : List Filter}
    (h : q.filters = ⟨connector, .isIn column (values.map .value) negated⟩ :: more) :
    ∃ rest, q.values = values ++ rest := by
  obtain ⟨source, columns, aggregate, joins, filters, groupings, havings, orderings, limit, offset, distinct⟩ := q
  obtain rfl : filters = _ := h
  refine ⟨Filter.listValues more ++ Filter.listValues havings, ?_⟩
  rw [Query.values, Filter.listValues, Predicate.values, List.filterMap_map, List.append_assoc]
  congr 1
  exact List.filterMap_some

theorem Visit.sentAs {d : Dialect} {constraints : Constraints} (hc : constraints.KeepFilters) {v : Visit} {p : Prepared}
    (hp : (Statement.query (v.request constraints).1).prepare d = .ok p) : v.SentAs d constraints p := by
  obtain ⟨sql, hsql⟩ := Query.prepare_eq_ok d (v.request constraints).1
  obtain rfl := Except.ok.inj (hsql.symm.trans hp)
  have hbase := v.relation.filters_filterIn v.related v.keys
  cases hg : Assoc.get? constraints v.path with
  | none =>
    have hq : (v.request constraints).1 = (v.relation.baseQuery v.related).filterIn
        (v.relation.constrainedColumn v.related) (v.keys.map .value) := by
      simp only [request, LoadStep.query, hg]
      rfl
    refine ⟨⟨_, [], rfl, by rw [hq, hbase]⟩, [], ?_, fun _ => rfl⟩
    rw [hq, Relation.values_filterIn, List.append_nil]
  | some f =>
    have hq : (v.request constraints).1 = f ((v.relation.baseQuery v.related).filterIn
        (v.relation.constrainedColumn v.related) (v.keys.map .value)) := by
      simp only [request, LoadStep.query, hg]
      rfl
    obtain ⟨more, hmore⟩ := hc v.path f hg ((v.relation.baseQuery v.related).filterIn
      (v.relation.constrainedColumn v.related) (v.keys.map .value))
    rw [hbase, List.singleton_append, ← hq] at hmore
    obtain ⟨rest, hrest⟩ := Query.values_of_filters hmore.symm
    refine ⟨⟨_, more, rfl, hmore.symm⟩, rest.map (Token.binding d), ?_, fun hn => by rw [hn] at hg; cases hg⟩
    rw [hrest, List.map_append]

/-- Queries that were asked are operations that were sent, in order. -/
theorem Db.Asked.exists_sent {σ : Type} {db : Db σ} {asked : List (Query × List Row)} {w w' : World σ}
    (h : db.Asked w asked w') :
    ∃ sent : List Prepared, w' = db.after w (sent.map fun p => .sent (.query p)) ∧
      List.Forall₂ (fun request p => (Statement.query request.1).prepare db.dialect = .ok p) asked sent := by
  induction h with
  | nil w => exact ⟨[], (db.after_nil w).symm, .nil⟩
  | @cons q rows rest w w₁ w₂ first others ih =>
    obtain ⟨sent, rfl, hsent⟩ := ih
    obtain ⟨p, key, c, hp, he, rfl⟩ := (db.returns_select).1 first
    have hw : (⟨c, w.events ++ [.sent (.query p)]⟩ : World σ) = db.after w [.sent (.query p)] := by
      rw [Db.after, Db.replay, Db.replay, he]
    refine ⟨p :: sent, ?_, .cons hp hsent⟩
    rw [hw, Db.after_after]
    rfl

/-- **One query for every relationship of the tree that some parent has a value for.**  A model query that returns has
sent its own query and, in the order of the visits, one query for every visit that asks, and nothing else.  So whatever
the number of rows, it sends one operation more than the tree has names at most. -/
theorem ModelQuery.get_sends {σ : Type} {db : Db σ} {mq : ModelQuery} {w w' : World σ} {entities : List Entity}
    (hd : mq.includes.Distinct) (hc : mq.constraints.KeepFilters) (h : Returns (mq.get db) w entities w') :
    ∃ (rows : List Row) (returned : Returned) (first : Prepared) (sent : List Prepared),
      let visits := mq.includes.visits db.schema returned mq.model "" (rows.map (Entity.ofRow mq.model))
      let asked := visits.filter (·.Asks)
      db.Asked w ((mq.query, rows) :: asked.map (·.request mq.constraints)) w' ∧
        w' = db.after w ((first :: sent).map fun p => .sent (.query p)) ∧
        first.statement = .query mq.query ∧ List.Forall₂ (Visit.SentAs db.dialect mq.constraints) asked sent ∧
        visits.length = mq.includes.size ∧ (first :: sent).length ≤ 1 + mq.includes.size := by
  obtain ⟨steps, rows, returned, hsteps, hasked, -⟩ := ModelQuery.get_loads hd h
  rw [Includes.requestsAll_resolve mq.constraints mq.includes returned _ hd hsteps] at hasked
  have hlength := Includes.length_visits mq.includes returned (rows.map (Entity.ofRow mq.model)) hd hsteps
  obtain ⟨ops, hw, hops⟩ := hasked.exists_sent
  cases hops with
  | @cons _ first _ sent hfirst hrest =>
    obtain ⟨sql, hsql⟩ := Query.prepare_eq_ok db.dialect mq.query
    obtain rfl := Except.ok.inj (hsql.symm.trans hfirst)
    have hsent := List.forall₂_map_left_iff.1 hrest
    refine ⟨rows, returned, _, sent, hasked, hw, rfl, hsent.imp fun _ _ hp => Visit.sentAs hc hp, hlength, ?_⟩
    have hle := List.length_filter_le (fun v : Visit => decide v.Asks)
      (mq.includes.visits db.schema returned mq.model "" (rows.map (Entity.ofRow mq.model)))
    rw [List.length_cons, ← hsent.length_eq, Nat.add_comm]
    omega

namespace Blog

/-- Users with those of their posts that have a title, and the tags of these. -/
def titledUsers : ModelQuery := users.withConstraint "posts" fun q => q.filterNotNull (.name "title")

theorem keepFilters_titledUsers : titledUsers.constraints.KeepFilters := by
  intro path f hf q
  have hcons : titledUsers.constraints = [("posts", fun q : Query => q.filterNotNull (.name "title"))] := rfl
  rw [hcons, Assoc.get?_cons] at hf
  split at hf
  · obtain rfl := Option.some.inj hf
    exact List.prefix_append _ _
  · cases hf

end Blog

/-- Two users with three posts take one query for the posts and one for the tags. -/
theorem get_sends_titledUsers :
    Blog.titledUsers.includes.Distinct ∧ Blog.titledUsers.constraints.KeepFilters ∧
      ∃ entities w', Returns (Blog.titledUsers.get (Blog.db Script.exec)) Blog.answers entities w' ∧
        ∃ (rows : List Row) (returned : Returned) (first : Prepared) (sent : List Prepared),
          let visits := Blog.titledUsers.includes.visits Blog.schema returned Blog.userModel ""
            (rows.map (Entity.ofRow Blog.userModel))
          w' = (Blog.db Script.exec).after Blog.answers ((first :: sent).map fun p => .sent (.query p)) ∧
            List.Forall₂ (Visit.SentAs .sqlite Blog.titledUsers.constraints) (visits.filter (·.Asks)) sent ∧
            visits.length = 2 ∧ (first :: sent).length ≤ 3 := by
  have hd : Blog.titledUsers.includes.Distinct :=
    (ModelQuery.distinct_withPaths Includes.distinct_empty ["posts.tags"]).insert "posts"
  obtain ⟨entities, w', hr⟩ :=
    exists_returns (x := Blog.titledUsers.get (Blog.db Script.exec)) (w := Blog.answers) (by decide +kernel)
  obtain ⟨rows, returned, first, sent, -, hw, -, hsent, hlength, hle⟩ :=
    ModelQuery.get_sends hd Blog.keepFilters_titledUsers hr
  have hsize : Blog.titledUsers.includes.size = 2 := by decide +kernel
  rw [hsize] at hlength hle
  exact ⟨hd, Blog.keepFilters_titledUsers, entities, w', hr, rows, returned, first, sent, hw, hsent, hlength, hle⟩

end SqlMapper
