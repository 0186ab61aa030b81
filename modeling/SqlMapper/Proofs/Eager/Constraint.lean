import SqlMapper.Proofs.Eager.Lazy
import SqlMapper.Proofs.Eager.Paths
import SqlMapper.Proofs.Session.Trace
/-!
# Constraint — which queries a refinement is applied to

A model query keeps a refinement under the path that the caller wrote, and loading looks it up under the path that it
writes itself.  Both name the relationship, but only the second has no empty names.  So a refinement is applied to the
queries of its own relationship and to no others, unless the caller's path has an empty name: then it is applied to none,
although the relationship is loaded (`ModelQuery.get_applies`).
-/
namespace SqlMapper

open Includes (pathNames pathFrom IsName HoldsNames)

/-! ## What is sent for a relationship -/

namespace LoadStep

/-- The query that loads the step for some values. -/
def queryFor (step : LoadStep) (constraints : Constraints) (values : List Value) : Query :=
  query step.relation step.related step.path constraints values

theorem queryFor_eq (step : LoadStep) (constraints : Constraints) (values : List Value) :
    step.queryFor constraints values = ((Assoc.get? constraints step.path).getD id) (step.queryFor [] values) :=
  rfl

theorem queryFor_congr {step : LoadStep} {constraints constraints' : Constraints}
    (h : Assoc.get? constraints step.path = Assoc.get? constraints' step.path) (values : List Value) :
    step.queryFor constraints values = step.queryFor constraints' values := by
  rw [queryFor_eq, h, ← queryFor_eq]

/-- The operation is a query that loads one of the steps, or one of those below them. -/
def Loads (d : Dialect) (constraints : Constraints) (steps : List LoadStep) (op : Operation) : Prop :=
  ∃ names step values p, Leads steps names step ∧
    (Statement.query (step.queryFor constraints values)).prepare d = .ok p ∧ op = .query p

theorem Loads.mono {d : Dialect} {constraints : Constraints} {steps steps' : List LoadStep} {op : Operation}
    (h : ∀ step ∈ steps, step ∈ steps') (hop : Loads d constraints steps op) : Loads d constraints steps' op := by
  obtain ⟨names, step, values, p, hl, hp, rfl⟩ := hop
  cases hl with
  | top hm => exact ⟨_, _, values, p, .top (h _ hm), hp, rfl⟩
  | deeper hm hinner => exact ⟨_, _, values, p, .deeper (h _ hm) hinner, hp, rfl⟩

theorem Loads.deeper {d : Dialect} {constraints : Constraints} {step : LoadStep} {op : Operation}
    (hop : Loads d constraints step.nested op) : Loads d constraints [step] op := by
  obtain ⟨names, inner, values, p, hl, hp, rfl⟩ := hop
  exact ⟨_, inner, values, p, .deeper List.mem_cons_self hl, hp, rfl⟩

section

variable {σ : Type} {db : Db σ}

theorem sends_fetch (constraints : Constraints) (step : LoadStep) (values : List Value) :
    db.Sends (Loads db.dialect constraints [step])
      (fetch db constraints step.relation step.related step.path values) := by
  unfold fetch
  split
  · exact Db.sends_pure _
  · refine (Db.sends_select fun p hp => ?_).bind fun _ => Db.sends_pure _
    exact ⟨_, step, values, p, .top List.mem_cons_self, hp, rfl⟩

mutual

theorem sends_run (constraints : Constraints) (owner : Model) :
    ∀ (step : LoadStep) (parents : List Entity),
      db.Sends (Loads db.dialect constraints [step]) (run db constraints owner parents step)
  | ⟨r, related, path, nested⟩, parents => by
    rw [run]
    refine (sends_fetch constraints ⟨r, related, path, nested⟩ _).bind fun children => ?_
    exact ((sends_runAll constraints related nested children).mono fun _ hop => hop.deeper).bind fun _ => Db.sends_pure _

/-- Loading sends queries that load the steps, and nothing else, whether it succeeds or not. -/
theorem sends_runAll (constraints : Constraints) (owner : Model) :
    ∀ (steps : List LoadStep) (parents : List Entity),
      db.Sends (Loads db.dialect constraints steps) (runAll db constraints owner parents steps)
  | [], _ => Db.sends_pure _
  | step :: rest, parents => by
    rw [runAll]
    have hfirst : ∀ s ∈ [step], s ∈ step :: rest := List.forall_mem_singleton.2 List.mem_cons_self
    refine ((sends_run constraints owner step parents).mono fun _ hop => hop.mono hfirst).bind fun loaded => ?_
    exact (sends_runAll constraints owner rest loaded).mono fun _ hop => hop.mono fun _ hm => List.mem_cons_of_mem _ hm

end

end

end LoadStep

/-! ## Building a model query -/

/-- A call that refines a model query; the calls that filter, order and cut its rows are scopes. -/
inductive Refinement where
  | scope (f : Query → Query)
  | withPaths (paths : List String)
  | withConstraint (path : String) (f : Query → Query)

namespace ModelQuery

def refine (mq : ModelQuery) : Refinement → ModelQuery
  | .scope f => mq.scope f
  | .withPaths paths => mq.withPaths paths
  | .withConstraint path f => mq.withConstraint path f

def refineAll (mq : ModelQuery) (calls : List Refinement) : ModelQuery := calls.foldl refine mq

/-- What holds of a tree and is kept by adding paths holds of the tree of a refined query. -/
theorem includes_refineAll {P : Includes → Prop} (hinsert : ∀ tree path, P tree → P (tree.insert path)) :
    ∀ (calls : List Refinement) (mq : ModelQuery), P mq.includes → P (mq.refineAll calls).includes
  | [], _, h => h
  | call :: calls, mq, h => by
    refine includes_refineAll hinsert calls (mq.refine call) ?_
    cases call with
    | scope f => exact h
    | withPaths paths =>
      show P (paths.foldl Includes.insert mq.includes)
      exact List.foldlRecOn paths Includes.insert h fun tree ht path _ => hinsert tree path ht
    | withConstraint path f => exact hinsert _ _ h

/-- The queries differ at most in the refinement of one path. -/
structure AgreesBeside (path : String) (mq mq' : ModelQuery) : Prop where
  model : mq.model = mq'.model
  query : mq.query = mq'.query
  includes : mq.includes = mq'.includes
  constraints : ∀ other, other ≠ path → Assoc.get? mq.constraints other = Assoc.get? mq'.constraints other

theorem AgreesBeside.refine {path : String} {mq mq' : ModelQuery} (h : AgreesBeside path mq mq') (call : Refinement) :
    AgreesBeside path (mq.refine call) (mq'.refine call) := by
  cases call with
  | scope f => exact ⟨h.model, congrArg f h.query, h.includes, h.constraints⟩
  | withPaths paths => exact ⟨h.model, h.query, congrArg (paths.foldl Includes.insert) h.includes, h.constraints⟩
  | withConstraint p f =>
    refine ⟨h.model, h.query, congrArg (·.insert p) h.includes, fun other hne => ?_⟩
    show Assoc.get? (Assoc.insert p f mq.constraints) other = Assoc.get? (Assoc.insert p f mq'.constraints) other
    rw [Assoc.get?_insert, Assoc.get?_insert, h.constraints other hne]

theorem AgreesBeside.refineAll {path : String} :
    ∀ (calls : List Refinement) {mq mq' : ModelQuery}, AgreesBeside path mq mq' →
      AgreesBeside path (mq.refineAll calls) (mq'.refineAll calls)
  | [], _, _, h => h
  | call :: calls, _, _, h => AgreesBeside.refineAll calls (h.refine call)

/-- A refinement stays until the same path is refined again. -/
theorem constraint_refineAll {path : String} {f : Query → Query} :
    ∀ {calls : List Refinement} {mq : ModelQuery}, (∀ g, .withConstraint path g ∉ calls) →
      Assoc.get? mq.constraints path = some f → Assoc.get? (mq.refineAll calls).constraints path = some f
  | [], _, _, h => h
  | call :: calls, mq, hcalls, h => by
    have hlater : ∀ g, .withConstraint path g ∉ calls := fun g hm => hcalls g (List.mem_cons_of_mem _ hm)
    show Assoc.get? ((mq.refine call).refineAll calls).constraints path = some f
    refine constraint_refineAll hlater ?_
    cases call with
    | scope g => exact h
    | withPaths paths => exact h
    | withConstraint p g =>
      have hne : p ≠ path := by
        rintro rfl
        exact hcalls g List.mem_cons_self
      show Assoc.get? (Assoc.insert p g mq.constraints) path = some f
      rw [Assoc.get?_insert, if_neg hne]
      exact h

/-! ## Running it -/

section

variable {σ : Type} {db : Db σ} (mq : ModelQuery)

/-- The operation is the query for the entities themselves, or a query that loads a relationship of the tree. -/
def Sent (db : Db σ) (op : Operation) : Prop :=
  ∃ steps, mq.includes.resolve db.schema mq.model "" = .ok steps ∧
    ((∃ p, (Statement.query mq.query).prepare db.dialect = .ok p ∧ op = .query p) ∨
      LoadStep.Loads db.dialect mq.constraints steps op)

/-- Whether it succeeds or not, a model query sends its own query and those of its relationships, and nothing else. -/
theorem sends_get : db.Sends (mq.Sent db) (mq.get db) := by
  intro w
  unfold get
  rw [run_bind, run_lift]
  cases hsteps : mq.includes.resolve db.schema mq.model "" with
  | error e => exact ⟨[], List.forall_mem_nil _, (db.after_nil w).symm⟩
  | ok steps =>
    have hown : db.Sends (mq.Sent db) (db.select mq.query) :=
      Db.sends_select fun p hp => ⟨steps, hsteps, .inl ⟨p, hp, rfl⟩⟩
    refine hown.bind (fun rows => ?_) w
    exact (LoadStep.sends_runAll mq.constraints mq.model steps _).mono fun op hop => ⟨steps, hsteps, .inr hop⟩

end

/-- **A refinement is applied to the queries of the relationship that its path asks for, if the path has no empty name.**
The relationship is loaded in any case, once.  Whatever is done to the model query before and after, all else that the
model query sends is as if the relationship had been asked for without the refinement; with an empty name in the path,
this is all that it sends. -/
theorem get_applies {σ : Type} (db : Db σ) (m : Model) (before later : List Refinement) (path : String)
    (f : Query → Query) (hname : pathNames path ≠ [])
    (hlater : ∀ p g, .withConstraint p g ∈ later → pathNames p ≠ pathNames path) {steps : List LoadStep} :
    let start := (ModelQuery.all m).refineAll before
    let mq := (start.withConstraint path f).refineAll later
    let plain := (start.withPaths [path]).refineAll later
    mq.includes.resolve db.schema mq.model "" = .ok steps →
      (plain.model = mq.model ∧ plain.query = mq.query ∧ plain.includes = mq.includes) ∧
      db.Sends (mq.Sent db) (mq.get db) ∧
      (∃! node, LoadStep.Leads steps (pathNames path) node) ∧
      ∀ names step values, LoadStep.Leads steps names step →
        step.queryFor mq.constraints values =
          if names = pathNames path ∧ "" ∉ splitAtChar '.' path then f (step.queryFor [] values)
          else step.queryFor plain.constraints values := by
  intro start mq plain hsteps
  have hagrees : AgreesBeside path mq plain := by
    refine AgreesBeside.refineAll later ⟨rfl, rfl, rfl, fun other hne => ?_⟩
    show Assoc.get? (Assoc.insert path f start.constraints) other = _
    rw [Assoc.get?_insert, if_neg hne.symm]
    rfl
  have hf : Assoc.get? mq.constraints path = some f := by
    refine constraint_refineAll (fun g hm => hlater path g hm rfl) ?_
    show Assoc.get? (Assoc.insert path f start.constraints) path = some f
    rw [Assoc.get?_insert, if_pos rfl]
  have hstart : start.includes.Distinct ∧ start.includes.HoldsNames :=
    includes_refineAll (P := fun tree => tree.Distinct ∧ tree.HoldsNames)
      (fun tree p h => ⟨h.1.insert p, h.2.insert p⟩) before _ ⟨Includes.distinct_empty, Includes.holdsNames_empty⟩
  obtain ⟨hd, hholds, hhas⟩ : mq.includes.Distinct ∧ mq.includes.HoldsNames ∧ mq.includes.Has (pathNames path) := by
    refine includes_refineAll (P := fun tree => tree.Distinct ∧ tree.HoldsNames ∧ tree.Has (pathNames path))
      (fun tree p h => ⟨h.1.insert p, h.2.1.insert p, (Includes.has_insert_iff tree p _).2 (.inr h.2.2)⟩) later _ ?_
    exact ⟨hstart.1.insert path, hstart.2.insert path, (Includes.has_insert_iff _ path _).2 (.inl List.prefix_rfl)⟩
  have hdistinct := Includes.allDistinct_resolve _ hd hsteps
  obtain ⟨node, hnode⟩ := Includes.exists_leads hname hhas hsteps
  refine ⟨⟨hagrees.model.symm, hagrees.query.symm, hagrees.includes.symm⟩, mq.sends_get,
    ⟨node, hnode, fun step hstep => hstep.unique hnode hdistinct⟩, fun names step values hleads => ?_⟩
  have hnames := hholds names (Includes.has_of_leads hleads hd hsteps)
  have hpath := hleads.path_eq (Includes.allPathed_resolve _ hsteps)
  have hsame : names = pathNames path ∧ "" ∉ splitAtChar '.' path ↔ step.path = path := by
    rw [hpath, ← Includes.pathFrom_pathNames_iff hname]
    constructor
    · rintro ⟨rfl, h⟩
      exact h
    · intro h
      have hread : names = pathNames path := by rw [← h, Includes.pathNames_pathFrom hnames]
      exact ⟨hread, hread ▸ h⟩
  by_cases hs : step.path = path
  · rw [if_pos (hsame.2 hs), LoadStep.queryFor_eq, hs, hf]
    rfl
  · rw [if_neg (mt hsame.1 hs)]
    exact LoadStep.queryFor_congr (hagrees.constraints _ hs) values

end ModelQuery

/-! ## A refinement of the posts of users -/

namespace Blog

def recent : Query → Query := fun q => q.filterOp (.name "id") .gt (.value (.int 4))

/-- Users with those of their posts that are recent, under some path. -/
def recentUsers (path : String) : ModelQuery := (ModelQuery.all userModel).withConstraint path recent

def sentSql (w : World Script) : List String :=
  w.events.filterMap fun event =>
    match event with
    | .sent (.query p) => some p.sql
    | _ => none

end Blog

theorem get_applies_recentUsers :
    (∃! node, LoadStep.Leads [Blog.postsStep []] ["posts"] node) ∧
      (Blog.postsStep []).queryFor (Blog.recentUsers "posts").constraints [.int 1] =
        Blog.recent ((Blog.postsStep []).queryFor [] [.int 1]) ∧
      (Blog.postsStep []).queryFor (Blog.recentUsers "posts.").constraints [.int 1] =
        (Blog.postsStep []).queryFor [] [.int 1] := by
  have hresolve : ((Includes.empty.insert "posts").resolve Blog.schema Blog.userModel "") = .ok [Blog.postsStep []] :=
    Includes.resolve_single rfl rfl (Includes.resolve_empty _ _ _)
  have hleads : LoadStep.Leads [Blog.postsStep []] ["posts"] (Blog.postsStep []) := .top List.mem_cons_self
  obtain ⟨-, -, hnode, happlied⟩ := ModelQuery.get_applies (Blog.db Script.exec) Blog.userModel [] [] "posts"
    Blog.recent (by decide) (fun p g hm => absurd hm List.not_mem_nil) hresolve
  obtain ⟨-, -, -, hunapplied⟩ := ModelQuery.get_applies (Blog.db Script.exec) Blog.userModel [] [] "posts."
    Blog.recent (by decide) (fun p g hm => absurd hm List.not_mem_nil) hresolve
  have hposts := happlied ["posts"] _ [.int 1] hleads
  have htrailing := hunapplied ["posts"] _ [.int 1] hleads
  rw [if_pos ⟨by decide, by decide⟩] at hposts
  rw [if_neg (fun h => h.2 (by decide))] at htrailing
  exact ⟨hnode, hposts, htrailing⟩

/-- **A refinement under a path with an empty name is lost.**  The path asks for the posts, and the posts are loaded, but
by a query without the refinement. -/
theorem not_applied_trailing :
    Includes.pathNames "posts." = ["posts"] ∧
      (Blog.recentUsers "posts.").includes = (Blog.recentUsers "posts").includes ∧
      Blog.sentSql ((Blog.recentUsers "posts.").get (Blog.db Script.exec) |>.run.run Blog.answers).2 =
        ["SELECT * FROM \"users\"", "SELECT * FROM \"posts\" WHERE \"posts\".\"user_id\" IN (?1, ?2)"] ∧
      Blog.sentSql ((Blog.recentUsers "posts").get (Blog.db Script.exec) |>.run.run Blog.answers).2 =
        ["SELECT * FROM \"users\"", "SELECT * FROM \"posts\" WHERE \"posts\".\"user_id\" IN (?1, ?2) AND \"id\" > ?3"] :=
  ⟨by decide, rfl, by decide +kernel, by decide +kernel⟩

end SqlMapper
