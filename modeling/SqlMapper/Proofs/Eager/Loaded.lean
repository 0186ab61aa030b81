import Mathlib.Data.List.Forall2
import SqlMapper.Proofs.Eager.Forest
import SqlMapper.Session.Script
/-!
# Loaded — what a model query returns

`Includes.LoadedOn` says of a tree of names what an entity has to carry, without the order in which siblings are loaded
and without the queries.  A model query that returns has asked one query for its own rows and one for every
relationship below a row that has a value for it, and everything that it returns is loaded (`ModelQuery.get_loads`).
-/
namespace SqlMapper

mutual

/-- The entity has loaded the names of the tree and no others.  Under each name it has the rows that match its own value
in the column of the relationship, in the order in which they were returned: all of them, or the first for a to-one
relationship.  What was read from a row has loaded the names below. -/
def Includes.LoadedOn (s : Schema) (m : Model) (returned : Returned) (e : Entity) : Includes → Prop
  | .node children =>
    (Assoc.names e.relations).Perm (Assoc.names children) ∧ Includes.EachLoadedOn s m returned e children

def Includes.EachLoadedOn (s : Schema) (m : Model) (returned : Returned) (e : Entity) :
    List (String × Includes) → Prop
  | [] => True
  | (name, tree) :: rest =>
    (∃ r related kids,
      m.relation? name = some r ∧ s.model? r.target = some related ∧
      e.related? name = some (if r.link.isSingle then .one kids.head? else .many kids) ∧
      List.Forall₂ (fun row kid => r.Reads related row kid ∧
          Includes.LoadedOn s related (returned.below name) kid tree)
        (r.rowsFor related (returned [name]) (e.get? (r.parentColumn m))) kids) ∧
    Includes.EachLoadedOn s m returned e rest

end

/-! ## A parent with all steps attached -/

namespace LoadStep

variable {source : RowSource} {owner : Model}

theorem related?_attach (e : Entity) (step : LoadStep) (name : String) :
    (step.attach source owner e).related? name =
      if step.relation.name = name then some (step.relation.collect (step.kids source owner e)) else e.related? name := by
  rw [attach_eq]
  exact Assoc.get?_insert _ _ _ _

theorem related?_attachAll_of_not_mem {name : String} :
    ∀ {steps : List LoadStep} {e : Entity}, name ∉ steps.map (·.relation.name) →
      (attachAll source owner e steps).related? name = e.related? name
  | [], _, _ => rfl
  | step :: rest, e, h => by
    rw [List.map_cons, List.mem_cons, not_or] at h
    rw [attachAll, related?_attachAll_of_not_mem h.2, related?_attach, if_neg (Ne.symm h.1)]

theorem related?_attachAll {step : LoadStep} :
    ∀ {steps : List LoadStep} {e : Entity}, (steps.map (·.relation.name)).Nodup → step ∈ steps →
      (attachAll source owner e steps).related? step.relation.name =
        some (step.relation.collect (step.kids source owner e))
  | [], _, _, h => by cases h
  | first :: rest, e, hn, h => by
    rw [List.map_cons, List.nodup_cons] at hn
    rw [attachAll]
    rcases List.mem_cons.1 h with rfl | h
    · rw [related?_attachAll_of_not_mem hn.1, related?_attach, if_pos rfl]
    · rw [related?_attachAll hn.2 h, kids_of_sameRow (sameRow_attach source owner e first)]

theorem names_attachAll :
    ∀ {steps : List LoadStep} {e : Entity}, (Assoc.names e.relations ++ steps.map (·.relation.name)).Nodup →
      Assoc.names (attachAll source owner e steps).relations = Assoc.names e.relations ++ steps.map (·.relation.name)
  | [], _, _ => (List.append_nil _).symm
  | step :: rest, e, h => by
    have hnew : step.relation.name ∉ Assoc.names e.relations := fun hm =>
      (List.nodup_append.1 h).2.2 _ hm _ List.mem_cons_self rfl
    have hnames : Assoc.names (step.attach source owner e).relations =
        Assoc.names e.relations ++ [step.relation.name] := by
      rw [attach_eq, Entity.setRelated, Assoc.names_insert, if_neg hnew]
    rw [attachAll, names_attachAll (by rw [hnames]; simpa using h), hnames]
    simp

end LoadStep

/-! ## A tree loaded on an entity -/

namespace Includes

mutual

theorem loadedOn_attachAll {s : Schema} :
    ∀ (tree : Includes) {m : Model} {path : String} {steps : List LoadStep} (returned : Returned) (e : Entity),
      tree.Distinct → Includes.resolve s m path tree = .ok steps → e.relations = [] →
        Includes.LoadedOn s m returned (LoadStep.attachAll returned.source m e steps) tree
  | .node children, m, path, steps, returned, e, hd, h, hfresh => by
    have hnodup := (LoadStep.allDistinct_iff.1 (Includes.allDistinct_resolve _ hd h)).1
    obtain ⟨listed, hl, rfl⟩ := Includes.resolve_node h
    have hperm := m.perm_eagerOrderBy (·.relation.name) listed
    refine ⟨?_, eachLoadedOn_attachAll children returned _ hd.2 hl fun step hs => ?_⟩
    · rw [LoadStep.names_attachAll (by simpa [hfresh, Assoc.names] using hnodup), hfresh, ← Includes.names_resolveAll hl]
      exact hperm.map _
    · have hsame := LoadStep.sameRow_attachAll returned.source m (m.eagerOrderBy (·.relation.name) listed) e
      rw [LoadStep.related?_attachAll hnodup (hperm.mem_iff.2 hs), LoadStep.kids_of_sameRow hsame]

theorem eachLoadedOn_attachAll {s : Schema} :
    ∀ (children : List (String × Includes)) {m : Model} {path : String} {listed : List LoadStep} (returned : Returned)
      (e : Entity), Includes.EachDistinct children → Includes.resolveAll s m path children = .ok listed →
        (∀ step ∈ listed, e.related? step.relation.name =
          some (step.relation.collect (step.kids returned.source m e))) →
          Includes.EachLoadedOn s m returned e children
  | [], _, _, _, _, _, _, _, _ => trivial
  | (name, tree) :: rest, m, path, listed, returned, e, hd, h, hloaded => by
    obtain ⟨step, more, hm, hs, hn, hr, rfl⟩ := Includes.resolveAll_cons h
    obtain rfl := Model.name_of_relation? hm
    have hrows : returned.source [step.relation.name] step.relation step.related = returned [step.relation.name] := rfl
    refine ⟨⟨step.relation, step.related, step.kids returned.source m e, hm, hs, ?_, ?_⟩, ?_⟩
    · rw [hloaded step List.mem_cons_self]
      rfl
    · rw [LoadStep.kids, hrows, List.forall₂_map_right_iff, List.forall₂_same]
      intro row _
      have hsame := LoadStep.sameRow_attachAll (returned.source.below step.relation.name) step.related step.nested
        (step.relation.hydrate step.related row)
      refine ⟨hsame.reads (step.relation.reads_hydrate step.related row), ?_⟩
      exact loadedOn_attachAll tree (returned.below step.relation.name) _ hd.1 hn
        (step.relation.relations_hydrate step.related row)
    · exact eachLoadedOn_attachAll rest returned e hd.2 hr fun step hs => hloaded step (List.mem_cons_of_mem _ hs)

end

end Includes

/-! ## Model queries -/

theorem ModelQuery.distinct_withPaths {mq : ModelQuery} (h : mq.includes.Distinct) (paths : List String) :
    (mq.withPaths paths).includes.Distinct := by
  show (paths.foldl Includes.insert mq.includes).Distinct
  generalize mq.includes = tree at h
  induction paths generalizing tree with
  | nil => exact h
  | cons path paths ih => exact ih (tree.insert path) (h.insert path)

/-- **Loading is matching by key.**  A model query that returns has sent its own query and the requests of the resolved
steps, one for every relationship that some parent has a value for, and nothing else.  It returns one entity for every
row, in order, stored and clean, and on every entity it has loaded the tree of names with the rows that match. -/
theorem ModelQuery.get_loads {σ : Type} {db : Db σ} {mq : ModelQuery} {w w' : World σ} {entities : List Entity}
    (hd : mq.includes.Distinct) (h : Returns (mq.get db) w entities w') :
    ∃ (steps : List LoadStep) (rows : List Row) (returned : Returned),
      mq.includes.resolve db.schema mq.model "" = .ok steps ∧
      db.Asked w ((mq.query, rows) ::
        LoadStep.requestsAll mq.constraints returned mq.model (rows.map (Entity.ofRow mq.model)) steps) w' ∧
      List.Forall₂ (fun row e => e.IsRow mq.model row ∧ e.pivot = none ∧
        mq.includes.LoadedOn db.schema mq.model returned e) rows entities := by
  obtain ⟨steps, w₁, hl, hload⟩ := returns_bind.1 h
  obtain ⟨hsteps, rfl⟩ := returns_lift.1 hl
  obtain ⟨rows, w₂, hs, hr⟩ := returns_bind.1 hload
  obtain ⟨returned, hasked, rfl⟩ :=
    LoadStep.runAll_returns mq.model _ steps (Includes.allDistinct_resolve _ hd hsteps) hr
  refine ⟨steps, rows, returned, hsteps, .cons hs hasked, ?_⟩
  rw [List.map_map, List.forall₂_map_right_iff, List.forall₂_same]
  intro row _
  have hsame := LoadStep.sameRow_attachAll returned.source mq.model steps (Entity.ofRow mq.model row)
  refine ⟨(Entity.isRow_ofRow mq.model row).of_eq hsame.model hsame.attributes hsame.snapshot hsame.stored,
    hsame.pivot, ?_⟩
  exact mq.includes.loadedOn_attachAll returned _ hd hsteps rfl

/-! ## A blog -/

namespace Blog

def schema : Schema where
  models :=
    [(Model.conventional 0 "user").declare ⟨"posts", 1, .hasMany "user_id", []⟩,
      (Model.conventional 1 "post").declare ⟨"tags", 2, .manyToMany ⟨"post_tags", "post_id", "tag_id", ["weight"]⟩, []⟩,
      Model.conventional 2 "tag"]
  positional := by decide
  verified := by decide +kernel

def userModel : Model := schema.models.get ⟨0, by decide⟩

def postModel : Model := schema.models.get ⟨1, by decide⟩

def tagModel : Model := schema.models.get ⟨2, by decide⟩

/-- A handle on the blog, for any connection. -/
def db {σ : Type} (exec : Operation → σ → Except Error Response × σ) : Db σ where
  schema := schema
  hooks := []
  dialect := .sqlite
  insertReturning := false
  exec := exec
  now := .ofUnixSeconds 0

def user (id : Int64) : Row := .ofList [("id", .int id)]

def post (id user : Int64) : Row := .ofList [("id", .int id), ("user_id", .int user)]

/-- A tag as it is read with the row that joins it with a post. -/
def tag (id post : Int64) : Row :=
  .ofList [("id", .int id), ("pivot_post_id", .int post), ("pivot_tag_id", .int id), ("pivot_weight", .null)]

def answers : World Script where
  connection :=
    { replies := [[user 1, user 2], [post 5 2, post 6 1, post 7 2], [tag 3 7, tag 3 5, tag 4 7]].map fun rows =>
        .answer ⟨.rows rows, none⟩
      generated := 0 }
  events := []

def users : ModelQuery := (ModelQuery.all userModel).withPaths ["posts.tags"]

end Blog

theorem get_loads_users :
    Blog.users.includes.Distinct ∧
      ∃ entities w', Returns (Blog.users.get (Blog.db Script.exec)) Blog.answers entities w' ∧
        ∃ rows returned, List.Forall₂ (fun row e => e.IsRow Blog.users.model row ∧ e.pivot = none ∧
          Blog.users.includes.LoadedOn Blog.schema Blog.users.model returned e) rows entities := by
  have hd : Blog.users.includes.Distinct := ModelQuery.distinct_withPaths Includes.distinct_empty ["posts.tags"]
  obtain ⟨entities, w', hr⟩ :=
    exists_returns (x := Blog.users.get (Blog.db Script.exec)) (w := Blog.answers) (by decide +kernel)
  obtain ⟨steps, rows, returned, -, -, hloaded⟩ := ModelQuery.get_loads hd hr
  exact ⟨hd, entities, w', hr, rows, returned, hloaded⟩

end SqlMapper
