import SqlMapper.Proofs.Eager.Requested
/-!
# Checked — names are looked up before anything is sent

A model query looks up all relationships that it is asked for before it sends anything.  Looked up one at a time, each
when it is its turn to be loaded, a name that is not declared would be found after other queries, or not at all where
there is no parent to load it for.  It is found first, whatever the rows: a model query refuses its names exactly when one
of its paths comes to a model that does not declare the next one (`ModelQuery.names_checked_first`).  And if it does not,
the lookups on the way all succeed, so that loading fails only where the connection does.
-/
namespace SqlMapper

/-! ## Names that stray -/

namespace Schema

variable {s : Schema}

/-- Walked from the first model, each through the relationship that is declared under it, the names come to the second
model and to a name that it does not declare. -/
inductive Strays (s : Schema) : Model → List String → Model → String → Prop where
  | here {m : Model} {name : String} {rest : List String} (h : m.relation? name = none) :
    Strays s m (name :: rest) m name
  | further {m related owner : Model} {r : Relation} {name stray : String} {rest : List String}
    (hr : m.relation? name = some r) (ht : s.model? r.target = some related) (h : Strays s related rest owner stray) :
    Strays s m (name :: rest) owner stray

theorem Strays.of_prefix {m owner : Model} {names : List String} {stray : String} (h : s.Strays m names owner stray) :
    ∀ {longer : List String}, names <+: longer → s.Strays m longer owner stray := by
  induction h with
  | here h =>
    rintro _ ⟨behind, rfl⟩
    exact .here h
  | further hr ht _ ih =>
    rintro _ ⟨behind, rfl⟩
    exact .further hr ht (ih (List.prefix_append _ _))

end Schema

namespace Includes

variable {s : Schema}

/-! ## Resolving fails on strays -/

mutual

/-- What resolving a tree fails with is a name of the tree that strays. -/
theorem strays_of_resolve_error :
    ∀ (tree : Includes) {m : Model} {path : String} {e : Error}, m ∈ s.models → tree.Distinct →
      resolve s m path tree = .error e → ∃ names owner stray, Has names tree ∧ s.Strays m names owner stray ∧
        e = .ofCause (.unknownRelationship owner.name stray)
  | .node children, m, path, e, hm, hd, h => by
    rw [resolve] at h
    cases hr : resolveAll s m path children with
    | ok listed =>
      rw [hr] at h
      cases h
    | error e' =>
      rw [hr] at h
      cases h
      obtain ⟨child, hchild, names, owner, stray, hhas, hstrays, he⟩ :=
        strays_of_resolveAll_error children hm hd.2 hr
      exact ⟨child.1 :: names, owner, stray, ⟨child.2, Assoc.get?_of_mem hd.1 hchild, hhas⟩, hstrays, he⟩

theorem strays_of_resolveAll_error :
    ∀ (children : List (String × Includes)) {m : Model} {path : String} {e : Error}, m ∈ s.models →
      EachDistinct children → resolveAll s m path children = .error e →
        ∃ child ∈ children, ∃ names owner stray, Has names child.2 ∧ s.Strays m (child.1 :: names) owner stray ∧
          e = .ofCause (.unknownRelationship owner.name stray)
  | [], _, _, _, _, _, h => by cases h
  | (name, tree) :: rest, m, path, e, hm, hd, h => by
    rw [resolveAll] at h
    cases hr : m.relation? name with
    | none =>
      have hrelation : m.relation name = .error (Cause.unknownRelationship m.name name) := by
        rw [Model.relation, hr]
      rw [hrelation] at h
      cases h
      exact ⟨_, List.mem_cons_self, [], m, name, trivial, .here hr, rfl⟩
    | some r =>
      obtain ⟨related, ht⟩ := s.exists_model? hm (Model.mem_of_relation? hr)
      rw [Model.relation_eq_ok_iff.2 hr] at h
      simp only [bind, Except.bind, Schema.related_eq_ok_iff.2 ht] at h
      cases hn : resolve s related (if path = "" then name else path ++ "." ++ name) tree with
      | error e' =>
        rw [hn] at h
        cases h
        obtain ⟨names, owner, stray, hhas, hstrays, he⟩ :=
          strays_of_resolve_error tree (Schema.mem_of_model? ht) hd.1 hn
        exact ⟨_, List.mem_cons_self, names, owner, stray, hhas, .further hr ht hstrays, he⟩
      | ok nested =>
        cases hrest : resolveAll s m path rest with
        | error e' =>
          rw [hn, hrest] at h
          cases h
          obtain ⟨child, hchild, hfound⟩ := strays_of_resolveAll_error rest hm hd.2 hrest
          exact ⟨child, List.mem_cons_of_mem _ hchild, hfound⟩
        | ok more =>
          rw [hn, hrest] at h
          cases h

end

/-- No names of a tree that resolves stray. -/
theorem not_strays_of_resolve {owner : Model} {stray : String} :
    ∀ {names : List String} {tree : Includes} {m : Model} {path : String} {steps : List LoadStep}, Has names tree →
      resolve s m path tree = .ok steps → ¬ s.Strays m names owner stray
  | [], _, _, _, _, _, _ => nofun
  | name :: rest, .node children, m, path, steps, ⟨below, hget, hbelow⟩, h => by
    obtain ⟨listed, hl, rfl⟩ := resolve_node h
    obtain ⟨step, -, hr, ht, hn⟩ := resolveAll_child hl hget
    rintro (hnone | ⟨hr', ht', hstrays⟩)
    · rw [hr] at hnone
      cases hnone
    · rw [hr] at hr'
      cases hr'
      rw [ht] at ht'
      cases ht'
      exact not_strays_of_resolve hbelow hn hstrays

/-! ## Looking up on the way -/

section

variable {σ : Type} (db : Db σ) (constraints : Constraints)

mutual

/-- Loads a tree onto parents, and looks up every relationship when it is its turn. -/
def load (m : Model) (path : String) : Includes → List Entity → Action σ (List Entity)
  | .node children, parents =>
    if parents = [] then pure [] else
    (m.eagerOrderBy Prod.fst (loaders m path children)).foldlM (fun parents loader => loader.2 parents) parents

/-- What loads each of the children, under its name. -/
def loaders (m : Model) (path : String) :
    List (String × Includes) → List (String × (List Entity → Action σ (List Entity)))
  | [] => []
  | (name, tree) :: rest =>
    let loader := fun parents => do
      let r ← m.relation name
      let related ← db.schema.related r
      let column := r.parentColumn m
      let values := LoadStep.parentValues column parents
      let children ← LoadStep.fetch db constraints r related (pathBelow path name) values
      let children ← load related (pathBelow path name) tree children
      pure (parents.map (LoadStep.assign r related column children))
    (name, loader) :: loaders m path rest

end

variable {db constraints}

theorem foldlM_run (m : Model) (steps : List LoadStep) (parents : List Entity) :
    (steps.map fun step => (step.relation.name, fun parents => LoadStep.run db constraints m parents step)).foldlM
      (fun parents loader => loader.2 parents) parents = LoadStep.runAll db constraints m parents steps := by
  induction steps generalizing parents with
  | nil => rfl
  | cons step rest ih =>
    rw [List.map_cons, List.foldlM_cons, LoadStep.runAll]
    exact congrArg _ (funext ih)

mutual

/-- **If all names are found beforehand, nothing is different on the way.** -/
theorem load_eq_runAll :
    ∀ (tree : Includes) {m : Model} {path : String} {steps : List LoadStep} (parents : List Entity),
      resolve db.schema m path tree = .ok steps →
        load db constraints m path tree parents = LoadStep.runAll db constraints m parents steps
  | .node children, m, path, steps, parents, h => by
    obtain ⟨listed, hl, rfl⟩ := resolve_node h
    rw [load]
    split
    · rename_i hnone
      rw [hnone, LoadStep.runAll_nil]
    · rw [loaders_eq_runs children hl, Model.eagerOrderBy_map, foldlM_run]

theorem loaders_eq_runs :
    ∀ (children : List (String × Includes)) {m : Model} {path : String} {listed : List LoadStep},
      resolveAll db.schema m path children = .ok listed →
        loaders db constraints m path children =
          listed.map fun step => (step.relation.name, fun parents => LoadStep.run db constraints m parents step)
  | [], _, _, _, h => by
    rw [resolveAll_nil h]
    rfl
  | (name, tree) :: rest, m, path, listed, h => by
    obtain ⟨r, related, nested, more, hr, ht, hn, hrest, rfl⟩ := resolveAll_cons_eq h
    obtain rfl := Model.name_of_relation? hr
    rw [loaders, loaders_eq_runs rest hrest, List.map_cons, Model.relation_eq_ok_iff.2 hr]
    refine congrArg (· :: _) (congrArg (Prod.mk _) (funext fun parents => ?_))
    show (liftM (db.schema.related r) >>= fun related => _ : Action σ (List Entity)) = _
    rw [Schema.related_eq_ok_iff.2 ht, LoadStep.run]
    refine congrArg (LoadStep.fetch db constraints r related _ _ >>= ·) (funext fun children => ?_)
    rw [show load db constraints related (pathBelow path r.name) tree children = _ from load_eq_runAll tree children hn]

end

end

end Includes

/-! ## Failing where the connection does -/

namespace Db

variable {σ α β : Type} (db : Db σ)

/-- From every state, what the call fails with is the last answer that it got: an error, or a count where rows were
asked for. -/
def FailsByAnswer (x : Action σ α) : Prop :=
  ∀ w, ∃ events, (x.run.run w).2 = db.after w events ∧ ∀ e, (x.run.run w).1 = .error e →
    ∃ before op, events = before ++ [.sent op] ∧
      (db.exec op (db.replay w.connection before)).1.bind (·.outcome.toRows) = .error e

variable {db}

theorem failsByAnswer_select (q : Query) : db.FailsByAnswer (db.select q) := by
  intro w
  obtain ⟨sql, hp⟩ := q.prepare_eq_ok db.dialect
  rw [run_select, hp]
  exact ⟨_, rfl, fun e he => ⟨[], _, rfl, he⟩⟩

theorem composes_failsByAnswer :
    db.Composes fun _ c events result => ∀ e, result = .error e → ∃ before op, events = before ++ [.sent op] ∧
      (db.exec op (db.replay c before)).1.bind (·.outcome.toRows) = .error e where
  silent _ := nofun
  failure h e he := h e (by cases he; rfl)
  append _ hmore e he := by
    obtain ⟨before, op, rfl, hanswer⟩ := hmore e he
    exact ⟨_ ++ before, op, (List.append_assoc _ _ _).symm, by rw [replay_append]; exact hanswer⟩

theorem FailsByAnswer.bind {x : Action σ α} {f : α → Action σ β} (hx : db.FailsByAnswer x)
    (hf : ∀ a, db.FailsByAnswer (f a)) : db.FailsByAnswer (x >>= f) :=
  composes_failsByAnswer.bind hx hf

/-- Something was sent before the call failed. -/
theorem FailsByAnswer.ne_unsent {x : Action σ α} (hx : db.FailsByAnswer x) (w : World σ) (e : Error) :
    x.run.run w ≠ (.error e, w) := by
  intro h
  obtain ⟨events, hw, hfails⟩ := hx w
  rw [h] at hw hfails
  obtain ⟨before, op, rfl, -⟩ := hfails e rfl
  have hnone := db.after_injective w ((db.after_nil w).trans hw)
  exact List.cons_ne_nil _ _ (List.append_eq_nil_iff.1 hnone.symm).2

end Db

/-! ## Model queries -/

/-- The call fails on an unknown relationship and leaves the state as it is; nothing was sent. -/
def Refuses {σ α : Type} (x : Action σ α) (w : World σ) : Prop :=
  ∃ e, x.run.run w = (.error e, w) ∧ e.kind = .unknownRelationship

theorem refuses_bind_iff {σ α β : Type} {x : Action σ α} {f : α → Action σ β} {w : World σ}
    (hf : ∀ a w' e, ((f a).run.run w').1 = .error e → e.kind ≠ .unknownRelationship) :
    Refuses (x >>= f) w ↔ Refuses x w := by
  unfold Refuses
  rw [run_bind]
  cases hr : x.run.run w with
  | mk r w' =>
    cases r with
    | error e =>
      constructor <;>
      · rintro ⟨_, he, hkind⟩
        cases he
        exact ⟨e, rfl, hkind⟩
    | ok a =>
      constructor
      · rintro ⟨e, he, hkind⟩
        exact absurd hkind (hf a w' e (congrArg Prod.fst he))
      · rintro ⟨e, he, -⟩
        cases he

namespace ModelQuery

variable {σ : Type} {db : Db σ} {m : Model}

/-- One of the paths that the calls ask for comes to a model that does not declare its next name. -/
def Astray (s : Schema) (m : Model) (calls : List Refinement) (owner : Model) (stray : String) : Prop :=
  ∃ path ∈ calls.flatMap Refinement.paths, s.Strays m (Includes.pathNames path) owner stray

theorem distinct_refineAll (m : Model) (calls : List Refinement) :
    ((ModelQuery.all m).refineAll calls).includes.Distinct :=
  includes_refineAll (fun _ p h => h.insert p) calls _ Includes.distinct_empty

theorem model_refineAll : ∀ (calls : List Refinement) (mq : ModelQuery), (mq.refineAll calls).model = mq.model
  | [], _ => rfl
  | call :: calls, mq => by
    refine (model_refineAll calls (mq.refine call)).trans ?_
    cases call <;> rfl

/-- The names of the tree that stray are the beginnings of the paths that do. -/
theorem strays_refineAll_iff {s : Schema} (calls : List Refinement) {owner : Model} {stray : String} :
    (∃ names, Includes.Has names ((ModelQuery.all m).refineAll calls).includes ∧ s.Strays m names owner stray) ↔
      Astray s m calls owner stray := by
  constructor
  · rintro ⟨names, hhas, hstrays⟩
    rw [includes_refineAll_eq, Includes.has_foldl_insert_iff] at hhas
    rcases hhas with ⟨path, hpath, hbegins⟩ | hnone
    · exact ⟨path, hpath, hstrays.of_prefix hbegins⟩
    · rw [Includes.has_empty_iff.1 hnone] at hstrays
      cases hstrays
  · rintro ⟨path, hpath, hstrays⟩
    refine ⟨_, ?_, hstrays⟩
    rw [includes_refineAll_eq, Includes.has_foldl_insert_iff]
    exact .inl ⟨path, hpath, List.prefix_rfl⟩

/-- Either all names are found, or what is not found is where one of the paths goes astray. -/
theorem resolve_refineAll {s : Schema} (hm : m ∈ s.models) (calls : List Refinement) :
    let mq := (ModelQuery.all m).refineAll calls
    (∃ steps, mq.includes.resolve s mq.model "" = .ok steps ∧ ¬ ∃ owner stray, Astray s m calls owner stray) ∨
      ∃ owner stray, Astray s m calls owner stray ∧
        mq.includes.resolve s mq.model "" = .error (.ofCause (.unknownRelationship owner.name stray)) := by
  intro mq
  have hmodel : mq.model = m := model_refineAll calls _
  rw [hmodel]
  cases h : mq.includes.resolve s m "" with
  | ok steps =>
    refine .inl ⟨steps, rfl, ?_⟩
    rintro ⟨owner, stray, hastray⟩
    obtain ⟨names, hhas, hstrays⟩ := (strays_refineAll_iff calls).2 hastray
    exact Includes.not_strays_of_resolve hhas h hstrays
  | error e =>
    obtain ⟨names, owner, stray, hhas, hstrays, rfl⟩ :=
      Includes.strays_of_resolve_error _ hm (distinct_refineAll m calls) h
    exact .inr ⟨owner, stray, (strays_refineAll_iff calls).1 ⟨names, hhas, hstrays⟩, rfl⟩

section

variable {mq : ModelQuery}

theorem run_get_of_error {e : Error} (h : mq.includes.resolve db.schema mq.model "" = .error e) (w : World σ) :
    (mq.get db).run.run w = (.error e, w) := by
  rw [get, run_bind, run_lift, h]

theorem get_eq_of_resolve {steps : List LoadStep} (h : mq.includes.resolve db.schema mq.model "" = .ok steps) :
    mq.get db = (do
      let rows ← db.select mq.query
      mq.includes.load db mq.constraints mq.model "" (rows.map (Entity.ofRow mq.model))) := by
  rw [get, h]
  exact congrArg (db.select mq.query >>= ·) (funext fun rows => (Includes.load_eq_runAll _ _ h).symm)

theorem failsByAnswer_load {steps : List LoadStep} (h : mq.includes.resolve db.schema mq.model "" = .ok steps)
    (constraints : Constraints) (parents : List Entity) :
    db.FailsByAnswer (mq.includes.load db constraints mq.model "" parents) := by
  rw [Includes.load_eq_runAll _ _ h]
  exact LoadStep.leads_runAll Db.composes_failsByAnswer Db.failsByAnswer_select constraints _ parents steps

end

theorem refuses_get_iff (hm : m ∈ db.schema.models) (calls : List Refinement) (w : World σ) :
    Refuses (((ModelQuery.all m).refineAll calls).get db) w ↔ ∃ owner stray, Astray db.schema m calls owner stray := by
  rcases resolve_refineAll hm calls with ⟨steps, h, hnone⟩ | ⟨owner, stray, hastray, h⟩
  · refine iff_of_false ?_ hnone
    rintro ⟨e, he, -⟩
    rw [get_eq_of_resolve h] at he
    exact ((Db.failsByAnswer_select _).bind fun rows => failsByAnswer_load h _ _).ne_unsent w e he
  · exact iff_of_true ⟨_, run_get_of_error h w, rfl⟩ ⟨owner, stray, hastray⟩

/-- A call that takes the first entity refuses what getting all of them refuses. -/
theorem refuses_first_iff (mq : ModelQuery) (w : World σ) : Refuses (mq.first db) w ↔ Refuses ((mq.limit 1).get db) w :=
  refuses_bind_iff fun _ _ _ he => by cases he

theorem refuses_findOrFail_iff (mq : ModelQuery) (id : Value) (w : World σ) :
    Refuses (mq.findOrFail db id) w ↔ Refuses (mq.find db id) w := by
  refine refuses_bind_iff fun found w' e he => ?_
  cases found with
  | none =>
    cases he
    exact nofun
  | some entity => cases he

/-- **Names are checked completely before anything is sent.**  Getting entities, the first one, or one by its key fails on
an unknown relationship, with nothing sent, exactly when one of the paths comes to a model that does not declare its next
name; the error names the two.  If none does, the entities are loaded as if every relationship were looked up on its way,
and then nothing fails but the connection, whatever the rows. -/
theorem names_checked_first (db : Db σ) (hm : m ∈ db.schema.models) (calls : List Refinement) :
    let mq := (ModelQuery.all m).refineAll calls
    let astray := ∃ owner stray, Astray db.schema m calls owner stray
    (∀ w, (Refuses (mq.get db) w ↔ astray) ∧ (Refuses (mq.first db) w ↔ astray) ∧
      ∀ id, (Refuses (mq.find db id) w ↔ astray) ∧ (Refuses (mq.findOrFail db id) w ↔ astray)) ∧
      (astray → ∃ owner stray, Astray db.schema m calls owner stray ∧
        ∀ w, (mq.get db).run.run w = (.error (.ofCause (.unknownRelationship owner.name stray)), w)) ∧
      (¬ astray →
        (mq.get db = do
          let rows ← db.select mq.query
          mq.includes.load db mq.constraints m "" (rows.map (Entity.ofRow m))) ∧
        ∀ constraints parents, db.FailsByAnswer (mq.includes.load db constraints m "" parents)) := by
  intro mq astray
  -- the calls for one entity scope the query, which asks for no paths
  have hscoped (fs : List (Query → Query)) (w : World σ) :
      Refuses ((mq.refineAll (fs.map .scope)).get db) w ↔ astray := by
    have hpaths : (calls ++ fs.map Refinement.scope).flatMap Refinement.paths = calls.flatMap Refinement.paths := by
      rw [List.flatMap_append, List.flatMap_map]
      exact (congrArg _ (List.flatMap_eq_nil_iff.2 fun _ _ => rfl)).trans (List.append_nil _)
    have hget := refuses_get_iff hm (calls ++ fs.map .scope) w
    unfold Astray at hget
    rw [hpaths, refineAll, List.foldl_append] at hget
    exact hget
  refine ⟨fun w => ⟨hscoped [] w, (refuses_first_iff mq w).trans (hscoped [(·.limitTo 1)] w), fun id => ?_⟩,
    fun hastray => ?_, fun hnone => ?_⟩
  · have hfind : Refuses (mq.find db id) w ↔ astray := (refuses_first_iff _ w).trans
      (hscoped [(·.filter (Column.parse (mq.model.table ++ "." ++ mq.model.key)) id), (·.limitTo 1)] w)
    exact ⟨hfind, (refuses_findOrFail_iff mq id w).trans hfind⟩
  · rcases resolve_refineAll hm calls with ⟨steps, -, hnone⟩ | ⟨owner, stray, hstray, h⟩
    · exact absurd hastray hnone
    · exact ⟨owner, stray, hstray, run_get_of_error h⟩
  · rcases resolve_refineAll hm calls with ⟨steps, h, -⟩ | ⟨owner, stray, hstray, -⟩
    · have hget := get_eq_of_resolve h
      have hload := failsByAnswer_load h
      rw [model_refineAll calls] at hget hload
      exact ⟨hget, hload⟩
    · exact absurd ⟨owner, stray, hstray⟩ hnone

end ModelQuery

/-- Posts have tags and no comments, so a user is found with the tags of the posts, and not with their comments. -/
theorem names_checked_first_posts :
    let tags := (ModelQuery.all Blog.userModel).refineAll [.withPaths [".posts..tags"]]
    let comments := (ModelQuery.all Blog.userModel).refineAll [.withPaths [".posts..tags"],
      .withConstraint "posts.comments.author" id]
    Blog.userModel ∈ Blog.schema.models ∧
      (∀ w, Refuses (comments.findOrFail (Blog.db Script.exec) (.int 1)) w) ∧
      (∀ w, ¬ Refuses (tags.findOrFail (Blog.db Script.exec) (.int 1)) w) ∧
      ∀ parents, (Blog.db Script.exec).FailsByAnswer
        (tags.includes.load (Blog.db Script.exec) [] Blog.userModel "" parents) := by
  have hm : Blog.userModel ∈ Blog.schema.models := by decide
  have hposts : Blog.userModel.relation? "posts" = some ⟨"posts", 1, .hasMany "user_id", []⟩ := by decide
  have htarget : Blog.schema.model? 1 = some Blog.postModel := rfl
  have hastray : ModelQuery.Astray Blog.schema Blog.userModel [.withPaths [".posts..tags"],
      .withConstraint "posts.comments.author" id] Blog.postModel "comments" :=
    ⟨"posts.comments.author", by decide, .further hposts htarget (.here (by decide))⟩
  have hnone : ¬ ∃ owner stray,
      ModelQuery.Astray Blog.schema Blog.userModel [.withPaths [".posts..tags"]] owner stray := by
    rintro ⟨owner, stray, path, hpath, hstrays⟩
    obtain rfl := List.mem_singleton.1 hpath
    rw [show Includes.pathNames ".posts..tags" = ["posts", "tags"] by decide] at hstrays
    rcases hstrays with h | ⟨hr, ht, hbelow⟩
    · exact absurd h (by decide)
    · rw [hposts] at hr
      cases hr
      cases htarget.symm.trans ht
      rcases hbelow with h | ⟨-, -, hbelow⟩
      · exact absurd h (by decide)
      · cases hbelow
  obtain ⟨hrefuses, -, -⟩ := ModelQuery.names_checked_first (Blog.db Script.exec) hm [.withPaths [".posts..tags"],
    .withConstraint "posts.comments.author" id]
  obtain ⟨hfinds, -, hloads⟩ := ModelQuery.names_checked_first (Blog.db Script.exec) hm [.withPaths [".posts..tags"]]
  exact ⟨hm, fun w => ((hrefuses w).2.2 (.int 1)).2.2 ⟨_, _, hastray⟩,
    fun w h => hnone (((hfinds w).2.2 (.int 1)).2.1 h), (hloads hnone).2 []⟩

end SqlMapper
