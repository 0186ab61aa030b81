import SqlMapper.Proofs.Schema.Verified
import SqlMapper.Schema.Registration
/-!
# Resolved — what registration makes of the declarations

Declarations are resolved one by one, each from its own names.  A relationship that is declared again replaces the one of
its name, so a model has the last declaration of every name (`Registry.Declares`).  In an accepted schema the models
stand in the order of registration under their names, a relationship leads to the one model of the declared name, and
where two models declare each other by convention both sides name the same table and columns
(`Registry.schema_agrees`).
-/
namespace SqlMapper

/-! ## Declared relationships -/

namespace Model

theorem find?_putRelation (r : Relation) (name : String) :
    ∀ relations, (putRelation r relations).find? (·.name == name) =
      if r.name = name then some r else relations.find? (·.name == name)
  | [] => by
    rw [putRelation, List.find?_singleton]
    simp only [beq_iff_eq]
    rfl
  | s :: rest => by
    rw [putRelation, List.find?_cons (a := s)]
    by_cases hs : s.name = r.name
    · rw [if_pos hs, List.find?_cons, hs]
      by_cases hr : r.name = name
      · simp only [hr, beq_self_eq_true, if_true]
      · simp only [beq_eq_false_iff_ne.2 hr, hr, if_false]
    · rw [if_neg hs, List.find?_cons, find?_putRelation r name rest]
      by_cases hr : r.name = name
      · have hsn : (s.name == name) = false := beq_eq_false_iff_ne.2 fun h => hs (h.trans hr.symm)
        simp only [hr, hsn, if_true]
      · simp only [hr, if_false]

/-- A declared relationship is found by its name, and the others are found as before. -/
theorem relation?_declare (m : Model) (r : Relation) (name : String) :
    (m.declare r).relation? name = if r.name = name then some r else m.relation? name :=
  find?_putRelation r name m.relations

end Model

/-- The declaration that counts for a name, which is the last one. -/
def ModelDeclaration.relation? (d : ModelDeclaration) (name : String) : Option RelationDeclaration :=
  d.relations.reverse.find? (·.name == name)

namespace Registry

variable {g : Registry} {owner : String}

theorem resolveRelation_eq_ok_iff {decl : RelationDeclaration} {r : Relation} :
    g.resolveRelation owner decl = .ok r ↔
      ∃ target, g.position? decl.target = some target ∧ r = ⟨decl.name, target, g.link owner decl, decl.after⟩ := by
  rw [resolveRelation]
  cases g.position? decl.target with
  | none => simp
  | some target => simp [eq_comm]

/-- The model has each relationship as the last declaration of its name resolves. -/
def Declares (g : Registry) (owner : String) (decls : List RelationDeclaration) (m : Model) : Prop :=
  ∀ name, Option.Rel (fun decl r => g.resolveRelation owner decl = .ok r) (decls.reverse.find? (·.name == name))
    (m.relation? name)

theorem Declares.isSome_relation? {decls : List RelationDeclaration} {m : Model} (h : g.Declares owner decls m)
    (name : String) : (m.relation? name).isSome = (decls.reverse.find? (·.name == name)).isSome := by
  have hrel := h name
  generalize decls.reverse.find? (·.name == name) = declared at hrel ⊢
  generalize m.relation? name = found at hrel ⊢
  cases hrel <;> rfl

/-- One more declaration counts for its name, and for no other. -/
theorem Declares.append {decls : List RelationDeclaration} {m : Model} (h : g.Declares owner decls m)
    {decl : RelationDeclaration} {r : Relation} (hr : g.resolveRelation owner decl = .ok r) :
    g.Declares owner (decls ++ [decl]) (m.declare r) := by
  intro name
  obtain ⟨target, -, rfl⟩ := resolveRelation_eq_ok_iff.1 hr
  rw [List.reverse_append, List.reverse_singleton, List.singleton_append, List.find?_cons, Model.relation?_declare]
  by_cases hn : decl.name = name
  · simp only [hn, beq_self_eq_true, if_true]
    exact .some (hn ▸ hr)
  · rw [if_neg hn, beq_eq_false_iff_ne.2 hn]
    exact h name

theorem declares_of_foldlM {decls : List RelationDeclaration} {m m' : Model} (hm : g.Declares owner [] m)
    (h : decls.foldlM (fun m decl => do pure (m.declare (← g.resolveRelation owner decl))) m = .ok m') :
    m'.id = m.id ∧ m'.name = m.name ∧ g.Declares owner decls m' := by
  -- the induction takes declarations off the end, since it is the last one of a name that counts
  induction decls using List.reverseRecOn generalizing m' with
  | nil =>
    cases h
    exact ⟨rfl, rfl, hm⟩
  | append_singleton decls decl ih =>
    rw [List.foldlM_append] at h
    obtain ⟨before, hbefore, hlast⟩ := exists_ok_of_bind h
    rw [List.foldlM_cons] at hlast
    obtain ⟨last, hdeclared, hrest⟩ := exists_ok_of_bind hlast
    obtain ⟨r, hr, hm'⟩ := exists_ok_of_bind hdeclared
    obtain ⟨hid, hname, hdeclares⟩ := ih hbefore
    cases hm'
    cases hrest
    exact ⟨hid, hname, hdeclares.append hr⟩

theorem resolveModel_ok {d : ModelDeclaration} {id : Nat} {m : Model} (h : g.resolveModel d id = .ok m) :
    m.id = some id ∧ m.name = d.name ∧ g.Declares d.name d.relations m :=
  declares_of_foldlM (fun _ => .none) h

end Registry

/-! ## Declared models -/

/-- Where a list is taken through a function that may fail, each result is that of its own place. -/
theorem getElem?_of_mapM_ok {ε α β : Type} {f : α → Except ε β} {xs : List α} {ys : List β} (h : xs.mapM f = .ok ys) :
    ys.length = xs.length ∧ ∀ (i : Nat) (x : α) (y : β), xs[i]? = some x → ys[i]? = some y → f x = .ok y := by
  induction xs generalizing ys with
  | nil =>
    cases h
    exact ⟨rfl, fun i x y hx => by cases hx⟩
  | cons a xs ih =>
    rw [List.mapM_cons] at h
    obtain ⟨b, hb, h⟩ := exists_ok_of_bind h
    obtain ⟨rest, hrest, h⟩ := exists_ok_of_bind h
    cases h
    obtain ⟨hlength, hplace⟩ := ih hrest
    refine ⟨congrArg (· + 1) hlength, fun i x y hx hy => ?_⟩
    cases i with
    | zero =>
      cases hx
      cases hy
      exact hb
    | succ i => exact hplace i x y hx hy

namespace Registry

variable {g : Registry}

theorem resolve_ok {models : List Model} (h : g.resolve = .ok models) :
    models.length = g.models.length ∧
      ∀ (i : Nat) (d : ModelDeclaration) (m : Model), g.models[i]? = some d → models[i]? = some m →
        m.id = some i ∧ m.name = d.name ∧ g.Declares d.name d.relations m := by
  obtain ⟨hlength, hplace⟩ := getElem?_of_mapM_ok h
  refine ⟨hlength.trans List.length_zipIdx, fun i d m hd hm => resolveModel_ok (hplace i (d, i) m ?_ hm)⟩
  rw [List.getElem?_zipIdx, hd, Option.map_some, Nat.zero_add]

/-- The models of an accepted schema are the resolved declarations. -/
theorem resolve_of_schema {s : Schema} (h : g.schema = .ok s) : g.resolve = .ok s.models := by
  obtain ⟨models, hmodels, hs⟩ := exists_ok_of_bind h
  rw [hmodels]
  unfold Schema.ofModels at hs
  split at hs
  · split at hs
    · cases hs
      rfl
    · cases hs
  · split at hs <;> cases hs

theorem names_of_resolve {models : List Model} (h : g.resolve = .ok models) :
    models.map Model.name = g.models.map ModelDeclaration.name := by
  obtain ⟨hlength, hplace⟩ := resolve_ok h
  refine List.ext_getElem? fun i => ?_
  rw [List.getElem?_map, List.getElem?_map]
  cases hd : g.models[i]? with
  | none =>
    rw [List.getElem?_eq_none (hlength ▸ List.getElem?_eq_none_iff.1 hd)]
    rfl
  | some d =>
    have hi : i < models.length := hlength ▸ (List.getElem?_eq_some_iff.1 hd).1
    rw [List.getElem?_eq_getElem hi]
    exact congrArg some (hplace i d _ hd (List.getElem?_eq_getElem hi)).2.1

/-- A relationship of a model in the schema, and the declaration that counts for it. -/
def Resolves (g : Registry) (s : Schema) (d : ModelDeclaration) (decl : RelationDeclaration) (r : Relation) : Prop :=
  ∃ (i : Nat) (m : Model), g.models[i]? = some d ∧ s.model? i = some m ∧ d.relation? decl.name = some decl ∧
    m.relation? decl.name = some r

theorem Resolves.resolveRelation {s : Schema} (h : g.schema = .ok s) {d : ModelDeclaration} {decl : RelationDeclaration}
    {r : Relation} (hr : g.Resolves s d decl r) : g.resolveRelation d.name decl = .ok r := by
  obtain ⟨i, m, hd, hm, hdecl, hrel⟩ := hr
  have hdeclares := ((resolve_ok (resolve_of_schema h)).2 i d m hd hm).2.2 decl.name
  rw [hrel] at hdeclares
  generalize hlast : d.relations.reverse.find? (·.name == decl.name) = last at hdeclares
  cases hdeclares with
  | some hresolved =>
    cases hdecl.symm.trans hlast
    exact hresolved

theorem Resolves.link {s : Schema} (h : g.schema = .ok s) {d : ModelDeclaration} {decl : RelationDeclaration}
    {r : Relation} (hr : g.Resolves s d decl r) : r.link = g.link d.name decl := by
  obtain ⟨target, -, rfl⟩ := resolveRelation_eq_ok_iff.1 (hr.resolveRelation h)
  rfl

/-- A relationship leads to the one model that is registered under the declared name. -/
theorem Resolves.eq_target_iff {s : Schema} (h : g.schema = .ok s) {d : ModelDeclaration} {decl : RelationDeclaration}
    {r : Relation} (hr : g.Resolves s d decl r) (k : Nat) :
    k = r.target ↔ ∃ t, s.model? k = some t ∧ t.name = decl.target := by
  have hnames := names_of_resolve (resolve_of_schema h)
  have hnamed : ∀ j, (∃ t, s.model? j = some t ∧ t.name = decl.target) ↔
      (s.models.map Model.name)[j]? = some decl.target := fun j => by
    rw [List.getElem?_map, Option.map_eq_some_iff, Schema.model?]
  obtain ⟨target, htarget, rfl⟩ := resolveRelation_eq_ok_iff.1 (hr.resolveRelation h)
  have hat : (s.models.map Model.name)[target]? = some decl.target := by
    obtain ⟨hlt, hname, -⟩ := List.findIdx?_eq_some_iff_getElem.1 htarget
    rw [hnames, List.getElem?_map, List.getElem?_eq_getElem hlt, Option.map_some, beq_iff_eq.1 hname]
  rw [hnamed]
  constructor
  · rintro rfl
    exact hat
  · intro hk
    have hunique := (Schema.verifyModels_eq_ok_iff.1 s.verified).names
    exact (List.getElem?_inj (List.getElem?_eq_some_iff.1 hk).1 hunique).1 (hk.trans hat.symm)

end Registry

/-! ## Both sides of a relationship -/

/-- No table and no column is named, so all of them follow the conventions. -/
def RelationDeclaration.IsConventional (decl : RelationDeclaration) : Prop :=
  decl.table = none ∧ decl.foreignKey = none ∧ decl.otherKey = none

namespace Registry

variable {g : Registry}

theorem kind_link (g : Registry) (owner : String) (decl : RelationDeclaration) : (g.link owner decl).kind = decl.kind := by
  rw [link]
  split <;> rename_i hk <;> rw [hk] <;> rfl

theorem link_manyToMany {owner : String} {decl : RelationDeclaration} (hk : decl.kind = .manyToMany) :
    g.link owner decl = .manyToMany
      { table := g.prefixed (decl.table.getD (conventionalJoinTable owner decl.target))
        foreignKey := decl.foreignKey.getD (conventionalForeignKey owner)
        otherKey := decl.otherKey.getD (conventionalForeignKey decl.target)
        pivotColumns := decl.pivotColumns } := by
  rw [link, hk]

theorem link_of_has (g : Registry) (owner : String) {decl : RelationDeclaration}
    (hk : decl.kind = .hasOne ∨ decl.kind = .hasMany) :
    g.link owner decl = .hasOne (decl.foreignKey.getD (conventionalForeignKey owner)) ∨
      g.link owner decl = .hasMany (decl.foreignKey.getD (conventionalForeignKey owner)) := by
  rw [link]
  rcases hk with hk | hk
  · rw [hk]
    exact .inl rfl
  · rw [hk]
    exact .inr rfl

theorem link_of_belongsTo {owner : String} {decl : RelationDeclaration} (hk : decl.kind = .belongsTo) :
    g.link owner decl = .belongsTo (decl.foreignKey.getD (conventionalForeignKey decl.name)) := by
  rw [link, hk]

/-- **An accepted schema resolves both ends of a relationship alike.**  Models stand at the positions and under the names
of their declarations, they have exactly the declared relationships, and each of these leads to the one model of the
declared name.  Two models that declare each other by convention name the same join table, and each the other's columns
the other way round; a model that has another one and the other one that belongs to it name the same column. -/
theorem schema_agrees {s : Schema} (h : g.schema = .ok s) :
    s.models.map Model.id = (List.range g.models.length).map some ∧
      s.models.map Model.name = g.models.map ModelDeclaration.name ∧
      (∀ (i : Nat) (d : ModelDeclaration) (m : Model), g.models[i]? = some d → s.model? i = some m →
        ∀ name, (m.relation? name).isSome = (d.relation? name).isSome) ∧
      (∀ d decl r, g.Resolves s d decl r → ∀ k, k = r.target ↔ ∃ t, s.model? k = some t ∧ t.name = decl.target) ∧
      ∀ a b declA declB rA rB, g.Resolves s a declA rA → g.Resolves s b declB rB →
        declA.target = b.name → declB.target = a.name →
        (declA.kind = .manyToMany → declB.kind = .manyToMany → declA.IsConventional → declB.IsConventional →
          ∃ joinA joinB, rA.link = .manyToMany joinA ∧ rB.link = .manyToMany joinB ∧ joinA.table = joinB.table ∧
            joinA.foreignKey = joinB.otherKey ∧ joinA.otherKey = joinB.foreignKey) ∧
        (declA.kind = .hasOne ∨ declA.kind = .hasMany → declB.kind = .belongsTo → declA.foreignKey = none →
          declB.foreignKey = none → snakeCase declB.name = snakeCase a.name →
          ∃ key, (rA.link = .hasOne key ∨ rA.link = .hasMany key) ∧ rB.link = .belongsTo key) := by
  have hresolve := resolve_of_schema h
  obtain ⟨hlength, hplace⟩ := resolve_ok hresolve
  refine ⟨hlength ▸ s.positional, names_of_resolve hresolve, fun i d m hd hm name => ?_,
    fun d decl r hr k => hr.eq_target_iff h k, ?_⟩
  · exact (hplace i d m hd hm).2.2.isSome_relation? name
  · intro a b declA declB rA rB hA hB htargetA htargetB
    rw [hA.link h, hB.link h]
    constructor
    · rintro hkA hkB ⟨htable, hforeign, hother⟩ ⟨htable', hforeign', hother'⟩
      refine ⟨_, _, link_manyToMany hkA, link_manyToMany hkB, ?_, ?_, ?_⟩
      · simp only [htable, htable', Option.getD_none, htargetA, htargetB, conventionalJoinTable_comm a.name]
      · simp only [hforeign, hother', Option.getD_none, htargetB]
      · simp only [hother, hforeign', Option.getD_none, htargetA]
    · intro hkA hkB hforeign hforeign' hname
      refine ⟨conventionalForeignKey a.name, ?_, ?_⟩
      · have hlink := g.link_of_has a.name hkA
        rwa [hforeign] at hlink
      · rw [link_of_belongsTo hkB, hforeign', Option.getD_none, conventionalForeignKey, conventionalForeignKey, hname]

end Registry

/-! ## Articles with labels and remarks -/

namespace Blog

def postDeclaration : ModelDeclaration :=
  ⟨"BlogPost", none, none, false, none, [.new .manyToMany "labels" "Label", .new .hasMany "remarks" "Remark"]⟩

def articles : Registry where
  models :=
    [postDeclaration, ⟨"Label", none, none, false, none, [.new .manyToMany "posts" "BlogPost"]⟩,
      ⟨"Remark", none, none, false, none, [.new .belongsTo "blogPost" "BlogPost"]⟩]
  tablePrefix := some "app_"

def articleLabels : JoinTable := ⟨"app_blog_post_label", "blog_post_id", "label_id", []⟩

def labelArticles : JoinTable := ⟨"app_blog_post_label", "label_id", "blog_post_id", []⟩

def article : Model :=
  ({ Model.conventional 0 "BlogPost" with table := "app_blog_posts" }.declare
    ⟨"labels", 1, .manyToMany articleLabels, []⟩).declare ⟨"remarks", 2, .hasMany "blog_post_id", []⟩

def articleLabel : Model :=
  { Model.conventional 1 "Label" with table := "app_labels" }.declare ⟨"posts", 0, .manyToMany labelArticles, []⟩

def remark : Model :=
  { Model.conventional 2 "Remark" with table := "app_remarks" }.declare ⟨"blogPost", 0, .belongsTo "blog_post_id", []⟩

def articleSchema : Schema := ⟨[article, articleLabel, remark], by decide, by decide +kernel⟩

theorem schema_articles : articles.schema = .ok articleSchema := by
  have hresolve : articles.resolve = .ok articleSchema.models := by decide +kernel
  rw [Registry.schema, hresolve]
  exact Schema.ofModels_eq_of_ok articleSchema.positional articleSchema.verified

end Blog

theorem schema_agrees_articles :
    Blog.articles.schema = .ok Blog.articleSchema ∧
      Blog.articleSchema.models.map Model.name = ["BlogPost", "Label", "Remark"] ∧
      (∃ joinA joinB, Link.manyToMany Blog.articleLabels = .manyToMany joinA ∧
        Link.manyToMany Blog.labelArticles = .manyToMany joinB ∧ joinA.table = joinB.table ∧
        joinA.foreignKey = joinB.otherKey ∧ joinA.otherKey = joinB.foreignKey) ∧
      ∃ key, (Link.hasMany "blog_post_id" = .hasOne key ∨ Link.hasMany "blog_post_id" = .hasMany key) ∧
        Link.belongsTo "blog_post_id" = .belongsTo key := by
  have h := Blog.schema_articles
  obtain ⟨-, hnames, -, -, hagree⟩ := Registry.schema_agrees h
  have hlabels : Blog.articles.Resolves Blog.articleSchema _ (.new .manyToMany "labels" "Label") _ :=
    ⟨0, Blog.article, rfl, rfl, by decide, rfl⟩
  have hposts : Blog.articles.Resolves Blog.articleSchema _ (.new .manyToMany "posts" "BlogPost") _ :=
    ⟨1, Blog.articleLabel, rfl, rfl, by decide, rfl⟩
  have hremarks : Blog.articles.Resolves Blog.articleSchema _ (.new .hasMany "remarks" "Remark") _ :=
    ⟨0, Blog.article, rfl, rfl, by decide, rfl⟩
  have hpost : Blog.articles.Resolves Blog.articleSchema _ (.new .belongsTo "blogPost" "BlogPost") _ :=
    ⟨2, Blog.remark, rfl, rfl, by decide, rfl⟩
  exact ⟨h, hnames, (hagree _ _ _ _ _ _ hlabels hposts rfl rfl).1 rfl rfl ⟨rfl, rfl, rfl⟩ ⟨rfl, rfl, rfl⟩,
    (hagree _ _ _ _ _ _ hremarks hpost rfl rfl).2 (.inr rfl) rfl rfl rfl (by decide +kernel)⟩

end SqlMapper
