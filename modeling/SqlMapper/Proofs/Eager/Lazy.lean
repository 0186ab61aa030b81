import SqlMapper.Proofs.Eager.Fetch
import SqlMapper.Proofs.Eager.Loaded
import SqlMapper.Proofs.Sql.Written
import SqlMapper.Relation.RelationQuery
/-!
# Lazy — one relationship of one entity at a time

What a model query loads at once can also be resolved piece by piece: every relationship of every entity by a query of
its own, and then what is below it.  On a connection that answers the queries of a relationship from one list of rows,
both ways make the same entities (`Includes.load_eq_lazily`).  A timestamp is the exception.  It is bound as text, so
a query for it finds rows that hold the text, and matching by value does not hand these to a parent.
-/
namespace SqlMapper

/-! ## A connection that answers from lists of rows -/

namespace Relation

variable (r : Relation)

/-- The row holds one of the values in the column that it is selected by.  Null matches nothing. -/
def holdsOneOf (related : Model) (values : List Value) (row : Row) : Bool :=
  match r.rowKey? related row with
  | none | some .null => false
  | some v => values.contains v

/-- The queries of a relationship: for one value, for the first row of one value, and for several values. -/
inductive QueriedBy (related : Model) : Query → Prop where
  | all (v : Value) : QueriedBy related ((r.baseQuery related).filter (r.constrainedColumn related) v)
  | first (v : Value) :
    QueriedBy related (((r.baseQuery related).filter (r.constrainedColumn related) v).limitTo 1)
  | among (values : List Value) :
    QueriedBy related ((r.baseQuery related).filterIn (r.constrainedColumn related) (values.map .value))

end Relation

def cut (limit : Option UInt64) (rows : List Row) : List Row :=
  match limit with
  | some n => rows.take n.toNat
  | none => rows

/-- The connection answers the queries of every relationship of the schema from a list of rows: the ones that hold a
bound value, in order, and no more than the query asks for. -/
def Db.AnswersFrom {σ : Type} (db : Db σ) (rowsOf : Relation → List Row) : Prop :=
  ∀ (m related : Model) (r : Relation) (q : Query) (p : Prepared) (c : σ),
    m ∈ db.schema.models → r ∈ m.relations → db.schema.model? r.target = some related → r.QueriedBy related q →
      (Statement.query q).prepare db.dialect = .ok p →
        ∃ key c', db.exec (.query p) c =
          (.ok ⟨.rows (cut q.limit ((rowsOf r).filter (r.holdsOneOf related p.bindings))), key⟩, c')

theorem Db.AnswersFrom.select {σ : Type} {db : Db σ} {rowsOf : Relation → List Row} (h : db.AnswersFrom rowsOf)
    {m related : Model} {r : Relation} {q : Query} (hm : m ∈ db.schema.models) (hr : r ∈ m.relations)
    (ht : db.schema.model? r.target = some related) (hq : r.QueriedBy related q) :
    Yields (db.select q)
      (cut q.limit ((rowsOf r).filter (r.holdsOneOf related (q.values.map (Token.binding db.dialect))))) := by
  intro w
  obtain ⟨sql, hp⟩ := q.prepare_eq_ok db.dialect
  obtain ⟨key, c, hc⟩ := h m related r q _ w.connection hm hr ht hq hp
  exact ⟨_, (Db.returns_select db).2 ⟨_, key, c, hp, hc, rfl⟩⟩

/-! ## Resolving piece by piece -/

def Related.forEach {σ : Type} (f : Entity → Action σ Entity) : Related → Action σ Related
  | .one none => pure (.one none)
  | .one (some e) => do pure (.one (some (← f e)))
  | .many es => do pure (.many (← es.mapM f))

namespace LoadStep

mutual

/-- Resolves one relationship of an entity, and what is below it on every entity that it yields. -/
def lazily {σ : Type} (db : Db σ) (e : Entity) : LoadStep → Action σ Entity
  | ⟨relation, _, _, nested⟩ => do
    let (related, e) ← e.resolve db relation.name
    let related ← related.forEach fun child => lazilyAll db child nested
    pure (e.setRelated relation.name related)

def lazilyAll {σ : Type} (db : Db σ) (e : Entity) : List LoadStep → Action σ Entity
  | [] => pure e
  | step :: rest => do
    let e ← lazily db e step
    lazilyAll db e rest

end

/-! ## Timestamps -/

mutual

/-- No row of the relationship holds the text that a timestamp of a parent is bound as, and the same below its rows. -/
def TextsApart (d : Dialect) (rowsOf : Relation → List Row) (owner : Model) (parents : List Entity) : LoadStep → Prop
  | ⟨r, related, _, nested⟩ =>
    (∀ e ∈ parents, ∀ t, e.get? (r.parentColumn owner) = some (.timestamp t) →
      ∀ row ∈ rowsOf r, r.rowKey? related row ≠ some (Token.binding d (.timestamp t))) ∧
    AllTextsApart d rowsOf related ((rowsOf r).map (r.hydrate related)) nested

def AllTextsApart (d : Dialect) (rowsOf : Relation → List Row) (owner : Model) (parents : List Entity) :
    List LoadStep → Prop
  | [] => True
  | step :: rest => TextsApart d rowsOf owner parents step ∧ AllTextsApart d rowsOf owner parents rest

end

end LoadStep

/-! ## The rows that are found -/

namespace Relation

variable {r : Relation} {related : Model} {d : Dialect} {rows : List Row}

/-- The rows that some query finds: a row that holds a timestamp equals no bound value. -/
def findable (rowsOf : Relation → List Row) : RowSource := fun _ r related =>
  (rowsOf r).filter fun row => ((r.rowKey? related row).bind Value.asTimestamp?).isNone

theorem holdsOneOf_of_rowKey? {values : List Value} {row : Row} {v : Value} (hv : v ≠ .null)
    (h : r.rowKey? related row = some v) : r.holdsOneOf related values row = values.contains v := by
  unfold holdsOneOf
  rw [h]
  cases v with
  | null => exact absurd rfl hv
  | _ => rfl

/-- The row that a query for one value finds holds this very value, unless the value is a timestamp. -/
theorem filter_holdsOneOf_binding {v : Value} (hv : v ≠ .null)
    (hapart : ∀ t, v = .timestamp t → ∀ row ∈ rows, r.rowKey? related row ≠ some (Token.binding d (.timestamp t))) :
    rows.filter (r.holdsOneOf related [Token.binding d v]) =
      r.rowsFor related (rows.filter fun row => ((r.rowKey? related row).bind Value.asTimestamp?).isNone) (some v) := by
  rw [r.rowsFor_some related _ hv, List.filter_filter]
  refine List.filter_congr fun row hrow => ?_
  cases hk : r.rowKey? related row with
  | none => simp [holdsOneOf, hk]
  | some k =>
    by_cases hkn : k = .null
    · subst hkn
      simp [holdsOneOf, hk, Ne.symm hv]
    rw [holdsOneOf_of_rowKey? hkn hk]
    cases ht : v.asTimestamp? with
    | none =>
      rw [Token.binding_of_not_timestamp ht]
      by_cases hkv : k = v <;> simp [hkv, ht]
    | some t =>
      have hvt := Value.eq_timestamp_of_asTimestamp? ht
      have hbound : [Token.binding d v].contains k = false := by
        rw [List.contains_cons, List.contains_nil, Bool.or_false, beq_eq_false_iff_ne]
        rintro rfl
        exact hapart t hvt row hrow (by rw [hk, hvt])
      -- the row holds no timestamp either, since it would have to be this one
      have hsame : (some k == some v && ((some k).bind Value.asTimestamp?).isNone) = false := by
        by_cases hkv : k = v <;> simp [hkv, ht]
      rw [hbound, hsame]

/-- Among the rows found for several values, those of one value are the ones found for it. -/
theorem rowsFor_filter_holdsOneOf {v : Value} {values : List Value} (hv : v ≠ .null) (hm : v ∈ values) :
    r.rowsFor related (rows.filter (r.holdsOneOf related (values.map (Token.binding d)))) (some v) =
      r.rowsFor related (rows.filter fun row => ((r.rowKey? related row).bind Value.asTimestamp?).isNone) (some v) := by
  rw [r.rowsFor_some related _ hv, r.rowsFor_some related _ hv, List.filter_filter, List.filter_filter]
  refine List.filter_congr fun row _ => ?_
  by_cases hk : r.rowKey? related row = some v
  · rw [holdsOneOf_of_rowKey? hv hk, hk]
    simp only [beq_self_eq_true, Bool.true_and, Option.bind_some]
    cases ht : v.asTimestamp? with
    | none =>
      have hb : v ∈ values.map (Token.binding d) := List.mem_map.2 ⟨v, hm, Token.binding_of_not_timestamp ht⟩
      simpa using hb
    | some t =>
      have hb : v ∉ values.map (Token.binding d) := by
        intro hb
        obtain ⟨u, -, rfl⟩ := List.mem_map.1 hb
        rw [Token.asTimestamp?_binding] at ht
        cases ht
      simpa using hb
  · rw [beq_eq_false_iff_ne.2 hk, Bool.false_and, Bool.false_and]

theorem filter_holdsOneOf_nil : rows.filter (r.holdsOneOf related []) = [] := by
  refine List.filter_eq_nil_iff.2 fun row _ => ?_
  unfold holdsOneOf
  split <;> simp

theorem limit_baseQuery : (r.baseQuery related).limit = none := by
  unfold baseQuery
  cases r.link <;> rfl

theorem source_baseQuery : (r.baseQuery related).source = some (.table related.table) := by
  unfold baseQuery
  cases r.link <;> rfl

theorem values_filter {v : Value} (hv : v ≠ .null) :
    ((r.baseQuery related).filter (r.constrainedColumn related) v).values = [v] := by
  unfold baseQuery
  cases r.link <;> cases v <;> first | exact absurd rfl hv | rfl

theorem values_filterIn (values : List Value) :
    ((r.baseQuery related).filterIn (r.constrainedColumn related) (values.map .value)).values = values := by
  have hf : (values.map Expr.value).filterMap Expr.value? = values := by
    rw [List.filterMap_map]
    exact List.filterMap_some
  unfold baseQuery
  cases r.link <;>
    · simp only [Query.filterIn, Query.pushFilter, Query.select, Query.join, Query.pushJoin, Query.table, Query.empty]
      simp [Query.values, Filter.listValues, Predicate.values, hf]

end Relation

/-! ## Loading at once -/

theorem Schema.mem_of_model? {s : Schema} {i : Nat} {m : Model} (h : s.model? i = some m) : m ∈ s.models :=
  List.mem_of_getElem? h

theorem Model.mem_of_relation? {m : Model} {name : String} {r : Relation} (h : m.relation? name = some r) :
    r ∈ m.relations :=
  (Model.relation?_eq_some_iff.1 h).1

namespace LoadStep

variable {σ : Type} {db : Db σ} {rowsOf : Relation → List Row}

theorem yields_fetch (h : db.AnswersFrom rowsOf) {m related : Model} {r : Relation} (hm : m ∈ db.schema.models)
    (hr : r ∈ m.relations) (ht : db.schema.model? r.target = some related) (path : String) (values : List Value) :
    Yields (fetch db [] r related path values)
      (((rowsOf r).filter (r.holdsOneOf related (values.map (Token.binding db.dialect)))).map (r.hydrate related)) := by
  unfold fetch
  split
  · rename_i hv
    rw [hv, List.map_nil, Relation.filter_holdsOneOf_nil]
    exact yields_pure []
  · have hs := h.select hm hr ht (.among values)
    have hlimit : ((r.baseQuery related).filterIn (r.constrainedColumn related) (values.map .value)).limit = none :=
      Relation.limit_baseQuery
    rw [Relation.values_filterIn, hlimit] at hs
    exact hs.bind (yields_pure _)

mutual

theorem fetchesFrom_findable (h : db.AnswersFrom rowsOf) {owner : Model} (ho : owner ∈ db.schema.models) :
    ∀ step : LoadStep, step.Known db.schema owner → step.FetchesFrom db [] (Relation.findable rowsOf)
  | ⟨_, _, path, nested⟩, ⟨hr, ht, hk⟩ =>
    ⟨fun values hvalues => ⟨_, yields_fetch h ho (Model.mem_of_relation? hr) ht path values,
        fun _ hv => Relation.rowsFor_filter_holdsOneOf (hvalues _ hv) hv⟩,
      allFetchFrom_findable h (Schema.mem_of_model? ht) nested hk⟩

/-- The rows of a value among those that are fetched are the ones that can be found. -/
theorem allFetchFrom_findable (h : db.AnswersFrom rowsOf) {owner : Model} (ho : owner ∈ db.schema.models) :
    ∀ steps : List LoadStep, AllKnown db.schema owner steps → AllFetchFrom db [] (Relation.findable rowsOf) steps
  | [], _ => trivial
  | step :: rest, ⟨hs, hk⟩ => ⟨fetchesFrom_findable h ho step hs, allFetchFrom_findable h ho rest hk⟩

end

end LoadStep

/-! ## Resolving one at a time -/

section

variable {σ : Type} {db : Db σ} {rowsOf : Relation → List Row}

theorem Entity.relation_eq_ok {e : Entity} {r : Relation} {related : Model} (hr : e.model.relation? r.name = some r)
    (ht : db.schema.model? r.target = some related) :
    e.relation db r.name = .ok ⟨e.model, r, related, (e.get? (r.parentColumn e.model)).getD .null,
      (r.baseQuery related).filter (r.constrainedColumn related) ((e.get? (r.parentColumn e.model)).getD .null)⟩ := by
  unfold Entity.relation
  rw [Model.relation_eq_ok_iff.2 hr]
  simp only [bind, Except.bind, Schema.related_eq_ok_iff.2 ht]
  rfl

theorem RelationQuery.yields_results {rq : RelationQuery} {es : List Entity} (hall : Yields (rq.fetch db rq.query) es)
    (hfirst : Yields (rq.fetch db (rq.query.limitTo 1)) (es.take 1)) :
    Yields (rq.results db) (rq.relation.collect es) := by
  unfold RelationQuery.results Relation.collect
  split
  · have hhead : (es.take 1).head? = es.head? := by cases es <;> rfl
    have hone : Yields (rq.first db) (es.take 1).head? := hfirst.bind (yields_pure _)
    rw [hhead] at hone
    exact hone.bind (yields_pure _)
  · exact hall.bind (yields_pure _)

theorem RelationQuery.yields_fetch_of_null {rq : RelationQuery} (hn : rq.parentKey = .null) (q : Query) :
    Yields (rq.fetch db q) [] := by
  unfold RelationQuery.fetch
  rw [hn]
  exact yields_pure []

theorem RelationQuery.yields_fetch {rq : RelationQuery} (hn : rq.parentKey ≠ .null) {q : Query} {rows : List Row}
    (hs : Yields (db.select q) rows) : Yields (rq.fetch db q) (rows.map (rq.relation.hydrate rq.related)) := by
  unfold RelationQuery.fetch
  rw [Value.isNull_eq_false hn]
  exact hs.bind (yields_pure _)

theorem Db.AnswersFrom.results (h : db.AnswersFrom rowsOf) {m related : Model} {r : Relation}
    (hm : m ∈ db.schema.models) (hr : r ∈ m.relations) (ht : db.schema.model? r.target = some related) {v : Value}
    (hn : v ≠ .null) :
    Yields (RelationQuery.results
        ⟨m, r, related, v, (r.baseQuery related).filter (r.constrainedColumn related) v⟩ db)
      (r.collect (((rowsOf r).filter (r.holdsOneOf related [Token.binding db.dialect v])).map (r.hydrate related))) := by
  let rq : RelationQuery := ⟨m, r, related, v, (r.baseQuery related).filter (r.constrainedColumn related) v⟩
  have hk : rq.parentKey ≠ .null := hn
  have hall := h.select hm hr ht (.all v)
  have hfirst := h.select hm hr ht (.first v)
  have hlimit : ((r.baseQuery related).filter (r.constrainedColumn related) v).limit = none := Relation.limit_baseQuery
  have hvalues : (((r.baseQuery related).filter (r.constrainedColumn related) v).limitTo 1).values = [v] :=
    Relation.values_filter hn
  rw [Relation.values_filter hn, hlimit] at hall
  rw [hvalues] at hfirst
  refine RelationQuery.yields_results (RelationQuery.yields_fetch hk hall) ?_
  rw [← List.map_take]
  exact RelationQuery.yields_fetch hk hfirst

/-- A relationship that is not loaded is resolved to the rows that can be found for the value of the entity. -/
theorem Entity.yields_resolve (h : db.AnswersFrom rowsOf) {e : Entity} {r : Relation} {related : Model}
    (hm : e.model ∈ db.schema.models) (hr : e.model.relation? r.name = some r)
    (ht : db.schema.model? r.target = some related) (hfresh : e.related? r.name = none)
    (hapart : ∀ t, e.get? (r.parentColumn e.model) = some (.timestamp t) →
      ∀ row ∈ rowsOf r, r.rowKey? related row ≠ some (Token.binding db.dialect (.timestamp t)))
    (path : List String) :
    let found := r.collect ((r.rowsFor related (Relation.findable rowsOf path r related)
      (e.get? (r.parentColumn e.model))).map (r.hydrate related))
    Yields (e.resolve db r.name) (found, e.setRelated r.name found) := by
  intro found
  unfold Entity.resolve
  rw [hfresh]
  refine (yields_lift (Entity.relation_eq_ok hr ht)).bind (Yields.bind (a := found) ?_ (yields_pure _))
  cases hv : e.get? (r.parentColumn e.model) with
  | none =>
    have hnone : found = r.collect [] := by simp only [found, hv, Relation.rowsFor, List.map_nil]
    rw [hnone]
    exact RelationQuery.yields_results (RelationQuery.yields_fetch_of_null rfl _)
      (RelationQuery.yields_fetch_of_null rfl _)
  | some v =>
    by_cases hn : v = .null
    · have hnone : found = r.collect [] := by simp only [found, hv, hn, Relation.rowsFor, List.map_nil]
      rw [hnone]
      exact RelationQuery.yields_results (RelationQuery.yields_fetch_of_null hn _)
        (RelationQuery.yields_fetch_of_null hn _)
    · have hone : found = r.collect (((rowsOf r).filter
          (r.holdsOneOf related [Token.binding db.dialect v])).map (r.hydrate related)) := by
        rw [Relation.filter_holdsOneOf_binding hn fun t hvt => hapart t (by rw [hv, hvt])]
        simp only [found, hv, Relation.findable]
      rw [hone]
      exact h.results hm (Model.mem_of_relation? hr) ht hn

theorem Related.yields_forEach {r : Relation} {es : List Entity} {f : Entity → Action σ Entity} {g : Entity → Entity}
    (h : ∀ e ∈ es, Yields (f e) (g e)) : Yields (Related.forEach f (r.collect es)) (r.collect (es.map g)) := by
  unfold Relation.collect
  split
  · cases es with
    | nil => exact yields_pure _
    | cons e es => exact (h e List.mem_cons_self).bind (yields_pure _)
  · exact (yields_mapM h).bind (yields_pure _)

theorem Entity.setRelated_setRelated (e : Entity) (name : String) (related related' : Related) :
    (e.setRelated name related').setRelated name related = e.setRelated name related := by
  unfold Entity.setRelated
  rw [Assoc.insert_insert]

namespace LoadStep

mutual

theorem lazily_yields (h : db.AnswersFrom rowsOf) {owner : Model} (ho : owner ∈ db.schema.models)
    {parents : List Entity} :
    ∀ (step : LoadStep) {e₀ e : Entity}, step.Known db.schema owner → step.Distinct →
      step.TextsApart db.dialect rowsOf owner parents → e₀ ∈ parents → e₀.SameRow e → e.model = owner →
        e.related? step.relation.name = none →
          Yields (lazily db e step) (step.attach (Relation.findable rowsOf) owner e)
  | ⟨r, related, path, nested⟩, e₀, e, ⟨hr, ht, hk⟩, hd, ⟨hapart, hbelow⟩, he, hsame, hm, hfresh => by
    subst hm
    have hresolve := Entity.yields_resolve h ho hr ht hfresh
      (fun t hv => hapart e₀ he t (by rw [← hsame.get?, hv])) [r.name]
    -- the children are rows of the relationship, so its own rows are the parents of what is below
    have hchildren : ∀ row ∈ r.rowsFor related (Relation.findable rowsOf [r.name] r related)
          (e.get? (r.parentColumn e.model)),
        Yields (lazilyAll db (r.hydrate related row) nested)
          (attachAll (Relation.findable rowsOf) related (r.hydrate related row) nested) := by
      intro row hrow
      have hmem : row ∈ rowsOf r := (List.mem_filter.1 (r.mem_of_mem_rowsFor hrow)).1
      refine lazilyAll_yields h (Schema.mem_of_model? ht) nested hk hd hbelow (List.mem_map_of_mem hmem) (.refl _)
        (r.model_hydrate related row) fun step _ => ?_
      rw [Entity.related?, r.relations_hydrate, Assoc.get?_nil]
    have hforest := Related.yields_forEach (r := r)
      (f := fun child => lazilyAll db child nested)
      (g := fun child => attachAll (Relation.findable rowsOf) related child nested) (List.forall_mem_map.2 hchildren)
    refine hresolve.bind (Yields.bind hforest ?_)
    rw [attach_eq, Entity.setRelated_setRelated, List.map_map]
    exact yields_pure _

/-- Resolving piece by piece makes of an entity what the rows that can be found make of it. -/
theorem lazilyAll_yields (h : db.AnswersFrom rowsOf) {owner : Model} (ho : owner ∈ db.schema.models)
    {parents : List Entity} :
    ∀ (steps : List LoadStep) {e₀ e : Entity}, AllKnown db.schema owner steps → AllDistinct steps →
      AllTextsApart db.dialect rowsOf owner parents steps → e₀ ∈ parents → e₀.SameRow e → e.model = owner →
        (∀ step ∈ steps, e.related? step.relation.name = none) →
          Yields (lazilyAll db e steps) (attachAll (Relation.findable rowsOf) owner e steps)
  | [], _, e, _, _, _, _, _, _, _ => yields_pure e
  | step :: rest, e₀, e, ⟨hk, hks⟩, ⟨hname, hd, hds⟩, ⟨ha, has⟩, he, hsame, hm, hfresh => by
    have hone := sameRow_attach (Relation.findable rowsOf) owner e step
    refine (lazily_yields h ho step hk hd ha he hsame hm (hfresh step List.mem_cons_self)).bind ?_
    refine lazilyAll_yields h ho rest hks hds has he (hsame.trans hone) (hone.model.trans hm) fun other hother => ?_
    have hne : step.relation.name ≠ other.relation.name := fun heq => hname (heq ▸ List.mem_map_of_mem hother)
    rw [related?_attach, if_neg hne]
    exact hfresh other (List.mem_cons_of_mem _ hother)

end

end LoadStep

/-- **Loading at once is resolving one at a time.**  On a connection that answers the queries of every relationship from
a list of rows, loading a tree for many entities and resolving it for each of them succeed with the same entities, if
nothing of the tree was loaded before and no row holds the text that a timestamp is bound as. -/
theorem Includes.load_eq_lazily (h : db.AnswersFrom rowsOf) {m : Model} (hm : m ∈ db.schema.models) {tree : Includes}
    (hd : tree.Distinct) {path : String} {steps : List LoadStep} (hs : tree.resolve db.schema m path = .ok steps)
    {parents : List Entity} (hmodel : ∀ e ∈ parents, e.model = m)
    (hfresh : ∀ e ∈ parents, ∀ step ∈ steps, e.related? step.relation.name = none)
    (hapart : LoadStep.AllTextsApart db.dialect rowsOf m parents steps) :
    ∃ forest, Yields (LoadStep.runAll db [] m parents steps) forest ∧
      Yields (parents.mapM fun e => LoadStep.lazilyAll db e steps) forest := by
  have hk := Includes.allKnown_resolve tree hs
  have hds := Includes.allDistinct_resolve tree hd hs
  refine ⟨_, LoadStep.runAll_yields m steps parents (LoadStep.allFetchFrom_findable h hm steps hk),
    yields_mapM fun e he => ?_⟩
  exact LoadStep.lazilyAll_yields h hm steps hk hds hapart he (.refl e) (hmodel e he) (hfresh e he)

end

/-! ## A blog that answers from lists -/

namespace Blog

/-- The relationship whose related table a query reads. -/
def relationOf? (q : Query) : Option (Relation × Model) :=
  (schema.models.flatMap Model.relations).findSome? fun r =>
    (schema.model? r.target).bind fun related => if q.source = some (.table related.table) then some (r, related) else none

def answering (rowsOf : Relation → List Row) (op : Operation) (_ : Unit) : Except Error Response × Unit :=
  match op with
  | .query ⟨.query q, _, bindings⟩ =>
    match relationOf? q with
    | some (r, related) => (.ok ⟨.rows (cut q.limit ((rowsOf r).filter (r.holdsOneOf related bindings))), none⟩, ())
    | none => (.ok ⟨.rows [], none⟩, ())
  | _ => (.ok ⟨.count 0, none⟩, ())

def tagsStep : LoadStep :=
  ⟨⟨"tags", 2, .manyToMany ⟨"post_tags", "post_id", "tag_id", ["weight"]⟩, []⟩, tagModel, "posts.tags", []⟩

def postsStep (nested : List LoadStep) : LoadStep :=
  ⟨⟨"posts", 1, .hasMany "user_id", []⟩, postModel, "posts", nested⟩

/-- The relationships of the blog are the posts of a user and the tags of a post. -/
theorem relation_cases {m related : Model} {r : Relation} (hm : m ∈ schema.models) (hr : r ∈ m.relations)
    (ht : schema.model? r.target = some related) :
    (r = (postsStep []).relation ∧ related = postModel) ∨ (r = tagsStep.relation ∧ related = tagModel) := by
  simp only [schema, List.mem_cons, List.not_mem_nil, or_false] at hm
  rcases hm with rfl | rfl | rfl
  · obtain rfl := List.mem_singleton.1 hr
    cases ht
    exact .inl ⟨rfl, rfl⟩
  · obtain rfl := List.mem_singleton.1 hr
    cases ht
    exact .inr ⟨rfl, rfl⟩
  · cases hr

theorem relationOf?_eq {m related : Model} {r : Relation} {q : Query} (hm : m ∈ schema.models) (hr : r ∈ m.relations)
    (ht : schema.model? r.target = some related) (hsource : q.source = some (.table related.table)) :
    relationOf? q = some (r, related) := by
  unfold relationOf?
  rw [hsource]
  rcases relation_cases hm hr ht with ⟨rfl, rfl⟩ | ⟨rfl, rfl⟩
  · rfl
  · rfl

theorem answersFrom_answering (rowsOf : Relation → List Row) : (db (answering rowsOf)).AnswersFrom rowsOf := by
  intro m related r q p c hm hr ht hq hp
  obtain ⟨sql, hprep⟩ := q.prepare_eq_ok (db (answering rowsOf)).dialect
  rw [hprep] at hp
  cases hp
  have hsource : q.source = some (.table related.table) := by
    cases hq <;> exact Relation.source_baseQuery
  refine ⟨none, (), ?_⟩
  simp only [db, answering, relationOf?_eq hm hr ht hsource]

def rowsOf (r : Relation) : List Row := if r.name = "posts" then [post 5 2, post 6 1] else [tag 3 5, tag 4 5]

def readers : List Entity := [user 1, user 2].map (.ofRow userModel)

theorem id_ne_timestamp {es : List Entity} (h : es.all (fun e => ((e.get? "id").bind Value.asTimestamp?).isNone) = true)
    {e : Entity} (he : e ∈ es) (t : Timestamp) : e.get? "id" ≠ some (.timestamp t) := by
  intro ht
  have hn := List.all_eq_true.1 h e he
  rw [ht] at hn
  cases hn

theorem allTextsApart_readers (d : Dialect) :
    LoadStep.AllTextsApart d rowsOf userModel readers [postsStep [tagsStep]] := by
  refine ⟨⟨fun e he t ht => ?_, ⟨fun e he t ht => ?_, trivial⟩, trivial⟩, trivial⟩
  · exact absurd ht (id_ne_timestamp (by decide) he t)
  · exact absurd ht (id_ne_timestamp (by decide) he t)

def timed : Entity := .ofRow userModel (.ofList [("id", .timestamp (.ofUnixSeconds 1000000000))])

def textRowsOf (r : Relation) : List Row :=
  if r.name = "posts" then [.ofList [("id", .int 5), ("user_id", .text "2001-09-09 01:46:40")]] else []

def postCounts (forest : Except Error (List Entity)) : List Nat :=
  match forest with
  | .ok es => es.map fun e => ((e.related? "posts").map fun related => related.toList.length).getD 0
  | .error _ => []

theorem postCounts_eq_of_yields {σ : Type} {x : Action σ (List Entity)} {forest : List Entity} (h : Yields x forest)
    (w : World σ) : postCounts (x.run.run w).1 = postCounts (.ok forest) := by
  obtain ⟨w', hw⟩ := h w
  rw [show x.run.run w = (.ok forest, w') from hw]

end Blog

theorem load_eq_lazily_readers :
    ∃ forest,
      Yields (LoadStep.runAll (Blog.db (Blog.answering Blog.rowsOf)) [] Blog.userModel Blog.readers
        [Blog.postsStep [Blog.tagsStep]]) forest ∧
      Yields (Blog.readers.mapM fun e =>
        LoadStep.lazilyAll (Blog.db (Blog.answering Blog.rowsOf)) e [Blog.postsStep [Blog.tagsStep]]) forest := by
  have hs : (Includes.empty.insert "posts.tags").resolve Blog.schema Blog.userModel "" =
      .ok [Blog.postsStep [Blog.tagsStep]] :=
    Includes.resolve_single rfl rfl (Includes.resolve_single rfl rfl (Includes.resolve_empty _ _ _))
  exact Includes.load_eq_lazily (Blog.answersFrom_answering Blog.rowsOf) (List.get_mem _ _)
    (Includes.distinct_empty.insert "posts.tags") hs (List.forall_mem_map.2 fun _ _ => rfl)
    (List.forall_mem_map.2 fun _ _ _ _ => rfl) (Blog.allTextsApart_readers _)

/-- A timestamp is bound as text.  The query for one user finds the post that holds the text, and matching the rows of
all users by value does not. -/
theorem load_ne_lazily_of_timestamp :
    (Blog.db (Blog.answering Blog.textRowsOf)).AnswersFrom Blog.textRowsOf ∧
      (Includes.empty.insert "posts").resolve Blog.schema Blog.userModel "" = .ok [Blog.postsStep []] ∧
      ¬ ∃ forest,
        Yields (LoadStep.runAll (Blog.db (Blog.answering Blog.textRowsOf)) [] Blog.userModel [Blog.timed]
          [Blog.postsStep []]) forest ∧
        Yields ([Blog.timed].mapM fun e =>
          LoadStep.lazilyAll (Blog.db (Blog.answering Blog.textRowsOf)) e [Blog.postsStep []]) forest := by
  refine ⟨Blog.answersFrom_answering _, Includes.resolve_single rfl rfl (Includes.resolve_empty _ _ _), ?_⟩
  rintro ⟨forest, heager, hlazy⟩
  have hnone : Blog.postCounts (.ok forest) = [0] := by
    rw [← Blog.postCounts_eq_of_yields heager ⟨(), []⟩]
    decide +kernel
  have hone : Blog.postCounts (.ok forest) = [1] := by
    rw [← Blog.postCounts_eq_of_yields hlazy ⟨(), []⟩]
    decide +kernel
  rw [hnone] at hone
  cases hone

end SqlMapper
