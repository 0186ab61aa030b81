import SqlMapper.Proofs.Query.Refined
import SqlMapper.Proofs.Relation.Sync
import SqlMapper.Proofs.Session.Trace
/-!
# Constrained — the rows that a relation query yields

The query of a relationship starts with one predicate, which ties the rows to the parent, and everything that is added
stands behind it in the same list.  Predicates joined by `AND` narrow the parent's rows down.  From the first `OR` on
they are an alternative to the constraint, and the rows that come back are not compared with the parent again.
`RelationQuery.selects_filtered_iff` says which rows are selected, for all refinements.
-/
namespace SqlMapper

/-- The operation is a query that selects rows by the given predicates. -/
def Operation.selectsBy (filters : List Filter) : Operation → Prop
  | .query p => ∃ q, p.statement = .query q ∧ q.filters = filters
  | _ => False

namespace RelationQuery

/-- The predicate that ties rows to the parent. -/
def constraint (rq : RelationQuery) : Predicate :=
  .compare (rq.relation.constrainedColumn rq.related) .eq (.value rq.parentKey)

/-- The row is related to the parent: it holds the parent's value in the constrained column. -/
def LinksRow (rq : RelationQuery) (ρ : Reading) : Prop :=
  ρ.column (rq.relation.constrainedColumn rq.related) = ρ.bound rq.parentKey ∧ ρ.bound rq.parentKey ≠ .null

/-- The relation query with another query underneath. -/
def withQuery (rq : RelationQuery) (q : Query) : RelationQuery := { rq with query := q }

theorem truth_constraint_iff {rq : RelationQuery} (hk : rq.parentKey ≠ .null) (ρ : Reading) :
    rq.constraint.truth ρ = some true ↔ rq.LinksRow ρ :=
  Predicate.truth_equal_iff ρ _ hk

end RelationQuery

/-- The query of a relationship has the constraint and no other predicate. -/
theorem Entity.filters_relation {σ : Type} {db : Db σ} {e : Entity} {name : String} {rq : RelationQuery}
    (h : e.relation db name = .ok rq) : rq.query.filters = [⟨.and, rq.constraint⟩] := by
  obtain ⟨r, -, h⟩ := exists_ok_of_bind h
  obtain ⟨related, -, h⟩ := exists_ok_of_bind h
  cases h
  have hbase := r.filters_baseQuery related
  show (r.baseQuery related).filters ++ _ = _
  rw [hbase]
  rfl

namespace RelationQuery

variable {σ : Type} {db : Db σ} (rq : RelationQuery)

/-! ## What is sent -/

theorem sends_fetch {q : Query} {filters : List Filter} (h : q.filters = filters) :
    db.Sends (Operation.selectsBy filters) (rq.fetch db q) := by
  unfold fetch
  split
  · exact Db.sends_pure _
  · refine (Db.sends_select fun p hp => ?_).bind fun _ => Db.sends_pure _
    exact ⟨q, Statement.statement_of_prepare hp, h⟩

theorem sends_get : db.Sends (Operation.selectsBy rq.query.filters) (rq.get db) := rq.sends_fetch rfl

theorem sends_first : db.Sends (Operation.selectsBy rq.query.filters) (rq.first db) := by
  have hlimit : (rq.query.limitTo 1).filters = rq.query.filters := rfl
  unfold first
  exact (rq.sends_fetch hlimit).bind fun _ => Db.sends_pure _

theorem sends_results : db.Sends (Operation.selectsBy rq.query.filters) (rq.results db) := by
  unfold results
  split
  · exact rq.sends_first.bind fun _ => Db.sends_pure _
  · exact rq.sends_get.bind fun _ => Db.sends_pure _

variable {rq}

/-- Every row that the connection answers with becomes a related entity. -/
theorem returns_get (hk : rq.parentKey ≠ .null) {w w' : World σ} {es : List Entity} (h : Returns (rq.get db) w es w') :
    ∃ rows, Returns (db.select rq.query) w rows w' ∧ es = rows.map (rq.relation.hydrate rq.related) := by
  unfold get fetch at h
  rw [Value.isNull_eq_false hk] at h
  obtain ⟨rows, w₁, hs, hp⟩ := returns_bind.1 h
  obtain ⟨rfl, rfl⟩ := returns_pure.1 hp
  exact ⟨rows, hs, rfl⟩

/-! ## What is selected -/

/-- **The rows of a refined relation query** are the parent's rows of which all is true that was added before the first
`OR`, and the rows, of whatever parent, of which the alternatives from there on are true.  `get`, `first` and `results`
select rows by these predicates, and every row that `get` is answered with becomes a related entity.  Without an `OR`
among what was added, the parent's rows are the only ones. -/
theorem selects_filtered_iff {e : Entity} {name : String} (h : e.relation db name = .ok rq)
    (hk : rq.parentKey ≠ .null) {q : Query} (hq : rq.query.Filtered q) :
    db.Sends (Operation.selectsBy q.filters) ((rq.withQuery q).get db) ∧
      db.Sends (Operation.selectsBy q.filters) ((rq.withQuery q).first db) ∧
      db.Sends (Operation.selectsBy q.filters) ((rq.withQuery q).results db) ∧
      (∀ w es w', Returns ((rq.withQuery q).get db) w es w' →
        ∃ rows, Returns (db.select q) w rows w' ∧ es = rows.map (rq.relation.hydrate rq.related)) ∧
      ∃ added, q.filters = ⟨.and, rq.constraint⟩ :: added ∧
        (∀ ρ : Reading, q.selects ρ = true ↔
          (rq.LinksRow ρ ∧ ∀ f ∈ Filter.leading added, f.predicate.truth ρ = some true) ∨
            (Filter.alternatives added ≠ [] ∧ Filter.listTruth ρ (Filter.alternatives added) = some true)) ∧
        ((∀ f ∈ added, f.connector = .and) → ∀ ρ : Reading, q.selects ρ = true → rq.LinksRow ρ) := by
  have hkey : (rq.withQuery q).parentKey ≠ .null := hk
  refine ⟨(rq.withQuery q).sends_get, (rq.withQuery q).sends_first, (rq.withQuery q).sends_results,
    fun w es w' hw => returns_get hkey hw, ?_⟩
  obtain ⟨added, rfl⟩ := hq.exists_added
  have hfilters : (rq.query.withAdded added).filters = ⟨.and, rq.constraint⟩ :: added := by
    show rq.query.filters ++ added = _
    rw [Entity.filters_relation h]
    rfl
  have hselects : ∀ ρ : Reading, (rq.query.withAdded added).selects ρ = true ↔
      (rq.LinksRow ρ ∧ ∀ f ∈ Filter.leading added, f.predicate.truth ρ = some true) ∨
        (Filter.alternatives added ≠ [] ∧ Filter.listTruth ρ (Filter.alternatives added) = some true) := by
    intro ρ
    rw [Query.selects_eq_true_iff, hfilters, Filter.listTruth_cons_iff, truth_constraint_iff hk]
  refine ⟨added, hfilters, hselects, ?_⟩
  intro hand ρ hsel
  rcases (hselects ρ).1 hsel with ⟨hlinks, -⟩ | ⟨hne, -⟩
  · exact hlinks
  · exact absurd (Filter.alternatives_eq_nil_iff.2 hand) hne

end RelationQuery

namespace Blog

def reader : Entity := .ofRow userModel (user 1)

/-- The posts of the reader. -/
def readersPosts : RelationQuery :=
  let posts : Relation := ⟨"posts", 1, .hasMany "user_id", []⟩
  ⟨userModel, posts, postModel, .int 1, (posts.baseQuery postModel).filter (posts.constrainedColumn postModel) (.value (.int 1))⟩

theorem relation_reader : reader.relation rowDb "posts" = .ok readersPosts := rfl

/-- Posts five and six, of the reader and of another user. -/
def postRows : List Row := [post 5 1, post 6 2]

def idsOf (result : Except Error (List Entity)) : List (Option Value) :=
  match result with
  | .ok es => es.map (·.get? "id")
  | .error _ => []

/-- The posts that a refinement of the reader's posts yields. -/
def idsOfRefined (refine : Query → Query) : List (Option Value) :=
  idsOf (((readersPosts.refine refine).get rowDb).run.run ⟨postRows, []⟩).1

end Blog

theorem selects_filtered_iff_reader :
    Blog.readersPosts.parentKey ≠ .null ∧
      Blog.readersPosts.query.Filtered (Blog.readersPosts.query.filterOp (.parse "id") .gt (.value (.int 4))) ∧
      ((Blog.readersPosts.query.filterOp (.parse "id") .gt (.value (.int 4))).selects
          (RowStore.reading .sqlite (Blog.post 6 2)) = true →
        Blog.readersPosts.LinksRow (RowStore.reading .sqlite (Blog.post 6 2))) := by
  have hk : Blog.readersPosts.parentKey ≠ .null := by decide
  have hq : Blog.readersPosts.query.Filtered (Blog.readersPosts.query.filterOp (.parse "id") .gt (.value (.int 4))) :=
    .push .refl .and _
  refine ⟨hk, hq, ?_⟩
  obtain ⟨-, -, -, -, added, hadded, -, hand⟩ := RelationQuery.selects_filtered_iff Blog.relation_reader hk hq
  have hone : added = [⟨.and, .compare (.parse "id") .gt (.value (.int 4))⟩] := (List.cons.inj hadded).2.symm
  refine hand ?_ _
  rw [hone]
  intro f hf
  rw [List.mem_singleton.1 hf]

/-- A method that adds with `OR` makes the other user's post one of the reader's. -/
theorem selects_row_of_other_parent_of_or :
    Blog.reader.relation Blog.rowDb "posts" = .ok Blog.readersPosts ∧
      Blog.readersPosts.query.Filtered (Blog.readersPosts.query.orFilter (.parse "id") (.value (.int 6))) ∧
      (Blog.readersPosts.query.orFilter (.parse "id") (.value (.int 6))).selects
        (RowStore.reading .sqlite (Blog.post 6 2)) = true ∧
      ¬ Blog.readersPosts.LinksRow (RowStore.reading .sqlite (Blog.post 6 2)) ∧
      Blog.idsOfRefined (·.orFilter (.parse "id") (.value (.int 6))) = [some (.int 5), some (.int 6)] := by
  refine ⟨Blog.relation_reader, .push .refl .or _, by decide +kernel, ?_, by decide +kernel⟩
  rintro ⟨heq, -⟩
  revert heq
  decide +kernel

end SqlMapper
