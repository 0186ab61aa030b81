import SqlMapper.Proofs.Eager.Loaded
import SqlMapper.Proofs.Session.Table
import SqlMapper.Proofs.Sql.Counted
/-!
# Exists — whether a query has entities

To ask whether there are entities is to count them, by the query with its page.  The entities come from the page of the
rows, and the answer from the page of the count (`Query.read?_tokens_count`): an offset below the number of the rows
skips the count, and on SQL Server a limit of zero leaves it.  In all other cases the two agree
(`ModelQuery.exists_agrees_with_get_iff`).
-/
namespace SqlMapper

variable {α : Type}

/-! ## Queries on one table -/

/-- The rows come from the table, and from nowhere else, and each for itself. -/
structure Query.OnTable (table : String) (q : Query) : Prop where
  source : q.source = some (.table table)
  joins : q.joins = []
  groupings : q.groupings = []
  havings : q.havings = []
  distinct : q.distinct = false

/-- The page of the rows can be written in every dialect: there is none, or there are not more rows than numbers. -/
def Query.FitsPage (q : Query) (size : Nat) : Prop := q.limit = none ∧ q.offset = none ∨ size < UInt64.size - 1

/-- The page of a query without duplicates to drop is read back in every dialect. -/
theorem Query.read?_tokens_indistinct {β : Type} [DecidableEq β] {q : Query} (hd : q.distinct = false)
    (ha : q.aggregate = none) (e : Evaluation α β) (d : Dialect)
    (hfits : q.FitsPage (e.rows (q.sourceTokens d) q.orderTokens).length) :
    ∃ s, PagedSelect.read? (q.tokens d) = some s ∧
      s.selects e = ↑(takeLimit q.limit (dropOffset q.offset
        ((e.rows (q.sourceTokens d) q.orderTokens).map (e.project q.columnTokens)))) := by
  rcases hfits with ⟨hl, ho⟩ | hlength
  · refine ⟨_, Query.read?_tokens_cut ha (.inr ho), ?_⟩
    rw [PagedSelect.selects, hd, distinctRows_false, hl, ho]
    cases d <;> rfl
  have hprojected : ((e.rows (q.sourceTokens d) q.orderTokens).map (e.project q.columnTokens)).length <
      UInt64.size - 1 := by rwa [List.length_map]
  by_cases hcut : d ≠ .sqlServer ∨ q.offset = none
  · refine ⟨_, Query.read?_tokens_cut ha hcut, ?_⟩
    rw [PagedSelect.selects, hd, distinctRows_false,
      takeLimit_written hcut (Nat.lt_of_lt_of_le hprojected (Nat.sub_le _ _))]
  · rw [not_or, not_not, ← ne_eq, Option.ne_none_iff_exists'] at hcut
    obtain ⟨rfl, start, ho⟩ := hcut
    refine ⟨_, Query.read?_tokens_numbered ha ho, ?_⟩
    rw [PagedSelect.selects, distinctRows_numbered, inRange_written start q.limit hprojected, ho]

/-! ## A connection that shows pages -/

/-- The connection answers queries on the table with what their text shows: a select with the rows of its page, and a
count with the counts of its page.  An order changes nothing but the order of the rows. -/
structure Db.ShowsPages {σ : Type} (db : Db σ) (table : String) (e : σ → Evaluation α Row) : Prop where
  ordered : ∀ c source order, ((e c).rows source order).Perm ((e c).rows source [])
  select : ∀ (q : Query) (p : Prepared) (c : σ) (s : PagedSelect), q.OnTable table → q.aggregate = none →
    (Statement.query q).prepare db.dialect = .ok p → PagedSelect.read? (q.tokens db.dialect) = some s →
      ∃ rows key c', db.exec (.query p) c = (.ok ⟨.rows rows, key⟩, c') ∧ ↑rows = s.selects (e c)
  count : ∀ (q : Query) (p : Prepared) (c : σ) (s : CountSelect), q.OnTable table → q.Counts →
    (Statement.query q).prepare db.dialect = .ok p → CountSelect.read? (q.tokens db.dialect) = some s →
      ∃ rows key c', db.exec (.query p) c = (.ok ⟨.rows rows, key⟩, c') ∧
        rows.map (·.get? "aggregate") = (s.shows (e c)).map fun n => some (.int (.ofNat n))

namespace Db.ShowsPages

variable {σ : Type} {db : Db σ} {table : String} {e : σ → Evaluation α Row}

theorem returns_select (h : db.ShowsPages table e) {q : Query} (hq : q.OnTable table) (ha : q.aggregate = none)
    {w : World σ} (hsize : q.size (e w.connection) db.dialect < UInt64.size - 1) :
    ∃ rows w', Returns (db.select q) w rows w' ∧
      (rows ≠ [] ↔ q.limit ≠ some 0 ∧ (q.offset.getD 0).toNat < q.size (e w.connection) db.dialect) := by
  have hperm := (h.ordered w.connection (q.sourceTokens db.dialect) q.orderTokens).length_eq
  rw [Query.size, ← hperm] at hsize ⊢
  obtain ⟨s, hread, hs⟩ := Query.read?_tokens_indistinct hq.distinct ha (e w.connection) db.dialect (.inr hsize)
  obtain ⟨sql, bindings, hp⟩ := Statement.prepare_eq_ok (d := db.dialect) (s := .query q) rfl
  obtain ⟨rows, key, c, he, hrows⟩ := h.select q _ w.connection s hq ha hp hread
  refine ⟨rows, _, (Db.returns_select db).2 ⟨_, key, c, hp, he, rfl⟩, ?_⟩
  have hlength := (Multiset.coe_eq_coe.1 (hrows.trans hs)).length_eq
  rw [← List.length_pos_iff, hlength, List.length_pos_iff, page_ne_nil_iff, List.length_map]

/-- A count is answered by a row with the number of all rows, or by none if the page leaves out the first row. -/
theorem returns_count (h : db.ShowsPages table e) {q : Query} (hq : q.OnTable table) (hc : q.Counts) (w : World σ) :
    ∃ rows w', Returns (db.select q) w rows w' ∧
      rows.map (·.get? "aggregate") =
        if q.KeepsCount db.dialect then [some (.int (.ofNat (q.size (e w.connection) db.dialect)))] else [] := by
  obtain ⟨s, hread, hs⟩ := Query.read?_tokens_count hc (e w.connection) db.dialect
  obtain ⟨sql, bindings, hp⟩ := Statement.prepare_eq_ok (d := db.dialect) (s := .query q) rfl
  obtain ⟨rows, key, c, he, hrows⟩ := h.count q _ w.connection s hq hc hp hread
  refine ⟨rows, _, (Db.returns_select db).2 ⟨_, key, c, hp, he, rfl⟩, ?_⟩
  rw [hrows, hs, apply_ite (List.map _)]
  rfl

end Db.ShowsPages

/-! ## Model queries -/

namespace ModelQuery

/-- A query for the entities of the model by predicates, orders and a page. -/
inductive Plain (m : Model) : ModelQuery → Prop where
  | all : Plain m (.all m)
  | filter {mq : ModelQuery} (h : Plain m mq) (column : String) (value : Value) : Plain m (mq.filter column value)
  | filterOp {mq : ModelQuery} (h : Plain m mq) (column : String) (op : Comparison) (value : Value) :
      Plain m (mq.filterOp column op value)
  | filterIn {mq : ModelQuery} (h : Plain m mq) (column : String) (values : List Value) :
      Plain m (mq.filterIn column values)
  | filterNull {mq : ModelQuery} (h : Plain m mq) (column : String) : Plain m (mq.filterNull column)
  | orderBy {mq : ModelQuery} (h : Plain m mq) (column : String) : Plain m (mq.orderBy column)
  | orderByDescending {mq : ModelQuery} (h : Plain m mq) (column : String) : Plain m (mq.orderByDescending column)
  | limit {mq : ModelQuery} (h : Plain m mq) (n : UInt64) : Plain m (mq.limit n)
  | offset {mq : ModelQuery} (h : Plain m mq) (n : UInt64) : Plain m (mq.offset n)

variable {m : Model} {mq : ModelQuery}

/-- Such a query loads no relationships, and selects rows of the model's table. -/
theorem Plain.selects (h : Plain m mq) :
    mq.includes = .empty ∧ mq.query.aggregate = none ∧ mq.query.OnTable m.table := by
  induction h with
  | all => exact ⟨rfl, rfl, rfl, rfl, rfl, rfl, rfl⟩
  | filter _ _ _ ih | filterOp _ _ _ _ ih | filterIn _ _ _ ih | filterNull _ _ ih | orderBy _ _ ih
  | orderByDescending _ _ ih | limit _ _ ih | offset _ _ ih =>
    obtain ⟨hincludes, haggregate, htable⟩ := ih
    exact ⟨hincludes, haggregate, htable.source, htable.joins, htable.groupings, htable.havings, htable.distinct⟩

theorem counts_countQuery (mq : ModelQuery) : mq.countQuery.Counts := ⟨rfl, rfl⟩

theorem onTable_countQuery {table : String} (h : mq.query.OnTable table) : mq.countQuery.OnTable table :=
  ⟨h.source, h.joins, h.groupings, h.havings, h.distinct⟩

variable {σ : Type} {db : Db σ} {e : σ → Evaluation α Row}

theorem returns_get_of_plain (h : Plain m mq) (hdb : db.ShowsPages m.table e) {w : World σ}
    (hsize : mq.query.size (e w.connection) db.dialect < UInt64.size - 1) :
    ∃ es w', Returns (mq.get db) w es w' ∧
      (es ≠ [] ↔ mq.query.limit ≠ some 0 ∧
        (mq.query.offset.getD 0).toNat < mq.query.size (e w.connection) db.dialect) := by
  obtain ⟨hincludes, haggregate, htable⟩ := h.selects
  obtain ⟨rows, w', hselect, hrows⟩ := hdb.returns_select htable haggregate hsize
  refine ⟨rows.map (Entity.ofRow mq.model), w', ?_, ?_⟩
  · refine returns_bind.2 ⟨[], w, returns_lift.2 ⟨?_, rfl⟩,
      returns_bind.2 ⟨rows, w', hselect, returns_pure.2 ⟨rfl, rfl⟩⟩⟩
    rw [hincludes]
    exact Includes.resolve_empty _ _ _
  · rw [ne_eq, List.map_eq_nil_iff]
    exact hrows

theorem returns_count_of_plain (h : Plain m mq) (hdb : db.ShowsPages m.table e) {w : World σ}
    (hsize : mq.query.size (e w.connection) db.dialect < 9223372036854775808) :
    ∃ w', Returns (mq.count db) w
      (if mq.query.KeepsCount db.dialect then .ofNat (mq.query.size (e w.connection) db.dialect) else 0) w' := by
  obtain ⟨rows, w', hselect, hrows⟩ :=
    hdb.returns_count (onTable_countQuery h.selects.2.2) mq.counts_countQuery w
  have hreturns : ∀ k : Int64, ((rows.head?.bind (·.get? "aggregate")).getD (.int 0)).toInt64 = .ok k →
      Returns (mq.count db) w (.ofNat k.toInt.toNat) w' := fun k hk =>
    returns_bind.2 ⟨rows, w', hselect, returns_bind.2 ⟨k, w', returns_lift.2 ⟨hk, rfl⟩, returns_pure.2 ⟨rfl, rfl⟩⟩⟩
  refine ⟨w', ?_⟩
  by_cases hkept : mq.query.KeepsCount db.dialect
  · obtain ⟨row, rfl, hrow⟩ := List.map_eq_singleton_iff.1 (hrows.trans (if_pos hkept))
    have hread := hreturns (.ofNat (mq.query.size (e w.connection) db.dialect)) (by
      rw [List.head?_cons, Option.bind_some, hrow]
      rfl)
    rw [Int64.toInt_ofNat_of_lt hsize, Int.toNat_natCast] at hread
    rw [if_pos hkept]
    exact hread
  · obtain rfl := List.map_eq_nil_iff.1 (hrows.trans (if_neg hkept))
    rw [if_neg hkept]
    exact hreturns 0 rfl

theorem returns_exists_of_plain (h : Plain m mq) (hdb : db.ShowsPages m.table e) {w : World σ}
    (hsize : mq.query.size (e w.connection) db.dialect < 9223372036854775808) :
    ∃ found w', Returns (mq.exists? db) w found w' ∧
      (found = true ↔ mq.query.KeepsCount db.dialect ∧ 0 < mq.query.size (e w.connection) db.dialect) := by
  obtain ⟨w', hcount⟩ := returns_count_of_plain h hdb hsize
  refine ⟨_, w', returns_bind.2 ⟨_, w', hcount, returns_pure.2 ⟨rfl, rfl⟩⟩, ?_⟩
  rw [decide_eq_true_iff]
  split
  · next hkept =>
    rw [and_iff_right hkept, UInt64.lt_iff_toNat_lt, UInt64.toNat_ofNat_of_lt' (Nat.lt_trans hsize (by decide))]
    rfl
  · next hkept => exact iff_of_false (by decide) fun h => hkept h.1

/-- **Whether there are entities is answered as they are got**, unless an offset skips the count and not all rows, or a
limit of zero is not written for the count. -/
theorem exists_agrees_with_get_iff (h : Plain m mq) (hdb : db.ShowsPages m.table e) (w : World σ) {n : Nat}
    (hn : mq.query.size (e w.connection) db.dialect = n) (hfits : n < 9223372036854775808) :
    ∃ es w₁ found w₂, Returns (mq.get db) w es w₁ ∧ Returns (mq.exists? db) w found w₂ ∧
      (es ≠ [] ↔ mq.query.limit ≠ some 0 ∧ (mq.query.offset.getD 0).toNat < n) ∧
      (found = true ↔ mq.query.KeepsCount db.dialect ∧ 0 < n) ∧
      ((found = true ↔ es ≠ []) ↔
        ¬ (mq.query.limit ≠ some 0 ∧ 0 < (mq.query.offset.getD 0).toNat ∧ (mq.query.offset.getD 0).toNat < n) ∧
          ¬ (db.dialect = .sqlServer ∧ mq.query.offset = none ∧ mq.query.limit = some 0 ∧ 0 < n)) := by
  subst hn
  obtain ⟨es, w₁, hget, hes⟩ := returns_get_of_plain h hdb (Nat.lt_trans hfits (by decide))
  obtain ⟨found, w₂, hexists, hfound⟩ := returns_exists_of_plain h hdb hfits
  refine ⟨es, w₁, found, w₂, hget, hexists, hes, hfound, ?_⟩
  have hzero : mq.query.offset.getD 0 = 0 ↔ (mq.query.offset.getD 0).toNat = 0 := (UInt64.toNat_inj (b := 0)).symm
  have hnone : mq.query.offset = none → (mq.query.offset.getD 0).toNat = 0 := fun h => by
    rw [h]
    rfl
  rw [hfound, hes, Query.KeepsCount, hzero]
  by_cases hlimit : mq.query.limit = some 0
  · simp only [hlimit, ne_eq, not_true, false_and, not_false_iff, true_and, true_implies, iff_false]
    exact not_congr ⟨fun h => ⟨h.1.2.1, h.1.2.2, h.2⟩, fun h => ⟨⟨hnone h.2.1, h.1, h.2.1⟩, h.2.2⟩⟩
  · simp only [hlimit, ne_eq, not_false_iff, false_implies, true_and, false_and, and_true, and_false]
    omega

end ModelQuery

/-! ## A connection that reads what it is asked -/

namespace PageStore

variable (d : Dialect) (e : List Row → Evaluation Row Row)

/-- The rows that a select shows, in the order of their numbers. -/
def shown (e : Evaluation Row Row) : PagedSelect → List Row
  | .cut distinct top columns source order limit offset =>
    takeLimit limit (dropOffset offset (takeLimit top
      (distinctRows distinct ((e.rows source order).map (e.project columns)))))
  | .numbered distinct columns order source first last =>
    inRange first.toNat (last.map UInt64.toNat)
      (distinctRows distinct (numbered ((e.rows source order).map (e.project columns))))

def answer (rows : List Row) (q : Query) : List Row :=
  match q.aggregate with
  | none => ((PagedSelect.read? (q.tokens d)).map (shown (e rows))).getD []
  | some _ =>
    (((CountSelect.read? (q.tokens d)).map (·.shows (e rows))).getD []).map fun n =>
      .ofList [("aggregate", .int (.ofNat n))]

def exec (op : Operation) (rows : List Row) : Except Error Response × List Row :=
  match op with
  | .query ⟨.query q, _, _⟩ => (.ok ⟨.rows (answer d e rows q), none⟩, rows)
  | _ => (.ok ⟨.count 0, none⟩, rows)

variable {d e}

theorem coe_shown (e : Evaluation Row Row) (s : PagedSelect) : ↑(shown e s) = s.selects e := by cases s <;> rfl

/-- Rows that are kept in a list, and read as the text says, are an example of a connection that shows pages. -/
theorem showsPages {db : Db (List Row)} (h : db.exec = exec db.dialect e) (table : String)
    (ordered : ∀ rows source order, ((e rows).rows source order).Perm ((e rows).rows source [])) :
    db.ShowsPages table e where
  ordered := ordered
  select q p rows s _ ha hp hs := by
    obtain ⟨statement, sql, bindings⟩ := p
    cases Statement.statement_of_prepare hp
    refine ⟨answer db.dialect e rows q, none, rows, by rw [h]; rfl, ?_⟩
    rw [answer, ha, hs]
    exact coe_shown (e rows) s
  count q p rows s _ hc hp hs := by
    obtain ⟨statement, sql, bindings⟩ := p
    cases Statement.statement_of_prepare hp
    refine ⟨answer db.dialect e rows q, none, rows, by rw [h]; rfl, ?_⟩
    rw [answer, hc.aggregate, hs]
    exact List.map_map

end PageStore

namespace Blog

/-- The rows of the users, which no predicate is asked of. -/
def userRows (d : Dialect) (rows : List Row) : Evaluation Row Row where
  rows source _ := if source = (Query.table "users").sourceTokens d then rows else []
  project _ row := row

def pageDb (d : Dialect) : Db (List Row) :=
  { db (PageStore.exec d (userRows d)) with dialect := d }

theorem showsPages_pageDb (d : Dialect) : (pageDb d).ShowsPages userModel.table (userRows d) :=
  PageStore.showsPages rfl _ fun _ _ _ => .refl _

def twoUsers : World (List Row) := ⟨[user 1, user 2], []⟩

def firstUser : ModelQuery := ((ModelQuery.all userModel).orderBy "id").limit 1

def laterUsers : ModelQuery := ((ModelQuery.all userModel).orderBy "id").offset 1

def noUsers : ModelQuery := (ModelQuery.all userModel).limit 0

/-- The keys of the entities that a call returns. -/
def gotKeys {σ : Type} (got : Action σ (List Entity)) (w : World σ) : Option (List (Option Value)) :=
  (got.run.run w).1.toOption.map fun es => es.map (·.key?)

end Blog

/-- There is a first user, and SQL Server says so. -/
theorem exists_agrees_with_get_first :
    Blog.firstUser.Plain Blog.userModel ∧ (Blog.pageDb .sqlServer).ShowsPages Blog.userModel.table
        (Blog.userRows .sqlServer) ∧
      Blog.firstUser.query.size (Blog.userRows .sqlServer Blog.twoUsers.connection) .sqlServer = 2 ∧
      2 < 9223372036854775808 ∧
      ∃ es w₁ found w₂, Returns (Blog.firstUser.get (Blog.pageDb .sqlServer)) Blog.twoUsers es w₁ ∧
        Returns (Blog.firstUser.exists? (Blog.pageDb .sqlServer)) Blog.twoUsers found w₂ ∧ es ≠ [] ∧ found = true := by
  have hplain : Blog.firstUser.Plain Blog.userModel := .limit (.orderBy .all "id") 1
  have hpages := Blog.showsPages_pageDb .sqlServer
  have hsize : Blog.firstUser.query.size (Blog.userRows .sqlServer Blog.twoUsers.connection) .sqlServer = 2 := by
    decide +kernel
  obtain ⟨es, w₁, found, w₂, hget, hexists, hes, hfound, -⟩ :=
    ModelQuery.exists_agrees_with_get_iff hplain hpages Blog.twoUsers hsize (by decide)
  exact ⟨hplain, hpages, hsize, by decide, es, w₁, found, w₂, hget, hexists, hes.2 (by decide), hfound.2 (by decide)⟩

/-- Behind the first user there is another one, who is got although there is said to be none.  SQL Server says that
there is a user where none is got. -/
theorem exists_differs_from_get :
    (Blog.laterUsers.Plain Blog.userModel ∧
        ((Blog.laterUsers.exists? (Blog.pageDb .sqlite)).run.run Blog.twoUsers).1.toOption = some false ∧
        Blog.gotKeys (Blog.laterUsers.get (Blog.pageDb .sqlite)) Blog.twoUsers = some [some (.int 2)]) ∧
      Blog.noUsers.Plain Blog.userModel ∧
        ((Blog.noUsers.exists? (Blog.pageDb .sqlServer)).run.run Blog.twoUsers).1.toOption = some true ∧
        Blog.gotKeys (Blog.noUsers.get (Blog.pageDb .sqlServer)) Blog.twoUsers = some [] :=
  ⟨⟨.offset (.orderBy .all "id") 1, by decide +kernel, by decide +kernel⟩, .limit .all 0, by decide +kernel,
    by decide +kernel⟩

end SqlMapper
