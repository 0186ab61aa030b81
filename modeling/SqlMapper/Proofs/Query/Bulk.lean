import SqlMapper.Proofs.Entity.Write
import SqlMapper.Proofs.Query.Exists
import SqlMapper.Proofs.Query.Find
/-!
# Bulk — which rows a bulk write changes

An update and a delete take the table and the predicates of a model query.  Its joins, its order and its page are no part
of what is written, so the write ends as if they were not there (`Db.SeesText.endAlike_execute`), and it changes all rows
of the table that the predicates select.  The entities of the same query come from the page of the joined rows.  They
stand for all rows that the write changes where neither the joins nor the page leave one of them out
(`ModelQuery.bulk_writes_selected`), and else for fewer.
-/
namespace SqlMapper

variable {σ α β : Type}

/-! ## What a write takes of a query -/

namespace Query

/-- The table and the predicates. -/
def bare (q : Query) : Query := { empty with source := q.source, filters := q.filters }

def unfiltered (q : Query) : Query := { q with filters := [] }

/-- The methods that narrow a query or put its rows in order: predicates, joins, orders and a page. -/
inductive Narrowing : (Query → Query) → Prop where
  | filter (connector : Connector) (predicate : Predicate) : Narrowing (·.pushFilter connector predicate)
  | group (connector : Connector) (build : Query → Query) : Narrowing (·.pushGroup connector build)
  | join (kind : JoinKind) (table : String) (clauses : List JoinClause) : Narrowing (·.pushJoin kind table clauses)
  | orderBy (column : Column) : Narrowing (·.orderBy column)
  | orderByDescending (column : Column) : Narrowing (·.orderByDescending column)
  | limit (n : UInt64) : Narrowing (·.limitTo n)
  | offset (n : UInt64) : Narrowing (·.skip n)

theorem Narrowing.kept {f : Query → Query} (hf : Narrowing f) (q : Query) :
    (f q).aggregate = q.aggregate ∧ (f q).distinct = q.distinct := by
  cases hf with
  | group connector build =>
    unfold pushGroup
    split <;> exact ⟨rfl, rfl⟩
  | _ => exact ⟨rfl, rfl⟩

end Query

/-- A model query that is built by such methods. -/
inductive ModelQuery.Narrowed (m : Model) : ModelQuery → Prop where
  | all : Narrowed m (.all m)
  | scope {mq : ModelQuery} {f : Query → Query} (h : Narrowed m mq) (hf : Query.Narrowing f) : Narrowed m (mq.scope f)

theorem ModelQuery.Narrowed.selects {m : Model} {mq : ModelQuery} (h : mq.Narrowed m) :
    mq.model = m ∧ mq.includes = .empty ∧ mq.query.aggregate = none ∧ mq.query.distinct = false := by
  induction h with
  | all => exact ⟨rfl, rfl, rfl, rfl⟩
  | scope _ hf ih =>
    obtain ⟨hmodel, hincludes, haggregate, hdistinct⟩ := ih
    obtain ⟨ha, hd⟩ := hf.kept _
    exact ⟨hmodel, hincludes, ha.trans haggregate, hd.trans hdistinct⟩

theorem Statement.compile_delete_bare (q : Query) (d : Dialect) :
    (Statement.delete q).compile d = (Statement.delete q.bare).compile d :=
  rfl

theorem Statement.compile_update_bare (q : Query) (assignments : List (String × Expr)) (d : Dialect) :
    (Statement.update ⟨q, assignments⟩).compile d = (Statement.update ⟨q.bare, assignments⟩).compile d :=
  rfl

/-! ## Writes of the same text -/

/-- The calls have the same result, and leave the connection in the same state. -/
structure EndAlike (x y : Action σ β) (w : World σ) : Prop where
  result : (x.run.run w).1 = (y.run.run w).1
  connection : (x.run.run w).2.connection = (y.run.run w).2.connection

/-- Of a write the connection gets the text and the values that are bound, and nothing else. -/
def Db.SeesText (db : Db σ) : Prop :=
  ∀ (p p' : Prepared) (wantsKey : Bool) (c : σ), p.sql = p'.sql → p.bindings = p'.bindings →
    db.exec (.exec p wantsKey) c = db.exec (.exec p' wantsKey) c

theorem Db.SeesText.endAlike_execute {db : Db σ} (h : db.SeesText) {s s' : Statement}
    (hs : s.compile db.dialect = s'.compile db.dialect) (w : World σ) : EndAlike (db.execute s) (db.execute s') w := by
  have hrun := db.run_execute s w
  have hrun' := db.run_execute s' w
  unfold Statement.prepare at hrun hrun'
  rw [hs] at hrun
  cases hc : s'.compile db.dialect with
  | error e =>
    rw [hc] at hrun hrun'
    exact ⟨by rw [hrun, hrun'], by rw [hrun, hrun']⟩
  | ok compiled =>
    rw [hc] at hrun hrun'
    have hexec := h ⟨s, compiled.sql, compiled.bindings⟩ ⟨s', compiled.sql, compiled.bindings⟩ false w.connection rfl rfl
    constructor
    · rw [hrun, hrun']
      exact congrArg (fun answer => answer.1.map (·.outcome.affected)) hexec
    · rw [hrun, hrun']
      exact congrArg Prod.snd hexec

/-! ## A connection that keeps rows -/

/-- The rows of a table, and what selects and predicates read of them; `α` are the rows that a select reads, each of them
a row of the table with what is joined to it. -/
structure TableView (σ α : Type) where
  content : σ → List Row
  reading : Row → Reading
  /-- What an update makes of a row. -/
  rewritten : Row → Row
  evaluation : σ → Evaluation α Row
  own : α → Row
  joinedReading : α → Reading

namespace TableView

variable (v : TableView σ α) (c : σ) (d : Dialect) (q : Query)

/-- The rows of the table that the predicates select. -/
def selected : List Row := (v.content c).filter fun row => q.selects (v.reading row)

/-- The rows that the table and the joins make together. -/
def joined : List α := (v.evaluation c).rows (q.unfiltered.sourceTokens d) []

/-- Those of them that the predicates select. -/
def joinedSelected : List α := (v.joined c d q).filter fun a => q.selects (v.joinedReading a)

end TableView

/-- The connection does what the text of the query and of the writes with its table and predicates says.  A write that
fails changes nothing.  A select shows the page of the joined rows that the predicates select; without joins these are
the rows of the table. -/
structure Db.KeepsRows (db : Db σ) (v : TableView σ α) (q : Query) (assignments : List (String × Expr)) : Prop where
  text : db.SeesText
  delete : ∀ (p : Prepared) (wantsKey : Bool) (c : σ), (Statement.delete q.bare).prepare db.dialect = .ok p →
    v.content (db.exec (.exec p wantsKey) c).2 =
      if (db.exec (.exec p wantsKey) c).1.isOk then (v.content c).filter fun row => !q.selects (v.reading row)
      else v.content c
  update : ∀ (p : Prepared) (wantsKey : Bool) (c : σ),
    (Statement.update ⟨q.bare, assignments⟩).prepare db.dialect = .ok p →
      v.content (db.exec (.exec p wantsKey) c).2 =
        if (db.exec (.exec p wantsKey) c).1.isOk then
          (v.content c).map fun row => if q.selects (v.reading row) then v.rewritten row else row
        else v.content c
  select : ∀ (p : Prepared) (c : σ) (s : PagedSelect), (Statement.query q).prepare db.dialect = .ok p →
    PagedSelect.read? (q.tokens db.dialect) = some s →
      ∃ rows key c', db.exec (.query p) c = (.ok ⟨.rows rows, key⟩, c') ∧ ↑rows = s.selects (v.evaluation c)
  ordered : ∀ c source order, ((v.evaluation c).rows source order).Perm ((v.evaluation c).rows source [])
  filtered : ∀ c, (v.evaluation c).rows (q.sourceTokens db.dialect) [] = v.joinedSelected c db.dialect q
  unjoined : q.joins = [] → ∀ c, (v.joined c db.dialect q).map v.own = v.content c ∧
    ∀ a ∈ v.joined c db.dialect q, q.selects (v.joinedReading a) = q.selects (v.reading (v.own a))

namespace Db.KeepsRows

variable {db : Db σ} {v : TableView σ α} {q : Query} {assignments : List (String × Expr)}

/-- What a statement does to the rows, if it is known what its text does. -/
theorem content_execute {s : Statement} {changed : List Row → List Row}
    (h : ∀ (p : Prepared) (wantsKey : Bool) (c : σ), s.prepare db.dialect = .ok p →
      v.content (db.exec (.exec p wantsKey) c).2 =
        if (db.exec (.exec p wantsKey) c).1.isOk then changed (v.content c) else v.content c) (w : World σ) :
    v.content ((db.execute s).run.run w).2.connection =
      if ((db.execute s).run.run w).1.isOk then changed (v.content w.connection) else v.content w.connection := by
  rw [db.run_execute]
  cases hp : s.prepare db.dialect with
  | error e => rfl
  | ok p =>
    have hmap : ((db.exec (.exec p false) w.connection).1.map (·.outcome.affected)).isOk =
        (db.exec (.exec p false) w.connection).1.isOk := by
      cases (db.exec (.exec p false) w.connection).1 <;> rfl
    refine (h p false w.connection hp).trans ?_
    rw [← hmap]

/-- Without joins the rows of a select are those that the predicates select in the table. -/
theorem own_filtered (h : db.KeepsRows v q assignments) (hq : q.joins = []) (c : σ) :
    ((v.evaluation c).rows (q.sourceTokens db.dialect) []).map v.own = v.selected c q := by
  obtain ⟨hcontent, hreads⟩ := h.unjoined hq c
  rw [h.filtered, TableView.joinedSelected, List.filter_congr hreads, TableView.selected, ← hcontent, List.filter_map]
  rfl

/-- A select shows a page of the joined rows that the predicates select, in some order. -/
theorem returns_select (h : db.KeepsRows v q assignments) (hd : q.distinct = false) (ha : q.aggregate = none)
    (w : World σ) (hfits : q.FitsPage (v.joinedSelected w.connection db.dialect q).length) :
    ∃ rows w' ordered, Returns (db.select q) w rows w' ∧
      ordered.Perm (v.joinedSelected w.connection db.dialect q) ∧
      rows.Perm ((takeLimit q.limit (dropOffset q.offset ordered)).map
        ((v.evaluation w.connection).project q.columnTokens)) := by
  have hperm := (h.ordered w.connection (q.sourceTokens db.dialect) q.orderTokens).trans (.of_eq (h.filtered _))
  rw [← hperm.length_eq] at hfits
  obtain ⟨s, hread, hs⟩ := Query.read?_tokens_indistinct hd ha (v.evaluation w.connection) db.dialect hfits
  obtain ⟨sql, bindings, hp⟩ := Statement.prepare_eq_ok (d := db.dialect) (s := .query q) rfl
  obtain ⟨rows, key, c, he, hrows⟩ := h.select _ w.connection s hp hread
  refine ⟨rows, _, _, (Db.returns_select db).2 ⟨_, key, c, hp, he, rfl⟩, hperm, ?_⟩
  rw [← takeLimit_map, ← dropOffset_map]
  exact Multiset.coe_eq_coe.1 (hrows.trans hs)

/-- Without joins, the page of the rows of a select is the page of rows that the predicates select in the table. -/
theorem own_page (h : db.KeepsRows v q assignments) (hq : q.joins = []) {c : σ} {ordered : List α}
    (hordered : ordered.Perm (v.joinedSelected c db.dialect q)) :
    ∃ rows : List Row, rows.Perm (v.selected c q) ∧
      (takeLimit q.limit (dropOffset q.offset ordered)).map v.own = takeLimit q.limit (dropOffset q.offset rows) := by
  refine ⟨ordered.map v.own, (hordered.map v.own).trans (.of_eq ?_), ?_⟩
  · rw [← h.filtered]
    exact h.own_filtered hq c
  · rw [dropOffset_map, takeLimit_map]

end Db.KeepsRows

namespace ModelQuery

variable {db : Db σ} {v : TableView σ α} {m : Model} {mq : ModelQuery} {assignments : List (String × Expr)}

/-- The query with its table and its predicates only. -/
def bare (mq : ModelQuery) : ModelQuery := { mq with query := mq.query.bare }

theorem updateStatement_eq (mq : ModelQuery) (pairs : List (String × Value)) (now : Timestamp) :
    mq.updateStatement pairs now = ⟨mq.query, (mq.updateStatement pairs now).assignments⟩ := by
  unfold updateStatement
  simp only [Entity.foldl_set]
  split <;> rfl

/-- What is assigned does not depend on the query. -/
theorem assignments_bare (mq : ModelQuery) (pairs : List (String × Value)) (now : Timestamp) :
    (mq.bare.updateStatement pairs now).assignments = (mq.updateStatement pairs now).assignments := by
  unfold updateStatement bare
  simp only [Entity.foldl_set]
  split <;> rfl

theorem delete_changes (hdb : db.KeepsRows v mq.query assignments) (w : World σ) :
    EndAlike (mq.delete db) (mq.bare.delete db) w ∧
      v.content ((mq.delete db).run.run w).2.connection =
        if ((mq.delete db).run.run w).1.isOk then
          (v.content w.connection).filter fun row => !mq.query.selects (v.reading row)
        else v.content w.connection := by
  have halike : EndAlike (mq.delete db) (mq.bare.delete db) w :=
    hdb.text.endAlike_execute (Statement.compile_delete_bare mq.query db.dialect) w
  refine ⟨halike, ?_⟩
  rw [halike.connection, halike.result]
  exact Db.KeepsRows.content_execute hdb.delete w

theorem update_changes {pairs : List (String × Value)}
    (hdb : db.KeepsRows v mq.query (mq.updateStatement pairs db.now).assignments) (w : World σ) :
    EndAlike (mq.update db pairs) (mq.bare.update db pairs) w ∧
      v.content ((mq.update db pairs).run.run w).2.connection =
        if ((mq.update db pairs).run.run w).1.isOk then
          (v.content w.connection).map fun row => if mq.query.selects (v.reading row) then v.rewritten row else row
        else v.content w.connection := by
  have hbare : mq.bare.updateStatement pairs db.now = ⟨mq.query.bare, (mq.updateStatement pairs db.now).assignments⟩ := by
    rw [← assignments_bare]
    exact mq.bare.updateStatement_eq pairs db.now
  have halike : EndAlike (mq.update db pairs) (mq.bare.update db pairs) w := by
    unfold update
    rw [mq.updateStatement_eq, hbare]
    exact hdb.text.endAlike_execute (Statement.compile_update_bare mq.query _ db.dialect) w
  refine ⟨halike, ?_⟩
  rw [halike.connection, halike.result, update, hbare]
  exact Db.KeepsRows.content_execute hdb.update w

/-- The entities come from a page of the joined rows that the predicates select. -/
theorem returns_get_of_narrowed (hmq : mq.Narrowed m) (hdb : db.KeepsRows v mq.query assignments) (w : World σ)
    (hfits : mq.query.FitsPage (v.joinedSelected w.connection db.dialect mq.query).length) :
    ∃ es w' ordered, Returns (mq.get db) w es w' ∧
      ordered.Perm (v.joinedSelected w.connection db.dialect mq.query) ∧
      es.Perm ((takeLimit mq.query.limit (dropOffset mq.query.offset ordered)).map fun a =>
        Entity.ofRow m ((v.evaluation w.connection).project mq.query.columnTokens a)) := by
  obtain ⟨hmodel, hincludes, haggregate, hdistinct⟩ := hmq.selects
  obtain ⟨rows, w', ordered, hselect, hordered, hrows⟩ := hdb.returns_select hdistinct haggregate w hfits
  refine ⟨rows.map (Entity.ofRow m), w', ordered, ?_, hordered, ?_⟩
  · refine returns_bind.2 ⟨[], w, returns_lift.2 ⟨?_, rfl⟩,
      returns_bind.2 ⟨rows, w', hselect, returns_pure.2 ⟨by rw [hmodel], rfl⟩⟩⟩
    rw [hincludes]
    exact Includes.resolve_empty _ _ _
  · have hentities := hrows.map (Entity.ofRow m)
    rwa [List.map_map] at hentities

/-- **A bulk write changes what the predicates select, and nothing narrows it further.**  It ends as it would without the
joins, the order and the page of the query; if it succeeds, exactly the rows of the table are changed that the
predicates select.  The entities of the query stand for all of these rows if, without a page, each of them is joined with
something that is selected, and without joins, if the page skips none and ends behind the last. -/
theorem bulk_writes_selected (pairs : List (String × Value)) (hmq : mq.Narrowed m)
    (hdb : db.KeepsRows v mq.query (mq.updateStatement pairs db.now).assignments) (w : World σ)
    (hfits : mq.query.FitsPage (v.joinedSelected w.connection db.dialect mq.query).length) :
    let q := mq.query
    let content := v.content w.connection
    let selected := v.selected w.connection q
    (EndAlike (mq.delete db) (mq.bare.delete db) w ∧
      v.content ((mq.delete db).run.run w).2.connection =
        if ((mq.delete db).run.run w).1.isOk then content.filter fun row => !q.selects (v.reading row) else content) ∧
      (EndAlike (mq.update db pairs) (mq.bare.update db pairs) w ∧
        v.content ((mq.update db pairs).run.run w).2.connection =
          if ((mq.update db pairs).run.run w).1.isOk then
            content.map fun row => if q.selects (v.reading row) then v.rewritten row else row
          else content) ∧
      ∃ (es : List Entity) (w' : World σ) (got : List α), Returns (mq.get db) w es w' ∧
        es.Perm (got.map fun a => Entity.ofRow m ((v.evaluation w.connection).project q.columnTokens a)) ∧
        (q.limit = none → q.offset = none →
          ((∀ row ∈ selected, row ∈ got.map v.own) ↔
            ∀ row ∈ selected, ∃ a ∈ v.joinedSelected w.connection db.dialect q, v.own a = row)) ∧
        (q.joins = [] →
          (∃ rows : List Row, rows.Perm selected ∧ got.map v.own = takeLimit q.limit (dropOffset q.offset rows)) ∧
          (content.Nodup → ((∀ row ∈ selected, row ∈ got.map v.own) ↔
            selected = [] ∨ q.offset.getD 0 = 0 ∧ ∀ n, q.limit = some n → selected.length ≤ n.toNat))) := by
  intro q content selected
  obtain ⟨es, w', ordered, hget, hordered, hes⟩ := returns_get_of_narrowed hmq hdb w hfits
  refine ⟨delete_changes hdb w, update_changes hdb w, es, w', _, hget, hes, fun hl ho => ?_, fun hj => ?_⟩
  · rw [hl, ho]
    refine forall₂_congr fun row _ => ?_
    rw [List.mem_map]
    exact exists_congr fun a => and_congr_left' hordered.mem_iff
  · obtain ⟨rows, hrows, hpage⟩ := hdb.own_page hj hordered
    refine ⟨⟨rows, hrows, hpage⟩, fun hnodup => ?_⟩
    rw [hpage]
    exact forall_mem_page_iff hrows (hnodup.filter _)

end ModelQuery

/-! ## Users in a list -/

namespace Blog

def member (id : Int64) (role : String) : Row := .ofList [("id", .int id), ("role", .text role)]

def members : World (List Row) := ⟨[member 1 "admin", member 2 "editor", member 3 "admin"], []⟩

theorem narrowed_admins : admins.Narrowed userModel := .scope .all (.filter .and _)

def firstAdmin : ModelQuery := (admins.orderBy "id").limit 1

def laterAdmins : ModelQuery := (admins.orderBy "id").offset 1

def writingAdmins : ModelQuery := admins.scope (·.join "posts" "users.id" .eq "posts.user_id")

def isAdmin (row : Row) : Bool := admins.query.selects (RowStore.reading .sqlite row)

/-- Of the users, the first one has written a post. -/
def memberRows (rows : List Row) : Evaluation Row Row where
  rows source _ :=
    if source = (Query.table "users").sourceTokens .sqlite then rows
    else if source = admins.query.sourceTokens .sqlite then rows.filter isAdmin
    else if source = writingAdmins.query.sourceTokens .sqlite then
      rows.filter fun row => isAdmin row && row.get? "id" == some (.int 1)
    else []
  project _ row := row

theorem rows_users (rows : List Row) :
    (memberRows rows).rows ((Query.table "users").sourceTokens .sqlite) [] = rows := by
  simp only [memberRows, if_true]

theorem rows_admins (rows : List Row) :
    (memberRows rows).rows (admins.query.sourceTokens .sqlite) [] = rows.filter isAdmin := by
  have hne : admins.query.sourceTokens .sqlite ≠ (Query.table "users").sourceTokens .sqlite := by decide +kernel
  simp only [memberRows, if_neg hne, if_true]

def memberView : TableView (List Row) Row where
  content rows := rows
  reading := RowStore.reading .sqlite
  rewritten row := row.insert "role" (.text "editor")
  evaluation := memberRows
  own row := row
  joinedReading := RowStore.reading .sqlite

/-- The users as a database keeps them that knows the texts of two writes. -/
def memberExec (op : Operation) (rows : List Row) : Except Error Response × List Row :=
  match op with
  | .exec p _ =>
    if p.sql = "DELETE FROM \"users\" WHERE \"role\" = ?1" ∧ p.bindings = [.text "admin"] then
      (.ok ⟨.count 2, none⟩, rows.filter fun row => !isAdmin row)
    else if p.sql = "UPDATE \"users\" SET \"role\" = ?1 WHERE \"role\" = ?2" ∧
        p.bindings = [.text "editor", .text "admin"] then
      (.ok ⟨.count 2, none⟩, rows.map fun row => if isAdmin row then row.insert "role" (.text "editor") else row)
    else (.error (.ofCause (.driver "syntax error" [])), rows)
  | op => PageStore.exec .sqlite memberRows op rows

def memberDb : Db (List Row) := db memberExec

theorem sql_of_prepare {s : Statement} {p : Prepared} {sql : String} {bindings : List Value}
    (hp : s.prepare .sqlite = .ok p)
    (hs : (s.prepare .sqlite).toOption.map (fun p => (p.sql, p.bindings)) = some (sql, bindings)) :
    p.sql = sql ∧ p.bindings = bindings := by
  rw [hp] at hs
  cases hs
  exact ⟨rfl, rfl⟩

theorem keepsRows_memberDb : memberDb.KeepsRows memberView firstAdmin.query [("role", .value (.text "editor"))] where
  text p p' wantsKey c hsql hbindings := by
    show memberExec (.exec p wantsKey) c = memberExec (.exec p' wantsKey) c
    rw [memberExec, memberExec, hsql, hbindings]
  delete p wantsKey c hp := by
    have hsql : p.sql = "DELETE FROM \"users\" WHERE \"role\" = ?1" ∧ p.bindings = [.text "admin"] :=
      sql_of_prepare hp (by decide +kernel)
    have hexec : memberDb.exec (.exec p wantsKey) c = (.ok ⟨.count 2, none⟩, c.filter fun row => !isAdmin row) :=
      if_pos hsql
    rw [hexec]
    rfl
  update p wantsKey c hp := by
    have hsql : p.sql = "UPDATE \"users\" SET \"role\" = ?1 WHERE \"role\" = ?2" ∧
        p.bindings = [.text "editor", .text "admin"] := sql_of_prepare hp (by decide +kernel)
    have hexec : memberDb.exec (.exec p wantsKey) c =
        (.ok ⟨.count 2, none⟩, c.map fun row => if isAdmin row then row.insert "role" (.text "editor") else row) := by
      show memberExec (.exec p wantsKey) c = _
      rw [memberExec, if_neg fun h => absurd (hsql.1.symm.trans h.1) (by decide), if_pos hsql]
    rw [hexec]
    rfl
  select p c s hp hs := by
    obtain ⟨statement, sql, bindings⟩ := p
    cases Statement.statement_of_prepare hp
    refine ⟨PageStore.answer .sqlite memberRows c firstAdmin.query, none, c, rfl, ?_⟩
    have hread : PagedSelect.read? (firstAdmin.query.tokens .sqlite) = some s := hs
    rw [PageStore.answer, show firstAdmin.query.aggregate = none from rfl, hread]
    exact PageStore.coe_shown (memberRows c) s
  ordered _ _ _ := .refl _
  filtered c := by
    refine (rows_admins c).trans ?_
    rw [TableView.joinedSelected, show memberView.joined c memberDb.dialect firstAdmin.query = c from rows_users c]
    rfl
  unjoined _ c := ⟨(List.map_id' _).trans (rows_users c), fun _ _ => rfl⟩

end Blog

/-- Two users are admins.  Both are deleted by the query for the first of them, which gets one. -/
theorem bulk_writes_selected_admins :
    Blog.firstAdmin.Narrowed Blog.userModel ∧
      Blog.memberDb.KeepsRows Blog.memberView Blog.firstAdmin.query [("role", .value (.text "editor"))] ∧
      Blog.firstAdmin.query.FitsPage (Blog.memberView.joinedSelected Blog.members.connection .sqlite
        Blog.firstAdmin.query).length ∧
      ((Blog.firstAdmin.delete Blog.memberDb).run.run Blog.members).2.connection = [Blog.member 2 "editor"] ∧
      ∃ (es : List Entity) (w' : World (List Row)) (got : List Row),
        Returns (Blog.firstAdmin.get Blog.memberDb) Blog.members es w' ∧ es.length = got.length ∧
          ¬ ∀ row ∈ [Blog.member 1 "admin", Blog.member 3 "admin"], row ∈ got := by
  have hmq : Blog.firstAdmin.Narrowed Blog.userModel := (Blog.narrowed_admins.scope (.orderBy _)).scope (.limit 1)
  have hfits : Blog.firstAdmin.query.FitsPage (Blog.memberView.joinedSelected Blog.members.connection .sqlite
      Blog.firstAdmin.query).length := .inr (by decide +kernel)
  obtain ⟨⟨-, hdelete⟩, -, es, w', got, hget, hes, -, hunjoined⟩ :=
    ModelQuery.bulk_writes_selected [("role", .text "editor")] hmq Blog.keepsRows_memberDb Blog.members hfits
  obtain ⟨-, hall⟩ := hunjoined rfl
  have hselected : Blog.memberView.selected Blog.members.connection Blog.firstAdmin.query =
      [Blog.member 1 "admin", Blog.member 3 "admin"] := by decide +kernel
  have hnodup : (Blog.memberView.content Blog.members.connection).Nodup := by decide +kernel
  have hdeleted : ((Blog.firstAdmin.delete Blog.memberDb).run.run Blog.members).1.isOk = true := by decide +kernel
  rw [hdeleted, if_pos rfl] at hdelete
  dsimp only [Blog.memberView] at hdelete
  have hleft : (Blog.members.connection.filter fun row =>
      !Blog.firstAdmin.query.selects (RowStore.reading .sqlite row)) = [Blog.member 2 "editor"] := by decide +kernel
  have hiff := hall hnodup
  rw [hselected, show got.map Blog.memberView.own = got from List.map_id' got] at hiff
  refine ⟨hmq, Blog.keepsRows_memberDb, hfits, hdelete.trans hleft, es, w', got, hget,
    by rw [hes.length_eq, List.length_map], fun h => ?_⟩
  rcases hiff.1 h with hnone | ⟨-, hlimit⟩
  · cases hnone
  · exact absurd (hlimit 1 rfl) (by decide)

/-- **A delete removes more than the query gets.**  One of two admins is got by a limit, by an offset or by a join with
the posts, and both are deleted; the call does not fail. -/
theorem delete_exceeds_get :
    let got := fun mq : ModelQuery => Blog.gotKeys (mq.get Blog.memberDb) Blog.members
    let left := fun mq : ModelQuery => ((mq.delete Blog.memberDb).run.run Blog.members).2.connection.map (·.get? "id")
    let succeeds := fun mq : ModelQuery => ((mq.delete Blog.memberDb).run.run Blog.members).1.isOk
    (Blog.firstAdmin.Narrowed Blog.userModel ∧ got Blog.firstAdmin = some [some (.int 1)] ∧
        left Blog.firstAdmin = [some (.int 2)] ∧ succeeds Blog.firstAdmin = true) ∧
      (Blog.laterAdmins.Narrowed Blog.userModel ∧ got Blog.laterAdmins = some [some (.int 3)] ∧
        left Blog.laterAdmins = [some (.int 2)] ∧ succeeds Blog.laterAdmins = true) ∧
      Blog.writingAdmins.Narrowed Blog.userModel ∧ got Blog.writingAdmins = some [some (.int 1)] ∧
        left Blog.writingAdmins = [some (.int 2)] ∧ succeeds Blog.writingAdmins = true :=
  ⟨⟨(Blog.narrowed_admins.scope (.orderBy _)).scope (.limit 1), by decide +kernel⟩,
    ⟨(Blog.narrowed_admins.scope (.orderBy _)).scope (.offset 1), by decide +kernel⟩,
    Blog.narrowed_admins.scope (.join _ _ _), by decide +kernel⟩

end SqlMapper
