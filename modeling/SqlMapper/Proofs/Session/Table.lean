import Mathlib.Data.List.Forall2
import SqlMapper.Proofs.Attributes
import SqlMapper.Proofs.Query.Meaning
import SqlMapper.Proofs.Session.Run
import SqlMapper.Proofs.Sql.Written
/-!
# Table — a connection that executes statements on a table

A connection executes selects, deletes and inserts on a table when its answers and the rows that it holds afterwards are
those that the statements ask for.  Nothing is said of other tables, of the key that an insert generates, or of columns
that an insert leaves out.  A value is stored and compared as it is bound.
-/
namespace SqlMapper

/-! ## Names in one table -/

/-- The column that a qualified name refers to. -/
def lastSegment (name : String) : String := ((splitAtChar '.' name).getLast?).getD name

/-- A name that refers to the column of this name: it has one segment and no alias, and is not the wildcard. -/
structure IsPlainName (name : String) : Prop where
  parse : Column.parse name = .name name
  segment : lastSegment name = name
  not_wildcard : name ≠ "*"

/-- The reading takes columns from the row and values as they are bound. -/
structure Reading.Reads (ρ : Reading) (d : Dialect) (row : Row) : Prop where
  column : ∀ name, ρ.column (.name name) = (row.get? (lastSegment name)).getD .null
  bound : ρ.bound = Token.binding d

def Column.shown (row : Row) : Column → List (String × Value)
  | name n => if lastSegment n = "*" then row.entries else [(lastSegment n, (row.get? (lastSegment n)).getD .null)]
  | aliased n a => [(a, (row.get? (lastSegment n)).getD .null)]
  | raw _ => []

/-- The columns of a select list; an empty list selects all. -/
def Attributes.project (row : Row) (columns : List Column) : Row :=
  if columns = [] then row else .ofList (columns.flatMap (Column.shown row))

theorem Attributes.get?_project_name {row : Row} {name : String} (h : IsPlainName name) :
    (row.project [.name name]).get? name = some ((row.get? name).getD .null) := by
  have hs : (Column.name name).shown row = [(name, (row.get? name).getD .null)] := by
    rw [Column.shown, h.segment, if_neg h.not_wildcard]
  have hp : row.project [.name name] = Attributes.empty.insert name ((row.get? name).getD .null) := by
    rw [Attributes.project, if_neg (List.cons_ne_nil _ _), List.flatMap_cons, List.flatMap_nil, List.append_nil, hs]
    rfl
  rw [hp, Attributes.get?_insert, if_pos rfl]

/-! ## Statements on one table -/

/-- The query has columns and predicates on one table, and nothing else. -/
def Query.ReadsOnly (q : Query) (table : String) : Prop :=
  q = { Query.table table with columns := q.columns, filters := q.filters }

/-- The row holds the values of an inserted row, each in its column. -/
def Insert.Stores (i : Insert) (d : Dialect) (values : List Expr) (row : Row) : Prop :=
  ∀ column v, (column, Expr.value v) ∈ i.columns.zip values → row.get? (lastSegment column) = some (Token.binding d v)

/-- The connection succeeds with what it is asked for, and holds the rows of the table. -/
structure Db.Executes {σ : Type} (db : Db σ) (table : String) (content : σ → List Row) (reading : Row → Reading) :
    Prop where
  reads : ∀ row, (reading row).Reads db.dialect row
  begin : ∀ c, ∃ response c', db.exec .begin c = (.ok response, c') ∧ content c' = content c
  commit : ∀ c, ∃ response c', db.exec .commit c = (.ok response, c') ∧ content c' = content c
  select : ∀ (q : Query) (p : Prepared) (c : σ), q.ReadsOnly table → (Statement.query q).prepare db.dialect = .ok p →
    ∃ key c', db.exec (.query p) c =
        (.ok ⟨.rows (((content c).filter fun row => q.selects (reading row)).map (·.project q.columns)), key⟩, c') ∧
      content c' = content c
  delete : ∀ (q : Query) (p : Prepared) (wantsKey : Bool) (c : σ), q.ReadsOnly table →
    (Statement.delete q).prepare db.dialect = .ok p →
      ∃ response c', db.exec (.exec p wantsKey) c = (.ok response, c') ∧
        content c' = (content c).filter fun row => !q.selects (reading row)
  insert : ∀ (i : Insert) (p : Prepared) (wantsKey : Bool) (c : σ), i.table = table → i.returning = none → i.IsGrid →
    (i.columns.map lastSegment).Nodup → (Statement.insert i).prepare db.dialect = .ok p →
      ∃ response added c', db.exec (.exec p wantsKey) c = (.ok response, c') ∧ content c' = content c ++ added ∧
        List.Forall₂ (i.Stores db.dialect) i.rows added

theorem Statement.statement_of_prepare {d : Dialect} {s : Statement} {p : Prepared} (h : s.prepare d = .ok p) :
    p.statement = s := by
  unfold Statement.prepare at h
  split at h
  · cases h
    rfl
  · cases h

theorem Statement.prepare_eq_ok {d : Dialect} {s : Statement} (h : s.refusal? d = none) :
    ∃ sql bindings, s.prepare d = .ok ⟨s, sql, bindings⟩ :=
  ⟨_, _, Statement.prepare_eq h⟩

namespace Db.Executes

variable {σ : Type} {db : Db σ} {table : String} {content : σ → List Row} {reading : Row → Reading}

theorem returns_begin (h : db.Executes table content reading) (w : World σ) :
    ∃ c, Returns db.begin w () ⟨c, w.events ++ [.sent .begin]⟩ ∧ content c = content w.connection := by
  obtain ⟨response, c, he, hc⟩ := h.begin w.connection
  exact ⟨c, returns_bind.2 ⟨_, _, (returns_send db).2 ⟨c, he, rfl⟩, returns_pure.2 ⟨rfl, rfl⟩⟩, hc⟩

theorem returns_commit (h : db.Executes table content reading) (w : World σ) :
    ∃ c, Returns db.commit w () ⟨c, w.events ++ [.sent .commit]⟩ ∧ content c = content w.connection := by
  obtain ⟨response, c, he, hc⟩ := h.commit w.connection
  exact ⟨c, returns_bind.2 ⟨_, _, (returns_send db).2 ⟨c, he, rfl⟩, returns_pure.2 ⟨rfl, rfl⟩⟩, hc⟩

theorem returns_select (h : db.Executes table content reading) {q : Query} (hq : q.ReadsOnly table) (w : World σ) :
    ∃ p c, p.statement = .query q ∧
      Returns (db.select q) w
        (((content w.connection).filter fun row => q.selects (reading row)).map (·.project q.columns))
        ⟨c, w.events ++ [.sent (.query p)]⟩ ∧ content c = content w.connection := by
  obtain ⟨sql, bindings, hp⟩ := Statement.prepare_eq_ok (d := db.dialect) (s := .query q) rfl
  obtain ⟨key, c, he, hc⟩ := h.select q _ w.connection hq hp
  exact ⟨_, c, rfl, (Db.returns_select db).2 ⟨_, key, c, hp, he, rfl⟩, hc⟩

theorem returns_execute {s : Statement} {p : Prepared} {w : World σ} {response : Response} {c : σ}
    (hp : s.prepare db.dialect = .ok p) (he : db.exec (.exec p false) w.connection = (.ok response, c)) :
    Returns (db.execute s) w response.outcome.affected ⟨c, w.events ++ [.sent (.exec p false)]⟩ :=
  returns_bind.2 ⟨p, w, returns_lift.2 ⟨hp, rfl⟩,
    returns_bind.2 ⟨response, _, (returns_send db).2 ⟨c, he, rfl⟩, returns_pure.2 ⟨rfl, rfl⟩⟩⟩

theorem returns_delete (h : db.Executes table content reading) {q : Query} (hq : q.ReadsOnly table) (w : World σ) :
    ∃ n p c, p.statement = .delete q ∧
      Returns (db.execute (.delete q)) w n ⟨c, w.events ++ [.sent (.exec p false)]⟩ ∧
      content c = (content w.connection).filter fun row => !q.selects (reading row) := by
  have hr : (Statement.delete q).refusal? db.dialect = none := by
    rw [hq]
    rfl
  obtain ⟨sql, bindings, hp⟩ := Statement.prepare_eq_ok hr
  obtain ⟨response, c, he, hc⟩ := h.delete q _ false w.connection hq hp
  exact ⟨_, _, c, rfl, returns_execute hp he, hc⟩

theorem returns_insert (h : db.Executes table content reading) {i : Insert} (ht : i.table = table)
    (hr : i.returning = none) (hgrid : i.IsGrid) (hn : (i.columns.map lastSegment).Nodup) (w : World σ) :
    ∃ n p added c, p.statement = .insert i ∧
      Returns (db.execute (.insert i)) w n ⟨c, w.events ++ [.sent (.exec p false)]⟩ ∧
      content c = content w.connection ++ added ∧ List.Forall₂ (i.Stores db.dialect) i.rows added := by
  have hrefusal : (Statement.insert i).refusal? db.dialect = none := by
    rw [Statement.refusal?, hr]
    rfl
  obtain ⟨sql, bindings, hp⟩ := Statement.prepare_eq_ok hrefusal
  obtain ⟨response, added, c, he, hc, hs⟩ := h.insert i _ false w.connection ht hr hgrid hn hp
  exact ⟨_, _, added, c, rfl, returns_execute hp he, hc, hs⟩

end Db.Executes

/-! ## A connection that is its rows -/

namespace RowStore

def reading (d : Dialect) (row : Row) : Reading where
  column
    | .name n | .aliased n _ => (row.get? (lastSegment n)).getD .null
    | .raw _ => .null
  bound := Token.binding d
  order _ _ _ := false
  rawValue _ := .null
  rawTruth _ := none
  hasRow _ := false

def stored (d : Dialect) (columns : List String) (values : List Expr) : List (String × Value) :=
  (columns.zip values).filterMap fun (column, value) => value.value?.map fun v => (lastSegment column, Token.binding d v)

def exec (d : Dialect) (op : Operation) (rows : List Row) : Except Error Response × List Row :=
  match op with
  | .query ⟨.query q, _, _⟩ =>
    (.ok ⟨.rows ((rows.filter fun row => q.selects (reading d row)).map (·.project q.columns)), none⟩, rows)
  | .exec ⟨.delete q, _, _⟩ _ =>
    let kept := rows.filter fun row => !q.selects (reading d row)
    (.ok ⟨.count (saturate (rows.length - kept.length)), none⟩, kept)
  | .exec ⟨.insert i, _, _⟩ _ =>
    (.ok ⟨.count (saturate i.rows.length), none⟩, rows ++ i.rows.map fun values => .ofList (stored d i.columns values))
  | _ => (.ok ⟨.count 0, none⟩, rows)

theorem names_stored_sublist (d : Dialect) :
    ∀ (columns : List String) (values : List Expr),
      (Assoc.names (stored d columns values)).Sublist (columns.map lastSegment)
  | [], _ => .slnil
  | _ :: _, [] => List.nil_sublist _
  | _ :: columns, .value _ :: values => (names_stored_sublist d columns values).cons_cons _
  | _ :: columns, .raw _ :: values => (names_stored_sublist d columns values).cons _

/-- Rows that are kept in a list are an example of a connection that executes what it is asked for. -/
theorem executes {db : Db (List Row)} (h : db.exec = exec db.dialect) (table : String) :
    db.Executes table (fun rows => rows) (reading db.dialect) where
  reads _ := ⟨fun _ => rfl, rfl⟩
  begin c := by
    rw [h]
    exact ⟨_, _, rfl, rfl⟩
  commit c := by
    rw [h]
    exact ⟨_, _, rfl, rfl⟩
  select q p c _ hp := by
    obtain ⟨statement, sql, bindings⟩ := p
    cases Statement.statement_of_prepare hp
    rw [h]
    exact ⟨_, _, rfl, rfl⟩
  delete q p wantsKey c _ hp := by
    obtain ⟨statement, sql, bindings⟩ := p
    cases Statement.statement_of_prepare hp
    rw [h]
    exact ⟨_, _, rfl, rfl⟩
  insert i p wantsKey c _ _ _ hn hp := by
    obtain ⟨statement, sql, bindings⟩ := p
    cases Statement.statement_of_prepare hp
    rw [h]
    refine ⟨_, _, _, rfl, rfl, ?_⟩
    rw [List.forall₂_map_right_iff, List.forall₂_same]
    intro values _ column v hm
    have hnodup := (names_stored_sublist db.dialect i.columns values).nodup hn
    rw [Attributes.get?, Attributes.entries_ofList hnodup]
    exact Assoc.get?_of_mem (p := (lastSegment column, Token.binding db.dialect v)) hnodup
      (List.mem_filterMap.2 ⟨_, hm, rfl⟩)

end RowStore

end SqlMapper
