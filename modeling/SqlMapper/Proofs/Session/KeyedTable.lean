import Mathlib.Data.List.Nodup
import SqlMapper.Proofs.Eager.Loaded
import SqlMapper.Proofs.Entity.Write
import SqlMapper.Proofs.Session.Table
/-!
# KeyedTable — a connection that keeps the table of a model

A connection keeps the table of a model when an operation that succeeds did what its statement asks for, and one that
fails did nothing.  No two rows have the same key and no key is null.  An insert without a key gets one from the
connection, which reports it.  Values are stored and compared as they are bound.
-/
namespace SqlMapper

/-! ## Rows as they are bound -/

namespace Attributes

/-- The value of a name as it is bound. -/
def bound? (a : Attributes) (d : Dialect) (name : String) : Option Value := (a.get? name).map (Token.binding d)

/-- The row has every attribute with the value that it is bound as. -/
def Holds (row : Row) (d : Dialect) (a : Attributes) : Prop :=
  ∀ name v, a.get? name = some v → row.bound? d name = some (Token.binding d v)

theorem Holds.bound? {row a : Attributes} {d : Dialect} (h : row.Holds d a) {name : String}
    (hn : (a.get? name).isSome = true) : row.bound? d name = a.bound? d name := by
  obtain ⟨v, hv⟩ := Option.isSome_iff_exists.1 hn
  rw [h name v hv, Attributes.bound?, hv]
  rfl

end Attributes

/-- Every row has a key, and no two rows have the same. -/
structure Keyed (d : Dialect) (key : String) (rows : List Row) : Prop where
  present : ∀ row ∈ rows, ∃ k, row.bound? d key = some k ∧ k ≠ .null
  unique : (rows.map (·.bound? d key)).Nodup

instance (d : Dialect) (key : String) (rows : List Row) : Decidable (Keyed d key rows) :=
  decidable_of_iff
    ((∀ row ∈ rows, row.bound? d key ≠ none ∧ row.bound? d key ≠ some .null) ∧ (rows.map (·.bound? d key)).Nodup)
    ⟨fun h => ⟨fun row hrow => by
        obtain ⟨hsome, hnull⟩ := h.1 row hrow
        obtain ⟨k, hk⟩ := Option.ne_none_iff_exists'.1 hsome
        exact ⟨k, hk, fun hn => hnull (hn ▸ hk)⟩, h.2⟩,
      fun h => ⟨fun row hrow => by
        obtain ⟨k, hk, hn⟩ := h.present row hrow
        rw [hk]
        exact ⟨nofun, fun he => hn (Option.some.inj he)⟩, h.unique⟩⟩

/-- Beside a row of a keyed table no other row has its key. -/
theorem Keyed.ne_of_split {d : Dialect} {key : String} {before after : List Row} {row : Row}
    (h : Keyed d key (before ++ row :: after)) :
    ∀ other ∈ before ++ after, other.bound? d key ≠ row.bound? d key := by
  intro other hother he
  have hunique := h.unique
  rw [List.map_append, List.map_cons, List.nodup_middle, List.nodup_cons, ← List.map_append] at hunique
  exact hunique.1 (he ▸ List.mem_map_of_mem hother)

/-- The rows whose key is another one. -/
def rowsBeside (d : Dialect) (key : String) (own : Option Value) (rows : List Row) : List Row :=
  rows.filter fun row => row.bound? d key != own

theorem Keyed.rowsBeside_split {d : Dialect} {key : String} {before after : List Row} {row : Row}
    (h : Keyed d key (before ++ row :: after)) :
    rowsBeside d key (row.bound? d key) (before ++ row :: after) = before ++ after := by
  have hkeep : ∀ rows : List Row, (∀ other ∈ rows, other ∈ before ++ after) →
      rows.filter (fun other => other.bound? d key != row.bound? d key) = rows := fun rows hrows =>
    List.filter_eq_self.2 fun other hother => bne_iff_ne.2 (h.ne_of_split other (hrows other hother))
  rw [rowsBeside, List.filter_append, List.filter_cons_of_neg (by simp),
    hkeep before fun _ hm => List.mem_append_left _ hm, hkeep after fun _ hm => List.mem_append_right _ hm]

theorem Keyed.rowsBeside_none {d : Dialect} {key : String} {rows : List Row} (h : Keyed d key rows) :
    rowsBeside d key none rows = rows := by
  refine List.filter_eq_self.2 fun row hrow => ?_
  obtain ⟨k, hk, -⟩ := h.present row hrow
  rw [hk]
  rfl

/-! ## Statements on the table -/

/-- The row after an update of it: assigned columns have their values, the others are as before. -/
structure Update.Rewrites (u : Update) (d : Dialect) (row row' : Row) : Prop where
  assigned : ∀ name v, (name, Expr.value v) ∈ u.assignments → row'.get? name = some (Token.binding d v)
  kept : ∀ name, name ∉ Assoc.names u.assignments → row'.get? name = row.get? name

/-- The row that was inserted for the attributes; a key that is null does not count as given. -/
def Attributes.Stored (a : Attributes) (d : Dialect) (key : String) (row : Row) : Prop :=
  ∀ name v, a.get? name = some v → (name = key → v ≠ .null) → row.get? name = some (Token.binding d v)

/-- The answer tells a generated key: in its first row if it was asked for rows, else beside the count. -/
def Response.Tells (response : Response) (returning : Bool) (key : String) (k : Value) : Prop :=
  if returning then ∃ row rest, response.outcome = .rows (row :: rest) ∧ row.get? key = some k
  else response.generatedKey = some k

theorem Db.reportedKey_of_tells {σ : Type} {db : Db σ} {response : Response} {key : String} {k : Value}
    (h : response.Tells db.insertReturning key k) : db.reportedKey key response = .ok (some k) := by
  unfold Db.reportedKey
  unfold Response.Tells at h
  split at h
  · rename_i hr
    obtain ⟨row, rest, ho, hk⟩ := h
    rw [if_pos hr, ho]
    exact congrArg Except.ok hk
  · rename_i hr
    rw [if_neg hr, h]

theorem Db.exists_reportedKey {σ : Type} {db : Db σ} {response : Response} (key : String)
    (h : db.insertReturning = true → ∃ rows, response.outcome = .rows rows) :
    ∃ reported, db.reportedKey key response = .ok reported := by
  unfold Db.reportedKey
  by_cases hr : db.insertReturning = true
  · obtain ⟨rows, ho⟩ := h hr
    rw [if_pos hr, ho]
    exact ⟨_, rfl⟩
  · rw [if_neg hr]
    exact ⟨_, rfl⟩

/-- The connection keeps the rows of the model's table.  A predicate on the key reads the key of a row, and a column has the
name of its attribute. -/
structure Db.KeepsTable {σ : Type} (db : Db σ) (m : Model) (content : σ → List Row) (reading : Row → Reading) :
    Prop where
  column : ∀ row, (reading row).column (.parse m.key) = (row.bound? db.dialect m.key).getD .null
  bound : ∀ row, (reading row).bound = Token.binding db.dialect
  keyed : ∀ op c, Keyed db.dialect m.key (content c) → Keyed db.dialect m.key (content (db.exec op c).2)
  failed : ∀ op c e, (db.exec op c).1 = .error e → content (db.exec op c).2 = content c
  update : ∀ (u : Update) (p : Prepared) (wantsKey : Bool) (c : σ) (response : Response),
    u.target.ReadsOnly m.table → (Assoc.names u.assignments).Nodup →
    (Statement.update u).prepare db.dialect = .ok p → (db.exec (.exec p wantsKey) c).1 = .ok response →
      List.Forall₂ (fun row row' =>
          if u.target.selects (reading row) then u.Rewrites db.dialect row row' else row' = row)
        (content c) (content (db.exec (.exec p wantsKey) c).2)
  delete : ∀ (q : Query) (p : Prepared) (wantsKey : Bool) (c : σ) (response : Response), q.ReadsOnly m.table →
    (Statement.delete q).prepare db.dialect = .ok p → (db.exec (.exec p wantsKey) c).1 = .ok response →
      content (db.exec (.exec p wantsKey) c).2 = (content c).filter fun row => !q.selects (reading row)
  insert : ∀ (a : Attributes) (p : Prepared) (c : σ) (response : Response),
    (Statement.insert (db.asking (.ofAttributes m.table a) m.key)).prepare db.dialect = .ok p →
    (db.exec (db.inserting p) c).1 = .ok response →
      ∃ row, content (db.exec (db.inserting p) c).2 = content c ++ [row] ∧ a.Stored db.dialect m.key row ∧
        (db.insertReturning = true → ∃ rows, response.outcome = .rows rows) ∧
        ((a.get? m.key).getD .null = .null →
          ∃ k, response.Tells db.insertReturning m.key k ∧
            row.bound? db.dialect m.key = some (Token.binding db.dialect k))

section

variable {selected : Row → Bool} {R : Row → Row → Prop}

theorem eq_of_none_selected :
    ∀ {rows rows' : List Row},
      List.Forall₂ (fun row row' => if selected row then R row row' else row' = row) rows rows' →
      (∀ row ∈ rows, selected row = false) → rows' = rows
  | [], _, h, _ => List.forall₂_nil_left_iff.1 h
  | first :: rows, _, h, hnone => by
    rw [List.forall_mem_cons] at hnone
    cases h with
    | cons hr hrest =>
      rw [hnone.1, if_neg Bool.false_ne_true] at hr
      rw [hr, eq_of_none_selected hrest hnone.2]

/-- Where one row is selected, that row is the one that is rewritten. -/
theorem rewrites_of_split {row : Row} :
    ∀ {before after rows : List Row},
      List.Forall₂ (fun row row' => if selected row then R row row' else row' = row) (before ++ row :: after) rows →
        selected row = true → (∀ other ∈ before ++ after, selected other = false) →
          ∃ row', rows = before ++ row' :: after ∧ R row row'
  | [], after, rows, h, hrow, hothers => by
    cases h with
    | cons hr hrest =>
      rw [if_pos hrow] at hr
      exact ⟨_, congrArg _ (eq_of_none_selected hrest hothers), hr⟩
  | first :: before, after, rows, h, hrow, hothers => by
    cases h with
    | cons hr hrest =>
      rw [List.cons_append, List.forall_mem_cons] at hothers
      rw [hothers.1, if_neg Bool.false_ne_true] at hr
      obtain ⟨row', rfl, hR⟩ := rewrites_of_split hrest hrow hothers.2
      exact ⟨row', by rw [hr]; rfl, hR⟩

end

namespace Db.KeepsTable

variable {σ : Type} {db : Db σ} {m : Model} {content : σ → List Row} {reading : Row → Reading}

/-- Finding a row by a key finds the row of that key. -/
theorem selects_iff (h : db.KeepsTable m content reading) {k : Value} (hk : k ≠ .null) (row : Row) :
    ((Query.table m.table).filter (.parse m.key) (.value k)).selects (reading row) = true ↔
      row.bound? db.dialect m.key = some (Token.binding db.dialect k) := by
  rw [Query.selects_filter_iff _ _ hk, h.bound, h.column, and_iff_left (Token.binding_ne_null.2 hk)]
  cases row.bound? db.dialect m.key with
  | none => simpa using (Token.binding_ne_null.2 hk).symm
  | some v => simp

/-- A handle with other hooks and another time keeps the same table. -/
theorem handle (h : db.KeepsTable m content reading) (hooks : List (Option Hooks)) (now : Timestamp) :
    ({ db with hooks, now } : Db σ).KeepsTable m content reading :=
  ⟨h.column, h.bound, h.keyed, h.failed, h.update, h.delete, h.insert⟩

/-- An update of the row of a key replaces that row and leaves the others. -/
theorem split_of_update (h : db.KeepsTable m content reading) {c : σ} (hc : Keyed db.dialect m.key (content c))
    {u : Update} {k : Value} (hk : k ≠ .null) (hu : u.target = (Query.table m.table).filter (.parse m.key) (.value k))
    (hn : (Assoc.names u.assignments).Nodup) {p : Prepared} {wantsKey : Bool} {response : Response}
    (hp : (Statement.update u).prepare db.dialect = .ok p) (hr : (db.exec (.exec p wantsKey) c).1 = .ok response)
    {row : Row} (hrow : row ∈ content c) (hkey : row.bound? db.dialect m.key = some (Token.binding db.dialect k)) :
    ∃ before after row', content c = before ++ row :: after ∧
      content (db.exec (.exec p wantsKey) c).2 = before ++ row' :: after ∧ u.Rewrites db.dialect row row' := by
  obtain ⟨before, after, hsplit⟩ := List.append_of_mem hrow
  have hrows := h.update u p wantsKey c response (hu ▸ rfl) hn hp hr
  rw [hsplit] at hrows hc
  obtain ⟨row', hc', hrewrites⟩ := rewrites_of_split hrows
    (by rw [hu, h.selects_iff hk]; exact hkey)
    (fun other hother => by
      rw [hu, ← Bool.not_eq_true, h.selects_iff hk, ← hkey]
      exact hc.ne_of_split other hother)
  exact ⟨before, after, row', hsplit, hc', hrewrites⟩

/-- A delete of the row of a key leaves the others. -/
theorem content_of_delete (h : db.KeepsTable m content reading) {c : σ} {k : Value} (hk : k ≠ .null) {p : Prepared}
    {wantsKey : Bool} {response : Response}
    (hp : (Statement.delete ((Query.table m.table).filter (.parse m.key) (.value k))).prepare db.dialect = .ok p)
    (hr : (db.exec (.exec p wantsKey) c).1 = .ok response) :
    content (db.exec (.exec p wantsKey) c).2 =
      rowsBeside db.dialect m.key (some (Token.binding db.dialect k)) (content c) := by
  have hreads : ((Query.table m.table).filter (.parse m.key) (.value k)).ReadsOnly m.table := rfl
  rw [h.delete _ p wantsKey c response hreads hp hr]
  refine List.filter_congr fun row _ => ?_
  rw [Bool.eq_iff_iff, Bool.not_eq_true', ← Bool.not_eq_true, h.selects_iff hk, bne_iff_ne]

end Db.KeepsTable

/-! ## A connection that is the rows of one table -/

namespace KeyedStore

variable (d : Dialect) (m : Model)

def reading (row : Row) : Reading where
  column c := if c = .parse m.key then (row.bound? d m.key).getD .null else .null
  bound := Token.binding d
  order _ _ _ := false
  rawValue _ := .null
  rawTruth _ := none
  hasRow _ := false

/-- The values of the columns as they are bound. -/
def bindAll (pairs : List (String × Expr)) : List (String × Value) :=
  pairs.filterMap fun (name, value) => value.value?.map fun v => (name, Token.binding d v)

def given (i : Insert) : List (String × Value) :=
  (bindAll d (i.columns.zip (i.rows.headD []))).filter fun p => p.1 != m.key || p.2 != .null

/-- The row of an insert; without a key it gets the number of the rows. -/
def inserted (rows : List Row) (i : Insert) : Row :=
  let row := Attributes.ofList (given d m i)
  if row.contains m.key then row else row.insert m.key (.ofNat (rows.length + 1))

def updated (u : Update) (row : Row) : Row :=
  if u.target.selects (reading d m row) then row.insertAll (bindAll d u.assignments) else row

/-- The answer to an operation, and the rows as it asks for them. -/
def effect (op : Operation) (rows : List Row) : Response × List Row :=
  match op with
  | .query ⟨.insert i, _, _⟩ => (⟨.rows [inserted d m rows i], none⟩, rows ++ [inserted d m rows i])
  | .exec ⟨.insert i, _, _⟩ _ =>
    (⟨.count 1, (inserted d m rows i).get? m.key⟩, rows ++ [inserted d m rows i])
  | .exec ⟨.update u, _, _⟩ _ => (⟨.count 1, none⟩, rows.map (updated d m u))
  | .exec ⟨.delete q, _, _⟩ _ => (⟨.count 1, none⟩, rows.filter fun row => !q.selects (reading d m row))
  | .query _ => (⟨.rows [], none⟩, rows)
  | _ => (⟨.count 0, none⟩, rows)

/-- An operation fails if the rows would not have keys of their own. -/
def exec (op : Operation) (rows : List Row) : Except Error Response × List Row :=
  if Keyed d m.key (effect d m op rows).2 then (.ok (effect d m op rows).1, (effect d m op rows).2)
  else (.error (.ofCause (.driver "UNIQUE constraint failed" [])), rows)

variable {d m}

theorem exec_of_ok {op : Operation} {rows : List Row} {response : Response}
    (h : (exec d m op rows).1 = .ok response) :
    (exec d m op rows).2 = (effect d m op rows).2 ∧ response = (effect d m op rows).1 := by
  unfold exec at h ⊢
  split
  · rename_i hk
    rw [if_pos hk] at h
    exact ⟨rfl, (Except.ok.inj h).symm⟩
  · rename_i hk
    rw [if_neg hk] at h
    cases h

theorem names_bindAll_sublist :
    ∀ pairs : List (String × Expr), (Assoc.names (bindAll d pairs)).Sublist (Assoc.names pairs)
  | [] => .slnil
  | (_, .value _) :: pairs => (names_bindAll_sublist pairs).cons_cons _
  | (_, .raw _) :: pairs => (names_bindAll_sublist pairs).cons _

theorem mem_bindAll {pairs : List (String × Expr)} {name : String} {v : Value} (h : (name, Expr.value v) ∈ pairs) :
    (name, Token.binding d v) ∈ bindAll d pairs :=
  List.mem_filterMap.2 ⟨_, h, rfl⟩

theorem rewrites_insertAll {u : Update} (hn : (Assoc.names u.assignments).Nodup) (row : Row) :
    u.Rewrites d row (row.insertAll (bindAll d u.assignments)) where
  assigned name v hm :=
    Attributes.get?_insertAll_of_mem (p := (name, Token.binding d v)) ((names_bindAll_sublist _).nodup hn)
      (mem_bindAll hm)
  kept _ hm := Attributes.get?_insertAll_of_not_mem fun h => hm ((names_bindAll_sublist _).mem h)

theorem nodup_given (a : Attributes) : (Assoc.names (given d m (.ofAttributes m.table a))).Nodup := by
  have hbound : (Assoc.names (bindAll d (a.entries.map fun p => (p.1, Expr.value p.2)))).Nodup := by
    refine (names_bindAll_sublist _).nodup ?_
    rw [Assoc.names, List.map_map]
    exact a.nodup
  rw [given, Insert.zip_headD_ofAttributes]
  exact Assoc.nodup_names_filter _ hbound

theorem mem_given {a : Attributes} {name : String} {v : Value} (hv : a.get? name = some v)
    (hn : name = m.key → v ≠ .null) : (name, Token.binding d v) ∈ given d m (.ofAttributes m.table a) := by
  rw [given, Insert.zip_headD_ofAttributes, List.mem_filter, Bool.or_eq_true, bne_iff_ne, bne_iff_ne]
  refine ⟨mem_bindAll (List.mem_map_of_mem (Attributes.mem_entries_of_get? hv)), ?_⟩
  by_cases hk : name = m.key
  · exact .inr (Token.binding_ne_null.2 (hn hk))
  · exact .inl hk

theorem get?_given {a : Attributes} {name : String} {v : Value} (hv : a.get? name = some v)
    (hn : name = m.key → v ≠ .null) :
    (Attributes.ofList (given d m (.ofAttributes m.table a))).get? name = some (Token.binding d v) :=
  Attributes.get?_insertAll_of_mem (p := (name, Token.binding d v)) (nodup_given a) (mem_given hv hn)

theorem stored_inserted (rows : List Row) (a : Attributes) :
    a.Stored d m.key (inserted d m rows (.ofAttributes m.table a)) := by
  intro name v hv hn
  have hrow := get?_given (d := d) hv hn
  unfold inserted
  dsimp only
  split
  · exact hrow
  · rename_i hmissing
    rw [Attributes.get?_insert]
    by_cases hk : m.key = name
    · rw [hk, Attributes.contains, hrow] at hmissing
      exact absurd rfl hmissing
    · rw [if_neg hk]
      exact hrow

theorem exists_key_inserted (rows : List Row) (i : Insert) : ∃ k, (inserted d m rows i).get? m.key = some k := by
  unfold inserted
  dsimp only
  split
  · rename_i hc
    exact Option.isSome_iff_exists.1 hc
  · exact ⟨_, by rw [Attributes.get?_insert, if_pos rfl]⟩

/-- Rows that are kept in a list, and checked before they are kept, are an example of a connection that keeps a table. -/
theorem keepsTable {db : Db (List Row)} (h : db.exec = exec db.dialect m) :
    db.KeepsTable m (fun rows => rows) (reading db.dialect m) where
  column _ := if_pos rfl
  bound _ := rfl
  keyed op rows hk := by
    rw [h, exec]
    split
    · assumption
    · exact hk
  failed op rows e he := by
    rw [h, exec] at he ⊢
    split
    · rename_i hk
      rw [if_pos hk] at he
      cases he
    · rfl
  update u p wantsKey rows response _ hn hp hr := by
    obtain ⟨statement, sql, bindings⟩ := p
    cases Statement.statement_of_prepare hp
    rw [h] at hr ⊢
    rw [(exec_of_ok hr).1]
    refine List.forall₂_map_right_iff.2 (List.forall₂_same.2 fun row _ => ?_)
    unfold updated
    split
    · exact rewrites_insertAll hn row
    · rfl
  delete q p wantsKey rows response _ hp hr := by
    obtain ⟨statement, sql, bindings⟩ := p
    cases Statement.statement_of_prepare hp
    rw [h] at hr ⊢
    exact (exec_of_ok hr).1
  insert a p rows response hp hr := by
    obtain ⟨statement, sql, bindings⟩ := p
    cases Statement.statement_of_prepare hp
    rw [h] at hr ⊢
    obtain ⟨hrows, hresponse⟩ := exec_of_ok hr
    rw [hrows, hresponse]
    obtain ⟨k, hk⟩ := exists_key_inserted (d := db.dialect) (m := m) rows (.ofAttributes m.table a)
    have hbound : (inserted db.dialect m rows (.ofAttributes m.table a)).bound? db.dialect m.key =
        some (Token.binding db.dialect k) := by
      rw [Attributes.bound?, hk]
      rfl
    unfold Db.asking Db.inserting Response.Tells
    cases db.insertReturning with
    | true =>
      exact ⟨_, rfl, stored_inserted rows a, fun _ => ⟨_, rfl⟩, fun _ => ⟨k, ⟨_, [], rfl, hk⟩, hbound⟩⟩
    | false => exact ⟨_, rfl, stored_inserted rows a, nofun, fun _ => ⟨k, hk, hbound⟩⟩

end KeyedStore

namespace Blog

def author : Model := { userModel with timestamps := true }

/-- The hook before a save marks the author as checked, and the one after it fails. -/
def reviewing : Hooks where
  saving e := (.ok (), e.set "checked" (.bool true))
  saved _ := .error (.ofCause (.driver "mail" []))
  deleting _ := .ok ()
  deleted _ := .ok ()

def authorDb : Db (List Row) := { db (KeyedStore.exec .sqlite author) with hooks := [some reviewing] }

end Blog

end SqlMapper
