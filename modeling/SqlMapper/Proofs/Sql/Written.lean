import SqlMapper.Proofs.Sql.Bindings
import SqlMapper.Session.Operation
/-!
# Written — what is written clause by clause is laid out in order

The clauses of a query are written one after the other, and SQL Server's row numbers put the last of them in front of
others.  A placeholder keeps the number that it was written with.  The text is nevertheless that of the tokens read from
the left (`Query.writes_tokens`), since the one clause that is moved binds no value.  So a compiled statement is its
tokens laid out, and what they bind is added to the values before (`Statement.compileAfter_eq`).
-/
namespace SqlMapper

open Token (layout bindings word separated clauses)

/-- The output with tokens laid out behind it. -/
def Output.after (o : Output) (d : Dialect) (ts : List Token) : Output :=
  ⟨o.text ++ layout d o.values.length ts, o.values ++ bindings d ts⟩

theorem Output.after_nil (o : Output) (d : Dialect) : o.after d [] = o := by
  rw [after, layout, bindings_nil, List.append_nil, List.append_nil]

theorem Output.after_append (o : Output) (d : Dialect) (a b : List Token) :
    o.after d (a ++ b) = (o.after d a).after d b := by
  rw [after, after, after, Token.layout_append, bindings_append, List.length_append, List.append_assoc,
    List.append_assoc]

namespace Writer

variable {d : Dialect}

/-- The writer lays the tokens out behind whatever has been written. -/
def Writes (d : Dialect) (w : Writer Unit) (ts : List Token) : Prop := ∀ o, w.run o = ((), o.after d ts)

theorem writes_pure : Writes d (pure ()) [] := fun o => by rw [Output.after_nil]; rfl

theorem Writes.bind {w v : Writer Unit} {a b : List Token} (hw : Writes d w a) (hv : Writes d v b) :
    Writes d (do w; v) (a ++ b) := by
  intro o
  show v.run (w.run o).2 = _
  rw [hw, hv, Output.after_append]

theorem writes_word (text : String) : Writes d (put text.toList) [word text] := fun o => by
  rw [Output.after, layout, layout, bindings_word, bindings_nil, List.append_nil, List.append_nil]
  rfl

/-- The position of a value among the values is the number that layout gives it. -/
theorem writes_token (t : Token) : Writes d (token d t) [t] := by
  intro o
  cases t with
  | bound v =>
    have hlength : (o.values ++ [Token.binding d v]).length = o.values.length + 1 := List.length_append
    rw [Output.after, layout, layout, List.append_nil, ← hlength]
    rfl
  | word text => exact writes_word text o
  | raw sql | ident segment | number n =>
    rw [Output.after, layout, layout, List.append_nil]
    exact congrArg (fun values => ((), (⟨_, values⟩ : Output))) (List.append_nil _).symm

theorem writes_tokens : ∀ ts : List Token, Writes d (tokens d ts) ts
  | [] => writes_pure
  | t :: ts => (writes_token t).bind (writes_tokens ts)

theorem Writes.optional {w : Writer Unit} {ts : List Token} (hw : Writes d w ts) (keyword : String) (isEmpty : Bool) :
    Writes d (Writer.optional keyword isEmpty w) (optionalClause keyword isEmpty ts) := by
  unfold Writer.optional optionalClause
  split
  · exact writes_pure
  · exact (writes_word keyword).bind hw

/-- A captured text is numbered after the values before it, and the text around it is as it was. -/
theorem run_capture_bind {w : Writer Unit} {ts : List Token} (hw : Writes d w ts) (k : List Char → Writer Unit)
    (o : Output) :
    (do let text ← capture w; k text).run o =
      (k (layout d o.values.length ts)).run ⟨o.text, o.values ++ bindings d ts⟩ := by
  have h := hw ⟨[], o.values⟩
  show (k (w.run ⟨[], o.values⟩).2.text).run ⟨o.text, (w.run ⟨[], o.values⟩).2.values⟩ = _
  rw [h]
  rfl

/-- A clause that binds nothing is captured without a trace. -/
theorem run_capture_bind_of_unbound {ts : List Token} (hb : bindings d ts = []) (k : List Char → Writer Unit)
    (o : Output) :
    (do let text ← capture (tokens d ts); k text).run o = (k (layout d o.values.length ts)).run o := by
  rw [run_capture_bind (writes_tokens ts), hb, List.append_nil]

end Writer

/-! ## Texts of clauses -/

section

variable {d : Dialect}

/-- Nothing but the empty list of tokens is laid out as the empty text. -/
def Shown (ts : List Token) : Prop := ∀ d n, layout d n ts = [] → ts = []

theorem shown_nil : Shown [] := fun _ _ _ => rfl

theorem shown_word {text : String} (h : text.toList ≠ []) (rest : List Token) : Shown (word text :: rest) :=
  fun _ _ hl => absurd (List.append_eq_nil_iff.1 hl).1 h

theorem shown_optionalClause {keyword : String} (h : keyword.toList ≠ []) (isEmpty : Bool) (body : List Token) :
    Shown (optionalClause keyword isEmpty body) := by
  unfold optionalClause
  split
  · exact shown_nil
  · exact shown_word h body

/-- Texts of parts that are written one after the other. -/
def layouts (d : Dialect) : Nat → List (List Token) → List (List Char)
  | _, [] => []
  | n, part :: parts => layout d n part :: layouts d (n + (bindings d part).length) parts

theorem layouts_filter {parts : List (List Token)} (h : ∀ part ∈ parts, Shown part) (n : Nat) :
    (layouts d n parts).filter (· ≠ []) = layouts d n (parts.filter (· ≠ [])) := by
  induction parts generalizing n with
  | nil => rfl
  | cons part parts ih =>
    have ih := ih (fun p hp => h p (List.mem_cons_of_mem _ hp)) (n + (bindings d part).length)
    by_cases hpart : part = []
    · subst hpart
      exact ih
    · have htext : layout d n part ≠ [] := mt (h part List.mem_cons_self d n) hpart
      rw [layouts, List.filter_cons_of_pos (by simpa using htext), ih, List.filter_cons_of_pos (by simpa using hpart),
        layouts]

theorem layout_separated (separator : String) :
    ∀ (parts : List (List Token)) (n : Nat),
      layout d n (separated separator parts) = List.intercalate separator.toList (layouts d n parts)
  | [], _ => rfl
  | [part], n => by simp [separated, List.intercalate, layouts]
  | part :: next :: parts, n => by
    rw [Token.separated_cons_cons, Token.layout_append, layout, layout_separated separator (next :: parts)]
    simp [layouts, List.intercalate]

/-- Parts that are put together afterwards make the same text as tokens that are. -/
theorem layout_clauses {parts : List (List Token)} (h : ∀ part ∈ parts, Shown part) (n : Nat) :
    layout d n (clauses parts) = Components.concat (layouts d n parts) := by
  rw [clauses, layout_separated, Components.concat, layouts_filter h]
  rfl

/-- Where nothing is bound, the values before do not matter. -/
theorem layout_of_unbound {ts : List Token} (h : bindings d ts = []) (m n : Nat) : layout d m ts = layout d n ts := by
  induction ts with
  | nil => rfl
  | cons t ts ih =>
    cases t with
    | bound v => cases h
    | word text | raw sql | ident segment | number k =>
      rw [layout, layout, ih h]

end

/-! ## Clauses put together -/

namespace SelectClauses

open Writer (put)

/-- A clause that is there shows in the text. -/
structure AllShown (c : SelectClauses) : Prop where
  select : Shown c.select
  source : Shown c.source
  joins : Shown c.joins
  filters : Shown c.filters
  groupings : Shown c.groupings
  havings : Shown c.havings
  orderings : Shown c.orderings

/-- The texts of clauses that are written in order behind some values. -/
def written (c : SelectClauses) (d : Dialect) (limit offset : Option UInt64) (before : Nat) : Components :=
  let filtered := before + (bindings d c.filters).length
  let grouped := filtered + (bindings d c.havings).length
  { select := layout d before c.select
    source := layout d before c.source
    joins := layout d before c.joins
    filters := layout d before c.filters
    groupings := layout d filtered c.groupings
    havings := layout d filtered c.havings
    orderings := layout d grouped c.orderings
    limit := layout d grouped (limitTokens d limit offset)
    offset := layout d grouped (offsetTokens d offset) }

variable {c : SelectClauses} {d : Dialect} (limit offset : Option UInt64)

/-- Put together in the order in which they were written. -/
theorem layout_clauses_written (hb : c.BindsByFilters d) (hs : c.AllShown) (before : Nat) :
    layout d before (clauses [c.select, c.source, c.joins, c.filters, c.groupings, c.havings, c.orderings,
        limitTokens d limit offset, offsetTokens d offset]) =
      let t := c.written d limit offset before
      Components.concat [t.select, t.source, t.joins, t.filters, t.groupings, t.havings, t.orderings, t.limit,
        t.offset] := by
  have hlimit : Shown (limitTokens d limit offset) := by
    unfold limitTokens
    split
    · exact shown_nil
    · exact shown_word (by decide) _
    · exact shown_word (by decide) _
    · exact shown_word (by decide) _
    · exact shown_nil
  have hoffset : Shown (offsetTokens d offset) := by
    unfold offsetTokens
    split
    · exact shown_nil
    · exact shown_word (by decide) _
    · exact shown_nil
  rw [layout_clauses (by simp [hs.select, hs.source, hs.joins, hs.filters, hs.groupings, hs.havings, hs.orderings,
    hlimit, hoffset])]
  simp [layouts, hb.select, hb.source, hb.joins, hb.groupings, hb.orderings, bindings_limitTokens, written]

/-- The ordering inside the call that numbers rows; there must be one. -/
theorem layout_order_written (hb : c.BindsByFilters d) (hs : c.AllShown) (before n : Nat) :
    layout d n (if c.orderings = [] then [word "ORDER BY (SELECT 0)"] else c.orderings) =
      let t := c.written d limit offset before
      if t.orderings = [] then "ORDER BY (SELECT 0)".toList else t.orderings := by
  dsimp only [written]
  by_cases h : c.orderings = []
  · rw [if_pos h, h, if_pos (by rfl)]
    rfl
  · rw [if_neg h, if_neg (mt (hs.orderings _ _) h)]
    exact layout_of_unbound hb.orderings _ _

/-- **The ordering is moved without its place among the values**, for it binds none. -/
theorem layout_numbered_written (hb : c.BindsByFilters d) (hs : c.AllShown) (before : Nat) :
    layout d before (clauses [c.select ++ word ", ROW_NUMBER() OVER (" ::
          (if c.orderings = [] then [word "ORDER BY (SELECT 0)"] else c.orderings) ++ [word ") AS RowNum"],
        c.source, c.joins, c.filters, c.groupings, c.havings]) =
      let t := c.written d limit offset before
      Components.concat [t.select ++ ", ROW_NUMBER() OVER (".toList ++
          (if t.orderings = [] then "ORDER BY (SELECT 0)".toList else t.orderings) ++ ") AS RowNum".toList,
        t.source, t.joins, t.filters, t.groupings, t.havings] := by
  generalize horder : (if c.orderings = [] then [word "ORDER BY (SELECT 0)"] else c.orderings) = order
  have hbindings : bindings d order = [] := by
    rw [← horder]
    split
    · rfl
    · exact hb.orderings
  have htext := layout_order_written limit offset hb hs before before
  rw [horder] at htext
  have hnumbered : layout d before (c.select ++ word ", ROW_NUMBER() OVER (" :: order ++ [word ") AS RowNum"]) =
      layout d before c.select ++ ", ROW_NUMBER() OVER (".toList ++ layout d before order ++ ") AS RowNum".toList := by
    simp [Token.layout_append, layout, hb.select]
  have hshown : Shown (c.select ++ word ", ROW_NUMBER() OVER (" :: order ++ [word ") AS RowNum"]) := by
    intro d' n hl
    rw [Token.layout_append, Token.layout_append] at hl
    simp [layout] at hl
  rw [layout_clauses (List.forall_mem_cons.2 ⟨hshown, by
    simp [hs.source, hs.joins, hs.filters, hs.groupings, hs.havings]⟩)]
  dsimp only
  rw [← htext]
  simp only [layouts, hnumbered]
  simp [hb.select, hb.source, hb.joins, hb.groupings, hbindings, written]

/-- What is put together is what the tokens are laid out as. -/
theorem run_write_written (hb : c.BindsByFilters d) (hs : c.AllShown) (o : Output) :
    ((c.written d limit offset o.values.length).write d limit offset).run
        ⟨o.text, o.values ++ bindings d c.filters ++ bindings d c.havings⟩ =
      ((), o.after d (c.tokens d limit offset)) := by
  have hvalues := c.bindings_tokens d hb limit offset
  have hinOrder : (put (let t := c.written d limit offset o.values.length
        Components.concat [t.select, t.source, t.joins, t.filters, t.groupings, t.havings, t.orderings, t.limit,
          t.offset])).run ⟨o.text, o.values ++ bindings d c.filters ++ bindings d c.havings⟩ =
      ((), ⟨o.text ++ layout d o.values.length (clauses [c.select, c.source, c.joins, c.filters, c.groupings, c.havings,
        c.orderings, limitTokens d limit offset, offsetTokens d offset]),
        o.values ++ (bindings d c.filters ++ bindings d c.havings)⟩) := by
    rw [layout_clauses_written limit offset hb hs, ← List.append_assoc]
    rfl
  rw [Output.after, hvalues]
  cases d with
  | generic | postgresql | mysql | sqlite => exact hinOrder
  | sqlServer =>
    cases offset with
    | none => exact hinOrder
    | some start =>
      have hrange : ∀ n, layout .sqlServer n (rowRange start limit) = layout .sqlServer 0 (rowRange start limit) :=
        fun n => layout_of_unbound (bindings_rowRange _ start limit) n 0
      dsimp only [SelectClauses.tokens]
      rw [Token.layout_append, layout, layout, hrange, layout_numbered_written limit (some start) hb hs]
      show (Writer.tokens .sqlServer (rowRange start limit)).run ⟨_, _⟩ = _
      rw [Writer.writes_tokens, Output.after, bindings_rowRange, hrange]
      simp only [List.append_assoc, List.append_nil]

end SelectClauses

/-! ## Queries and statements -/

section

open Writer (Writes writes_word writes_pure writes_tokens run_capture_bind run_capture_bind_of_unbound)

variable (d : Dialect)

theorem Query.allShown_selectClauses (q : Query) : (q.selectClauses d).AllShown where
  select := by
    dsimp only [selectClauses, selectTokens]
    cases q.aggregate with
    | none => exact shown_word (by decide) _
    | some a => exact shown_word (by simp) _
  source := by
    dsimp only [selectClauses]
    cases q.source with
    | none => exact shown_nil
    | some s => exact shown_word (by decide) _
  joins := by
    dsimp only [selectClauses]
    cases q.joins with
    | nil => exact shown_nil
    | cons j rest =>
      cases rest with
      | nil => exact shown_word (by simp) _
      | cons k rest =>
        rw [List.map_cons, List.map_cons, Token.separated_cons_cons, Join.tokens]
        exact shown_word (by simp) _
  filters := shown_optionalClause (by decide) _ _
  groupings := shown_optionalClause (by decide) _ _
  havings := shown_optionalClause (by decide) _ _
  orderings := shown_optionalClause (by decide) _ _

/-- A query is written as its tokens are laid out, if its predicates are. -/
theorem Query.writes_of_filters {q : Query}
    (hf : Writes d (Filter.writeList d q.filters) (Filter.listTokens d q.filters))
    (hh : Writes d (Filter.writeList d q.havings) (Filter.listTokens d q.havings)) :
    Writes d (q.write d) (q.tokens d) := by
  intro o
  have hb := q.bindsByFilters_selectClauses d
  have hwritten := SelectClauses.run_write_written q.limit q.offset hb (q.allShown_selectClauses d) o
  rw [← Query.tokens_eq_selectClauses] at hwritten
  rw [← hwritten]
  obtain ⟨source, columns, aggregate, joins, filters, groupings, havings, orderings, limit, offset, distinct⟩ := q
  rw [Query.write.eq_def]
  -- the clauses are captured one after the other, and only the predicates leave values behind
  refine (run_capture_bind_of_unbound hb.select _ _).trans ?_
  refine (run_capture_bind_of_unbound hb.source _ _).trans ?_
  refine (run_capture_bind_of_unbound hb.joins _ _).trans ?_
  refine (run_capture_bind (hf.optional "WHERE " _) _ _).trans ?_
  refine (run_capture_bind_of_unbound hb.groupings _ _).trans ?_
  refine (run_capture_bind (hh.optional "HAVING " _) _ _).trans ?_
  refine (run_capture_bind_of_unbound hb.orderings _ _).trans ?_
  refine (run_capture_bind_of_unbound (bindings_limitTokens d limit offset) _ _).trans ?_
  refine (run_capture_bind_of_unbound (bindings_offsetTokens d offset) _ _).trans ?_
  simp only [List.length_append]
  rfl

mutual

theorem Predicate.writes_tokens : ∀ p : Predicate, Writes d (p.write d) (p.tokens d)
  | .hasRow query _ => (writes_word _).bind ((Query.writes_tokens query).bind (writes_word ")"))
  | .group filters => (writes_word "(").bind ((Filter.writes_listTokens filters).bind (writes_word ")"))
  | .compare _ _ _ | .isIn _ _ _ | .between _ _ _ _ | .isNull _ _ | .raw _ => writes_tokens _

theorem Filter.writes_listTokens :
    ∀ filters : List Filter, Writes d (Filter.writeList d filters) (Filter.listTokens d filters)
  | [] => writes_pure
  | ⟨_, predicate⟩ :: rest => (Predicate.writes_tokens predicate).bind (Filter.writes_moreTokens rest)

theorem Filter.writes_moreTokens :
    ∀ filters : List Filter, Writes d (Filter.writeMore d filters) (Filter.moreTokens d filters)
  | [] => writes_pure
  | ⟨_, predicate⟩ :: rest =>
    (writes_word _).bind ((Predicate.writes_tokens predicate).bind (Filter.writes_moreTokens rest))

/-- **What is written clause by clause is the query's tokens, laid out from the left.** -/
theorem Query.writes_tokens : ∀ q : Query, Writes d (q.write d) (q.tokens d)
  | ⟨_, _, _, _, filters, _, havings, _, _, _, _⟩ =>
    Query.writes_of_filters d (Filter.writes_listTokens filters) (Filter.writes_listTokens havings)

end

theorem Query.writes_whereTokens (q : Query) : Writes d (q.writeWhere d) (q.whereTokens d) :=
  (Filter.writes_listTokens d q.filters).optional " WHERE " q.filters.isEmpty

theorem Statement.writes_tokens : ∀ s : Statement, Writes d (s.write d) (s.tokens d)
  | .query q => q.writes_tokens d
  | .insert i => Writer.writes_tokens (i.tokens d)
  | .update u => (Writer.writes_tokens u.setTokens).bind (u.target.writes_whereTokens d)
  | .delete target =>
    (Writer.writes_tokens (word "DELETE FROM " :: target.targetTokens)).bind (target.writes_whereTokens d)
  | .truncate table => Writer.writes_tokens (word "TRUNCATE TABLE " :: Token.name table)

end

/-! ## Compiling -/

section

variable {d : Dialect} {s : Statement}

theorem Statement.run_serialize (h : s.refusal? d = none) (params : List Value) :
    (s.serialize d).run.run params =
      (.ok (String.ofList (layout d params.length (s.tokens d))), params ++ bindings d (s.tokens d)) := by
  have hwrite := s.writes_tokens d ⟨[], params⟩
  rw [serialize, h]
  show (Except.ok (String.ofList ((s.write d).run ⟨[], params⟩).2.text), ((s.write d).run ⟨[], params⟩).2.values) = _
  rw [hwrite]
  rfl

theorem Statement.run_serialize_of_refusal {cause : Cause} (h : s.refusal? d = some cause) (params : List Value) :
    (s.serialize d).run.run params = (.error (.ofCause cause), params) := by
  rw [serialize, h]
  rfl

/-- **A compiled statement is its tokens laid out**, behind the values that are bound before. -/
theorem Statement.compileAfter_eq (h : s.refusal? d = none) (before : List Value) :
    s.compileAfter d before =
      .ok ⟨String.ofList (layout d before.length (s.tokens d)), before ++ bindings d (s.tokens d)⟩ := by
  rw [compileAfter, run_serialize h]

theorem Statement.compileAfter_of_refusal {cause : Cause} (h : s.refusal? d = some cause) (before : List Value) :
    s.compileAfter d before = .error (.ofCause cause) := by
  rw [compileAfter, run_serialize_of_refusal h]

theorem Statement.refusal?_of_compileAfter {before : List Value} {c : Compiled} (hc : s.compileAfter d before = .ok c) :
    s.refusal? d = none := by
  cases hr : s.refusal? d with
  | none => rfl
  | some cause =>
    rw [compileAfter_of_refusal hr] at hc
    cases hc

theorem Statement.prepare_eq (h : s.refusal? d = none) :
    s.prepare d = .ok ⟨s, String.ofList (layout d 0 (s.tokens d)), bindings d (s.tokens d)⟩ := by
  rw [prepare, compile, compileAfter_eq h]
  rfl

theorem Query.prepare_eq_ok (d : Dialect) (q : Query) :
    ∃ sql, (Statement.query q).prepare d = .ok ⟨.query q, sql, q.values.map (Token.binding d)⟩ :=
  ⟨_, (Statement.prepare_eq rfl).trans (by rw [Statement.tokens, q.bindings_tokens d])⟩

end

end SqlMapper
