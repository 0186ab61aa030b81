import SqlMapper.Proofs.Sql.Legible
import SqlMapper.Proofs.Sql.Written
import SqlMapper.Query.Build
/-!
# Placeholders — the values that the text asks for

Compiling numbers the values as it lays the tokens out, so the text and the list of values agree by construction.  What
has to be shown is that a database which reads the text finds those placeholders and no others, whatever the names in
the statement hold.  The tokens of a statement without raw SQL are legible, so the text is read back token by token.
-/
namespace SqlMapper

open Token (word legible legible_append legible_word legible_name legible_segment legible_separated)
open Lexeme (lex atPosition isPlaceholder quoted?)

/-! ## The writes -/

theorem legible_unionRow (columns : List String) {row : List Expr} (h : row.all (!·.isRaw) = true) :
    legible (unionRow columns row) = true := by
  refine legible_word (by decide) (legible_separated (by decide) (by decide) fun p hp => ?_)
  obtain ⟨⟨column, value⟩, hv, rfl⟩ := List.mem_map.1 hp
  have hr := List.all_eq_true.1 h value (List.of_mem_zip hv).2
  exact legible_append (legible_word (by decide) (legible_segment column)) rfl (Expr.legible_token hr)

theorem legible_valuesRow {row : List Expr} (h : row.all (!·.isRaw) = true) : legible (valuesRow row) = true :=
  legible_append (by decide) (by decide) (legible_word (by decide) (legible_exprList h))

theorem Insert.legible_rowsTokens {i : Insert} (d : Dialect) (h : i.rows.all (fun row => row.all (!·.isRaw)) = true) :
    legible (i.rowsTokens d) = true := by
  unfold Insert.rowsTokens
  split
  · refine legible_separated (by decide) (by decide) fun p hp => ?_
    obtain ⟨row, hr, rfl⟩ := List.mem_map.1 hp
    exact legible_unionRow i.columns (List.all_eq_true.1 h row hr)
  · refine legible_word (by decide) (legible_separated (by decide) (by decide) fun p hp => ?_)
    obtain ⟨row, hr, rfl⟩ := List.mem_map.1 hp
    exact legible_valuesRow (List.all_eq_true.1 h row hr)

theorem Insert.legible_tokens {i : Insert} (d : Dialect) (h : i.rows.all (fun row => row.all (!·.isRaw)) = true) :
    legible (i.tokens d) = true := by
  have hn : legible (word "INSERT INTO " :: Token.name i.table) = true := legible_word (by decide) (legible_name i.table)
  have hc : legible (Token.separated ", " (i.columns.map Token.name)) = true :=
    legible_separated (by decide) (by decide) fun p hp => by
      obtain ⟨c, -, rfl⟩ := List.mem_map.1 hp
      exact legible_name c
  have hrows : legible (word ") " :: i.rowsTokens d) = true := legible_word (by decide) (Insert.legible_rowsTokens d h)
  have hbody : legible (word "INSERT INTO " :: Token.name i.table ++
      (if i.columns = [] then [word (if d = .mysql then " () VALUES ()" else " DEFAULT VALUES")]
       else word " (" :: Token.separated ", " (i.columns.map Token.name) ++ word ") " :: i.rowsTokens d)) = true := by
    split
    · exact legible_append (by cases d <;> decide) (by cases d <;> decide) hn
    · exact legible_append (legible_word (by decide) (legible_append hrows rfl hc)) rfl hn
  unfold Insert.tokens
  cases i.returning with
  | none => exact legible_append rfl rfl hbody
  | some c => exact legible_append (legible_word (by decide) (legible_name c)) rfl hbody

theorem Query.legible_targetTokens (q : Query) : legible q.targetTokens = true := by
  unfold Query.targetTokens
  split
  · exact legible_name _
  · rfl

theorem Query.legible_whereTokens {q : Query} (d : Dialect) (h : q.rawFree = true) :
    legible (q.whereTokens d) = true ∧ Token.startsApart (q.whereTokens d) = true := by
  obtain ⟨source, columns, aggregate, joins, filters, groupings, havings, orderings, limit, offset, distinct⟩ := q
  simp only [Query.rawFree, Bool.and_eq_true] at h
  unfold Query.whereTokens
  split
  · exact ⟨rfl, rfl⟩
  · exact ⟨legible_word (by decide) (Filter.legible_listTokens d filters h.1.1.1.2), rfl⟩

theorem Update.legible_tokens {u : Update} (d : Dialect) (ht : u.target.rawFree = true)
    (ha : u.assignments.all (!·.2.isRaw) = true) : legible (u.tokens d) = true := by
  have hw := Query.legible_whereTokens d ht
  refine legible_append hw.1 hw.2 (legible_append (legible_word (by decide) ?_) rfl
    (legible_word (by decide) (Query.legible_targetTokens u.target)))
  refine legible_separated (by decide) (by decide) fun p hp => ?_
  obtain ⟨⟨column, value⟩, hm, rfl⟩ := List.mem_map.1 hp
  exact legible_append (legible_word (by decide) (Expr.legible_token (List.all_eq_true.1 ha _ hm))) rfl
    (legible_name column)

/-- **The tokens of a statement without raw SQL are legible.** -/
theorem Statement.legible_tokens (d : Dialect) (s : Statement) (h : s.rawFree = true) : legible (s.tokens d) = true := by
  cases s with
  | query q => exact Query.legible_tokens d q h
  | insert i => exact Insert.legible_tokens d h
  | update u =>
    rw [Statement.rawFree, Bool.and_eq_true] at h
    exact Update.legible_tokens d h.1 h.2
  | delete target =>
    have hw := Query.legible_whereTokens d h
    exact legible_append hw.1 hw.2 (legible_word (by decide) (Query.legible_targetTokens target))
  | truncate table => exact legible_word (by decide) (legible_name table)

/-! ## The compiled text -/

/-- The text with every numbered placeholder counted on, and all else as it stands. -/
def Lexeme.renumber (d : Dialect) (k : Nat) (text : List Char) : List Char :=
  (lex d text).flatMap fun l => (l.shift k).text d

theorem lex_compileAfter {d : Dialect} {before : List Value} {s : Statement} {c : Compiled} (hs : s.rawFree = true)
    (hc : s.compileAfter d before = .ok c) :
    lex d c.sql.toList = Token.lexemes d before.length (s.tokens d) := by
  rw [Statement.compileAfter_eq (Statement.refusal?_of_compileAfter hc)] at hc
  cases hc
  rw [String.toList_ofList, Token.lex_layout d _ _ (Statement.legible_tokens d s hs)]

/-- A statement is refused whatever was bound before. -/
theorem Statement.compileAfter_eq_ok {d : Dialect} {before : List Value} {s : Statement} {c : Compiled}
    (hc : s.compileAfter d before = .ok c) :
    c = ⟨String.ofList (Token.layout d before.length (s.tokens d)), before ++ Token.bindings d (s.tokens d)⟩ ∧
      s.compile d = .ok ⟨String.ofList (Token.layout d 0 (s.tokens d)), Token.bindings d (s.tokens d)⟩ := by
  have hrefusal := Statement.refusal?_of_compileAfter hc
  rw [Statement.compileAfter_eq hrefusal] at hc
  exact ⟨(Except.ok.inj hc).symm, Statement.compileAfter_eq hrefusal []⟩

/-- **Placeholders and bound values agree.**  A statement without raw SQL that is compiled after some bound values asks
for exactly the values it adds: read from the left, its text has one placeholder for each of them, numbered on from the
values before.  The quoted segments that are read are the statement's own names, so no part of a name is read as a
placeholder.  The text differs from the text of the statement by itself only in the numbers. -/
theorem Statement.compileAfter_placeholders (d : Dialect) (before : List Value) (s : Statement) (c : Compiled)
    (hs : s.rawFree = true) (hc : s.compileAfter d before = .ok c) :
    ∃ (added : List Value) (alone : String),
      c.bindings = before ++ added ∧ s.compile d = .ok ⟨alone, added⟩ ∧
      (lex d c.sql.toList).filter isPlaceholder =
        (List.range added.length).map (fun i => atPosition d (before.length + (i + 1))) ∧
      (lex d c.sql.toList).filterMap quoted? = (s.tokens d).filterMap Token.segment? ∧
      c.sql.toList = Lexeme.renumber d before.length alone.toList := by
  obtain ⟨hce, halone⟩ := Statement.compileAfter_eq_ok hc
  have hl := lex_compileAfter hs hc
  have hl0 := lex_compileAfter hs halone
  refine ⟨Token.bindings d (s.tokens d), _, by rw [hce], halone, ?_, ?_, ?_⟩
  · rw [hl, Token.filter_isPlaceholder_lexemes]
  · rw [hl, Token.filterMap_quoted?_lexemes]
  · have hadd := Token.lexemes_add d before.length (s.tokens d) 0
    rw [Nat.zero_add] at hadd
    rw [Lexeme.renumber, hl0, List.length_nil, ← List.flatMap_map, ← hadd, Token.flatMap_text_lexemes, hce,
      String.toList_ofList]

/-- A page of a query whose names look like quotes and placeholders. -/
def deceptiveQuery : Query :=
  (((Query.table "a]?b").filterIn (.name "x.$1") [.value (.int 1), .value (.int 2)]).filterExists
    ((Query.table "\"@P9").filter (.name "]@P1") (.value (.bool true)))).orderBy (.name "?") |>.skip 5

theorem compileAfter_placeholders_deceptiveQuery :
    (Statement.query deceptiveQuery).rawFree = true ∧
      ∃ c, (Statement.query deceptiveQuery).compileAfter .sqlServer [.int 7] = .ok c ∧
        (lex .sqlServer c.sql.toList).filter isPlaceholder =
          [.placeholder ['@', 'P'] (some 2), .placeholder ['@', 'P'] (some 3), .placeholder ['@', 'P'] (some 4)] := by
  have hcompile := Statement.compileAfter_eq (d := .sqlServer) (s := .query deceptiveQuery) rfl [.int 7]
  refine ⟨rfl, _, hcompile, ?_⟩
  obtain ⟨added, alone, hb, -, hp, -, -⟩ :=
    Statement.compileAfter_placeholders .sqlServer [.int 7] (.query deceptiveQuery) _ rfl hcompile
  have hv : Token.bindings .sqlServer ((Statement.query deceptiveQuery).tokens .sqlServer) =
      [.int 1, .int 2, .bool true] := rfl
  have ha : added = [.int 1, .int 2, .bool true] := (List.append_cancel_left hb).symm.trans hv
  rw [hp, ha]
  rfl

end SqlMapper
