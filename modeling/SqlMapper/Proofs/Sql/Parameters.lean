import Mathlib.Data.List.Forall2
import SqlMapper.Proofs.Sql.Written
import SqlMapper.Query.Build
/-!
# Parameters — the values that a statement pushes

A statement pushes its values in order onto the parameters that are there, and they do not depend on the dialect.  There
is one exception.  A select over constants pairs the values of a row with the columns, so a row that is wider than the
columns loses the values behind them, and an insert without columns writes none (`Insert.writtenRows`).
-/
namespace SqlMapper

open Token (bindings word separated)

/-! ## The values of a statement -/

def rowValues (rows : List (List Expr)) : List Value := rows.flatMap fun row => row.filterMap Expr.value?

/-- The values of a statement in order.  Updates and deletes take only the predicates of their target. -/
def Statement.values : Statement → List Value
  | .query q => q.values
  | .insert i => rowValues i.rows
  | .update u => u.assignments.filterMap (·.2.value?) ++ Filter.listValues u.target.filters
  | .delete target => Filter.listValues target.filters
  | .truncate _ => []

/-- The rows of an insert as far as they are written. -/
def Insert.writtenRows (d : Dialect) (i : Insert) : List (List Expr) :=
  if i.columns = [] then []
  else if d = .sqlite ∧ 1 < i.rows.length then i.rows.map (·.take i.columns.length)
  else i.rows

/-- The values of a statement that are written. -/
def Statement.writtenValues (d : Dialect) : Statement → List Value
  | .insert i => rowValues (i.writtenRows d)
  | s => s.values

/-- No row of an insert is wider than the columns. -/
def Statement.RowsFit : Statement → Prop
  | .insert i => ∀ row ∈ i.rows, row.length ≤ i.columns.length
  | _ => True

theorem Insert.writtenRows_eq {i : Insert} (d : Dialect) (h : ∀ row ∈ i.rows, row.length ≤ i.columns.length) :
    rowValues (i.writtenRows d) = rowValues i.rows := by
  unfold Insert.writtenRows
  split
  · -- every row is as empty as the columns
    rename_i hc
    refine (List.flatMap_eq_nil_iff.2 fun row hrow => ?_).symm
    have hwidth := h row hrow
    rw [hc, List.length_nil, Nat.le_zero, List.length_eq_zero_iff] at hwidth
    rw [hwidth]
    rfl
  split
  · have htake : i.rows.map (·.take i.columns.length) = i.rows.map id :=
      List.map_congr_left fun row hrow => List.take_of_length_le (h row hrow)
    rw [htake, List.map_id]
  · rfl

theorem Statement.writtenValues_eq {s : Statement} (h : s.RowsFit) (d : Dialect) : s.writtenValues d = s.values := by
  cases s with
  | insert i => exact i.writtenRows_eq d h
  | _ => rfl

section

variable (d : Dialect)

/-- What follows the last column is not written. -/
theorem bindings_unionRow (columns : List String) (row : List Expr) :
    bindings d (unionRow columns row) =
      ((row.take columns.length).filterMap Expr.value?).map (Token.binding d) := by
  have hzip : (columns.zip row).map Prod.snd = row.take columns.length := by
    rw [List.zip_eq_zip_take_min, List.map_snd_zip (by simp)]
    simp
  rw [← bindings_exprList, unionRow, exprList, bindings_word, bindings_separated, bindings_separated, List.flatMap_map,
    List.flatMap_map, ← hzip, List.flatMap_map]
  refine List.flatMap_congr fun pair _ => ?_
  obtain ⟨column, value⟩ := pair
  cases value <;> simp [Expr.token]

theorem bindings_valuesRow (row : List Expr) :
    bindings d (valuesRow row) = (row.filterMap Expr.value?).map (Token.binding d) := by
  simp [valuesRow, bindings_exprList]

/-- Both forms of several rows bind the rows one after the other. -/
theorem Insert.bindings_rowsTokens {i : Insert} (hc : i.columns ≠ []) :
    bindings d (i.rowsTokens d) = (rowValues (i.writtenRows d)).map (Token.binding d) := by
  rw [Insert.writtenRows, if_neg hc, Insert.rowsTokens]
  split
  · rw [bindings_separated, rowValues, List.map_flatMap, List.flatMap_map, List.flatMap_map]
    exact List.flatMap_congr fun row _ => bindings_unionRow d i.columns row
  · rw [bindings_word, bindings_separated, rowValues, List.map_flatMap, List.flatMap_map]
    exact List.flatMap_congr fun row _ => bindings_valuesRow d row

@[simp] theorem bindings_columnNames (columns : List String) :
    bindings d (separated ", " (columns.map Token.name)) = [] :=
  bindings_separated_eq_nil d fun p hp => by
    obtain ⟨column, -, rfl⟩ := List.mem_map.1 hp
    exact bindings_name d column

theorem Insert.bindings_tokens (i : Insert) :
    bindings d (i.tokens d) = (rowValues (i.writtenRows d)).map (Token.binding d) := by
  have htokens : bindings d (i.tokens d) = if i.columns = [] then [] else bindings d (i.rowsTokens d) := by
    unfold Insert.tokens
    cases i.returning <;> by_cases hc : i.columns = [] <;> simp [hc]
  rw [htokens]
  split
  · rename_i hc
    rw [Insert.writtenRows, if_pos hc]
    rfl
  · rename_i hc
    exact Insert.bindings_rowsTokens d hc

theorem Query.bindings_whereTokens (q : Query) :
    bindings d (q.whereTokens d) = (Filter.listValues q.filters).map (Token.binding d) := by
  unfold Query.whereTokens
  cases hf : q.filters with
  | nil => rfl
  | cons f rest => simp [Filter.bindings_listTokens]

theorem Query.bindings_targetTokens (q : Query) : bindings d q.targetTokens = [] := by
  unfold Query.targetTokens
  split <;> simp

theorem Update.bindings_setTokens (u : Update) :
    bindings d u.setTokens = (u.assignments.filterMap (·.2.value?)).map (Token.binding d) := by
  have hassigned : bindings d (separated ", " (u.assignments.map fun a => Token.name a.1 ++ [word " = ", a.2.token])) =
      (u.assignments.filterMap (·.2.value?)).map (Token.binding d) := by
    rw [bindings_separated, List.flatMap_map]
    induction u.assignments with
    | nil => rfl
    | cons pair rest ih =>
      obtain ⟨column, value⟩ := pair
      rw [List.flatMap_cons, ih]
      cases value <;> simp [Expr.token, Expr.value?]
  rw [Update.setTokens, List.cons_append, bindings_word, bindings_append, Query.bindings_targetTokens, bindings_word]
  exact hassigned

/-- **A statement binds what it writes in order**, each value as the dialect binds it. -/
theorem Statement.bindings_tokens (s : Statement) :
    bindings d (s.tokens d) = (s.writtenValues d).map (Token.binding d) := by
  cases s with
  | query q => exact q.bindings_tokens d
  | insert i => exact i.bindings_tokens d
  | update u =>
    simp [Statement.tokens, Update.tokens, Update.bindings_setTokens, Query.bindings_whereTokens,
      Statement.writtenValues, Statement.values]
  | delete target =>
    simp [Statement.tokens, Query.bindings_targetTokens, Query.bindings_whereTokens, Statement.writtenValues,
      Statement.values]
  | truncate table => simp [Statement.tokens, Statement.writtenValues, Statement.values]

/-- The assignments of an update come before its predicates, and the null that is compared with is not bound. -/
example :
    (Statement.update ((Update.on (((Query.table "posts").filter (.name "id") (.value (.int 5))).filter (.name "gone")
      (.value .null))).set "title" (.value (.text "Hello")))).values = [.text "Hello", .int 5] := by
  decide

end

/-! ## What is pushed -/

/-- The values are equal, or they are the texts of one timestamp. -/
def Value.AlikeBound (d d' : Dialect) (a b : Value) : Prop :=
  a = b ∨ ∃ t, a = .text (String.ofList (d.timestampText t)) ∧ b = .text (String.ofList (d'.timestampText t))

theorem Value.alikeBound_binding (d d' : Dialect) (v : Value) :
    Value.AlikeBound d d' (Token.binding d v) (Token.binding d' v) := by
  cases v with
  | timestamp t => exact .inr ⟨t, rfl, rfl⟩
  | _ => exact .inl rfl

/-- **The parameters are the values of the statement in order, whatever the dialect.**  Writing a statement onto some
parameters adds exactly the values that it writes to them, timestamps as text, or fails and leaves them as they are;
compiling gives the same.  If no row of an insert is wider than the columns, these are all values of the statement, and
what two dialects add differs at most in the texts of timestamps. -/
theorem Statement.serialize_pushes_values (s : Statement) :
    (∀ d params,
      (∃ sql, (s.serialize d).run.run params = (.ok sql, params ++ (s.writtenValues d).map (Token.binding d)) ∧
        s.compileAfter d params = .ok ⟨sql, params ++ (s.writtenValues d).map (Token.binding d)⟩) ∨
      ∃ e, (s.serialize d).run.run params = (.error e, params) ∧ s.compileAfter d params = .error e) ∧
    (s.RowsFit →
      (∀ d, s.writtenValues d = s.values) ∧
      ∀ d d', List.Forall₂ (Value.AlikeBound d d') ((s.writtenValues d).map (Token.binding d))
        ((s.writtenValues d').map (Token.binding d'))) := by
  constructor
  · intro d params
    cases hr : s.refusal? d with
    | some cause => exact .inr ⟨_, s.run_serialize_of_refusal hr params, s.compileAfter_of_refusal hr params⟩
    | none =>
      rw [← s.bindings_tokens d]
      exact .inl ⟨_, s.run_serialize hr params, s.compileAfter_eq hr params⟩
  · intro hfit
    refine ⟨Statement.writtenValues_eq hfit, fun d d' => ?_⟩
    rw [Statement.writtenValues_eq hfit, Statement.writtenValues_eq hfit, List.forall₂_map_left_iff,
      List.forall₂_map_right_iff, List.forall₂_same]
    exact fun v _ => Value.alikeBound_binding d d' v

/-- An insert whose rows differ in width, none of them wider than the columns. -/
def narrowRows : Statement :=
  .insert ⟨"notes", ["id", "rank"], [[.value (.int 1), .value (.int 2)], [.value (.int 3)]], none⟩

theorem serialize_pushes_values_narrowRows :
    narrowRows.RowsFit ∧
      (∃ sql, (narrowRows.serialize .sqlite).run.run [.int 7] = (.ok sql, [.int 7, .int 1, .int 2, .int 3])) ∧
      List.Forall₂ (Value.AlikeBound .sqlite .mysql) ((narrowRows.writtenValues .sqlite).map (Token.binding .sqlite))
        ((narrowRows.writtenValues .mysql).map (Token.binding .mysql)) := by
  have hfit : narrowRows.RowsFit := by
    show ∀ row ∈ _, _
    decide
  obtain ⟨hpushes, hvalues⟩ := Statement.serialize_pushes_values narrowRows
  obtain ⟨hall, halike⟩ := hvalues hfit
  refine ⟨hfit, ?_, halike .sqlite .mysql⟩
  rcases hpushes .sqlite [.int 7] with ⟨sql, hsql, -⟩ | ⟨e, he, -⟩
  · rw [hall] at hsql
    exact ⟨sql, hsql⟩
  · rw [Statement.run_serialize rfl] at he
    cases he

/-- An insert with a row that is wider than the columns. -/
def wideRows : Statement := .insert ⟨"t", ["a"], [[.value (.int 1), .value (.int 2)], [.value (.int 3)]], none⟩

/-- The select over constants ends with the columns, so one value is lost, and only there. -/
theorem serialize_drops_value_of_wideRows :
    wideRows.values.map (Token.binding .sqlite) = [.int 1, .int 2, .int 3] ∧
      (∃ sql, (wideRows.serialize .sqlite).run.run [] = (.ok sql, [.int 1, .int 3])) ∧
      ∃ sql, (wideRows.serialize .postgresql).run.run [] = (.ok sql, [.int 1, .int 2, .int 3]) :=
  ⟨rfl, ⟨_, Statement.run_serialize rfl []⟩, ⟨_, Statement.run_serialize rfl []⟩⟩

end SqlMapper
