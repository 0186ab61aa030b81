import SqlMapper.Query.Statement
/-!
# RawFree — statements without raw SQL

Fragments of raw SQL may stand for a column, a value, a source or a predicate, at any depth.  What the library promises
about the text of a statement, it promises about statements that hold none.
-/
namespace SqlMapper

def Source.rawFree : Source → Bool
  | .table _ => true
  | .raw _ => false

def JoinClause.rawFree (c : JoinClause) : Bool := !c.left.isRaw && !c.right.isRaw

def Join.rawFree (j : Join) : Bool := j.clauses.all JoinClause.rawFree

def Aggregate.rawFree (a : Aggregate) : Bool := a.columns.all (!·.isRaw)

mutual

def Predicate.rawFree : Predicate → Bool
  | .compare column _ value => !column.isRaw && !value.isRaw
  | .isIn column values _ => !column.isRaw && values.all (!·.isRaw)
  | .between column low high _ => !column.isRaw && !low.isRaw && !high.isRaw
  | .isNull column _ => !column.isRaw
  | .hasRow query _ => query.rawFree
  | .raw _ => false
  | .group filters => Filter.listRawFree filters

def Filter.listRawFree : List Filter → Bool
  | [] => true
  | ⟨_, predicate⟩ :: rest => predicate.rawFree && Filter.listRawFree rest

def Query.rawFree : Query → Bool
  | ⟨source, columns, aggregate, joins, filters, groupings, havings, orderings, _, _, _⟩ =>
    source.all Source.rawFree && columns.all (!·.isRaw) && aggregate.all Aggregate.rawFree && joins.all Join.rawFree &&
      Filter.listRawFree filters && groupings.all (!·.isRaw) && Filter.listRawFree havings &&
      orderings.all (!·.column.isRaw)

end

def Statement.rawFree : Statement → Bool
  | .query q => q.rawFree
  | .insert i => i.rows.all fun row => row.all (!·.isRaw)
  | .update u => u.target.rawFree && u.assignments.all (!·.2.isRaw)
  | .delete target => target.rawFree
  | .truncate _ => true

/-! ## Values without raw SQL -/

theorem Expr.exists_value {e : Expr} (h : e.isRaw = false) : ∃ v, e = .value v := by
  cases e with
  | value v => exact ⟨v, rfl⟩
  | raw sql => cases h

theorem Expr.exists_values : ∀ {values : List Expr}, values.all (!·.isRaw) = true → ∃ vs : List Value, values = vs.map .value
  | [], _ => ⟨[], rfl⟩
  | e :: values, h => by
    rw [List.all_cons, Bool.and_eq_true, Bool.not_eq_true'] at h
    obtain ⟨v, rfl⟩ := Expr.exists_value h.1
    obtain ⟨vs, rfl⟩ := Expr.exists_values h.2
    exact ⟨v :: vs, rfl⟩

theorem Expr.filterMap_value? (vs : List Value) : (vs.map Expr.value).filterMap Expr.value? = vs := by
  rw [List.filterMap_map]
  exact List.filterMap_some

end SqlMapper
