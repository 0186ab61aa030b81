import SqlMapper.Query.Basic
import SqlMapper.Sql.Select
/-!
# Normal — predicate lists up to what is not written

Not everything about a list of predicates reaches a statement.  The first connector is not written, a comparison with
null for equality asks for null, a membership in no values has no column, and a timestamp travels as text.  The normal
form of a list forgets these differences and keeps everything else.
-/
namespace SqlMapper

/-- The expression with its value as it is bound. -/
def Expr.settled (d : Dialect) : Expr → Expr
  | value v => value (Token.binding d v)
  | raw sql => raw sql

mutual

/-- A comparison, a membership, a range or a test for null, without raw SQL, or a group of these. -/
def Predicate.isSimple : Predicate → Bool
  | .compare column _ value => !column.isRaw && !value.isRaw
  | .isIn column values _ => !column.isRaw && values.all (!·.isRaw)
  | .between column low high _ => !column.isRaw && !low.isRaw && !high.isRaw
  | .isNull column _ => !column.isRaw
  | .group filters => Filter.listSimple filters
  | .hasRow .. | .raw _ => false

def Filter.listSimple : List Filter → Bool
  | [] => true
  | ⟨_, predicate⟩ :: rest => predicate.isSimple && Filter.listSimple rest

end

mutual

/-- The predicate as it is written. -/
def Predicate.normal (d : Dialect) : Predicate → Predicate
  | .compare column .eq (.value .null) => .isNull column false
  | .compare column .ne (.value .null) => .isNull column true
  | .compare column op value => .compare column op (value.settled d)
  | .isIn _ [] negated => .isIn (.name "") [] negated
  | .isIn column values negated => .isIn column (values.map (Expr.settled d)) negated
  | .between column low high negated => .between column (low.settled d) (high.settled d) negated
  | .isNull column negated => .isNull column negated
  | .group filters => .group (Filter.listNormal d filters)
  | .hasRow query negated => .hasRow query negated
  | .raw sql => .raw sql

/-- The list with `AND` as its first connector and every predicate as it is written. -/
def Filter.listNormal (d : Dialect) : List Filter → List Filter
  | [] => []
  | ⟨_, predicate⟩ :: rest => ⟨.and, predicate.normal d⟩ :: Filter.moreNormal d rest

/-- The predicates after the first, which keep their connectors. -/
def Filter.moreNormal (d : Dialect) : List Filter → List Filter
  | [] => []
  | ⟨connector, predicate⟩ :: rest => ⟨connector, predicate.normal d⟩ :: Filter.moreNormal d rest

end

/-- Only equality and inequality with null ask for null. -/
theorem Predicate.normal_compare {d : Dialect} {column : Column} {op : Comparison} {v : Value}
    (h : ¬ (v = .null ∧ (op = .eq ∨ op = .ne))) :
    (Predicate.compare column op (.value v)).normal d = .compare column op (.value (Token.binding d v)) := by
  by_cases hv : v = .null
  · subst hv
    cases op with
    | eq => exact absurd ⟨rfl, .inl rfl⟩ h
    | ne => exact absurd ⟨rfl, .inr rfl⟩ h
    | lt | le | gt | ge | like | notLike => rfl
  · cases v with
    | null => exact absurd rfl hv
    | _ => cases op <;> rfl

theorem comparisonTokens_value {column : Column} {op : Comparison} {v : Value}
    (h : ¬ (v = .null ∧ (op = .eq ∨ op = .ne))) :
    comparisonTokens column op (.value v) = column.tokens ++ [.word (" " ++ op.symbol ++ " "), .bound v] := by
  unfold comparisonTokens
  split
  · rename_i hv
    exact absurd ⟨Expr.value.inj hv, .inl rfl⟩ h
  · rename_i hv
    exact absurd ⟨Expr.value.inj hv, .inr rfl⟩ h
  · rfl

theorem Predicate.normal_isIn {d : Dialect} {column : Column} {values : List Expr} {negated : Bool} (h : values ≠ []) :
    (Predicate.isIn column values negated).normal d = .isIn column (values.map (Expr.settled d)) negated := by
  cases values with
  | nil => exact absurd rfl h
  | cons value values => rfl

end SqlMapper
