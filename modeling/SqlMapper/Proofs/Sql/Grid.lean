import SqlMapper.Proofs.Sql.Identifier
import SqlMapper.Proofs.Sql.Parameters
import SqlMapper.Timestamp.Clock
/-!
# Grid — the rows of an insert

An insert writes a grid of values, one row after the other and as wide as its columns.  Two forms of it are in use:
values in parentheses, and on SQLite a union of selects for several rows, where every value stands under the name of its
column.  Both are read back as the same grid (`Insert.reads_back`): the placeholder of each place has the number of the
place, and the value of the place is bound under that number.  The builder methods make such grids and no other inserts
(`Insert.built_iff_isGrid`).
-/
namespace SqlMapper

open Lexeme (Ends atPosition)
open Token (layout word separated bindings)

/-! ## Inserts that are built -/

namespace Insert

/-- Inserts that the builder methods make. -/
inductive Built : Insert → Prop
  | into (table : String) (columns : List String) : Built (.into table columns)
  | ofAttributes (table : String) (a : Attributes) : Built (.ofAttributes table a)
  | pushRow {i j : Insert} {row : List Expr} (h : Built i) (hj : i.pushRow? row = some j) : Built j
  | returningColumn {i : Insert} (column : String) (h : Built i) : Built (i.returningColumn column)

/-- A row that is pushed is as wide as the columns. -/
theorem isGrid_pushRow {i j : Insert} {row : List Expr} (h : i.IsGrid) (hj : i.pushRow? row = some j) : j.IsGrid := by
  unfold pushRow? at hj
  split at hj
  · rename_i hwidth
    cases hj
    exact List.forall_mem_append.2 ⟨h, List.forall_mem_singleton.2 hwidth⟩
  · cases hj

theorem Built.isGrid {i : Insert} (h : i.Built) : i.IsGrid := by
  induction h with
  | into table columns => exact List.forall_mem_nil _
  | ofAttributes table a => exact isGrid_ofAttributes table a
  | pushRow _ hj ih => exact isGrid_pushRow ih hj
  | returningColumn column _ ih => exact ih

/-- Any grid is built row by row. -/
theorem IsGrid.built {i : Insert} (h : i.IsGrid) : i.Built := by
  obtain ⟨table, columns, rows, returning⟩ := i
  have hrows : ∀ rows : List (List Expr), (∀ row ∈ rows, row.length = columns.length) →
      Built ⟨table, columns, rows, none⟩ := by
    intro rows
    induction rows using List.reverseRecOn with
    | nil => exact fun _ => .into table columns
    | append_singleton rows row ih =>
      intro hwidth
      obtain ⟨hrows, hrow⟩ := List.forall_mem_append.1 hwidth
      exact .pushRow (ih hrows) (if_pos (hrow row List.mem_cons_self))
  cases returning with
  | none => exact hrows rows h
  | some column => exact (hrows rows h).returningColumn column

theorem built_iff_isGrid {i : Insert} : i.Built ↔ i.IsGrid := ⟨Built.isGrid, IsGrid.built⟩

end Insert

/-! ## Inserts as they are read -/

/-- A placeholder in a row, and the name that the row gives it. -/
structure Cell where
  placeholder : Lexeme
  shownAs : Option (List Char)
  deriving DecidableEq

/-- Names are lists of segments. -/
structure InsertText where
  table : List (List Char)
  columns : List (List (List Char))
  rows : List (List Cell)
  returning : Option (List (List Char))
  deriving DecidableEq

namespace Reader

def placeholder : Reader Lexeme := do
  let mark ← Lexeme.readMark
  let number ← fun text => some (Lexeme.readNumber text)
  return .placeholder mark number

def plainCell : Reader Cell := do
  let p ← placeholder
  return ⟨p, none⟩

/-- A value that is selected under a name. -/
def namedCell (d : Dialect) : Reader Cell := do
  let p ← placeholder
  expect " AS "
  let shownAs ← segment d
  return ⟨p, some shownAs⟩

def valuesRow : Reader (List Cell) := do
  expect "("
  let cells ← listed ", " plainCell
  expect ")"
  return cells

def unionRow (d : Dialect) : Reader (List Cell) := do
  expect "SELECT "
  listed ", " (namedCell d)

def rows (d : Dialect) : Reader (List (List Cell)) :=
  (do expect "VALUES "; listed ", " valuesRow) <|> listed " UNION ALL " (unionRow d)

def returning (d : Dialect) : Reader (Option (List (List Char))) :=
  (do expect " RETURNING "; let column ← name d; return some column) <|> return none

def insert (d : Dialect) : Reader InsertText := do
  expect "INSERT INTO "
  let table ← name d
  expect " ("
  let columns ← listed ", " (name d)
  expect ") "
  let rows ← rows d
  let returning ← returning d
  return ⟨table, columns, rows, returning⟩

end Reader

/-- What an insert says, if the text is one from its start to its end. -/
def InsertText.read? (d : Dialect) (sql : String) : Option InsertText := do
  let (i, rest) ← Reader.insert d sql.toList
  if rest = [] then some i else none

/-- The segments of a name. -/
def nameSegments (name : String) : List (List Char) := (splitAtChar '.' name).map String.toList

/-- One row of a grid as wide as the columns, where so many values are bound before it. -/
def gridRow (d : Dialect) (named : Bool) (columns : List String) (before : Nat) : List Cell :=
  columns.zipIdx.map fun c => ⟨atPosition d (before + c.2 + 1), if named then some c.1.toList else none⟩

namespace Insert

/-- SQLite takes several rows as selects, and these name the values. -/
def namesCells (i : Insert) (d : Dialect) : Bool := d = .sqlite ∧ 1 < i.rows.length

/-- The insert as it is to be read where so many values are bound before it. -/
def shown (i : Insert) (d : Dialect) (before : Nat) : InsertText where
  table := nameSegments i.table
  columns := i.columns.map nameSegments
  rows := (List.range i.rows.length).map fun r =>
    gridRow d (i.namesCells d) i.columns (before + r * i.columns.length)
  returning := i.returning.map nameSegments

end Insert

/-! ## Reading the cells -/

namespace Reader

theorem reads_mark (mark text : List Char) (number : Option Nat)
    (hmark : ∀ after, Lexeme.readMark (mark ++ after) = some (mark, after))
    (hnumber : ∀ after, Ends (Char.isDigit · = true) after → Lexeme.readNumber (text ++ after) = (number, after)) :
    placeholder.Reads (mark ++ text) (.placeholder mark number) (Ends (Char.isDigit · = true)) := by
  have hm : Reads Lexeme.readMark mark mark fun _ => True := fun after _ => hmark after
  have hn : Reads (fun text => some (Lexeme.readNumber text)) text number (Ends (Char.isDigit · = true)) :=
    fun after ha => congrArg some (hnumber after ha)
  exact hm.bind (hn.map _) fun _ _ => trivial

variable (d : Dialect)

theorem reads_placeholder (n : Nat) :
    placeholder.Reads (Token.placeholder d n) (atPosition d n) (Ends (Char.isDigit · = true)) := by
  cases d with
  | generic | mysql => exact reads_mark ['?'] [] none (fun _ => rfl) Lexeme.readNumber_of_ends
  | postgresql => exact reads_mark ['$'] (digits n) (some n) (fun _ => rfl) (Lexeme.readNumber_digits n)
  | sqlite => exact reads_mark ['?'] (digits n) (some n) (fun _ => rfl) (Lexeme.readNumber_digits n)
  | sqlServer => exact reads_mark ['@', 'P'] (digits n) (some n) (fun _ => rfl) (Lexeme.readNumber_digits n)

theorem reads_plainCell (before : Nat) (v : Value) :
    plainCell.Reads (layout d before [.bound v]) ⟨atPosition d (before + 1), none⟩ (Ends (Char.isDigit · = true)) := by
  rw [layout, layout, List.append_nil]
  exact (reads_placeholder d (before + 1)).map _

theorem reads_namedCell (before : Nat) (v : Value) (column : String) :
    (namedCell d).Reads (layout d before [.bound v, word " AS ", Token.segment column])
      ⟨atPosition d (before + 1), some column.toList⟩ (Ends (· = d.closeQuote)) := by
  have hname := ((reads_segment d (before + 1) column).map fun shownAs =>
    Cell.mk (atPosition d (before + 1)) (some shownAs)).word " AS "
  refine (reads_placeholder d (before + 1)).bind hname fun after _ => ?_
  rw [layout, List.append_assoc]
  exact Lexeme.ends_append rfl (by decide) _

/-! ## Reading the rows -/

theorem map_index {α β : Type} (xs : List α) (f : Nat → β) :
    (xs.zipIdx.map fun x => f x.2) = (List.range xs.length).map f := by
  rw [List.range_eq_range', ← List.zipIdx_map_snd 0 xs, List.map_map]
  rfl

theorem reads_valuesRow (before : Nat) {columns : List String} {vs : List Value} (hvs : vs ≠ [])
    (hwidth : vs.length = columns.length) (follows : List Char → Prop) :
    valuesRow.Reads (layout d before (SqlMapper.valuesRow (vs.map .value))) (gridRow d false columns before)
      follows := by
  have hcomma : ∀ after, Ends (Char.isDigit · = true) (", ".toList ++ after) := Lexeme.ends_append rfl (by decide)
  have hcells := reads_separated d ", " 1 (by decide) before hvs (fun v _ => by simp)
    (fun v _ n => reads_plainCell d n v) hcomma
  have hgrid : gridRow d false columns before =
      vs.zipIdx.map fun x => ⟨atPosition d (before + x.2 * 1 + 1), none⟩ := by
    have hplace : ∀ f : Nat → Cell, (columns.zipIdx.map fun c => f c.2) = vs.zipIdx.map fun x => f x.2 := fun f => by
      rw [map_index, map_index, hwidth]
    simpa only [gridRow, Nat.mul_one, Bool.false_eq_true, if_false] using
      hplace fun n => ⟨atPosition d (before + n + 1), none⟩
  have hlayout : layout d before (SqlMapper.valuesRow (vs.map .value)) = "(".toList ++
      (layout d before (separated ", " (vs.map fun v => [Token.bound v])) ++ (")".toList ++ [])) := by
    rw [SqlMapper.valuesRow, exprList, List.map_map, List.cons_append, layout, Token.layout_append]
    rfl
  rw [hgrid, hlayout]
  refine (hcells.bind ((Reads.pure _ follows).word ")") fun after _ => ?_).word "("
  rw [List.append_assoc]
  exact ⟨Lexeme.ends_append rfl (by decide) _, without_append (by decide) (by decide) _⟩

theorem reads_unionRow (before : Nat) {columns : List String} {vs : List Value} (hvs : vs ≠ [])
    (hwidth : vs.length = columns.length) :
    (unionRow d).Reads (layout d before (SqlMapper.unionRow columns (vs.map .value))) (gridRow d true columns before)
      fun after => Ends (· = d.closeQuote) after ∧ Without ", " after := by
  have hcomma : ∀ after, Ends (· = d.closeQuote) (", ".toList ++ after) :=
    Lexeme.ends_append rfl (by cases d <;> decide)
  have hpairs : columns.zip vs ≠ [] := by
    rw [← List.length_pos_iff, List.length_zip, ← hwidth, Nat.min_self]
    exact List.length_pos_iff.2 hvs
  have hcells := reads_separated d ", " 1 (by decide) before hpairs (fun pair _ => by simp)
    (fun pair _ n => reads_namedCell d n pair.2 pair.1) hcomma
  have hgrid : gridRow d true columns before =
      (columns.zip vs).zipIdx.map fun x => ⟨atPosition d (before + x.2 * 1 + 1), some x.1.1.toList⟩ := by
    have hcolumns : (columns.zip vs).map Prod.fst = columns := List.map_fst_zip (Nat.le_of_eq hwidth.symm)
    rw [gridRow, ← hcolumns, List.zipIdx_map, List.map_map, hcolumns]
    simp only [Function.comp_def, Prod.map, Nat.mul_one, if_true, id]
  have hlayout : layout d before (SqlMapper.unionRow columns (vs.map .value)) = "SELECT ".toList ++
      layout d before (separated ", " ((columns.zip vs).map fun pair =>
        [Token.bound pair.2, word " AS ", Token.segment pair.1])) := by
    rw [SqlMapper.unionRow, List.zip_map_right, List.map_map, layout]
    rfl
  rw [hgrid, hlayout]
  exact hcells.word "SELECT "

section

-- rows of values, as wide as the columns
variable {columns : List String} {rows : List (List Expr)} (hrows : rows ≠ [])
  (hrow : ∀ row ∈ rows, ∃ vs : List Value, row = vs.map .value ∧ vs ≠ [] ∧ vs.length = columns.length)

include hrows hrow

theorem reads_valuesRows (before : Nat) :
    (do expect "VALUES "; listed ", " valuesRow : Reader _).Reads
      (layout d before (word "VALUES " :: separated ", " (rows.map SqlMapper.valuesRow)))
      (rows.zipIdx.map fun x => gridRow d false columns (before + x.2 * columns.length)) (Without ", ") := by
  have hwidth : ∀ row ∈ rows, (bindings d (SqlMapper.valuesRow row)).length = columns.length := by
    intro row hr
    obtain ⟨vs, rfl, -, hvs⟩ := hrow row hr
    rwa [bindings_valuesRow, Expr.filterMap_value?, List.length_map]
  have hread : ∀ row ∈ rows, ∀ n,
      valuesRow.Reads (layout d n (SqlMapper.valuesRow row)) (gridRow d false columns n) fun _ => True := by
    intro row hr n
    obtain ⟨vs, rfl, hne, hvs⟩ := hrow row hr
    exact reads_valuesRow d n hne hvs _
  have hlisted := reads_separated d ", " columns.length (by decide) before hrows hwidth hread fun _ => trivial
  exact (hlisted.weaken fun after ha => ⟨trivial, ha⟩).word "VALUES "

theorem reads_unionRows (before : Nat) :
    (listed " UNION ALL " (unionRow d)).Reads
      (layout d before (separated " UNION ALL " (rows.map (SqlMapper.unionRow columns))))
      (rows.zipIdx.map fun x => gridRow d true columns (before + x.2 * columns.length))
      fun after => (Ends (· = d.closeQuote) after ∧ Without ", " after) ∧ Without " UNION ALL " after := by
  have hunion : ∀ after, Ends (· = d.closeQuote) (" UNION ALL ".toList ++ after) ∧
      Without ", " (" UNION ALL ".toList ++ after) := fun after =>
    ⟨Lexeme.ends_append rfl (by cases d <;> decide) after, without_append (by decide) (by decide) after⟩
  have hwidth : ∀ row ∈ rows, (bindings d (SqlMapper.unionRow columns row)).length = columns.length := by
    intro row hr
    obtain ⟨vs, rfl, -, hvs⟩ := hrow row hr
    have hall : (vs.map Expr.value).take columns.length = vs.map .value :=
      List.take_of_length_le (by rw [List.length_map, hvs])
    rwa [bindings_unionRow, hall, Expr.filterMap_value?, List.length_map]
  have hread : ∀ row ∈ rows, ∀ n, (unionRow d).Reads (layout d n (SqlMapper.unionRow columns row))
      (gridRow d true columns n) fun after => Ends (· = d.closeQuote) after ∧ Without ", " after := by
    intro row hr n
    obtain ⟨vs, rfl, hne, hvs⟩ := hrow row hr
    exact reads_unionRow d n hne hvs
  exact reads_separated d " UNION ALL " columns.length (by decide) before hrows hwidth hread hunion

end

/-- Both forms of the rows are read as the same grid. -/
theorem reads_rows {i : Insert} (before : Nat) (hgrid : i.IsGrid) (hcolumns : i.columns ≠ []) (hrows : i.rows ≠ [])
    (hraw : (Statement.insert i).rawFree = true) :
    (rows d).Reads (layout d before (i.rowsTokens d)) (i.shown d before).rows
      fun after => (Ends (· = d.closeQuote) after ∧ Without ", " after) ∧ Without " UNION ALL " after := by
  have hrow : ∀ row ∈ i.rows, ∃ vs : List Value, row = vs.map .value ∧ vs ≠ [] ∧ vs.length = i.columns.length := by
    intro row hr
    obtain ⟨vs, rfl⟩ := Expr.exists_values (List.all_eq_true.1 hraw row hr)
    have hwidth := hgrid _ hr
    rw [List.length_map] at hwidth
    exact ⟨vs, rfl, fun hvs => hcolumns (List.length_eq_zero_iff.1 (by rw [← hwidth, hvs]; rfl)), hwidth⟩
  have hshown : (i.shown d before).rows =
      i.rows.zipIdx.map fun x => gridRow d (i.namesCells d) i.columns (before + x.2 * i.columns.length) :=
    (map_index i.rows _).symm
  rw [hshown]
  unfold Insert.rowsTokens
  split
  · rename_i hunion
    rw [show i.namesCells d = true from decide_eq_true hunion]
    refine Reads.orElse (fun after _ => word_eq_none ?_) (reads_unionRows d hrows hrow before)
    obtain ⟨first, rest, hcons⟩ := List.exists_cons_of_ne_nil hrows
    obtain ⟨second, rest, rfl⟩ : ∃ second more, rest = second :: more := List.exists_cons_of_ne_nil fun hnil => by
      simp [hcons, hnil] at hunion
    rw [hcons, List.map_cons, List.map_cons, Token.separated_cons_cons, SqlMapper.unionRow, List.cons_append, layout,
      List.append_assoc]
    exact without_append (by decide) (by decide) _
  · rename_i hvalues
    rw [show i.namesCells d = false from decide_eq_false hvalues]
    exact ((reads_valuesRows d hrows hrow before).weaken fun _ ha => ha.1.2).orElse_left _

/-! ## Reading the statement -/

theorem reads_columns (before : Nat) {columns : List String} (hcolumns : columns ≠ []) :
    (listed ", " (name d)).Reads (layout d before (separated ", " (columns.map Token.name))) (columns.map nameSegments)
      fun after => Ends (fun c => c = '.' ∨ c = d.closeQuote) after ∧ Without ", " after :=
  reads_separated_unbound d ", " (by decide) before hcolumns (fun column _ => bindings_name d column)
    (fun column _ n => reads_name d n column) (Lexeme.ends_append rfl (by cases d <;> decide))

/-- The tokens after the rows. -/
def returningTokens (column : Option String) : List Token :=
  match column with
  | some column => word " RETURNING " :: Token.name column
  | none => []

theorem reads_returning (before : Nat) (column : Option String) :
    (returning d).Reads (layout d before (returningTokens column)) (column.map nameSegments) (· = []) := by
  cases column with
  | none =>
    refine Reads.orElse (fun after ha => ?_) (Reads.pure none _)
    rw [ha]
    exact word_eq_none (show ¬ " RETURNING ".toList <+: [] by decide)
  | some column =>
    have hname : (name d).Reads (layout d before (Token.name column)) (nameSegments column) (· = []) := by
      refine (reads_name d before column).weaken fun after ha c rest hcons => ?_
      rw [ha] at hcons
      cases hcons
    exact ((hname.map some).word " RETURNING ").orElse_left _

theorem ends_returningTokens (before : Nat) (column : Option String) :
    (Ends (· = d.closeQuote) (layout d before (returningTokens column)) ∧
      Without ", " (layout d before (returningTokens column))) ∧
      Without " UNION ALL " (layout d before (returningTokens column)) := by
  cases column with
  | none =>
    exact ⟨⟨fun _ _ h => absurd h (List.cons_ne_nil _ _).symm, show ¬ ", ".toList <+: [] by decide⟩,
      show ¬ " UNION ALL ".toList <+: [] by decide⟩
  | some column =>
    exact ⟨⟨Lexeme.ends_append rfl (by cases d <;> decide) _, without_append (by decide) (by decide) _⟩,
      without_append (by decide) (by decide) _⟩

theorem reads_insert {i : Insert} (before : Nat) (hgrid : i.IsGrid) (hcolumns : i.columns ≠ [])
    (hrows : i.rows ≠ []) (hraw : (Statement.insert i).rawFree = true) :
    (insert d).Reads (layout d before (i.tokens d)) (i.shown d before) (· = []) := by
  have htokens : i.tokens d = word "INSERT INTO " :: (Token.name i.table ++ word " (" ::
      (separated ", " (i.columns.map Token.name) ++ word ") " :: (i.rowsTokens d ++ returningTokens i.returning))) := by
    unfold Insert.tokens
    rw [if_neg hcolumns]
    cases i.returning <;> simp [returningTokens]
  have hlayout : layout d before (i.tokens d) = "INSERT INTO ".toList ++ (layout d before (Token.name i.table) ++
      (" (".toList ++ (layout d before (separated ", " (i.columns.map Token.name)) ++ (") ".toList ++
        (layout d before (i.rowsTokens d) ++
          layout d (before + (bindings d (i.rowsTokens d)).length) (returningTokens i.returning)))))) := by
    rw [htokens, layout, Token.layout_append, bindings_name, layout, Token.layout_append, bindings_columnNames, layout,
      Token.layout_append]
    rfl
  rw [hlayout]
  unfold insert
  refine Reads.word _ ((reads_name d before i.table).bind (Reads.word _ ?_) fun after _ => ?_)
  · refine (reads_columns d before hcolumns).bind (Reads.word _ ?_) fun after _ => ?_
    · refine (reads_rows d before hgrid hcolumns hrows hraw).bind ((reads_returning d _ i.returning).map _) ?_
      rintro after rfl
      rw [List.append_nil]
      exact ends_returningTokens d _ i.returning
    · rw [List.append_assoc]
      exact ⟨Lexeme.ends_append rfl (by cases d <;> decide) _, without_append (by decide) (by decide) _⟩
  · rw [List.append_assoc]
    exact Lexeme.ends_append rfl (by cases d <;> decide) _

end Reader

/-! ## Binding the values -/

/-- Rows of one width stand behind each other at multiples of the width. -/
theorem getElem?_flatten_of_length {α : Type} {width : Nat} {rows : List (List α)}
    (hwidth : ∀ row ∈ rows, row.length = width) (r : Nat) {j : Nat} (hj : j < width) :
    rows.flatten[r * width + j]? = rows[r]?.bind (·[j]?) := by
  induction rows generalizing r with
  | nil => rfl
  | cons row rows ih =>
    have hrow := hwidth row List.mem_cons_self
    have ih := ih fun row' hr => hwidth row' (List.mem_cons_of_mem row hr)
    rw [List.flatten_cons]
    cases r with
    | zero => rw [Nat.zero_mul, Nat.zero_add, List.getElem?_append_left (by omega)]; rfl
    | succ r =>
      have hskip : (r + 1) * width + j = row.length + (r * width + j) := by rw [hrow, Nat.succ_mul]; omega
      rw [hskip, List.getElem?_append_right (Nat.le_add_right _ _), Nat.add_sub_cancel_left, ih]
      rfl

namespace Insert

/-- The values of the rows. -/
def valueRows (i : Insert) : List (List Value) := i.rows.map (·.filterMap Expr.value?)

theorem rows_eq_valueRows {i : Insert} (hraw : (Statement.insert i).rawFree = true) :
    i.rows = i.valueRows.map (·.map .value) := by
  rw [valueRows, List.map_map]
  refine (List.map_id' _).symm.trans (List.map_congr_left fun row hrow => ?_)
  obtain ⟨vs, rfl⟩ := Expr.exists_values (List.all_eq_true.1 hraw row hrow)
  rw [Function.comp_apply, Expr.filterMap_value?]

theorem length_of_mem_valueRows {i : Insert} (hgrid : i.IsGrid) (hraw : (Statement.insert i).rawFree = true) :
    ∀ vs ∈ i.valueRows, vs.length = i.columns.length := by
  intro vs hvs
  have hrow := hgrid (vs.map .value)
  rw [rows_eq_valueRows hraw, List.length_map] at hrow
  exact hrow (List.mem_map_of_mem hvs)

theorem bindings_eq_flatten {i : Insert} (d : Dialect) (hgrid : i.IsGrid) :
    bindings d (i.tokens d) = i.valueRows.flatten.map (Token.binding d) := by
  rw [i.bindings_tokens d, i.writtenRows_eq d fun row hrow => Nat.le_of_eq (hgrid row hrow), rowValues, valueRows,
    List.flatMap_def]

theorem length_bindings {i : Insert} (d : Dialect) (hgrid : i.IsGrid) (hraw : (Statement.insert i).rawFree = true) :
    (bindings d (i.tokens d)).length = i.rows.length * i.columns.length := by
  have hlengths : i.valueRows.map List.length = List.replicate i.rows.length i.columns.length := by
    refine List.eq_replicate_iff.2 ⟨by rw [List.length_map, valueRows, List.length_map], fun n hn => ?_⟩
    obtain ⟨vs, hvs, rfl⟩ := List.mem_map.1 hn
    exact length_of_mem_valueRows hgrid hraw vs hvs
  rw [bindings_eq_flatten d hgrid, List.length_map, List.length_flatten, hlengths, List.sum_replicate_nat]

theorem getElem?_bindings {i : Insert} (d : Dialect) (hgrid : i.IsGrid)
    (hraw : (Statement.insert i).rawFree = true) {r j : Nat} {row : List Expr} {v : Value}
    (hrow : i.rows[r]? = some row) (hv : row[j]? = some (.value v)) :
    (bindings d (i.tokens d))[r * i.columns.length + j]? = some (Token.binding d v) := by
  rw [rows_eq_valueRows hraw, List.getElem?_map] at hrow
  obtain ⟨vs, hvs, rfl⟩ := Option.map_eq_some_iff.1 hrow
  rw [List.getElem?_map] at hv
  obtain ⟨v', hv', hvalue⟩ := Option.map_eq_some_iff.1 hv
  cases hvalue
  have hwidth := length_of_mem_valueRows hgrid hraw
  have hj : j < i.columns.length := by
    rw [← hwidth vs (List.mem_of_getElem? hvs)]
    exact (List.getElem?_eq_some_iff.1 hv').1
  rw [bindings_eq_flatten d hgrid, List.getElem?_map, getElem?_flatten_of_length hwidth r hj, hvs, Option.bind_some, hv',
    Option.map_some]

end Insert

/-- **An insert writes its whole grid.**  An insert that was built with columns and rows and without raw SQL, and which
returns a column only where the dialect can, compiles behind any values.  Its text is read as the table, the columns and
one group of placeholders for each row, each placeholder numbered by its place, in both forms of the rows.  Under the
number of a place the value of that place is bound, a timestamp as its text. -/
theorem Insert.reads_back (d : Dialect) (before : List Value) (i : Insert) (hbuilt : i.Built)
    (hcolumns : i.columns ≠ []) (hrows : i.rows ≠ []) (hraw : (Statement.insert i).rawFree = true)
    (hreturning : i.returning.isSome = true → d.supportsReturning = true) :
    ∃ c, (Statement.insert i).compileAfter d before = .ok c ∧
      InsertText.read? d c.sql = some (i.shown d before.length) ∧
      before <+: c.bindings ∧ c.bindings.length = before.length + i.rows.length * i.columns.length ∧
      ∀ r j row v, i.rows[r]? = some row → row[j]? = some (.value v) →
        c.bindings[before.length + (r * i.columns.length + j)]? = some (Token.binding d v) := by
  have hrefusal : (Statement.insert i).refusal? d = none := by
    rw [Statement.refusal?, if_neg]
    simpa using hreturning
  have hgrid := hbuilt.isGrid
  refine ⟨_, Statement.compileAfter_eq hrefusal before, ?_, List.prefix_append _ _, ?_, fun r j row v hrow hv => ?_⟩
  · have hread := Reader.reads_insert d before.length hgrid hcolumns hrows hraw [] rfl
    rw [List.append_nil] at hread
    rw [InsertText.read?, String.toList_ofList]
    show (Reader.insert d (layout d before.length (i.tokens d))).bind _ = _
    rw [hread]
    rfl
  · rw [List.length_append]
    exact congrArg _ (i.length_bindings d hgrid hraw)
  · rw [List.getElem?_append_right (Nat.le_add_right _ _), Nat.add_sub_cancel_left]
    exact i.getElem?_bindings d hgrid hraw hrow hv

/-- Two rows, in columns whose names hold a dot, a quote and the wildcard. -/
def twoNotes : Insert :=
  { Insert.into "app.notes" ["t.i\"d", "*"] with
    rows := [[.value (.int 1), .value (.text "a")], [.value (.int 2), .value .null]] }

theorem reads_back_twoNotes :
    (twoNotes.Built ∧ twoNotes.columns ≠ [] ∧ twoNotes.rows ≠ [] ∧ (Statement.insert twoNotes).rawFree = true) ∧
      ∃ c, (Statement.insert twoNotes).compileAfter .sqlite [.int 7] = .ok c ∧
        c.sql = "INSERT INTO \"app\".\"notes\" (\"t\".\"i\"\"d\", *) " ++
          "SELECT ?2 AS \"t.i\"\"d\", ?3 AS * UNION ALL SELECT ?4 AS \"t.i\"\"d\", ?5 AS *" ∧
        (InsertText.read? .sqlite c.sql).map (·.rows) = some
          [[⟨.placeholder ['?'] (some 2), some "t.i\"d".toList⟩, ⟨.placeholder ['?'] (some 3), some ['*']⟩],
            [⟨.placeholder ['?'] (some 4), some "t.i\"d".toList⟩, ⟨.placeholder ['?'] (some 5), some ['*']⟩]] ∧
        c.bindings[3]? = some (.int 2) := by
  have hraw : (Statement.insert twoNotes).rawFree = true := by decide
  have hbuilt : twoNotes.Built := Insert.IsGrid.built (by decide)
  obtain ⟨c, hcompile, hread, -, -, hbound⟩ := Insert.reads_back .sqlite [.int 7] twoNotes hbuilt (by decide) (by decide)
    hraw (by decide)
  refine ⟨⟨hbuilt, by decide, by decide, hraw⟩, c, hcompile, ?_, ?_, hbound 1 0 _ (.int 2) rfl rfl⟩
  · rw [Statement.compileAfter_eq rfl] at hcompile
    rw [← congrArg Compiled.sql (Except.ok.inj hcompile)]
    decide +kernel
  · rw [hread]
    rfl

/-- A row that holds a timestamp. -/
def loggedNote : Insert :=
  { Insert.into "t" ["a"] with rows := [[.value (.timestamp (.ofUnixSeconds 1000000000))]] }

/-- **A timestamp is not bound as it is**, but as its text. -/
theorem insert_binds_text_of_timestamp :
    (loggedNote.Built ∧ loggedNote.columns ≠ [] ∧ loggedNote.rows ≠ [] ∧ (Statement.insert loggedNote).rawFree = true) ∧
      ∃ c, (Statement.insert loggedNote).compile .sqlite = .ok c ∧
        loggedNote.rows[0]? = some [.value (.timestamp (.ofUnixSeconds 1000000000))] ∧
        c.bindings[0]? = some (.text "2001-09-09 01:46:40") ∧
        c.bindings[0]? ≠ some (.timestamp (.ofUnixSeconds 1000000000)) := by
  refine ⟨⟨Insert.IsGrid.built (by decide), by decide, by decide, by decide⟩, _, Statement.compileAfter_eq rfl [], rfl,
    ?_, ?_⟩ <;> decide +kernel

end SqlMapper
