import SqlMapper.Proofs.Sql.Paging
/-!
# Counted — the page of a count

A count is a table of one row.  The page of a counted query is written behind the count like any other, so it is that
row which is skipped or cut off, and never the rows that are counted (`Query.read?_tokens_count`).  `TOP` is not written
for a count: without an offset SQL Server gives the count whatever the limit.
-/
namespace SqlMapper

open Token (word number clauses)
open PagedSelect

variable {α β : Type}

/-- A select of the number of rows, taken apart. -/
inductive CountSelect where
  /-- The page is cut out of the row of the count. -/
  | cut (source : List Token) (limit offset : Option UInt64)
  /-- The row of the count is numbered in a subquery, and the numbers from the first to the last are picked outside. -/
  | numbered (source : List Token) (first : UInt64) (last : Option UInt64)
  deriving DecidableEq, Repr

namespace CountSelect

/-- The counts that a select shows; there is one row of them before the page. -/
def shows (e : Evaluation α β) : CountSelect → List Nat
  | cut source limit offset => takeLimit limit (dropOffset offset [(e.rows source []).length])
  | numbered source first last =>
    inRange first.toNat (last.map UInt64.toNat) (SqlMapper.numbered [(e.rows source []).length])

def readCut (tokens : List Token) : CountSelect :=
  let (tokens, offset) := readCount "OFFSET " tokens
  let (tokens, limit) := readLimit tokens
  .cut tokens limit offset

def readNumbered? (tokens : List Token) : Option CountSelect := do
  let (source, range) ← splitAtLast? ") AS TempTable WHERE RowNum " tokens
  let (first, last) ← readRange? range
  return .numbered source first last

def read? : List Token → Option CountSelect
  | word "SELECT COUNT(" :: word "*" :: word ") AS " :: .ident "aggregate" :: tokens => some (readCut tokens)
  | word "SELECT * FROM (" :: word "SELECT COUNT(" :: word "*" :: word ") AS " :: .ident "aggregate" ::
      word ", ROW_NUMBER() OVER (" :: word "ORDER BY (SELECT 0)" :: word ") AS RowNum" :: tokens =>
    readNumbered? tokens
  | _ => none

end CountSelect

/-- The number of the rows before the page. -/
def Query.size (e : Evaluation α β) (d : Dialect) (q : Query) : Nat := (e.rows (q.sourceTokens d) []).length

/-- The query counts its rows, in no order. -/
structure Query.Counts (q : Query) : Prop where
  aggregate : q.aggregate = some ⟨.count, []⟩
  orderings : q.orderings = []

/-- The page has room for a first row, as it is written for a count. -/
def Query.KeepsCount (d : Dialect) (q : Query) : Prop :=
  q.offset.getD 0 = 0 ∧ (q.limit = some 0 → d = .sqlServer ∧ q.offset = none)

instance (d : Dialect) (q : Query) : Decidable (q.KeepsCount d) := inferInstanceAs (Decidable (_ ∧ (_ → _)))

namespace Query

variable {q : Query}

theorem selectClause_of_counts (hq : q.Counts) (d : Dialect) :
    q.selectClause d = [word "SELECT COUNT(", word "*", word ") AS ", .ident "aggregate"] := by
  rw [selectClause, hq.aggregate]
  rfl

theorem orderClause_of_counts (hq : q.Counts) : q.orderClause = [] := by
  rw [orderClause, hq.orderings]
  rfl

theorem numberOrder_of_counts (hq : q.Counts) : q.numberOrder = [word "ORDER BY (SELECT 0)"] := by
  rw [numberOrder, if_pos hq.orderings]

theorem read?_tokens_count_cut (hq : q.Counts) {d : Dialect} (h : d ≠ .sqlServer ∨ q.offset = none) :
    CountSelect.read? (q.tokens d) =
      some (.cut (q.sourceTokens d) (limitWritten d q.limit q.offset) q.offset) := by
  have hsettled := q.settled_sourceTokens d
  have hoffset := readOffset_clause (closing_following_ne (by decide)
    (hsettled.closing_ne (by decide : opensPage (word "OFFSET ") = true))
    (closing_limitTokens_ne d q.limit q.offset)) h
  have hlimit := readLimit_clause (hsettled.closing_ne (by decide)) (hsettled.closing_ne (by decide)) d q.limit q.offset
  rw [tokens_cut h, selectClause_of_counts hq, orderClause_of_counts hq, following_nil, List.append_nil]
  simp only [List.cons_append, List.nil_append, CountSelect.read?, CountSelect.readCut, hoffset, hlimit]

theorem read?_tokens_count_numbered (hq : q.Counts) {start : UInt64} (h : q.offset = some start) :
    CountSelect.read? (q.tokens .sqlServer) =
      some (.numbered (q.sourceTokens .sqlServer) (addSaturating start 1) (q.limit.map (addSaturating start))) := by
  have hrange : ∀ t ∈ rowRange start q.limit, t ≠ word ") AS TempTable WHERE RowNum " := by
    cases q.limit <;> simp [rowRange]
  rw [tokens_numbered h, selectClause_of_counts hq, numberOrder_of_counts hq]
  simp only [List.cons_append, List.nil_append, CountSelect.read?, CountSelect.readNumbered?,
    splitAtLast?_append hrange, readRange?_rowRange, Option.bind_eq_bind, Option.bind_some, Option.pure_def]

theorem limitWritten_ne_zero_iff {d : Dialect} (h : d ≠ .sqlServer ∨ q.offset = none) :
    limitWritten d q.limit q.offset ≠ some 0 ↔ (q.limit = some 0 → d = .sqlServer ∧ q.offset = none) := by
  cases hl : q.limit <;> cases ho : q.offset <;> cases d <;> simp_all [limitWritten]

/-- **The page of a count is cut out of the count**, which stays if the page has room for a first row. -/
theorem read?_tokens_count (hq : q.Counts) (e : Evaluation α β) (d : Dialect) :
    ∃ s, CountSelect.read? (q.tokens d) = some s ∧ s.shows e = if q.KeepsCount d then [q.size e d] else [] := by
  by_cases hcut : d ≠ .sqlServer ∨ q.offset = none
  · refine ⟨_, read?_tokens_count_cut hq hcut, ?_⟩
    rw [CountSelect.shows, page_singleton]
    refine if_congr ?_ rfl rfl
    rw [limitWritten_ne_zero_iff hcut, and_comm]
    rfl
  · rw [not_or, not_not, ← ne_eq, Option.ne_none_iff_exists'] at hcut
    obtain ⟨rfl, start, ho⟩ := hcut
    have hone : [q.size e .sqlServer].length < UInt64.size - 1 := (by decide : 1 < UInt64.size - 1)
    have hlimit : q.limit ≠ some 0 ↔ (q.limit = some 0 → Dialect.sqlServer = .sqlServer ∧ q.offset = none) := by
      rw [ho, and_iff_right rfl]
      exact forall_congr' fun _ => (iff_false_intro (Option.some_ne_none start)).symm
    refine ⟨_, read?_tokens_count_numbered hq ho, (inRange_written start q.limit hone).trans ?_⟩
    rw [page_singleton, ← ho]
    refine if_congr ?_ rfl rfl
    rw [hlimit, and_comm]
    rfl

end Query

end SqlMapper
