import SqlMapper.Proofs.Sql.PagedSelect
import SqlMapper.Query.Build
import SqlMapper.Sql.Compile
/-!
# Paging — five ways to write a page

What the dialects write for a query is read back as the page of the query (`Query.read?_tokens_page`): limits in either
place, limits that stand for none, and ranges of row numbers whose ends no longer fit all leave the same rows.  There is
one exception.  SQL Server keeps duplicates when there is an offset, since the row number stands among the columns that
have to differ.
-/
namespace SqlMapper

open Token (word number separated clauses)
open PagedSelect

/-! ## The parts of a query -/

def Query.columnTokens (q : Query) : List Token := if q.columns = [] then [word "*"] else columnList q.columns

def Query.orderTokens (q : Query) : List Token := separated ", " (q.orderings.map SortKey.tokens)

/-- The clauses that say which rows there are, from the tables to the conditions on groups. -/
def Query.sourceTokens (d : Dialect) (q : Query) : List Token :=
  following (match q.source with | some s => word "FROM " :: s.tokens | none => []) ++
    following (separated " " (q.joins.map Join.tokens)) ++
    following (optionalClause "WHERE " q.filters.isEmpty (Filter.listTokens d q.filters)) ++
    following (optionalClause "GROUP BY " q.groupings.isEmpty (columnList q.groupings)) ++
    following (optionalClause "HAVING " q.havings.isEmpty (Filter.listTokens d q.havings))

/-- The select list with the words around it and the limit that SQL Server writes in it. -/
def Query.selectClause (d : Dialect) (q : Query) : List Token :=
  selectTokens d q.columns q.aggregate q.distinct q.limit q.offset

/-- The tokens of a query after its first word and before its order and its page. -/
def Query.frontTokens (d : Dialect) (q : Query) : List Token :=
  (if q.distinct then [word "DISTINCT "] else []) ++
    (topTokens d q.limit q.offset ++ (q.columnTokens ++ q.sourceTokens d))

def Query.orderClause (q : Query) : List Token := optionalClause "ORDER BY " q.orderings.isEmpty q.orderTokens

/-- The order in which SQL Server numbers the rows; a constant stands where there is none. -/
def Query.numberOrder (q : Query) : List Token :=
  if q.orderings = [] then [word "ORDER BY (SELECT 0)"] else word "ORDER BY " :: q.orderTokens

theorem clauses_cons {first : List Token} (h : first ≠ []) (rest : List (List Token)) :
    clauses (first :: rest) = first ++ rest.flatMap following := by
  induction rest generalizing first with
  | nil => simp [clauses, separated, List.intercalate, h]
  | cons c rest ih =>
    by_cases hc : c = []
    · have hskip : clauses (first :: c :: rest) = clauses (first :: rest) := by
        simp [clauses, List.filter_cons, hc]
      rw [hskip, ih h, List.flatMap_cons, following, if_pos hc, List.nil_append]
    · have hkeep : clauses (first :: c :: rest) = first ++ word " " :: clauses (c :: rest) := by
        simp only [clauses, List.filter_cons, h, hc, ne_eq, not_false_eq_true, decide_true, if_true]
        exact Token.separated_cons_cons ..
      rw [hkeep, ih hc, List.flatMap_cons, following, if_neg hc, List.cons_append]

def SelectClauses.sourceTokens (c : SelectClauses) : List Token :=
  following c.source ++ following c.joins ++ following c.filters ++ following c.groupings ++ following c.havings

theorem SelectClauses.tokens_cut {d : Dialect} {limit offset : Option UInt64} (h : d ≠ .sqlServer ∨ offset = none)
    {c : SelectClauses} (hc : c.select ≠ []) :
    c.tokens d limit offset = c.select ++ c.sourceTokens ++ following c.orderings ++
      following (limitTokens d limit offset) ++ following (offsetTokens d offset) := by
  have hcut : c.tokens d limit offset = clauses [c.select, c.source, c.joins, c.filters, c.groupings, c.havings,
      c.orderings, limitTokens d limit offset, offsetTokens d offset] := by
    cases offset with
    | none => cases d <;> rfl
    | some n =>
      cases d with
      | sqlServer => simp at h
      | _ => rfl
  rw [hcut, clauses_cons hc]
  simp [SelectClauses.sourceTokens]

theorem SelectClauses.tokens_numbered (c : SelectClauses) (limit : Option UInt64) (start : UInt64) :
    c.tokens .sqlServer limit (some start) = word "SELECT * FROM (" :: (c.select ++ word ", ROW_NUMBER() OVER (" ::
      ((if c.orderings = [] then [word "ORDER BY (SELECT 0)"] else c.orderings) ++
        word ") AS RowNum" :: (c.sourceTokens ++ word ") AS TempTable WHERE RowNum " :: rowRange start limit))) := by
  rw [SelectClauses.tokens, clauses_cons (by simp)]
  simp [SelectClauses.sourceTokens]

theorem Query.selectClause_ne_nil (d : Dialect) (q : Query) : q.selectClause d ≠ [] := by
  unfold Query.selectClause selectTokens
  split
  · exact List.cons_ne_nil _ _
  · exact List.cons_ne_nil _ _

/-- A query whose page is cut, clause by clause. -/
theorem Query.tokens_cut {d : Dialect} {q : Query} (h : d ≠ .sqlServer ∨ q.offset = none) :
    q.tokens d = q.selectClause d ++ q.sourceTokens d ++ following q.orderClause ++
      following (limitTokens d q.limit q.offset) ++ following (offsetTokens d q.offset) := by
  obtain ⟨source, columns, aggregate, joins, filters, groupings, havings, orderings, limit, offset, distinct⟩ := q
  unfold Query.tokens
  rw [SelectClauses.tokens_cut h (Query.selectClause_ne_nil d
    ⟨source, columns, aggregate, joins, filters, groupings, havings, orderings, limit, offset, distinct⟩)]
  rfl

/-- A query whose rows are numbered, clause by clause. -/
theorem Query.tokens_numbered {q : Query} {start : UInt64} (h : q.offset = some start) :
    q.tokens .sqlServer = word "SELECT * FROM (" :: (q.selectClause .sqlServer ++ word ", ROW_NUMBER() OVER (" ::
      (q.numberOrder ++ word ") AS RowNum" :: (q.sourceTokens .sqlServer ++
        word ") AS TempTable WHERE RowNum " :: rowRange start q.limit))) := by
  obtain ⟨source, columns, aggregate, joins, filters, groupings, havings, orderings, limit, offset, distinct⟩ := q
  obtain rfl : offset = some start := h
  unfold Query.tokens
  rw [SelectClauses.tokens_numbered]
  cases orderings <;> rfl

theorem Query.selectClause_of_plain {q : Query} (ha : q.aggregate = none) (d : Dialect) :
    q.selectClause d = word "SELECT " ::
      ((if q.distinct then [word "DISTINCT "] else []) ++ (topTokens d q.limit q.offset ++ q.columnTokens)) := by
  rw [Query.selectClause, ha, selectTokens, List.cons_append, List.cons_append, List.append_assoc]
  rfl

theorem Query.selectClause_append_source {q : Query} (ha : q.aggregate = none) (d : Dialect) :
    q.selectClause d ++ q.sourceTokens d = word "SELECT " :: q.frontTokens d := by
  rw [Query.selectClause_of_plain ha, Query.frontTokens, List.cons_append, List.append_assoc, List.append_assoc]

/-! ## What stands between the clauses -/

theorem all_separated {p : Token → Bool} {separator : String} (hs : p (word separator) = true)
    {parts : List (List Token)} (h : ∀ part ∈ parts, part.all p = true) : (separated separator parts).all p = true := by
  refine Token.separated_induction (P := fun tokens => tokens.all p = true) rfl (fun ha hb => ?_) h
  rw [List.all_append, List.all_cons, ha, hs, hb]
  rfl

theorem isArgument_segment (s : String) : isArgument (Token.segment s) = true := by
  unfold Token.segment
  split <;> rfl

theorem all_isArgument_name (s : String) : (Token.name s).all isArgument = true := by
  refine all_separated (by decide) fun part hpart => ?_
  obtain ⟨segment, -, rfl⟩ := List.mem_map.1 hpart
  rw [List.all_cons, isArgument_segment]
  rfl

theorem Column.all_isArgument (c : Column) : c.tokens.all isArgument = true := by
  cases c with
  | name n => exact all_isArgument_name n
  | aliased n a =>
    rw [Column.tokens, List.all_append, all_isArgument_name, List.all_cons, List.all_cons, isArgument_segment]
    decide
  | raw sql => rfl

theorem all_isArgument_columnList (columns : List Column) : (columnList columns).all isArgument = true := by
  refine all_separated (by decide) fun part hpart => ?_
  obtain ⟨c, -, rfl⟩ := List.mem_map.1 hpart
  exact c.all_isArgument

theorem SortKey.all_isArgument (k : SortKey) : k.tokens.all isArgument = true := by
  obtain ⟨column, direction⟩ := k
  rw [SortKey.tokens, List.all_append, column.all_isArgument]
  cases direction <;> rfl

theorem Query.all_isArgument_columnTokens (q : Query) : q.columnTokens.all isArgument = true := by
  unfold Query.columnTokens
  split
  · decide
  · exact all_isArgument_columnList q.columns

theorem Query.all_isArgument_orderTokens (q : Query) : q.orderTokens.all isArgument = true := by
  refine all_separated (by decide) fun part hpart => ?_
  obtain ⟨k, -, rfl⟩ := List.mem_map.1 hpart
  exact k.all_isArgument

/-! ## No clause of paging before the page -/

theorem Column.settled (c : Column) : Settled c.tokens := settled_of_arguments c.all_isArgument

theorem JoinClause.settled (c : JoinClause) : Settled c.tokens := by
  have hop : opensPage (word (" " ++ c.op.symbol ++ " ")) = false := by cases c.op <;> decide
  exact settled_append c.left.settled (settled_cons hop c.right.settled)

theorem JoinClause.settled_moreTokens : ∀ clauses : List JoinClause, Settled (moreTokens clauses)
  | [] => settled_nil
  | c :: rest => by
    have hop : opensPage (word (" " ++ c.connector.symbol ++ " ")) = false := by cases c.connector <;> decide
    exact settled_cons hop (settled_append c.settled (settled_moreTokens rest))

theorem Join.settled (j : Join) : Settled j.tokens := by
  have hkind : opensPage (word (j.kind.symbol ++ " ")) = false := by cases j.kind <;> decide
  refine settled_append (settled_cons hkind (settled_of_arguments (all_isArgument_name j.table)))
    (settled_cons (by decide) ?_)
  split
  · exact settled_of_forall (by decide)
  · next c rest _ => exact settled_append c.settled (JoinClause.settled_moreTokens rest)

theorem Expr.opensPage_token (e : Expr) : opensPage e.token = false := by cases e <;> rfl

/-- A query inside a predicate is closed by a parenthesis, so its own page is never the last clause. -/
theorem Predicate.settled (d : Dialect) (p : Predicate) : Settled (p.tokens d) := by
  cases p with
  | compare column op value =>
    have hop : opensPage (word (" " ++ op.symbol ++ " ")) = false := by cases op <;> decide
    rw [Predicate.tokens]
    unfold comparisonTokens
    split
    · exact settled_append column.settled (settled_of_forall (by decide))
    · exact settled_append column.settled (settled_of_forall (by decide))
    · exact settled_append column.settled (settled_cons hop (settled_of_forall (by simpa using value.opensPage_token)))
  | isIn column values negated =>
    rw [Predicate.tokens]
    unfold membershipTokens
    split
    · exact settled_of_forall (by cases negated <;> decide)
    · exact settled_concat (by decide) (by decide) _
  | between column low high negated =>
    have hin : opensPage (word (if negated then " NOT BETWEEN " else " BETWEEN ")) = false := by
      cases negated <;> decide
    rw [Predicate.tokens]
    exact settled_append column.settled (settled_cons hin (settled_cons low.opensPage_token
      (settled_cons (by decide) (settled_cons high.opensPage_token settled_nil))))
  | isNull column negated =>
    rw [Predicate.tokens]
    exact settled_append column.settled (settled_of_forall (by cases negated <;> decide))
  | hasRow query negated =>
    rw [Predicate.tokens]
    exact settled_concat (by decide) (by decide) _
  | raw sql =>
    rw [Predicate.tokens]
    exact settled_of_forall (by simp [opensPage])
  | group filters =>
    rw [Predicate.tokens]
    exact settled_concat (by decide) (by decide) _

theorem Filter.settled_moreTokens (d : Dialect) (filters : List Filter) : Settled (Filter.moreTokens d filters) := by
  induction filters with
  | nil =>
    rw [Filter.moreTokens]
    exact settled_nil
  | cons f rest ih =>
    obtain ⟨connector, predicate⟩ := f
    have hop : opensPage (word (" " ++ connector.symbol ++ " ")) = false := by cases connector <;> decide
    rw [Filter.moreTokens]
    exact settled_cons hop (settled_append (predicate.settled d) ih)

theorem Filter.settled_listTokens (d : Dialect) (filters : List Filter) : Settled (Filter.listTokens d filters) := by
  cases filters with
  | nil =>
    rw [Filter.listTokens]
    exact settled_nil
  | cons f rest =>
    obtain ⟨connector, predicate⟩ := f
    rw [Filter.listTokens]
    exact settled_append (predicate.settled d) (Filter.settled_moreTokens d rest)

theorem Source.settled (s : Source) : Settled s.tokens := by
  cases s with
  | table name => exact (Column.parse name).settled
  | raw sql => exact settled_of_forall (by simp [Source.tokens, opensPage])

theorem Query.settled_sourceTokens (d : Dialect) (q : Query) : Settled (q.sourceTokens d) := by
  have hjoins : Settled (separated " " (q.joins.map Join.tokens)) := by
    refine settled_separated (by decide) fun part hpart => ?_
    obtain ⟨j, -, rfl⟩ := List.mem_map.1 hpart
    exact j.settled
  have hcolumns := settled_of_arguments (all_isArgument_columnList q.groupings)
  refine settled_append (settled_append (settled_append (settled_append ?_ (settled_following hjoins)) ?_) ?_) ?_
  · refine settled_following ?_
    split
    · next s _ => exact settled_cons (by decide) s.settled
    · exact settled_nil
  · exact settled_following (settled_optionalClause (by decide) _ (Filter.settled_listTokens d q.filters))
  · exact settled_following (settled_optionalClause (by decide) _ hcolumns)
  · exact settled_following (settled_optionalClause (by decide) _ (Filter.settled_listTokens d q.havings))

/-! ## The page read back -/

namespace PagedSelect

/-- The limit that is read back; MySQL writes one where there is none. -/
def limitWritten (d : Dialect) (limit offset : Option UInt64) : Option UInt64 :=
  match d, limit, offset with
  | .sqlServer, _, _ => none
  | .mysql, none, some _ => some 18446744073709551615
  | _, _, _ => limit

theorem readLimit_clause {tokens : List Token} (hlimit : closing tokens ≠ some (word "LIMIT "))
    (hminus : closing tokens ≠ some (word "LIMIT -1")) (d : Dialect) (limit offset : Option UInt64) :
    readLimit (tokens ++ following (limitTokens d limit offset)) = (tokens, limitWritten d limit offset) := by
  have hk : isArgument (word "LIMIT ") = false := by decide
  have hk₁ : isArgument (word "LIMIT -1") = false := by decide
  have hcount : ∀ n, readLimit (tokens ++ following [word "LIMIT ", number n]) = (tokens, some n) := by
    intro n
    have hclosing : closing (tokens ++ following [word "LIMIT ", number n]) ≠ some (word "LIMIT -1") := by
      rw [following_cons, List.append_cons, closing_clause hk _ (by rfl)]
      decide
    rw [readLimit, lastClause?_eq_none hk₁ hclosing]
    exact readCount_clause hk tokens n
  have hnone : readLimit (tokens ++ following []) = (tokens, none) := by
    rw [following_nil, List.append_nil, readLimit, lastClause?_eq_none hk₁ hminus]
    exact readCount_of_ne hk hlimit
  have hunlimited : readLimit (tokens ++ following [word "LIMIT -1"]) = (tokens, none) := by
    rw [readLimit, following_cons, lastClause?_append hk₁ tokens (by rfl)]
  cases d <;> cases limit <;> cases offset <;>
    simp only [limitTokens, limitWritten, hcount, hnone, hunlimited]

theorem readOffset_clause {tokens : List Token} (h : closing tokens ≠ some (word "OFFSET ")) {d : Dialect}
    {offset : Option UInt64} (hd : d ≠ .sqlServer ∨ offset = none) :
    readCount "OFFSET " (tokens ++ following (offsetTokens d offset)) = (tokens, offset) := by
  cases offset with
  | none =>
    have hnil : offsetTokens d none = [] := by cases d <;> rfl
    rw [hnil, following_nil, List.append_nil]
    exact readCount_of_ne (by decide) h
  | some n =>
    have hcount : offsetTokens d (some n) = [word "OFFSET ", number n] := by
      cases d with
      | sqlServer => simp at hd
      | _ => rfl
    rw [hcount]
    exact readCount_clause (by decide) tokens n

/-- The limit that is read back in the select list. -/
def topWritten (d : Dialect) (limit offset : Option UInt64) : Option UInt64 :=
  match d, offset with
  | .sqlServer, none => limit
  | _, _ => none

theorem topTokens_eq (d : Dialect) (limit offset : Option UInt64) :
    topTokens d limit offset =
      match topWritten d limit offset with
      | some n => [word "TOP ", number n, word " "]
      | none => [] := by
  cases d <;> cases limit <;> cases offset <;> rfl

theorem readTop_append (d : Dialect) (limit offset : Option UInt64) {rest : List Token}
    (h : rest.head? ≠ some (word "TOP ")) :
    readTop (topTokens d limit offset ++ rest) = (topWritten d limit offset, rest) := by
  rw [topTokens_eq]
  cases topWritten d limit offset with
  | some n => rfl
  | none =>
    show readTop rest = (none, rest)
    unfold readTop
    split
    · exact absurd rfl h
    · rfl

theorem readRange?_rowRange (start : UInt64) (limit : Option UInt64) :
    readRange? (rowRange start limit) = some (addSaturating start 1, limit.map (addSaturating start)) := by
  cases limit <;> rfl

end PagedSelect

/-- Whatever follows the columns starts with a blank. -/
theorem Query.head?_sourceTokens {d : Dialect} {q : Query} {t : Token} (h : (q.sourceTokens d).head? = some t) :
    t = word " " := by
  have hfollowing : ∀ clause, (following clause).head? = some t → t = word " " := by
    intro clause h
    rw [following] at h
    split at h
    · cases h
    · exact (Option.some.inj h).symm
  simp only [Query.sourceTokens, List.head?_append, Option.or_eq_some_iff] at h
  rcases h with (((h | ⟨-, h⟩) | ⟨-, h⟩) | ⟨-, h⟩) | ⟨-, h⟩ <;> exact hfollowing _ h

/-- The columns and what follows them start with an argument or a blank, and with nothing else. -/
theorem Query.head?_ne (d : Dialect) (q : Query) {u : Token} (hu : isArgument u = false) (hblank : u ≠ word " ") :
    (q.columnTokens ++ q.sourceTokens d).head? ≠ some u := by
  intro h
  rw [List.head?_append, Option.or_eq_some_iff] at h
  rcases h with h | ⟨-, h⟩
  · exact ne_of_mem_arguments q.all_isArgument_columnTokens hu u (List.mem_of_head? h) rfl
  · exact hblank (Query.head?_sourceTokens h)

theorem Query.takeWhile_columnTokens (d : Dialect) (q : Query) :
    (q.columnTokens ++ q.sourceTokens d).takeWhile (· ≠ word " ") = q.columnTokens ∧
      (q.columnTokens ++ q.sourceTokens d).dropWhile (· ≠ word " ") = q.sourceTokens d := by
  have hcolumns : ∀ t ∈ q.columnTokens, decide (t ≠ word " ") = true := fun t ht =>
    decide_eq_true (ne_of_mem_arguments q.all_isArgument_columnTokens (by decide) t ht)
  rw [List.takeWhile_append_of_pos hcolumns, List.dropWhile_append_of_pos hcolumns]
  cases hs : q.sourceTokens d with
  | nil => simp
  | cons t rest =>
    obtain rfl : t = word " " := Query.head?_sourceTokens (by rw [hs]; rfl)
    simp

theorem settled_topTokens (d : Dialect) (limit offset : Option UInt64) : Settled (topTokens d limit offset) := by
  rw [topTokens_eq]
  cases topWritten d limit offset with
  | some n => exact settled_of_forall (by simp [opensPage])
  | none => exact settled_nil

theorem Query.settled_frontTokens (d : Dialect) (q : Query) : Settled (q.frontTokens d) := by
  have hdistinct : Settled (if q.distinct then [word "DISTINCT "] else []) := by
    split <;> exact settled_of_forall (by decide)
  exact settled_append hdistinct (settled_append (settled_topTokens d q.limit q.offset)
    (settled_append (settled_of_arguments q.all_isArgument_columnTokens) (q.settled_sourceTokens d)))

theorem closing_limitTokens_ne (d : Dialect) (limit offset : Option UInt64) :
    closing (limitTokens d limit offset) ≠ some (word "OFFSET ") := by
  cases d <;> cases limit <;> cases offset <;> simp [limitTokens, closing, isArgument]

theorem Query.closing_ordered_ne (d : Dialect) (q : Query) {keyword : String} (hopens : opensPage (word keyword) = true)
    (hblank : word keyword ≠ word " ") (horder : word keyword ≠ word "ORDER BY ") :
    closing (q.frontTokens d ++ following q.orderClause) ≠ some (word keyword) :=
  closing_following_ne hblank ((q.settled_frontTokens d).closing_ne hopens)
    (closing_orderClause_ne q.all_isArgument_orderTokens _ horder)

theorem Query.readOrder_front (d : Dialect) (q : Query) :
    readOrder (q.frontTokens d ++ following q.orderClause) = (q.frontTokens d, q.orderTokens) := by
  refine readOrder_clause (q.settled_frontTokens d) q.all_isArgument_orderTokens fun he => ?_
  rw [Query.orderTokens, List.isEmpty_iff.1 he]
  rfl

theorem Query.readDistinct_front (d : Dialect) (q : Query) :
    readDistinct (q.frontTokens d) =
      (q.distinct, topTokens d q.limit q.offset ++ (q.columnTokens ++ q.sourceTokens d)) := by
  have hcolumns := q.head?_ne d (by decide : isArgument (word "DISTINCT ") = false) (by decide)
  refine readDistinct_append q.distinct ?_
  rw [topTokens_eq]
  cases topWritten d q.limit q.offset with
  | some n => simp
  | none => exact hcolumns

/-- **A page that is cut is read back with the limit and the offset of the query.**  Its clauses come off from the right,
and what stands before the columns comes off from the left. -/
theorem Query.read?_tokens_cut {d : Dialect} {q : Query} (ha : q.aggregate = none)
    (h : d ≠ .sqlServer ∨ q.offset = none) :
    read? (q.tokens d) = some (.cut q.distinct (topWritten d q.limit q.offset) q.columnTokens (q.sourceTokens d)
      q.orderTokens (limitWritten d q.limit q.offset) q.offset) := by
  have hoffset := readOffset_clause (closing_following_ne (by decide)
    (q.closing_ordered_ne d (by decide : opensPage (word "OFFSET ") = true) (by decide) (by decide))
    (closing_limitTokens_ne d q.limit q.offset)) h
  have hlimit := readLimit_clause (q.closing_ordered_ne d (by decide) (by decide) (by decide))
    (q.closing_ordered_ne d (by decide) (by decide) (by decide)) d q.limit q.offset
  have htop := readTop_append d q.limit q.offset (q.head?_ne d (by decide : isArgument (word "TOP ") = false) (by decide))
  obtain ⟨htake, hdrop⟩ := q.takeWhile_columnTokens d
  rw [Query.tokens_cut h, Query.selectClause_append_source ha, List.cons_append, List.cons_append, List.cons_append, read?,
    readCut, hoffset]
  simp only [hlimit, q.readOrder_front d, q.readDistinct_front d, htop, htake, hdrop]

/-! ## Numbered rows read back -/

theorem Query.readDistinct_columns (q : Query) (rest : List Token) :
    readDistinct ((if q.distinct then [word "DISTINCT "] else []) ++
        (q.columnTokens ++ word ", ROW_NUMBER() OVER (" :: rest)) =
      (q.distinct, q.columnTokens ++ word ", ROW_NUMBER() OVER (" :: rest) := by
  refine readDistinct_append q.distinct fun h => ?_
  rw [List.head?_append, Option.or_eq_some_iff] at h
  rcases h with h | ⟨-, h⟩
  · exact ne_of_mem_arguments q.all_isArgument_columnTokens (by decide) _ (List.mem_of_head? h) rfl
  · exact absurd h (by simp)

theorem Query.readNumberOrder?_numberOrder (q : Query) : readNumberOrder? q.numberOrder = some q.orderTokens := by
  rw [Query.numberOrder]
  split
  · next ho =>
    rw [Query.orderTokens, ho]
    rfl
  · rfl

theorem Query.ne_of_mem_numberOrder (q : Query) : ∀ t ∈ q.numberOrder, t ≠ word ") AS RowNum" := by
  rw [Query.numberOrder]
  split
  · decide
  · intro t ht
    rcases List.mem_cons.1 ht with rfl | ht
    · decide
    · exact ne_of_mem_arguments q.all_isArgument_orderTokens (by decide) t ht

/-- **A page of numbered rows is read back with the range after the offset.** -/
theorem Query.read?_tokens_numbered {q : Query} {start : UInt64} (ha : q.aggregate = none)
    (h : q.offset = some start) :
    read? (q.tokens .sqlServer) = some (.numbered q.distinct q.columnTokens q.orderTokens (q.sourceTokens .sqlServer)
      (addSaturating start 1) (q.limit.map (addSaturating start))) := by
  have hcolumns := ne_of_mem_arguments q.all_isArgument_columnTokens
    (by decide : isArgument (word ", ROW_NUMBER() OVER (") = false)
  have hrange : ∀ t ∈ rowRange start q.limit, t ≠ word ") AS TempTable WHERE RowNum " := by
    cases q.limit <;> simp [rowRange]
  have htop : topTokens .sqlServer q.limit q.offset = [] := by
    rw [h]
    cases q.limit <;> rfl
  rw [Query.tokens_numbered h, Query.selectClause_of_plain ha, htop, List.nil_append, List.cons_append, List.append_assoc,
    read?, readNumbered?, q.readDistinct_columns]
  simp only [splitAt?_append hcolumns, splitAt?_append q.ne_of_mem_numberOrder, splitAtLast?_append hrange,
    q.readNumberOrder?_numberOrder, readRange?_rowRange, Option.bind_eq_bind, Option.bind_some, Option.pure_def]

/-! ## The same page for all dialects -/

section

variable {β : Type}

/-- The limit stands in one of two places, or is one that no source reaches. -/
theorem takeLimit_written {d : Dialect} {limit offset : Option UInt64} (h : d ≠ .sqlServer ∨ offset = none)
    {rows : List β} (hlength : rows.length < UInt64.size) :
    takeLimit (limitWritten d limit offset) (dropOffset offset (takeLimit (topWritten d limit offset) rows)) =
      takeLimit limit (dropOffset offset rows) := by
  have hmost : ∀ n, takeLimit (some 18446744073709551615) (dropOffset (some n) rows) = dropOffset (some n) rows := by
    intro n
    have hdropped := length_dropOffset_le (some n) rows
    exact takeLimit_of_length_le (Nat.le_trans hdropped (Nat.le_of_lt_succ hlength))
  cases offset with
  | none => cases d <;> cases limit <;> rfl
  | some n =>
    cases d with
    | sqlServer => simp at h
    | mysql =>
      cases limit with
      | none => exact hmost n
      | some m => rfl
    | _ => rfl

/-- Sums that are too large stop at a number that no row has. -/
theorem inRange_written (start : UInt64) (limit : Option UInt64) {rows : List β}
    (hlength : rows.length < UInt64.size - 1) :
    inRange (addSaturating start 1).toNat ((limit.map (addSaturating start)).map UInt64.toNat) (numbered rows) =
      takeLimit limit (dropOffset (some start) rows) := by
  have hfirst : (addSaturating start 1).toNat = min (start.toNat + 1) (UInt64.size - 1) := toNat_saturate _
  have hdrop : rows.drop ((addSaturating start 1).toNat - 1) = rows.drop start.toNat := by
    by_cases hfits : start.toNat + 1 ≤ UInt64.size - 1
    · rw [hfirst, Nat.min_eq_left hfits, Nat.add_sub_cancel]
    · rw [List.drop_eq_nil_of_le (by omega), List.drop_eq_nil_of_le (by omega)]
  cases limit with
  | none => exact (inRange_from _ rows).trans hdrop
  | some n =>
    have hlast : (addSaturating start n).toNat = min (start.toNat + n.toNat) (UInt64.size - 1) := toNat_saturate _
    rw [Option.map_some, Option.map_some, inRange_between, List.drop_take, hdrop, takeLimit, dropOffset,
      List.take_eq_take_iff, List.length_drop]
    omega

end

section

variable {α β : Type} [DecidableEq β]

/-- **The dialects page the same rows**, if those of the source are fewer than the largest number that can be written:
what each of them writes is read back as the page of the query.  On SQL Server a query with an offset is paged as if it
were not distinct. -/
theorem Query.read?_tokens_page (q : Query) (e : Evaluation α β) (rows : List α) (d : Dialect)
    (ha : q.aggregate = none) (hrows : e.rows (q.sourceTokens d) q.orderTokens = rows)
    (hlength : rows.length < UInt64.size - 1) :
    ∃ s, read? ((Statement.query q).tokens d) = some s ∧
      s.selects e = ↑(pageOf (q.distinct && !(decide (d = .sqlServer) && q.offset.isSome)) q.limit q.offset
        (rows.map (e.project q.columnTokens))) := by
  have hprojected : (rows.map (e.project q.columnTokens)).length < UInt64.size - 1 := by rwa [List.length_map]
  by_cases hcut : d ≠ .sqlServer ∨ q.offset = none
  · refine ⟨_, Query.read?_tokens_cut ha hcut, ?_⟩
    have hkept : (q.distinct && !(decide (d = .sqlServer) && q.offset.isSome)) = q.distinct := by
      rcases hcut with hd | ho
      · simp [hd]
      · simp [ho]
    have hshown := length_distinctRows_le q.distinct (rows.map (e.project q.columnTokens))
    rw [hkept, PagedSelect.selects, hrows, takeLimit_written hcut (by omega), pageOf]
  · rw [not_or, not_not, ← ne_eq, Option.ne_none_iff_exists'] at hcut
    obtain ⟨rfl, start, ho⟩ := hcut
    refine ⟨_, Query.read?_tokens_numbered ha ho, ?_⟩
    have hdropped : (q.distinct && !(decide (Dialect.sqlServer = .sqlServer) && q.offset.isSome)) = false := by
      simp [ho]
    rw [hdropped, PagedSelect.selects, hrows, distinctRows_numbered, inRange_written start q.limit hprojected, pageOf,
      distinctRows_false, ho]

end

namespace Roles

/-- The first two roles that users have. -/
def firstTwo : Query := ((Query.table "users").select [.name "role"]).selectDistinct.forPage 1 2

/-- Three users with their roles. -/
def users : List (String × String) := [("ann", "admin"), ("bob", "admin"), ("eve", "author")]

def evaluation : Evaluation (String × String) String := ⟨fun _ _ => users, fun _ => Prod.snd⟩

end Roles

theorem read?_tokens_page_roles :
    Roles.firstTwo.aggregate = none ∧ Roles.users.length < UInt64.size - 1 ∧
      ∃ s, read? ((Statement.query Roles.firstTwo).tokens .mysql) = some s ∧
        s.selects Roles.evaluation = ↑["admin", "author"] :=
  ⟨rfl, by decide, Query.read?_tokens_page Roles.firstTwo Roles.evaluation Roles.users .mysql rfl rfl (by decide)⟩

/-- The second admin has a row number of his own, so his role is shown again. -/
theorem numbered_rows_repeat_role :
    ∃ s, read? ((Statement.query Roles.firstTwo).tokens .sqlServer) = some s ∧
      s.selects Roles.evaluation = ↑["admin", "admin"] ∧
      s.selects Roles.evaluation ≠ ↑(pageOf Roles.firstTwo.distinct Roles.firstTwo.limit Roles.firstTwo.offset
        (Roles.users.map (Roles.evaluation.project Roles.firstTwo.columnTokens))) :=
  ⟨_, Query.read?_tokens_numbered rfl (by decide : Roles.firstTwo.offset = some 0), by decide, by decide⟩

end SqlMapper
