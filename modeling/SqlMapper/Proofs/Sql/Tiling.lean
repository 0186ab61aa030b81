import Mathlib.Algebra.Order.Floor.Div
import SqlMapper.Proofs.Sql.Paging
/-!
# Tiling — the pages of a query, one after the other

`RowWindow.read?` takes the page off a statement, whatever it selects.  There remain the statement of all rows, and the
window of these that the page shows.  Each dialect writes the pages of a query around the same statement, and the
windows of the pages that have rows lie one behind the other (`Query.pages_tile`).  Counts that are too large stop at
a number that no row has, so a page beyond the last shows nothing.
-/
namespace SqlMapper

open Token (word number)
open PagedSelect

variable {β : Type}

/-! ## Windows -/

/-- Which rows of a statement are shown. -/
inductive RowWindow where
  | cut (limit offset : Option UInt64)
  /-- The rows are numbered from one, and those between two numbers are shown. -/
  | numbered (first : UInt64) (last : Option UInt64)
  deriving DecidableEq, Repr

namespace RowWindow

/-- The rows in the window, in the order of the statement. -/
def shows (rows : List β) : RowWindow → List β
  | cut limit offset => takeLimit limit (dropOffset offset rows)
  | numbered first last => inRange first.toNat (last.map UInt64.toNat) (SqlMapper.numbered rows)

def readCut (tokens : List Token) : List Token × RowWindow :=
  let (tokens, offset) := readCount "OFFSET " tokens
  let (tokens, limit) := readLimit tokens
  (tokens, .cut limit offset)

/-- The statement whose rows are numbered is put together again, with its order behind it.  There is none if duplicates
are dropped, since numbered rows are never duplicates. -/
def readNumbered? (tokens : List Token) : Option (List Token × RowWindow) := do
  let (select, tokens) ← splitAt? ", ROW_NUMBER() OVER (" tokens
  let (order, tokens) ← splitAt? ") AS RowNum" tokens
  let (source, range) ← splitAtLast? ") AS TempTable WHERE RowNum " tokens
  let (first, last) ← readRange? range
  if select.take 2 = [word "SELECT ", word "DISTINCT "] then none
  else some (select ++ source ++ following (if order = [word "ORDER BY (SELECT 0)"] then [] else order),
    .numbered first last)

def read? : List Token → Option (List Token × RowWindow)
  | word "SELECT * FROM (" :: tokens => readNumbered? tokens
  | tokens => some (readCut tokens)

/-- The window of an offset and a limit, as the dialect writes it. -/
def written (d : Dialect) (limit : Option UInt64) (start : UInt64) : RowWindow :=
  match d with
  | .sqlServer => numbered (addSaturating start 1) (limit.map (addSaturating start))
  | _ => cut (limitWritten d limit (some start)) (some start)

/-- All dialects write the same window of rows that are fewer than the largest number. -/
theorem shows_written (d : Dialect) (limit : Option UInt64) (start : UInt64) {rows : List β}
    (h : rows.length < UInt64.size - 1) :
    (written d limit start).shows rows = takeLimit limit (dropOffset (some start) rows) := by
  by_cases hd : d = .sqlServer
  · rw [hd]
    exact inRange_written start limit h
  · have htop : topWritten d limit (some start) = none := by cases d <;> rfl
    have hcut : written d limit start = cut (limitWritten d limit (some start)) (some start) := by
      cases d with
      | sqlServer => exact absurd rfl hd
      | _ => rfl
    have hlength : rows.length < UInt64.size := by omega
    rw [hcut, ← takeLimit_written (.inl hd : d ≠ .sqlServer ∨ some start = none) hlength, htop]
    rfl

end RowWindow

/-! ## The statement of all rows -/

/-- What stands in a select list that keeps duplicates. -/
def isSelected (t : Token) : Bool :=
  isArgument t || [word "SELECT ", word "SELECT COUNT(", word "SELECT SUM(", word "SELECT AVG(", word "SELECT MIN(",
    word "SELECT MAX(", word ") AS "].contains t

theorem isSelected_of_isArgument {t : Token} (h : isArgument t = true) : isSelected t = true := by
  rw [isSelected, h, Bool.true_or]

theorem opensPage_of_isSelected {t : Token} (h : isSelected t = true) : opensPage t = false := by
  rw [isSelected, Bool.or_eq_true] at h
  rcases h with h | h
  · exact opensPage_of_isArgument h
  · simp only [List.contains_eq_mem, List.mem_cons, List.not_mem_nil, or_false, decide_eq_true_eq] at h
    rcases h with rfl | rfl | rfl | rfl | rfl | rfl | rfl <;> decide

theorem all_isSelected_of_arguments {tokens : List Token} (h : tokens.all isArgument = true) :
    tokens.all isSelected = true :=
  List.all_eq_true.2 fun t ht => isSelected_of_isArgument (List.all_eq_true.1 h t ht)

theorem Aggregate.all_isSelected (a : Aggregate) : (a.tokens false).all isSelected = true := by
  have hcolumns : (if a.isOverRows then [word "*"] else columnList a.columns).all isSelected = true := by
    split
    · decide
    · exact all_isSelected_of_arguments (all_isArgument_columnList a.columns)
  have hfunction : isSelected (word ("SELECT " ++ a.function.symbol ++ "(")) = true := by
    cases a.function <;> decide
  simp only [Aggregate.tokens, Bool.false_eq_true, if_false, List.nil_append, List.cons_append, List.all_cons,
    List.all_append, hcolumns, hfunction]
  decide

namespace Query

/-- The query without its page. -/
def allRows (q : Query) : Query := { q with limit := none, offset := none }

variable {q : Query} {d : Dialect}

/-- With an offset no part of the page stands in the select list. -/
theorem selectClause_of_offset {start : UInt64} (h : q.offset = some start) :
    q.selectClause d = q.allRows.selectClause d := by
  have htop : topTokens d q.limit q.offset = topTokens d none none := by
    rw [h]
    cases d <;> cases q.limit <;> rfl
  unfold selectClause selectTokens
  rw [htop]
  rfl

theorem all_isSelected_selectClause (hq : q.distinct = false) : (q.allRows.selectClause d).all isSelected = true := by
  have htop : topTokens d none none = [] := by cases d <;> rfl
  have hcolumns := all_isSelected_of_arguments q.all_isArgument_columnTokens
  unfold selectClause selectTokens allRows
  rw [hq]
  split
  · next a _ => exact a.all_isSelected
  · rw [htop, List.append_nil]
    exact hcolumns

theorem settled_selectClause (hq : q.distinct = false) : Settled (q.allRows.selectClause d) :=
  settled_of_forall fun t ht => opensPage_of_isSelected (List.all_eq_true.1 (all_isSelected_selectClause hq) t ht)

theorem ne_of_mem_selectClause (hq : q.distinct = false) {u : Token} (hu : isSelected u = false) :
    ∀ t ∈ q.allRows.selectClause d, t ≠ u := by
  intro t ht e
  rw [← e, List.all_eq_true.1 (all_isSelected_selectClause hq) t ht] at hu
  cases hu

theorem tokens_allRows (d : Dialect) (q : Query) :
    q.allRows.tokens d = q.allRows.selectClause d ++ q.sourceTokens d ++ following q.orderClause := by
  have hlimit : limitTokens d none none = [] := by cases d <;> rfl
  have hoffset : offsetTokens d none = [] := by cases d <;> rfl
  rw [tokens_cut (.inr rfl)]
  show _ ++ following (limitTokens d none none) ++ following (offsetTokens d none) = _
  rw [hlimit, hoffset, following_nil, List.append_nil, List.append_nil]
  rfl

/-- A page that is cut is written behind the statement of all rows. -/
theorem tokens_of_offset (hd : d ≠ .sqlServer) {start : UInt64} (h : q.offset = some start) :
    q.tokens d = q.allRows.tokens d ++ following (limitTokens d q.limit q.offset) ++
      following (offsetTokens d q.offset) := by
  rw [tokens_cut (.inl hd), selectClause_of_offset h, tokens_allRows]

/-! ## The window read back -/

theorem orderClause_of_numberOrder (q : Query) :
    (if q.numberOrder = [word "ORDER BY (SELECT 0)"] then [] else q.numberOrder) = q.orderClause := by
  have hempty : q.orderings.isEmpty = decide (q.orderings = []) := by cases q.orderings <;> rfl
  rw [numberOrder, orderClause, hempty]
  by_cases ho : q.orderings = []
  · simp [ho, optionalClause]
  · simp [ho, optionalClause]

theorem read?_tokens_of_offset_cut (hq : q.distinct = false) (hd : d ≠ .sqlServer) {start : UInt64}
    (h : q.offset = some start) :
    RowWindow.read? (q.tokens d) = some (q.allRows.tokens d, .cut (limitWritten d q.limit q.offset) q.offset) := by
  have hsettled : Settled (q.allRows.selectClause d ++ q.sourceTokens d) :=
    settled_append (settled_selectClause hq) (q.settled_sourceTokens d)
  have hordered : ∀ keyword, opensPage (word keyword) = true → word keyword ≠ word " " →
      word keyword ≠ word "ORDER BY " → closing (q.allRows.tokens d) ≠ some (word keyword) := by
    intro keyword hopens hblank horder
    rw [tokens_allRows]
    exact closing_following_ne hblank (hsettled.closing_ne hopens)
      (closing_orderClause_ne q.all_isArgument_orderTokens _ horder)
  have hoffset := readOffset_clause (closing_following_ne (by decide)
    (hordered "OFFSET " (by decide) (by decide) (by decide)) (closing_limitTokens_ne d q.limit q.offset))
    (.inl hd : d ≠ .sqlServer ∨ q.offset = none)
  have hlimit := readLimit_clause (hordered "LIMIT " (by decide) (by decide) (by decide))
    (hordered "LIMIT -1" (by decide) (by decide) (by decide)) d q.limit q.offset
  -- a select list never starts like the statement around numbered rows
  have hcut : RowWindow.read? (q.tokens d) = some (RowWindow.readCut (q.tokens d)) := by
    obtain ⟨t, rest, hselect⟩ := List.exists_cons_of_ne_nil (selectClause_ne_nil d q.allRows)
    have hfirst : t ≠ word "SELECT * FROM (" :=
      ne_of_mem_selectClause hq (by decide) t (hselect ▸ List.mem_cons_self)
    rw [tokens_of_offset hd h, tokens_allRows, hselect, List.cons_append, List.cons_append, List.cons_append,
      List.cons_append, RowWindow.read?]
    intro tokens he
    exact hfirst (List.cons.inj he).1
  rw [hcut, tokens_of_offset hd h, RowWindow.readCut, hoffset]
  simp only [hlimit]

theorem read?_tokens_of_offset_numbered (hq : q.distinct = false) {start : UInt64} (h : q.offset = some start) :
    RowWindow.read? (q.tokens .sqlServer) =
      some (q.allRows.tokens .sqlServer, .numbered (addSaturating start 1) (q.limit.map (addSaturating start))) := by
  have hselect := ne_of_mem_selectClause (d := .sqlServer) hq
    (by decide : isSelected (word ", ROW_NUMBER() OVER (") = false)
  have hrange : ∀ t ∈ rowRange start q.limit, t ≠ word ") AS TempTable WHERE RowNum " := by
    cases q.limit <;> simp [rowRange]
  have hduplicates : ¬ (q.allRows.selectClause .sqlServer).take 2 = [word "SELECT ", word "DISTINCT "] := by
    intro htake
    have hmem : word "DISTINCT " ∈ (q.allRows.selectClause .sqlServer).take 2 := by
      rw [htake]
      decide
    exact ne_of_mem_selectClause hq (by decide : isSelected (word "DISTINCT ") = false) _ (List.mem_of_mem_take hmem) rfl
  rw [tokens_numbered h, selectClause_of_offset h, RowWindow.read?, RowWindow.readNumbered?, tokens_allRows,
    ← orderClause_of_numberOrder]
  simp only [splitAt?_append hselect, splitAt?_append q.ne_of_mem_numberOrder, splitAtLast?_append hrange,
    readRange?_rowRange, hduplicates, if_false, Option.bind_eq_bind, Option.bind_some]

/-- **The page of a query is read back as a window of all its rows**, whatever is selected. -/
theorem read?_tokens_of_offset (hq : q.distinct = false) (d : Dialect) {start : UInt64} (h : q.offset = some start) :
    RowWindow.read? (q.tokens d) = some (q.allRows.tokens d, .written d q.limit start) := by
  by_cases hd : d = .sqlServer
  · rw [hd]
    exact read?_tokens_of_offset_numbered hq h
  · rw [read?_tokens_of_offset_cut hq hd h, h]
    cases d with
    | sqlServer => exact absurd rfl hd
    | _ => rfl

end Query

/-! ## Pages in a row -/

/-- The first rows are those of as many pages. -/
theorem flatMap_pages (rows : List β) (size count : Nat) :
    ((List.range' 1 count).flatMap fun page => (rows.drop ((page - 1) * size)).take size) = rows.take (count * size) := by
  induction count with
  | zero => rw [Nat.zero_mul, List.take_zero]; rfl
  | succ count ih =>
    rw [List.range'_1_concat, List.flatMap_append, ih, List.flatMap_singleton, Nat.add_sub_cancel_left, Nat.succ_mul,
      List.take_add]

/-- The rows before a page, unless there are more than can be counted. -/
theorem toNat_pageStart (page perPage : UInt64) :
    (mulSaturating (saturate (page.toNat - 1)) perPage).toNat =
      min ((max page.toNat 1 - 1) * perPage.toNat) (UInt64.size - 1) := by
  have hbefore : page.toNat - 1 ≤ UInt64.size - 1 := by
    have := page.toNat_lt_size
    omega
  have hone : max page.toNat 1 - 1 = page.toNat - 1 := by omega
  rw [mulSaturating, toNat_saturate, toNat_saturate, Nat.min_eq_left hbefore, hone]

namespace RowWindow

/-- The window of a page. -/
def ofPage (d : Dialect) (perPage page : UInt64) : RowWindow :=
  written d (some perPage) (mulSaturating (saturate (page.toNat - 1)) perPage)

/-- The counts in the window of a page stop at the largest number. -/
theorem ofPage_saturates (d : Dialect) (perPage page : UInt64) :
    ∃ start : UInt64, start.toNat = min ((max page.toNat 1 - 1) * perPage.toNat) (UInt64.size - 1) ∧
      if d = .sqlServer then
        ∃ first last : UInt64, ofPage d perPage page = .numbered first (some last) ∧
          first.toNat = min (start.toNat + 1) (UInt64.size - 1) ∧
          last.toNat = min (start.toNat + perPage.toNat) (UInt64.size - 1)
      else ofPage d perPage page = .cut (some perPage) (some start) := by
  refine ⟨_, toNat_pageStart page perPage, ?_⟩
  split
  · next hd =>
    rw [hd]
    exact ⟨_, _, rfl, toNat_saturate _, toNat_saturate _⟩
  · next hd =>
    cases d with
    | sqlServer => exact absurd rfl hd
    | _ => rfl

variable {rows : List β} (h : rows.length < UInt64.size - 1)

include h

/-- The rows of a page, where the counts may have stopped at the largest number. -/
theorem shows_ofPage (d : Dialect) (perPage page : UInt64) :
    (ofPage d perPage page).shows rows = (rows.drop ((max page.toNat 1 - 1) * perPage.toNat)).take perPage.toNat := by
  rw [ofPage, shows_written d _ _ h, takeLimit, dropOffset, toNat_pageStart]
  by_cases hfits : (max page.toNat 1 - 1) * perPage.toNat ≤ UInt64.size - 1
  · rw [Nat.min_eq_left hfits]
  · rw [List.drop_eq_nil_of_le (by omega), List.drop_eq_nil_of_le (by omega)]

variable {perPage : UInt64} (hsize : 0 < perPage.toNat)

include hsize

theorem flatMap_shows_ofPage (d : Dialect) :
    ((List.range' 1 (rows.length ⌈/⌉ perPage.toNat)).flatMap fun page =>
      (ofPage d perPage (.ofNat page)).shows rows) = rows := by
  have hlast : rows.length ≤ rows.length ⌈/⌉ perPage.toNat * perPage.toNat :=
    Nat.mul_comm _ _ ▸ (ceilDiv_le_iff_le_mul hsize).1 (Nat.le_refl _)
  have hpages : ∀ page ∈ List.range' 1 (rows.length ⌈/⌉ perPage.toNat),
      (ofPage d perPage (.ofNat page)).shows rows = (rows.drop ((page - 1) * perPage.toNat)).take perPage.toNat := by
    intro page hpage
    -- there are no more pages than rows, so the number of a page that has rows is written as it is
    have hfew : rows.length ⌈/⌉ perPage.toNat ≤ rows.length :=
      (ceilDiv_le_iff_le_mul hsize).2 (Nat.le_mul_of_pos_left _ hsize)
    obtain ⟨hfrom, hto⟩ := List.mem_range'_1.1 hpage
    have hfits : page < UInt64.size := by omega
    rw [shows_ofPage h, UInt64.toNat_ofNat_of_lt' hfits, Nat.max_eq_left hfrom]
  rw [List.flatMap_congr hpages, flatMap_pages, List.take_of_length_le hlast]

theorem shows_ofPage_beyond (d : Dialect) {page : UInt64} (hpage : rows.length ⌈/⌉ perPage.toNat < page.toNat) :
    (ofPage d perPage page).shows rows = [] := by
  have hbefore : rows.length ≤ (max page.toNat 1 - 1) * perPage.toNat := by
    rw [Nat.mul_comm]
    exact (ceilDiv_le_iff_le_mul hsize).1 (by omega)
  rw [shows_ofPage h, List.drop_eq_nil_of_le hbefore, List.take_nil]

end RowWindow

/-- **The pages of a query tile its rows.**  Every page is the statement of all rows with a window around it.  The windows
of the pages up to the last one show all rows, one behind the other, page zero is the first, and a page beyond the last
shows nothing.  Offsets and row numbers that do not fit stop at the largest number. -/
theorem Query.pages_tile {q : Query} (hq : q.distinct = false) (d : Dialect) {perPage : UInt64}
    (hsize : 0 < perPage.toNat) :
    ∃ window : UInt64 → RowWindow,
      (∀ page, RowWindow.read? ((Statement.query (q.forPage page perPage)).tokens d) =
        some ((Statement.query q.allRows).tokens d, window page)) ∧
      (∀ page, ∃ start : UInt64, start.toNat = min ((max page.toNat 1 - 1) * perPage.toNat) (UInt64.size - 1) ∧
        if d = .sqlServer then
          ∃ first last : UInt64, window page = .numbered first (some last) ∧
            first.toNat = min (start.toNat + 1) (UInt64.size - 1) ∧
            last.toNat = min (start.toNat + perPage.toNat) (UInt64.size - 1)
        else window page = .cut (some perPage) (some start)) ∧
      (∀ (limit : Option UInt64) (start : UInt64), ∃ first last,
        RowWindow.read? ((Statement.query { q with limit, offset := some start }).tokens .sqlServer) =
            some ((Statement.query q.allRows).tokens .sqlServer, .numbered first last) ∧
          first.toNat = min (start.toNat + 1) (UInt64.size - 1) ∧
          last.map UInt64.toNat = limit.map fun n => min (start.toNat + n.toNat) (UInt64.size - 1)) ∧
      window 0 = window 1 ∧
      ∀ rows : List β, rows.length < UInt64.size - 1 →
        ((List.range' 1 (rows.length ⌈/⌉ perPage.toNat)).flatMap fun page => (window (.ofNat page)).shows rows) = rows ∧
          ∀ page : UInt64, rows.length ⌈/⌉ perPage.toNat < page.toNat → (window page).shows rows = [] := by
  refine ⟨.ofPage d perPage, fun page => Query.read?_tokens_of_offset (q := q.forPage page perPage) hq d rfl,
    RowWindow.ofPage_saturates d perPage, fun limit start => ?_, rfl, fun rows hrows =>
    ⟨RowWindow.flatMap_shows_ofPage hrows hsize d, fun page => RowWindow.shows_ofPage_beyond hrows hsize d⟩⟩
  have hread := Query.read?_tokens_of_offset_numbered (q := { q with limit, offset := some start }) hq rfl
  refine ⟨_, _, hread, toNat_saturate _, ?_⟩
  rw [Option.map_map]
  exact congrArg (Option.map · limit) (funext fun n => toNat_saturate _)

namespace Roles

/-- The users of each role are counted. -/
def sizes : Query := (((Query.table "users").groupBy (.name "role")).orderBy (.name "role")).aggregateBy .count []

def names : List String := ["admin", "author", "guest"]

end Roles

theorem pages_tile_sizes :
    Roles.sizes.distinct = false ∧ 0 < (2 : UInt64).toNat ∧ Roles.names.length < UInt64.size - 1 ∧
      ∃ window : UInt64 → RowWindow,
        RowWindow.read? ((Statement.query (Roles.sizes.forPage 2 2)).tokens .sqlServer) =
          some ((Statement.query Roles.sizes.allRows).tokens .sqlServer, window 2) ∧
        ((List.range' 1 2).flatMap fun page => (window (.ofNat page)).shows Roles.names) = Roles.names ∧
        (window 3).shows Roles.names = [] := by
  have hrows : Roles.names.length < UInt64.size - 1 := by decide
  obtain ⟨window, hread, -, -, -, htile⟩ :=
    Query.pages_tile (q := Roles.sizes) rfl .sqlServer (by decide : 0 < (2 : UInt64).toNat)
  have hlast : Roles.names.length ⌈/⌉ (2 : UInt64).toNat = 2 := by decide
  obtain ⟨hpages, hbeyond⟩ := htile Roles.names hrows
  rw [hlast] at hpages
  exact ⟨rfl, by decide, hrows, window, hread 2, hpages, hbeyond 3 (by decide)⟩

end SqlMapper
