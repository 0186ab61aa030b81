import Mathlib.Data.List.DropRight
import Mathlib.Data.Multiset.Defs
import SqlMapper.Proofs.Query.Page
import SqlMapper.Sql.Select
/-!
# PagedSelect — selects taken apart

A page is cut out of the rows by `TOP`, `LIMIT` and `OFFSET`, or the rows are numbered in a subquery and a range of the
numbers is picked outside.  `PagedSelect.read?` takes the tokens of a select apart into what it pages and how, and
`PagedSelect.selects` says which rows that is.  Neither knows a query or a dialect.  Clauses of the page are found from
the right.  A clause before them is never taken for one, since the last of its tokens that is no argument does not open
a page (`Settled`).
-/
namespace SqlMapper

open Token (word number separated)

/-! ## Selects -/

/-- A select, taken apart into the clauses that page and those that say which rows there are. -/
inductive PagedSelect where
  /-- Duplicates go first, then the page is cut. -/
  | cut (distinct : Bool) (top : Option UInt64) (columns source order : List Token) (limit offset : Option UInt64)
  /-- The rows get numbers in a subquery, and the numbers from the first to the last are picked outside. -/
  | numbered (distinct : Bool) (columns order source : List Token) (first : UInt64) (last : Option UInt64)
  deriving DecidableEq, Repr

/-- What the clauses that do not page say: the rows of a source in some order, and what the columns take of a row. -/
structure Evaluation (α β : Type) where
  rows (source order : List Token) : List α
  project (columns : List Token) : α → β

/-- The rows that a select shows.  Without an order clause outside, a range of numbered rows comes in no certain order. -/
def PagedSelect.selects {α β : Type} [DecidableEq β] (e : Evaluation α β) : PagedSelect → Multiset β
  | cut distinct top columns source order limit offset =>
    ↑(takeLimit limit (dropOffset offset (takeLimit top
      (distinctRows distinct ((e.rows source order).map (e.project columns))))))
  | numbered distinct columns order source first last =>
    ↑(inRange first.toNat (last.map UInt64.toNat)
      (distinctRows distinct (SqlMapper.numbered ((e.rows source order).map (e.project columns)))))

/-- A clause that follows others: a blank and the clause, unless it is empty. -/
def following (clause : List Token) : List Token := if clause = [] then [] else word " " :: clause

theorem following_nil : following [] = [] := rfl

theorem following_cons (t : Token) (rest : List Token) : following (t :: rest) = word " " :: t :: rest := rfl

/-! ## Reading a select -/

namespace PagedSelect

/-- What stands in lists of columns, in sort keys and after limits and offsets. -/
def isArgument : Token → Bool
  | .ident _ | .raw _ | .number _ => true
  | .word text => ["*", ".", " AS ", ", ", " ASC", " DESC"].contains text
  | .bound _ => false

/-- The last clause taken off, if it opens with the keyword; its arguments are on the right. -/
def lastClause? (keyword : String) (tokens : List Token) : Option (List Token × List Token) :=
  ((tokens.rdropWhile isArgument).dropSuffix? [word " ", word keyword]).map fun before =>
    (before, tokens.rtakeWhile isArgument)

def readCount (keyword : String) (tokens : List Token) : List Token × Option UInt64 :=
  match lastClause? keyword tokens with
  | some (before, [number n]) => (before, some n)
  | _ => (tokens, none)

/-- A limit of minus one is no limit. -/
def readLimit (tokens : List Token) : List Token × Option UInt64 :=
  match lastClause? "LIMIT -1" tokens with
  | some (before, []) => (before, none)
  | _ => readCount "LIMIT " tokens

def readOrder (tokens : List Token) : List Token × List Token :=
  match lastClause? "ORDER BY " tokens with
  | some (before, keys) => (before, keys)
  | none => (tokens, [])

def readDistinct : List Token → Bool × List Token
  | word "DISTINCT " :: tokens => (true, tokens)
  | tokens => (false, tokens)

def readTop : List Token → Option UInt64 × List Token
  | word "TOP " :: number n :: word " " :: tokens => (some n, tokens)
  | tokens => (none, tokens)

/-- What stands before and after the first such word. -/
def splitAt? (text : String) (tokens : List Token) : Option (List Token × List Token) :=
  match tokens.dropWhile (· ≠ word text) with
  | _ :: after => some (tokens.takeWhile (· ≠ word text), after)
  | [] => none

/-- What stands before and after the last such word. -/
def splitAtLast? (text : String) (tokens : List Token) : Option (List Token × List Token) :=
  (splitAt? text tokens.reverse).map fun (after, before) => (before.reverse, after.reverse)

/-- The columns end where the first clause after them begins. -/
def readCut (tokens : List Token) : PagedSelect :=
  let (tokens, offset) := readCount "OFFSET " tokens
  let (tokens, limit) := readLimit tokens
  let (tokens, order) := readOrder tokens
  let (distinct, tokens) := readDistinct tokens
  let (top, tokens) := readTop tokens
  .cut distinct top (tokens.takeWhile (· ≠ word " ")) (tokens.dropWhile (· ≠ word " ")) order limit offset

/-- Rows are numbered in the order of the sort keys; ordering by a constant leaves them as they come. -/
def readNumberOrder? : List Token → Option (List Token)
  | [word "ORDER BY (SELECT 0)"] => some []
  | word "ORDER BY " :: keys => some keys
  | _ => none

def readRange? : List Token → Option (UInt64 × Option UInt64)
  | [word "BETWEEN ", number first, word " AND ", number last] => some (first, some last)
  | [word ">= ", number first] => some (first, none)
  | _ => none

def readNumbered? (tokens : List Token) : Option PagedSelect := do
  let (distinct, tokens) := readDistinct tokens
  let (columns, tokens) ← splitAt? ", ROW_NUMBER() OVER (" tokens
  let (order, tokens) ← splitAt? ") AS RowNum" tokens
  let (source, range) ← splitAtLast? ") AS TempTable WHERE RowNum " tokens
  let order ← readNumberOrder? order
  let (first, last) ← readRange? range
  return .numbered distinct columns order source first last

def read? : List Token → Option PagedSelect
  | word "SELECT " :: tokens => some (readCut tokens)
  | word "SELECT * FROM (" :: word "SELECT " :: tokens => readNumbered? tokens
  | _ => none

/-! ## The last clause -/

/-- Words that open a clause of the page or the order before it. -/
def opensPage : Token → Bool
  | .word text => ["LIMIT ", "LIMIT -1", "OFFSET ", "ORDER BY "].contains text
  | _ => false

/-- The last token that is no argument. -/
def closing (tokens : List Token) : Option Token := (tokens.filter fun t => !isArgument t).getLast?

/-- The last clause is none of the page. -/
def Settled (tokens : List Token) : Prop := ∀ t, closing tokens = some t → opensPage t = false

theorem closing_append (a b : List Token) : closing (a ++ b) = (closing b).or (closing a) := by
  rw [closing, List.filter_append, List.getLast?_append]
  rfl

theorem closing_of_arguments {tokens : List Token} (h : tokens.all isArgument = true) : closing tokens = none := by
  have hnone : tokens.filter (fun t => !isArgument t) = [] := by
    refine List.filter_eq_nil_iff.2 fun t ht => ?_
    simp [List.all_eq_true.1 h t ht]
  rw [closing, hnone, List.getLast?_nil]

theorem closing_clause {t : Token} (ht : isArgument t = false) (before : List Token) {arguments : List Token}
    (h : arguments.all isArgument = true) : closing (before ++ t :: arguments) = some t := by
  have hsingle : closing [t] = some t := by simp [closing, ht]
  rw [List.append_cons, closing_append, closing_of_arguments h, closing_append, hsingle]
  rfl

theorem closing_append_ne {a b : List Token} {t : Token} (ha : closing a ≠ some t) (hb : closing b ≠ some t) :
    closing (a ++ b) ≠ some t := by
  rw [closing_append, ne_eq, Option.or_eq_some_iff, not_or, not_and]
  exact ⟨hb, fun _ => ha⟩

theorem settled_append {a b : List Token} (ha : Settled a) (hb : Settled b) : Settled (a ++ b) := by
  intro t ht
  rw [closing_append, Option.or_eq_some_iff] at ht
  rcases ht with ht | ⟨-, ht⟩
  · exact hb t ht
  · exact ha t ht

theorem settled_of_forall {tokens : List Token} (h : ∀ t ∈ tokens, opensPage t = false) : Settled tokens :=
  fun t ht => h t (List.mem_of_mem_filter (List.mem_of_getLast? ht))

theorem settled_concat {t : Token} (ht : isArgument t = false) (ho : opensPage t = false) (tokens : List Token) :
    Settled (tokens ++ [t]) := by
  intro u hu
  rw [closing_clause ht tokens (by simp)] at hu
  obtain rfl : t = u := Option.some.inj hu
  exact ho

theorem settled_cons {t : Token} {tokens : List Token} (ho : opensPage t = false) (h : Settled tokens) :
    Settled (t :: tokens) :=
  settled_append (a := [t]) (settled_of_forall (by simpa using ho)) h

theorem settled_nil : Settled [] := settled_of_forall (by simp)

theorem settled_following {clause : List Token} (h : Settled clause) : Settled (following clause) := by
  rw [following]
  split
  · exact settled_nil
  · exact settled_cons (by decide) h

theorem opensPage_of_isArgument {t : Token} (h : isArgument t = true) : opensPage t = false := by
  cases t with
  | word text =>
    simp only [isArgument, List.contains_eq_mem, List.mem_cons, List.not_mem_nil, or_false, decide_eq_true_eq] at h
    rcases h with rfl | rfl | rfl | rfl | rfl | rfl <;> decide
  | _ => rfl

theorem settled_of_arguments {tokens : List Token} (h : tokens.all isArgument = true) : Settled tokens :=
  settled_of_forall fun t ht => opensPage_of_isArgument (List.all_eq_true.1 h t ht)

theorem settled_separated {separator : String} (hs : opensPage (word separator) = false) {parts : List (List Token)}
    (h : ∀ part ∈ parts, Settled part) : Settled (separated separator parts) :=
  Token.separated_induction settled_nil (fun ha hb => settled_append ha (settled_cons hs hb)) h

theorem settled_optionalClause {keyword : String} (hk : opensPage (word keyword) = false) (isEmpty : Bool)
    {body : List Token} (h : Settled body) : Settled (optionalClause keyword isEmpty body) := by
  cases isEmpty with
  | true => exact settled_nil
  | false => exact settled_cons hk h

theorem closing_following_ne {tokens clause : List Token} {t : Token} (hblank : t ≠ word " ")
    (ht : closing tokens ≠ some t) (hc : closing clause ≠ some t) : closing (tokens ++ following clause) ≠ some t := by
  refine closing_append_ne ht ?_
  rw [following]
  split
  · simp [closing]
  · refine closing_append_ne (a := [word " "]) ?_ hc
    intro h
    exact hblank (Option.some.inj h).symm

theorem closing_orderClause_ne {keys : List Token} (hkeys : keys.all isArgument = true) (isEmpty : Bool) {t : Token}
    (ht : t ≠ word "ORDER BY ") : closing (optionalClause "ORDER BY " isEmpty keys) ≠ some t := by
  cases isEmpty with
  | true => simp [optionalClause, closing]
  | false =>
    have hclosing : closing (word "ORDER BY " :: keys) = some (word "ORDER BY ") :=
      closing_clause (by decide) [] hkeys
    rw [optionalClause, if_neg Bool.false_ne_true, hclosing]
    exact fun h => ht (Option.some.inj h).symm

/-! ## Clauses read back -/

theorem rdropWhile_append_of_all {p : Token → Bool} (a : List Token) {b : List Token} (h : b.all p = true) :
    (a ++ b).rdropWhile p = a.rdropWhile p := by
  have hb : ∀ t ∈ b.reverse, p t = true := fun t ht => List.all_eq_true.1 h t (List.mem_reverse.1 ht)
  rw [List.rdropWhile, List.reverse_append, List.dropWhile_append_of_pos hb]
  rfl

theorem rtakeWhile_append_of_all {p : Token → Bool} (a : List Token) {b : List Token} (h : b.all p = true) :
    (a ++ b).rtakeWhile p = a.rtakeWhile p ++ b := by
  have hb : ∀ t ∈ b.reverse, p t = true := fun t ht => List.all_eq_true.1 h t (List.mem_reverse.1 ht)
  rw [List.rtakeWhile, List.reverse_append, List.takeWhile_append_of_pos hb, List.reverse_append, List.reverse_reverse]
  rfl

theorem lastClause?_append {keyword : String} (hk : isArgument (word keyword) = false) (before : List Token)
    {arguments : List Token} (h : arguments.all isArgument = true) :
    lastClause? keyword (before ++ word " " :: word keyword :: arguments) = some (before, arguments) := by
  have hsplit : before ++ word " " :: word keyword :: arguments = (before ++ [word " "]) ++ [word keyword] ++ arguments := by
    simp
  have hk' : ¬ isArgument (word keyword) = true := by simp [hk]
  have hdrop : (before ++ word " " :: word keyword :: arguments).rdropWhile isArgument =
      before ++ [word " ", word keyword] := by
    rw [hsplit, rdropWhile_append_of_all _ h, List.rdropWhile_concat_neg _ _ _ hk', List.append_assoc]
    rfl
  have htake : (before ++ word " " :: word keyword :: arguments).rtakeWhile isArgument = arguments := by
    rw [hsplit, rtakeWhile_append_of_all _ h, List.rtakeWhile_concat_neg _ _ _ hk', List.nil_append]
  have hsuffix : (before ++ [word " ", word keyword]).dropSuffix? [word " ", word keyword] = some before :=
    List.dropSuffix?_eq_some_iff.2 ⟨_, rfl, beq_self_eq_true _⟩
  rw [lastClause?, hdrop, hsuffix, htake]
  rfl

theorem lastClause?_eq_none {keyword : String} (hk : isArgument (word keyword) = false) {tokens : List Token}
    (h : closing tokens ≠ some (word keyword)) : lastClause? keyword tokens = none := by
  rw [lastClause?, Option.map_eq_none_iff, Option.eq_none_iff_forall_ne_some]
  intro before hbefore
  obtain ⟨suffix, hdrop, hsuffix⟩ := List.dropSuffix?_eq_some_iff.1 hbefore
  obtain rfl : suffix = [word " ", word keyword] := eq_of_beq hsuffix
  have harguments : (tokens.rtakeWhile isArgument).all isArgument = true :=
    List.all_eq_true.2 fun t ht => List.mem_rtakeWhile_imp ht
  refine h ?_
  rw [← List.rdropWhile_append_rtakeWhile (p := isArgument) (l := tokens), hdrop, List.append_cons, List.append_assoc,
    List.singleton_append]
  exact closing_clause hk _ harguments

theorem readCount_clause {keyword : String} (hk : isArgument (word keyword) = false) (tokens : List Token) (n : UInt64) :
    readCount keyword (tokens ++ following [word keyword, number n]) = (tokens, some n) := by
  rw [readCount, following_cons, lastClause?_append hk tokens (by rfl)]

theorem readCount_of_ne {keyword : String} (hk : isArgument (word keyword) = false) {tokens : List Token}
    (h : closing tokens ≠ some (word keyword)) : readCount keyword tokens = (tokens, none) := by
  rw [readCount, lastClause?_eq_none hk h]

theorem Settled.closing_ne {tokens : List Token} (h : Settled tokens) {keyword : String}
    (hk : opensPage (word keyword) = true) : closing tokens ≠ some (word keyword) := by
  intro hc
  rw [h _ hc] at hk
  cases hk

theorem readOrder_clause {tokens : List Token} (h : Settled tokens) {keys : List Token}
    (hkeys : keys.all isArgument = true) {isEmpty : Bool} (hempty : isEmpty = true → keys = []) :
    readOrder (tokens ++ following (optionalClause "ORDER BY " isEmpty keys)) = (tokens, keys) := by
  cases isEmpty with
  | true =>
    have hnone := lastClause?_eq_none (by decide) (h.closing_ne (by decide : opensPage (word "ORDER BY ") = true))
    rw [hempty rfl]
    simp only [optionalClause, following_nil, if_true, List.append_nil, readOrder, hnone]
  | false =>
    simp only [optionalClause, Bool.false_eq_true, if_false, following_cons, readOrder,
      lastClause?_append (by decide : isArgument (word "ORDER BY ") = false) tokens hkeys]

/-! ## Words read from the left -/

theorem ne_of_isArgument {t u : Token} (ht : isArgument t = true) (hu : isArgument u = false) : t ≠ u := by
  intro e
  rw [e, hu] at ht
  cases ht

theorem ne_of_mem_arguments {tokens : List Token} (h : tokens.all isArgument = true) {u : Token}
    (hu : isArgument u = false) : ∀ t ∈ tokens, t ≠ u := fun t ht => ne_of_isArgument (List.all_eq_true.1 h t ht) hu

theorem readDistinct_append (distinct : Bool) {rest : List Token} (h : rest.head? ≠ some (word "DISTINCT ")) :
    readDistinct ((if distinct then [word "DISTINCT "] else []) ++ rest) = (distinct, rest) := by
  cases distinct with
  | true => rfl
  | false =>
    rw [if_neg Bool.false_ne_true, List.nil_append]
    unfold readDistinct
    split
    · exact absurd rfl h
    · rfl

theorem splitAt?_append {text : String} {before : List Token} (h : ∀ t ∈ before, t ≠ word text) (after : List Token) :
    splitAt? text (before ++ word text :: after) = some (before, after) := by
  have hbefore : ∀ t ∈ before, decide (t ≠ word text) = true := fun t ht => decide_eq_true (h t ht)
  rw [splitAt?, List.dropWhile_append_of_pos hbefore, List.takeWhile_append_of_pos hbefore]
  simp

theorem splitAtLast?_append {text : String} {after : List Token} (h : ∀ t ∈ after, t ≠ word text)
    (before : List Token) : splitAtLast? text (before ++ word text :: after) = some (before, after) := by
  have hreverse : (before ++ word text :: after).reverse = after.reverse ++ word text :: before.reverse := by simp
  have hafter : ∀ t ∈ after.reverse, t ≠ word text := fun t ht => h t (List.mem_reverse.1 ht)
  rw [splitAtLast?, hreverse, splitAt?_append hafter]
  simp

end PagedSelect

end SqlMapper
