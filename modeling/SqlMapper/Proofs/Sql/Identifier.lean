import SqlMapper.Proofs.Sql.Reader
/-!
# Identifier — names that cannot be broken out of

A segment of a name stands between quotes and its own closing quotes are doubled, so a reader that stops at the first
one that is not doubled gets the segment back, whatever it holds (`Reader.reads_identifier`).  A name is read back
segment by segment, as it was split at its dots, and names that are written alike are equal
(`Token.identifiers_read_back`).
-/
namespace SqlMapper

open Lexeme (Ends readQuoted)
open Token (layout)

theorem splitAtChar_injective (separator : Char) : Function.Injective (splitAtChar separator) := by
  intro s s' h
  have hparts := List.map_injective_iff.2 (fun _ _ => String.ofList_inj.1) h
  rw [← String.toList_inj, ← intercalate_splitWhere separator s.toList, ← intercalate_splitWhere separator s'.toList,
    hparts]

theorem splitAtChar_ne_nil (separator : Char) (s : String) : splitAtChar separator s ≠ [] :=
  mt List.map_eq_nil_iff.1 (splitWhere_ne_nil _ s.toList)

namespace Reader

/-! ## Readers -/

/-- A segment in the quotes of the dialect. -/
def identifier (d : Dialect) : Reader (List Char) := do
  expect (String.ofList [d.openQuote])
  readQuoted d.closeQuote

/-- A segment of a name: the wildcard, or an identifier. -/
def segment (d : Dialect) : Reader (List Char) := (do expect "*"; return ['*']) <|> identifier d

/-- The segments of a name, between dots. -/
def name (d : Dialect) : Reader (List (List Char)) := listed "." (segment d)

/-! ## Reading back -/

variable (d : Dialect)

theorem reads_identifier (s : List Char) :
    (identifier d).Reads (Token.quoted d.openQuote d.closeQuote s) s (Ends (· = d.closeQuote)) := by
  have hquoted : Token.quoted d.openQuote d.closeQuote s = (String.ofList [d.openQuote]).toList ++
      (s.flatMap (fun c => if c = d.closeQuote then [c, c] else [c]) ++ [d.closeQuote]) := by
    rw [String.toList_ofList]
    rfl
  rw [hquoted]
  refine (reads_expect _ fun _ => True).bind (fun after ha => ?_) fun _ _ => trivial
  rw [List.append_assoc]
  exact Lexeme.readQuoted_append d.closeQuote after ha s

theorem without_star_quoted (s after : List Char) :
    Without "*" (Token.quoted d.openQuote d.closeQuote s ++ after) := by
  rintro ⟨rest, h⟩
  obtain ⟨hc, -⟩ := List.cons.inj h
  cases d <;> cases hc

theorem reads_segment (before : Nat) (s : String) :
    (segment d).Reads (layout d before [Token.segment s]) s.toList (Ends (· = d.closeQuote)) := by
  by_cases hs : s = "*"
  · subst hs
    exact ((reads_expect "*" _).map fun _ => ['*']).orElse_left _
  · rw [Token.segment, if_neg hs, layout, layout, List.append_nil]
    exact Reads.orElse (fun after _ => word_eq_none (without_star_quoted d s.toList after))
      (reads_identifier d s.toList)

/-- A name is read back where neither a dot nor a closing quote follows. -/
theorem reads_name (before : Nat) (s : String) :
    (name d).Reads (layout d before (Token.name s)) ((splitAtChar '.' s).map String.toList)
      (Ends fun c => c = '.' ∨ c = d.closeQuote) := by
  have hdot : ∀ after, Ends (· = d.closeQuote) (".".toList ++ after) :=
    Lexeme.ends_append rfl (by cases d <;> decide)
  have h := reads_separated_unbound d "." (by decide) before (splitAtChar_ne_nil '.' s)
    (fun part _ => bindings_segment d part []) (fun part _ n => reads_segment d n part) hdot
  refine h.weaken fun after ha => ⟨fun c rest hr hc => ha c rest hr (.inr hc), ?_⟩
  rintro ⟨rest, rfl⟩
  exact ha '.' rest rfl (.inl rfl)

end Reader

/-! ## Names cannot be confused -/

namespace Token

variable (d : Dialect)

theorem length_lt_length_quoted (s : List Char) : s.length < (quoted d.openQuote d.closeQuote s).length := by
  have hdoubled : s.length ≤ (s.flatMap fun c => if c = d.closeQuote then [c, c] else [c]).length := by
    induction s with
    | nil => exact Nat.le_refl 0
    | cons c s ih =>
      rw [List.flatMap_cons, List.length_append, List.length_cons]
      split <;> simp only [List.length_cons, List.length_nil] <;> omega
  simp only [quoted, List.length_append, List.length_cons]
  omega

/-- Only the wildcard is written bare. -/
theorem layout_segment_eq_iff (before : Nat) (s : String) : layout d before [segment s] = s.toList ↔ s = "*" := by
  refine ⟨fun h => by_contra fun hs => ?_, fun h => by rw [h]; rfl⟩
  rw [segment, if_neg hs, layout, layout, List.append_nil] at h
  exact absurd (congrArg List.length h) (length_lt_length_quoted d s.toList).ne'

/-- Different names are never written alike. -/
theorem layout_name_injective (before : Nat) :
    Function.Injective fun s => String.ofList (layout d before (name s)) := by
  intro s s' h
  have hnone : Ends (fun c => c = '.' ∨ c = d.closeQuote) [] := fun _ _ he => by cases he
  have hs := Reader.reads_name d before s [] hnone
  rw [String.ofList_inj.1 h, Reader.reads_name d before s' [] hnone] at hs
  have hparts := List.map_injective_iff.2 (fun _ _ => String.toList_inj.1) (Prod.mk.inj (Option.some.inj hs)).1
  exact (splitAtChar_injective '.' hparts).symm

/-- **Identifiers are read back, and nothing breaks out of them.**  In every dialect and behind any number of values,
one identifier is read from a segment other than the wildcard, whatever the segment holds, as long as what follows does
not start with a closing quote: it is the segment, and what follows is left.  Only the wildcard is written bare.  A name
is read back as the segments between its dots, so different names are never written alike. -/
theorem identifiers_read_back (before : Nat) :
    (∀ (s : String) (after : List Char), s ≠ "*" → Ends (· = d.closeQuote) after →
        Reader.identifier d (layout d before [segment s] ++ after) = some (s.toList, after)) ∧
      (∀ s : String, layout d before [segment s] = s.toList ↔ s = "*") ∧
      (∀ (s : String) (after : List Char), (Ends fun c => c = '.' ∨ c = d.closeQuote) after →
        Reader.name d (layout d before (name s) ++ after) = some ((splitAtChar '.' s).map String.toList, after)) ∧
      Function.Injective fun s => String.ofList (layout d before (name s)) := by
  refine ⟨fun s after hs hafter => ?_, layout_segment_eq_iff d before, fun s => Reader.reads_name d before s,
    layout_name_injective d before⟩
  rw [segment, if_neg hs, layout, layout, List.append_nil]
  exact Reader.reads_identifier d s.toList after hafter

end Token

/-- Quotes at the start, at the end and beside a dot, empty segments and a wildcard. -/
theorem identifiers_read_back_bracketed :
    ("]].[a]" ≠ "*" ∧ Ends (· = ']') ".[b]".toList) ∧
      layout .sqlServer 0 [Token.segment "]].[a]"] = "[]]]].[a]]]".toList ∧
      Reader.identifier .sqlServer ("[]]]].[a]]]".toList ++ ".[b]".toList) = some ("]].[a]".toList, ".[b]".toList) ∧
      Reader.name .sqlServer (layout .sqlServer 0 (Token.name "].[..*") ++ " ASC".toList) =
        some (["]".toList, "[".toList, [], "*".toList], " ASC".toList) := by
  have hs : "]].[a]" ≠ "*" := by decide
  have hafter : Ends (· = ']') ".[b]".toList := by
    intro c rest h
    obtain ⟨rfl, -⟩ := List.cons.inj h
    decide
  have hname : (Ends fun c => c = '.' ∨ c = Dialect.sqlServer.closeQuote) " ASC".toList := by
    intro c rest h
    obtain ⟨rfl, -⟩ := List.cons.inj h
    decide
  obtain ⟨hidentifier, -, hread, -⟩ := Token.identifiers_read_back .sqlServer 0
  have hwritten : layout .sqlServer 0 [Token.segment "]].[a]"] = "[]]]].[a]]]".toList := by decide +kernel
  refine ⟨⟨hs, hafter⟩, hwritten, ?_, hread "].[..*" " ASC".toList hname⟩
  rw [← hwritten]
  exact hidentifier "]].[a]" ".[b]".toList hs hafter

end SqlMapper
