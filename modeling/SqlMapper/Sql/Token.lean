import SqlMapper.Sql.Dialect
import SqlMapper.Text.Split
import SqlMapper.Value
/-!
# Token — pieces of a statement

A statement reads as a list of tokens: fixed words, fragments of raw SQL, identifiers, row counts and bound values.
Layout is their text from the left, with every bound value numbered where it stands.  That this is what is written,
clause by clause, is a property of the writer.
-/
namespace SqlMapper

inductive Token where
  /-- Words and punctuation of the grammar, with the blanks around them. -/
  | word (text : String)
  | raw (sql : String)
  /-- One quoted segment of a name. -/
  | ident (segment : String)
  | number (n : UInt64)
  | bound (v : Value)
  deriving DecidableEq, Repr

namespace Token

/-- A segment in quotes, where a closing quote is written twice. -/
def quoted (openQuote closeQuote : Char) (segment : List Char) : List Char :=
  openQuote :: segment.flatMap (fun c => if c = closeQuote then [c, c] else [c]) ++ [closeQuote]

/-- The placeholder of the value at a position, counted from one. -/
def placeholder (d : Dialect) (position : Nat) : List Char :=
  match d with
  | .generic | .mysql => ['?']
  | .postgresql => '$' :: digits position
  | .sqlite => '?' :: digits position
  | .sqlServer => '@' :: 'P' :: digits position

/-- The value that is bound: a timestamp travels as text. -/
def binding (d : Dialect) : Value → Value
  | .timestamp t => .text (String.ofList (d.timestampText t))
  | v => v

theorem binding_of_not_timestamp {d : Dialect} {v : Value} (h : v.asTimestamp? = none) : binding d v = v := by
  cases v with
  | timestamp t => cases h
  | _ => rfl

theorem asTimestamp?_binding (d : Dialect) (v : Value) : (binding d v).asTimestamp? = none := by cases v <;> rfl

theorem binding_binding (d : Dialect) (v : Value) : binding d (binding d v) = binding d v :=
  binding_of_not_timestamp (asTimestamp?_binding d v)

theorem binding_ne_null {d : Dialect} {v : Value} : binding d v ≠ .null ↔ v ≠ .null := by
  cases v <;> simp [binding]

/-- The text of tokens after `before` bound values. -/
def layout (d : Dialect) (before : Nat) : List Token → List Char
  | [] => []
  | word text :: rest => text.toList ++ layout d before rest
  | raw sql :: rest => sql.toList ++ layout d before rest
  | ident segment :: rest => quoted d.openQuote d.closeQuote segment.toList ++ layout d before rest
  | number n :: rest => digits n.toNat ++ layout d before rest
  | bound _ :: rest => placeholder d (before + 1) ++ layout d (before + 1) rest

def bindings (d : Dialect) (tokens : List Token) : List Value :=
  tokens.filterMap fun
    | bound v => some (binding d v)
    | _ => none

/-! ## Lists of tokens -/

/-- The parts with a separator between them. -/
def separated (separator : String) (parts : List (List Token)) : List Token :=
  List.intercalate [word separator] parts

theorem separated_cons_cons (separator : String) (p q : List Token) (parts : List (List Token)) :
    separated separator (p :: q :: parts) = p ++ word separator :: separated separator (q :: parts) := by
  simp [separated, List.intercalate, List.intersperse]

/-- What holds of the parts holds of all of them together, if it is kept when two lists are joined at a separator. -/
theorem separated_induction {P : List Token → Prop} {separator : String} (hnil : P [])
    (hjoin : ∀ {a b}, P a → P b → P (a ++ word separator :: b)) :
    ∀ {parts : List (List Token)}, (∀ part ∈ parts, P part) → P (separated separator parts)
  | [], _ => hnil
  | [part], h => by simpa [separated, List.intercalate] using h part (by simp)
  | part :: next :: parts, h => by
    have ih := separated_induction hnil hjoin fun r hr => h r (List.mem_cons_of_mem _ hr)
    rw [separated_cons_cons]
    exact hjoin (h part List.mem_cons_self) ih

/-- The parts that are not empty, with blanks between them. -/
def clauses (parts : List (List Token)) : List Token := separated " " (parts.filter (· ≠ []))

/-- One segment of a name; the wildcard is written bare. -/
def segment (s : String) : Token := if s = "*" then word "*" else ident s

/-- A name that may be qualified; each segment is quoted by itself. -/
def name (s : String) : List Token := separated "." ((splitAtChar '.' s).map fun part => [segment part])

end Token

end SqlMapper
