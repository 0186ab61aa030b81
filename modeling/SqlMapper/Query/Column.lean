import SqlMapper.Text.Blank
/-!
# Column — references to columns and tables

A name may be qualified with dots and may end in the wildcard `*`.  A text with a separator ` as ` in any letter case
reads as a name with an alias.
-/
namespace SqlMapper

inductive Column where
  | name (name : String)
  | aliased (name shownAs : String)
  /-- Written into the statement as it stands. -/
  | raw (sql : String)
  deriving DecidableEq, Repr

namespace Column

def isRaw : Column → Bool
  | raw _ => true
  | _ => false

/-- Whether a text starts with the separator ` as `. -/
def startsWithAs : List Char → Bool
  | ' ' :: a :: s :: ' ' :: _ => (a == 'a' || a == 'A') && (s == 's' || s == 'S')
  | _ => false

/-- What stands before and after the first separator ` as `. -/
def splitAs? : List Char → Option (List Char × List Char)
  | [] => none
  | c :: cs =>
    if startsWithAs (c :: cs) then some ([], cs.drop 3)
    else (splitAs? cs).map fun (before, after) => (c :: before, after)

/-- Reads a name or a name with an alias; outer blanks are dropped. -/
def parse (text : String) : Column :=
  match splitAs? text.toList with
  | some (n, a) => aliased (String.ofList (trimChars n)) (String.ofList (trimChars a))
  | none => name (trim text)

instance : Coe String Column := ⟨parse⟩

end Column

end SqlMapper
