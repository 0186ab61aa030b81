import SqlMapper.Text.Alphanumeric
import SqlMapper.Text.LetterCase
import SqlMapper.Text.Split
/-!
# SnakeCase — words of a name

A name is cut at every character that is not alphanumeric.  Each piece is then cut where its letter case changes: after
a lower case letter before an upper case one, and before the last of several upper case letters that a lower case one
follows.  Characters without case, such as digits, never start a word.
-/
namespace SqlMapper

/-- The case of the last cased character of the word being read. -/
inductive WordCase where
  | start
  | lower
  | upper
  deriving DecidableEq, Repr

def WordCase.after (state : WordCase) (c : Char) : WordCase :=
  if isLowercase c then .lower else if isUppercase c then .upper else state

/-- The words of a piece, where `word` holds the characters of the open word, last one first. -/
def caseWords (state : WordCase) (word : List Char) : List Char → List (List Char)
  | [] => [word.reverse]
  | [c] => [(c :: word).reverse]
  | c :: next :: rest =>
    if state.after c = .lower ∧ isUppercase next then
      (c :: word).reverse :: caseWords .start [] (next :: rest)
    else if state = .upper ∧ isUppercase c ∧ isLowercase next then
      word.reverse :: caseWords .start [c] (next :: rest)
    else
      caseWords (state.after c) (c :: word) (next :: rest)

/-- The lower case of a word, where a final capital sigma takes its final form. -/
def lowerWord : List Char → List Char
  | [] => []
  | ['Σ'] => ['ς']
  | c :: cs => lowerChars c ++ lowerWord cs

def nameWords (name : String) : List (List Char) :=
  ((splitWhere (fun c => !isAlphanumeric c) name.toList).filter (· ≠ [])).flatMap (caseWords .start [])

/-- The lower case words joined by underscores. -/
def snakeCase (name : String) : String :=
  String.ofList (List.intercalate ['_'] ((nameWords name).map lowerWord))

end SqlMapper
