import SqlMapper.Text.Alphanumeric
/-!
# Plural — English plurals

Whole words come first: irregular words and words without a plural.  Then the first rule that fits the end of the text
applies.  A rule keeps a stem, drops a tail after it and adds an ending, so a rule that changes nothing has no tail and
no ending.
-/
namespace SqlMapper.Plural

/-- Singular and plural of the irregular words. -/
def irregular : List (String × String) := [
  ("we", "we"), ("me", "us"), ("he", "they"), ("she", "they"), ("them", "them"), ("myself", "ourselves"),
  ("yourself", "yourselves"), ("itself", "themselves"), ("herself", "themselves"), ("himself", "themselves"),
  ("themself", "themselves"), ("is", "are"), ("was", "were"), ("has", "have"), ("this", "these"), ("that", "those"),
  ("my", "our"), ("its", "their"), ("his", "their"), ("her", "their"), ("echo", "echoes"), ("dingo", "dingoes"),
  ("volcano", "volcanoes"), ("tornado", "tornadoes"), ("torpedo", "torpedoes"), ("genus", "genera"),
  ("viscus", "viscera"), ("stigma", "stigmata"), ("stoma", "stomata"), ("dogma", "dogmata"), ("lemma", "lemmata"),
  ("schema", "schemata"), ("anathema", "anathemata"), ("ox", "oxen"), ("axe", "axes"), ("die", "dice"),
  ("yes", "yeses"), ("foot", "feet"), ("eave", "eaves"), ("goose", "geese"), ("tooth", "teeth"), ("quiz", "quizzes"),
  ("human", "humans"), ("proof", "proofs"), ("carve", "carves"), ("valve", "valves"), ("looey", "looies"),
  ("thief", "thieves"), ("groove", "grooves"), ("pickaxe", "pickaxes"), ("passerby", "passersby"),
  ("canvas", "canvases")]

def uncountable : List String := [
  "adulthood", "advice", "agenda", "aid", "aircraft", "alcohol", "ammo", "analytics", "anime", "athletics", "audio",
  "bison", "blood", "bream", "buffalo", "butter", "carp", "cash", "chassis", "chess", "clothing", "cod", "commerce",
  "cooperation", "corps", "debris", "diabetes", "digestion", "elk", "energy", "equipment", "excretion", "expertise",
  "firmware", "flounder", "fun", "gallows", "garbage", "graffiti", "hardware", "headquarters", "health", "herpes",
  "highjinks", "homework", "housework", "information", "jeans", "justice", "kudos", "labour", "literature",
  "machinery", "mackerel", "mail", "media", "mews", "moose", "music", "mud", "manga", "news", "only", "personnel",
  "pike", "plankton", "pliers", "police", "pollution", "premises", "rain", "research", "rice", "salmon", "scissors",
  "series", "sewage", "shambles", "shrimp", "software", "staff", "swine", "tennis", "traffic", "transportation",
  "trout", "tuna", "wealth", "welfare", "whiting", "wildebeest", "wildlife", "you"]

/-! ## Rules -/

inductive Letter where
  | is (c : Char)
  | among (cs : List Char)
  | outside (cs : List Char)
  | nonAscii
  deriving DecidableEq, Repr

/-- The long s counts as an s. -/
def foldLetter (c : Char) : Char := if c = 'ſ' then 's' else c

def Letter.accepts (c : Char) : Letter → Bool
  | .is d => foldLetter c == d
  | .among cs => cs.contains (foldLetter c)
  | .outside cs => !cs.contains (foldLetter c)
  | .nonAscii => 0x80 ≤ (foldLetter c).toNat

/-- What has to stand before the match of a rule. -/
inductive Edge where
  | anything
  | noWordCharacter
  | nothing
  deriving DecidableEq, Repr

/-- Letters and decimal digits up to version 16 of the character set, the underscore and the combining dot that lowering
a dotted capital i leaves. -/
def isWordCharacter (c : Char) : Bool :=
  !isNewest c && (isAlphabetic c || isDecimalDigit c || c == '_' || c.toNat == 0x307)

/-- Whether the edge allows a match after `before`, whose characters stand in reverse. -/
def Edge.allows (before : List Char) : Edge → Bool
  | .anything => true
  | .noWordCharacter => !before.head?.any isWordCharacter
  | .nothing => before.isEmpty

/-- Keeps a stem, drops a tail after it and adds the ending. -/
structure Rule where
  edge : Edge
  stems : List (List Letter)
  tails : List (List Letter)
  ending : String

/-- Removes a reversed pattern from the front of a reversed text. -/
def dropPattern : List Letter → List Char → Option (List Char)
  | [], cs => some cs
  | _ :: _, [] => none
  | p :: ps, c :: cs => if p.accepts c then dropPattern ps cs else none

/-- The reversed text without the rule's tail, if a stem stands before it. -/
def Rule.stripTail (r : Rule) (word : List Char) (tail : List Letter) : Option (List Char) :=
  (dropPattern tail.reverse word).bind fun body =>
    if r.stems.any fun stem => (dropPattern stem.reverse body).any (r.edge.allows ·) then some body else none

/-- The text that the rule makes of a word, if it fits. -/
def Rule.plural? (r : Rule) (word : List Char) : Option (List Char) :=
  (r.tails.findSome? (r.stripTail word.reverse)).map fun body => body.reverse ++ r.ending.toList

private def plain (s : String) : List Letter := s.toList.map .is

private def vowels : List Char := "aeiou".toList

private def unchanged (stems : List (List Letter)) : Rule := ⟨.anything, stems, [[]], ""⟩

private def change (stems tails : List String) (ending : String) : Rule :=
  ⟨.anything, stems.map plain, tails.map plain, ending⟩

/-- The rules in the order in which they are tried. -/
def rules : List Rule := [
  unchanged [plain "sheep"],
  unchanged [plain "pox"],
  unchanged [[.is 'o', .among ['i', 'u'], .is 's']],
  unchanged [plain "measles"],
  unchanged [plain "fish"],
  unchanged [plain "deer"],
  unchanged [.outside vowels :: plain "ese"],
  unchanged [plain "pok" ++ .among ['e', 'é'] :: plain "mon"],
  ⟨.nothing, [[]], [plain "thou"], "you"⟩,
  ⟨.anything, [[]], [[.is 'm', .among ['a', 'e'], .is 'n']], "men"⟩,
  unchanged [plain "eaux"],
  change ["child"] ["ren", ""] "ren",
  change ["pe"] ["rson", "ople"] "ople",
  ⟨.noWordCharacter, [plain "titm", plain "m", plain "l"], [plain "ice", plain "ouse"], "ice"⟩,
  change ["matr", "cod", "mur", "sil", "vert", "ind", "append"] ["ix", "ex"] "ices",
  change ["x", "ch", "ss", "sh", "zz"] [""] "es",
  ⟨.anything, [[.outside ['c', 'h'], .among ['i', 'e', 'o'], .among ['l', 'n']]], [plain "ey"], "ies"⟩,
  ⟨.anything, [[.outside ('y' :: vowels)], plain "qu"], [plain "y"], "ies"⟩,
  change ["kni", "wi", "li"] ["fe"] "ves",
  change ["ar", "l", "ea", "eo", "oa", "hoo"] ["f"] "ves",
  change [""] ["sis"] "ses",
  change ["apheli", "hyperbat", "periheli", "asyndet", "noumen", "phenomen", "criteri", "organ", "prolegomen", "hedr",
    "automat"] ["a", "on"] "a",
  change ["agend", "addend", "millenni", "dat", "extrem", "bacteri", "desiderat", "strat", "candelabr", "errat", "ov",
    "symposi", "curricul", "automat", "quor"] ["a", "um"] "a",
  change ["her", "at", "gr"] ["o"] "oes",
  change ["seraph", "cherub"] ["im", ""] "im",
  change ["alumn", "alg", "vertebr"] ["ae", "a"] "ae",
  change ["alumn", "syllab", "vir", "radi", "nucle", "fung", "cact", "stimul", "termin", "bacill", "foc", "uter",
    "loc", "strat"] ["us", "i"] "i",
  unchanged [.outside ['l'] :: plain "ias", .among vowels :: plain "las",
    .among ['e', 'j', 'z', 'r'] :: plain "as", .among ['i', 'u'] :: plain "am"],
  ⟨.anything, [[.is 'e', .among ['m', 'n'], .is 'u']], [plain "s", []], "s"⟩,
  ⟨.anything, [plain "alias", .outside ['a', 'o', 'u'] :: plain "us", .is 't' :: .among ['l', 'm'] :: plain "as",
    plain "gas", plain "ris"], [[]], "es"⟩,
  change ["ax", "test"] ["is"] "es",
  unchanged [.outside vowels :: plain "ese"],
  unchanged [[.nonAscii]],
  change [""] ["s", ""] "s"]

/-- The text after the first rule that fits. -/
def byRule (word : String) : String :=
  match rules.findSome? (·.plural? word.toList) with
  | some cs => String.ofList cs
  | none => word

end SqlMapper.Plural

namespace SqlMapper

/-- The plural of a lower case word or of a name whose last word is one. -/
def pluralize (word : String) : String :=
  if Plural.irregular.any (·.2 == word) then word
  else match Plural.irregular.find? (·.1 == word) with
    | some (_, plural) => plural
    | none => if word = "" ∨ word ∈ Plural.uncountable then word else Plural.byRule word

end SqlMapper
