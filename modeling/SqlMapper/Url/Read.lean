import SqlMapper.Url.Basic
import SqlMapper.Url.Ipv6
import SqlMapper.Url.PercentEncode
/-!
# Read — texts as URLs

Reading drops blanks around the text and line breaks inside it, lowers the scheme, resolves dot segments and
percent-encodes what a part cannot hold.  Everything else is kept as it is written.
-/
namespace SqlMapper.Url

def isSchemeChar (c : Char) : Bool := c.isAlphanum || c == '+' || c == '-' || c == '.'

/-- The lower case scheme and the text after its colon. -/
def readScheme? : List Char → Option (List Char × List Char)
  | [] => none
  | c :: cs =>
    if c.isAlpha then
      match cs.dropWhile isSchemeChar with
      | ':' :: rest => some ((c :: cs.takeWhile isSchemeChar).map Char.toLower, rest)
      | _ => none
    else none

/-- The text before and after the first occurrence of a character. -/
def cut (c : Char) (cs : List Char) : List Char × Option (List Char) :=
  match cs.dropWhile (· != c) with
  | [] => (cs, none)
  | _ :: rest => (cs.takeWhile (· != c), some rest)

/-! ## Authority -/

/-- The text before and after the last `@`. -/
def splitCredentials? (cs : List Char) : Option (List Char × List Char) :=
  match cut '@' cs.reverse with
  | (_, none) => none
  | (after, some before) => some (before.reverse, after.reverse)

/-- The host and the text from the first colon outside brackets on. -/
def splitHost (inBrackets : Bool) : List Char → List Char × List Char
  | [] => ([], [])
  | c :: cs =>
    if c = ':' ∧ inBrackets = false then ([], c :: cs)
    else
      let (host, rest) := splitHost (if c = '[' then true else if c = ']' then false else inBrackets) cs
      (c :: host, rest)

def forbiddenInHost : List Char :=
  ['\x00', '\t', '\n', '\r', ' ', '#', '/', ':', '<', '>', '?', '@', '[', '\\', ']', '^', '|']

def readHost : List Char → Except Fault (List Char)
  | '[' :: rest =>
    if rest.getLast? = some ']' then
      match ipv6? rest.dropLast with
      | some groups => .ok ('[' :: ipv6Text groups ++ [']'])
      | none => .error .invalidAddress
    else .error .invalidAddress
  | cs => if cs.any forbiddenInHost.contains then .error .invalidHost else .ok (percentEncode [] cs)

/-- Reads digits up to 65535 after the number `n`; a backslash ends them. -/
def readPort (n : Nat) : List Char → Except Fault (Nat × List Char)
  | [] => .ok (n, [])
  | '\\' :: rest => .ok (n, '\\' :: rest)
  | c :: cs =>
    match digitValue? c with
    | some d => if n * 10 + d ≤ 65535 then readPort (n * 10 + d) cs else .error .invalidPort
    | none => .error .invalidPort

/-- The port after an optional colon, none for no digits, and the text that does not belong to it. -/
def readPort? (cs : List Char) : Except Fault (Option Nat × List Char) := do
  let afterColon := cs.drop 1
  let (n, rest) ← readPort 0 afterColon
  .ok (if rest.length = afterColon.length then none else some n, rest)

/-- Reads an authority, and the text after its port.  A user or a port needs a host; `more` tells whether anything
follows the authority. -/
def readAuthority (cs : List Char) (more : Bool) : Except Fault (Authority × List Char) := do
  let split := splitCredentials? cs
  let (credentials, place) := split.getD ([], cs)
  if split.isSome ∧ credentials = [] ∧ place = [] ∧ more then .error .emptyHost else
  let (name, secret) := cut ':' credentials
  let username := percentEncode credentialSet name
  let password := percentEncode credentialSet (secret.getD [])
  let (hostText, portText) := splitHost false place
  let host ← readHost hostText
  if host = [] ∧ portText ≠ [] then .error .emptyHost else
  let (port, rest) ← readPort? portText
  if host = [] ∧ (username ≠ [] ∨ password ≠ []) then .error .emptyHost else
  .ok (⟨username, password, host, port⟩, rest)

/-! ## Path -/

def isSingleDot (s : List Char) : Bool := String.ofList (s.map Char.toLower) ∈ [".", "%2e"]

def isDoubleDot (s : List Char) : Bool := String.ofList (s.map Char.toLower) ∈ ["..", ".%2e", "%2e.", "%2e%2e"]

/-- Whether a segment starts with a drive letter: a letter and a `:` or `|`, with nothing or a backslash after them. -/
def startsWithDrive : List Char → Bool
  | letter :: mark :: rest =>
    letter.isAlpha && (mark == ':' || mark == '|') && (rest.isEmpty || rest.head? == some '\\')
  | _ => false

/-- Removes the last of the segments, which stand in reverse.  One that starts with a drive letter stays. -/
def goUp : List (List Char) → List (List Char)
  | [] => []
  | s :: kept => if startsWithDrive s then s :: kept else kept

/-- Resolves dot segments; the segments kept so far stand in reverse. -/
def resolveDots (kept : List (List Char)) : List (List Char) → List (List Char)
  | [] => kept.reverse
  | [s] => (if isDoubleDot s then [] :: goUp kept else if isSingleDot s then [] :: kept else s :: kept).reverse
  | s :: rest => resolveDots (if isDoubleDot s then goUp kept else if isSingleDot s then kept else s :: kept) rest

/-- The rooted path of the text after its first slash. -/
def readRooted (cs : List Char) : Path :=
  .rooted (resolveDots [] ((splitWhere (· == '/') cs).map (percentEncode pathSet)))

/-- Reads authority and path of a text without query and fragment. -/
def readHierarchy (cs : List Char) (more : Bool) : Except Fault (Option Authority × Path) :=
  match cs with
  | '/' :: '/' :: rest => do
    let path := rest.dropWhile (· != '/')
    let (authority, afterPort) ← readAuthority (rest.takeWhile (· != '/')) (path ≠ [] || more)
    .ok (some authority, match afterPort ++ path with
      | [] => .rooted []
      | '/' :: segments => readRooted segments
      | segments => readRooted segments)
  | '/' :: segments => .ok (none, readRooted segments)
  | _ => .ok (none, .flat (percentEncode [] cs))

/-! ## URL -/

def isControlOrSpace (c : Char) : Bool := c.toNat ≤ 0x20

/-- The text without control characters and spaces at its ends and without tabs and line breaks. -/
def clean (cs : List Char) : List Char :=
  (((cs.dropWhile isControlOrSpace).reverse.dropWhile isControlOrSpace).reverse).filter fun c =>
    c != '\t' && c != '\n' && c != '\r'

def read (s : String) : Except Fault Url :=
  match readScheme? (clean s.toList) with
  | none => .error .noScheme
  | some (scheme, rest) => do
    let (beforeFragment, fragment) := cut '#' rest
    let (hierarchy, query) := cut '?' beforeFragment
    let (authority, path) ← readHierarchy hierarchy (query.isSome || fragment.isSome)
    .ok { scheme, authority, path, query := query.map (percentEncode querySet),
          fragment := fragment.map (percentEncode fragmentSet) }

end SqlMapper.Url
