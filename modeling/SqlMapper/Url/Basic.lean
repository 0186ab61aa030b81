import SqlMapper.Text.Numeral
/-!
# Url — URLs without a special scheme

A URL is a scheme, an optional authority, a path and an optional query and fragment.  A path is flat, a text without
structure, or rooted, a list of segments that starts at a slash.
-/
namespace SqlMapper

namespace Url

inductive Fault where
  | noScheme
  | emptyHost
  | invalidHost
  | invalidAddress
  | invalidPort
  deriving DecidableEq, Repr

def Fault.message : Fault → String
  | .noScheme => "relative URL without a base"
  | .emptyHost => "empty host"
  | .invalidHost => "invalid domain character"
  | .invalidAddress => "invalid IPv6 address"
  | .invalidPort => "invalid port number"

structure Authority where
  username : List Char
  password : List Char
  host : List Char
  port : Option Nat
  deriving DecidableEq, Repr

inductive Path where
  | flat (text : List Char)
  | rooted (segments : List (List Char))
  deriving DecidableEq, Repr

end Url

structure Url where
  scheme : List Char
  authority : Option Url.Authority
  path : Url.Path
  query : Option (List Char)
  fragment : Option (List Char)
  deriving DecidableEq, Repr

namespace Url

/-! ## Text -/

def Authority.credentials (a : Authority) : List Char :=
  if a.username = [] ∧ a.password = [] then []
  else a.username ++ (if a.password = [] then [] else ':' :: a.password) ++ ['@']

def Authority.text (a : Authority) : List Char :=
  a.credentials ++ a.host ++ match a.port with
    | some p => ':' :: digits p
    | none => []

def Path.text : Path → List Char
  | flat text => text
  | rooted segments => segments.flatMap ('/' :: ·)

/-- A path that starts with an empty segment would read as an authority, so a dot segment stands before it. -/
def text (u : Url) : List Char :=
  let path := u.path.text
  u.scheme ++ ':' ::
    (match u.authority with
      | some a => '/' :: '/' :: a.text
      | none => if path.take 2 = ['/', '/'] then ['/', '.'] else []) ++
    path ++
    (match u.query with | some q => '?' :: q | none => []) ++
    match u.fragment with | some f => '#' :: f | none => []

end Url

end SqlMapper
