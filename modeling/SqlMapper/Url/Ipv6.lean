import SqlMapper.Text.Numeral
import SqlMapper.Text.Split
/-!
# Ipv6 — addresses in square brackets

Eight groups of sixteen bits.  A double colon stands for one or more groups of zero, and the last two groups may be
written as an IPv4 address.  The canonical text shortens the longest run of zeros.
-/
namespace SqlMapper.Url

def hexValue? (c : Char) : Option Nat :=
  if c.isDigit then some (c.toNat - 48)
  else if 'a' ≤ c ∧ c ≤ 'f' then some (c.toNat - 87)
  else if 'A' ≤ c ∧ c ≤ 'F' then some (c.toNat - 55)
  else none

def group? (cs : List Char) : Option Nat :=
  if cs = [] ∨ 4 < cs.length then none
  else cs.foldlM (fun n c => (hexValue? c).map (n * 16 + ·)) 0

/-- A decimal number up to 255 without leading zeros. -/
def byte? (cs : List Char) : Option Nat :=
  if cs = [] ∨ 3 < cs.length ∨ (1 < cs.length ∧ cs.head? = some '0') then none
  else (cs.foldlM (fun n c => (digitValue? c).map (n * 10 + ·)) 0).filter (· ≤ 255)

/-- The two groups of an IPv4 address. -/
def ipv4Groups? (cs : List Char) : Option (List Nat) := do
  match ← (splitWhere (· == '.') cs).mapM byte? with
  | [a, b, c, d] => some [a * 256 + b, c * 256 + d]
  | _ => none

/-- Groups between colons, the last of which may be an IPv4 address. -/
def groups? : List (List Char) → Option (List Nat)
  | [] => some []
  | [last] => if last.contains '.' then ipv4Groups? last else (group? last).map fun g => [g]
  | first :: rest => do some ((← group? first) :: (← groups? rest))

/-- Groups of a text that may be empty. -/
def groupsOf? (cs : List Char) : Option (List Nat) := if cs = [] then some [] else groups? (splitWhere (· == ':') cs)

/-- The text before and after the first double colon. -/
def splitDoubleColon? : List Char → Option (List Char × List Char)
  | [] => none
  | ':' :: ':' :: rest => some ([], rest)
  | c :: rest => (splitDoubleColon? rest).map fun (before, after) => (c :: before, after)

def ipv6? (cs : List Char) : Option (List Nat) :=
  match splitDoubleColon? cs with
  | none => (groupsOf? cs).filter (·.length = 8)
  | some (before, after) => do
    if before.contains '.' then none else
    let front ← groupsOf? before
    let back ← groupsOf? after
    if front.length + back.length ≤ 7 then
      some (front ++ List.replicate (8 - front.length - back.length) 0 ++ back)
    else none

/-- Length of the run of zeros at the front. -/
def zeroRun (groups : List Nat) : Nat := (groups.takeWhile (· == 0)).length

/-- Start and length of the first longest run of zeros, if it has two groups or more. -/
def longestZeroRun? (groups : List Nat) : Option (Nat × Nat) :=
  let runs := (List.range groups.length).map fun i => (i, zeroRun (groups.drop i))
  (runs.foldl (fun best (i, n) => if best.2 < n then (i, n) else best) (0, 1)) |> fun best =>
    if 1 < best.2 then some best else none

def groupList (groups : List Nat) : List Char := List.intercalate [':'] (groups.map (Nat.toDigits 16))

def ipv6Text (groups : List Nat) : List Char :=
  match longestZeroRun? groups with
  | none => groupList groups
  | some (start, n) => groupList (groups.take start) ++ ':' :: ':' :: groupList (groups.drop (start + n))

end SqlMapper.Url
