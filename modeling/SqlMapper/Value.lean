import SqlMapper.Number.Shortest
import SqlMapper.Timestamp.Basic
/-!
# Value — scalars of rows and statements

A value is stored in an attribute or bound to a statement.  Values of different kinds are never equal, and doubles are
equal by their bits.
-/
namespace SqlMapper

inductive Value where
  | null
  | bool (b : Bool)
  | int (n : Int64)
  | double (x : Double)
  | text (s : String)
  | bytes (bs : List UInt8)
  | timestamp (t : Timestamp)
  deriving DecidableEq, Repr

namespace Value

instance : Inhabited Value := ⟨null⟩

def isNull : Value → Bool
  | null => true
  | _ => false

theorem isNull_eq_false {v : Value} (h : v ≠ null) : v.isNull = false := by
  cases v with
  | null => exact absurd rfl h
  | _ => rfl

/-- The kind of a value as error messages name it. -/
def kindName : Value → String
  | null => "Null"
  | bool _ => "Bool"
  | int _ => "I64"
  | double _ => "F64"
  | text _ => "String"
  | bytes _ => "Bytes"
  | timestamp _ => "Timestamp"

/-! ## Views -/

/-- A truth value; an integer is true unless it is zero. -/
def asBool? : Value → Option Bool
  | bool b => some b
  | int n => some (n != 0)
  | _ => none

def asInt? : Value → Option Int64
  | int n => some n
  | _ => none

/-- A double; an integer is rounded to the nearest one. -/
def asDouble? : Value → Option Double
  | double x => some x
  | int n => some (.ofInt64 n)
  | _ => none

def asText? : Value → Option String
  | text s => some s
  | _ => none

def asTimestamp? : Value → Option Timestamp
  | timestamp t => some t
  | _ => none

theorem eq_timestamp_of_asTimestamp? {v : Value} {t : Timestamp} (h : v.asTimestamp? = some t) : v = timestamp t := by
  cases v with
  | timestamp t' =>
    cases h
    rfl
  | _ => cases h

/-! ## From numbers -/

/-- A natural number, at most the largest 64-bit integer. -/
def ofNat (n : Nat) : Value := int (.ofInt (min n Int64.maxValue.toInt))

def ofSingleBits (bits : UInt32) : Value := double (.ofSingleBits bits)

/-- The value of an optional one, null for none. -/
def ofOption (value : Option Value) : Value := value.getD null

/-! ## Text -/

def describe : Value → String
  | null => "NULL"
  | bool b => if b then "true" else "false"
  | int n => String.ofList (signedDigits n.toInt)
  | double x => String.ofList x.text
  | text s => s
  | bytes bs => "[" ++ String.intercalate ", " (bs.map fun b => String.ofList (digits b.toNat)) ++ "]"
  | timestamp t => String.ofList t.text

/-- The values without repetitions, each at its first place. -/
def distinct : List Value → List Value
  | [] => []
  | v :: vs => v :: (distinct vs).filter (· ≠ v)

theorem mem_distinct (v : Value) : ∀ vs : List Value, v ∈ distinct vs ↔ v ∈ vs
  | [] => by simp [distinct]
  | w :: vs => by
    by_cases h : v = w <;> simp [distinct, h, mem_distinct v vs]

theorem nodup_distinct : ∀ vs : List Value, (distinct vs).Nodup
  | [] => by simp [distinct]
  | v :: vs => by
    simp only [distinct, List.nodup_cons, List.mem_filter, decide_eq_true_eq, ne_eq, not_true, and_false,
      not_false_eq_true, true_and]
    exact (nodup_distinct vs).filter _

end Value

end SqlMapper
