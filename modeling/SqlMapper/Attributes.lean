import SqlMapper.Assoc
import SqlMapper.Value
/-!
# Attributes — the columns of a row

Named values in insertion order, each name once.  Two attribute lists hold the same when they give every name the same
value, whatever their order.
-/
namespace SqlMapper

structure Attributes where
  entries : List (String × Value)
  nodup : (Assoc.names entries).Nodup
  deriving DecidableEq, Repr

/-- A row of a query's result: column name to value, in select order. -/
abbrev Row := Attributes

namespace Attributes

def empty : Attributes := ⟨[], by simp [Assoc.names]⟩

instance : Inhabited Attributes := ⟨empty⟩

def names (a : Attributes) : List String := Assoc.names a.entries

def values (a : Attributes) : List Value := a.entries.map Prod.snd

def get? (a : Attributes) (name : String) : Option Value := Assoc.get? a.entries name

def contains (a : Attributes) (name : String) : Bool := (a.get? name).isSome

/-- Sets a name; one that is there keeps its place. -/
def insert (a : Attributes) (name : String) (value : Value) : Attributes :=
  ⟨Assoc.insert name value a.entries, Assoc.nodup_names_insert name value a.nodup⟩

def erase (a : Attributes) (name : String) : Attributes :=
  ⟨Assoc.erase name a.entries, Assoc.nodup_names_filter _ a.nodup⟩

def filter (p : String → Value → Bool) (a : Attributes) : Attributes :=
  ⟨a.entries.filter fun (name, value) => p name value, Assoc.nodup_names_filter _ a.nodup⟩

def insertAll (a : Attributes) (pairs : List (String × Value)) : Attributes :=
  pairs.foldl (fun a (name, value) => a.insert name value) a

/-- A repeated name keeps its first place and its last value. -/
def ofList (pairs : List (String × Value)) : Attributes := empty.insertAll pairs

/-- Both give every name the same value. -/
def sameAs (a b : Attributes) : Bool :=
  a.entries.length == b.entries.length && a.entries.all fun (name, value) => b.get? name == some value

/-- The attributes that `b` lacks or gives another value. -/
def changedFrom (a b : Attributes) : Attributes := a.filter fun name value => b.get? name != some value

theorem get?_insert (a : Attributes) (name other : String) (value : Value) :
    (a.insert name value).get? other = if name = other then some value else a.get? other :=
  Assoc.get?_insert name other value a.entries

theorem get?_erase (a : Attributes) (name other : String) :
    (a.erase name).get? other = if name = other then none else a.get? other :=
  Assoc.get?_erase name other a.entries

theorem names_insert (a : Attributes) (name : String) (value : Value) :
    (a.insert name value).names = if name ∈ a.names then a.names else a.names ++ [name] :=
  Assoc.names_insert name value a.entries

end Attributes

end SqlMapper
