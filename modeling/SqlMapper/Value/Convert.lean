import SqlMapper.Error
/-!
# Convert — values as integers and texts

A text is read as an integer and an integer is written as a text; every other conversion is refused.
-/
namespace SqlMapper.Value

def toInt64 (v : Value) : Except Error Int64 :=
  match v with
  | int n => .ok n
  | text s => (readInt64 s.toList).mapError fun _ => Cause.conversion v "i64"
  | _ => .error (Cause.conversion v "i64")

def toText (v : Value) : Except Error String :=
  match v with
  | text s => .ok s
  | int n => .ok (String.ofList (signedDigits n.toInt))
  | _ => .error (Cause.conversion v "String")

end SqlMapper.Value
