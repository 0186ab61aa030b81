import SqlMapper.Session.Operation
import SqlMapper.Error
/-!
# Script — a connection that answers from a list

Every operation takes the next answer, whatever it asks for.  Once the list is used up, queries have no rows, writes
affect one row, and inserts that ask for a key get the numbers from one upwards.
-/
namespace SqlMapper

inductive Reply where
  | answer (response : Response)
  /-- The driver fails with a message and the messages of the failures behind it. -/
  | fail (message : String) (behind : List String)

structure Script where
  replies : List Reply
  generated : Nat

namespace Script

/-- The answer once the list is used up. -/
def fallback (s : Script) : Operation → Response × Script
  | .query _ => (⟨.rows [], none⟩, s)
  | .exec _ true =>
    (⟨.count 1, some (.int (.ofNat (s.generated + 1)))⟩, { s with generated := s.generated + 1 })
  | .exec _ false => (⟨.count 1, none⟩, s)
  | .begin | .commit | .rollback => (⟨.count 0, none⟩, s)

def exec (op : Operation) (s : Script) : Except Error Response × Script :=
  match s.replies with
  | [] =>
    let (response, s) := s.fallback op
    (.ok response, s)
  | .answer response :: rest => (.ok response, { s with replies := rest })
  | .fail message behind :: rest => (.error (.ofCause (.driver message behind)), { s with replies := rest })

end Script

end SqlMapper
