/-
# The update queue

Updates wait under an identifier, of a frame or of a batch, in the order in
which they were staged. Each carries the frame that it is meant for. No
identifier has an empty list: where nothing waits there is no entry.

Key definitions:
* `Pending`, `Queue.under`, `Queue.push`, `Queue.extend`, `Queue.take`, `Queue.restore`.
-/
import FrameFlow.Command

namespace FrameFlow

/-- An update and the frame that it is meant for. -/
structure Pending where
  frame : Int
  update : Update
deriving DecidableEq

/-- What waits under each identifier. -/
structure Queue where
  entries : Table Int (List Pending)
deriving DecidableEq

namespace Queue

/-- Nothing waits. -/
def empty : Queue := ⟨.empty⟩

/-- What waits under an identifier. -/
def under (q : Queue) (id : Int) : List Pending := (q.entries.get? id).getD []

/-- How many updates wait under an identifier. -/
def count (q : Queue) (id : Int) : Nat := (q.under id).length

/-- Whether anything waits under an identifier. -/
def has (q : Queue) (id : Int) : Bool := 0 < q.count id

/-- Writes what waits under an identifier. -/
def put (q : Queue) (id : Int) : List Pending → Queue
  | [] => ⟨q.entries.erase id⟩
  | p :: ps => ⟨q.entries.set id (p :: ps)⟩

/-- Stages updates behind those that wait under an identifier. -/
def extend (q : Queue) (id : Int) (ps : List Pending) : Queue := q.put id (q.under id ++ ps)

/-- Stages an update. -/
def push (q : Queue) (id : Int) (p : Pending) : Queue := q.extend id [p]

/-- Takes everything that waits under an identifier. -/
def take (q : Queue) (id : Int) : Option (List Pending) × Queue :=
  match q.under id with
  | [] => (none, q)
  | p :: ps => (some (p :: ps), q.put id [])

/-- Puts updates back before those that were staged since they were taken. -/
def restore (q : Queue) (id : Int) (ps : List Pending) : Queue := q.put id (ps ++ q.under id)

/-- Drops everything that waits under an identifier, and tells whether there was anything. -/
def clear (q : Queue) (id : Int) : Bool × Queue := (q.has id, q.put id [])

end Queue
end FrameFlow
