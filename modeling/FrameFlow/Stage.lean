/-
# Stages

A stage of the graph has a name and holds either single frames or batches. What
is resident in it is kept as a set of identifiers in increasing order, which is
the order in which they were handed out.

Key definitions:
* `Payload`, `Stage`.
-/
import FrameFlow.Sorted
import FrameFlow.Json.Format

namespace FrameFlow

open Json

/-- What a stage may hold. -/
inductive Payload where
  | frame
  | batch
deriving DecidableEq, Repr, Inhabited

namespace Payload

/-- The name in a configuration. -/
def name : Payload → String
  | frame => "frame"
  | batch => "batch"

/-- The name in a message. -/
def title : Payload → String
  | frame => "Frame"
  | batch => "Batch"

def format : Format Payload := .choice [frame, batch] name

end Payload

/-- A node of the graph and what is resident in it. -/
structure Stage where
  name : String
  payload : Payload
  residents : Ids
deriving DecidableEq

namespace Stage

def add (s : Stage) (id : Int) : Stage := { s with residents := s.residents.insert id }

def drop (s : Stage) (id : Int) : Stage := { s with residents := s.residents.erase id }

end Stage
end FrameFlow
