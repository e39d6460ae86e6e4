/-
# Pipelines

A pipeline is a fixed graph of stages with the frames and batches in it. Where
everything is stands in two places that go together: a stage knows what is
resident in it, and each identifier knows its place. Frames and batches take
their identifiers from one counter.

Key definitions:
* `Place`, `Pipeline`, `Pipeline.create`, `Outcome`.
* `Pipeline.locate`, `Pipeline.stats`, `Pipeline.independentStage`.
-/
import FrameFlow.Config
import FrameFlow.Event
import FrameFlow.Queue

namespace FrameFlow

/-- Where an identifier is: in a stage, by its place in the graph, or packed in a batch. -/
inductive Place where
  | stage (index : Nat)
  | batch (id : Int)
deriving DecidableEq, Repr

/-- The state of a pipeline. -/
structure Pipeline where
  name : String
  missingIds : MissingIds
  stages : List Stage
  frames : Table Int Frame
  batches : Table Int Batch
  places : Table Int Place
  lastId : Int
  queue : Queue
deriving DecidableEq

/-- What an operation answers, the pipeline afterwards, and what the log is told. -/
structure Outcome (α : Type) where
  answer : Except Error α
  next : Pipeline
  events : List Event

/-- A refused operation leaves the pipeline as it was. -/
def Outcome.refuse {α : Type} (p : Pipeline) (e : Error) (events : List Event) : Outcome α :=
  ⟨.error e, p, events⟩

/-- Where an identifier is, for callers. -/
inductive Location where
  | stage (name : String) (payload : Payload)
  | batch (id : Int)
deriving DecidableEq, Repr

/-- How much there is in a pipeline. -/
structure Stats where
  frames : Nat
  batches : Nat
  stages : List (String × Nat)
deriving DecidableEq, Repr

namespace Pipeline

/-- An empty pipeline with the stages of a configuration. -/
def ofConfig (c : Config) : Pipeline where
  name := c.name
  missingIds := c.missingIds
  stages := c.stages.map fun s => ⟨s.name, s.payload, .empty⟩
  frames := .empty
  batches := .empty
  places := .empty
  lastId := 0
  queue := .empty

/-- Builds the pipeline of a configuration that passes its check. -/
def create (c : Config) : Except Error (Pipeline × Event) := do
  c.check
  return (ofConfig c, .created c.name c.stages.length)

/-! ### Looking -/

def stageNames (p : Pipeline) : List String := p.stages.map Stage.name

/-- The place of a stage in the graph. -/
def indexOf? (p : Pipeline) (stage : String) : Option Nat :=
  p.stages.findIdx? fun s => s.name == stage

/-- The stage with a name. -/
def stage? (p : Pipeline) (stage : String) : Option Stage :=
  p.stages.find? fun s => s.name == stage

/-- What the stage with a name holds. -/
def payload? (p : Pipeline) (stage : String) : Option Payload := (p.stage? stage).map Stage.payload

/-- How much is resident in the stage with a name. -/
def stageSize? (p : Pipeline) (stage : String) : Option Nat :=
  (p.stage? stage).map fun s => s.residents.size

/-- What is resident in the stage with a name, in increasing order. -/
def stageIds? (p : Pipeline) (stage : String) : Option (List Int) :=
  (p.stage? stage).map fun s => s.residents.toList

/-- Where an identifier is. -/
def locate (p : Pipeline) (id : Int) : Option Location :=
  match p.places.get? id with
  | none => none
  | some (.batch b) => some (.batch b)
  | some (.stage i) => (p.stages[i]?).map fun s => .stage s.name s.payload

/-- A frame, whether single or packed. -/
def frame? (p : Pipeline) (id : Int) : Option Frame := p.frames.get? id

def batch? (p : Pipeline) (id : Int) : Option Batch := p.batches.get? id

/-- How many updates wait under an identifier. -/
def pending (p : Pipeline) (id : Int) : Nat := p.queue.count id

def stats (p : Pipeline) : Stats where
  frames := p.frames.size
  batches := p.batches.size
  stages := p.stages.map fun s => (s.name, s.residents.size)

/-! ### What operations ask -/

/-- The stage that a request names, with its place in the graph. -/
def destination (p : Pipeline) (stage : String) : Except Error (Nat × Stage) :=
  match p.indexOf? stage with
  | none => .error (.stageNotFound stage)
  | some i => match p.stages[i]? with
    | none => .error (.stageNotFound stage)
    | some s => .ok (i, s)

/-- A stage takes only its own kind of payload. -/
def expect (s : Stage) (given : Payload) : Except Error Unit :=
  if s.payload = given then .ok () else .error (.payloadMismatch s.name s.payload given)

/-- The named stage, which has to hold a kind of payload. -/
def destinationFor (p : Pipeline) (stage : String) (given : Payload) : Except Error Nat := do
  let (i, s) ← p.destination stage
  expect s given
  return i

/-- The stage of a frame that is not packed. -/
def independentStage (p : Pipeline) (id : Int) : Except Error Nat :=
  match p.places.get? id with
  | none => .error (.unknownId id)
  | some (.stage i) => if p.frames.contains id then .ok i else .error (.notIndependent id)
  | some (.batch _) => .error (.notIndependent id)

/-- The stage of a batch. -/
def batchStage (p : Pipeline) (id : Int) : Except Error Nat :=
  match p.places.get? id with
  | none => .error (.unknownId id)
  | some (.stage i) => if p.batches.contains id then .ok i else .error (.notBatch id)
  | some (.batch _) => .error (.notBatch id)

end Pipeline
end FrameFlow
