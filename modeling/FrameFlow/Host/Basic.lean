/-
# The host

A host keeps pipelines in a registry and lets callers reach them by handle. It
tells the log what happens. The registry comes into being when it is first used.

Key definitions:
* `Host`, `Host.tell`, `Host.setUpLogging`.
* `Host.create`, `Host.createFromJson`, `Host.release`.
* `Host.run`, `Host.change`, `Host.view`.
-/
import FrameFlow.Logging
import FrameFlow.Pipeline.Basic
import FrameFlow.Registry

namespace FrameFlow

/-- The version of this library. -/
def version : String := "0.4.2"

/-- The pipelines of a process, and its log. -/
structure Host where
  surroundings : Surroundings
  pipelines : Registry Pipeline
  opened : Bool
  logging : Logging

namespace Host

/-- A process that has done nothing yet. -/
def fresh (surroundings : Surroundings) : Host := ⟨surroundings, .empty, false, .unset⟩

/-! ### Telling -/

/-- Tells of an event. -/
def tell (h : Host) (e : Event) : Host :=
  { h with logging := h.logging.write e }

/-- Tells of events, one after another. -/
def tellAll (h : Host) (es : List Event) : Host := es.foldl tell h

/-- Sets the log up, unless it has been. -/
def setUpLogging (h : Host) (threshold : Threshold) (file : Option String) : Host :=
  { h with logging := h.logging.setUp h.surroundings threshold file }

/-- The host with its registry in use. -/
def openRegistry (h : Host) : Host :=
  if h.opened then h else { h with opened := true }.tell .registryOpened

/-! ### Coming and going of pipelines -/

/-- Sets up the log that a configuration asks for. -/
def setUpFor (h : Host) (c : Config) : Host :=
  match c.logLevel with
  | none => h
  | some name => h.setUpLogging (.parse (some name)) none

/-- Builds a pipeline and answers its handle. The log is set up before the configuration is
checked. -/
def create (h : Host) (c : Config) : Except Error Handle × Host :=
  let h := h.setUpFor c
  match Pipeline.create c with
  | .error e => (.error e, h)
  | .ok (p, created) =>
    let h := (h.tell created).openRegistry
    let (handle, pipelines) := h.pipelines.insert p
    (.ok handle, { h with pipelines := pipelines }.tell (.registered c.name handle.number))

/-- Builds a pipeline from the text of a configuration, which is checked first. -/
def createFromJson (h : Host) (text : String) : Except Error Handle × Host :=
  match Config.ofJson text with
  | .error e => (.error e, h)
  | .ok c => h.create c

/-- Lets a pipeline go and answers whether there was one. -/
def release (h : Host) (handle : Handle) : Bool × Host :=
  let h := h.openRegistry
  let (gone, pipelines) := h.pipelines.remove handle
  (gone.isSome, { h with pipelines := pipelines })

/-! ### Reaching a pipeline -/

/-- Carries out an operation on the pipeline behind a handle. -/
def run {α : Type} (h : Host) (handle : Handle) (operation : Pipeline → Outcome α) :
    Except Error α × Host :=
  let h := h.openRegistry
  match h.pipelines.get? handle with
  | none => (.error (.unknownHandle handle.number), h)
  | some p =>
    let outcome := operation p
    (outcome.answer,
      { h with pipelines := h.pipelines.replace handle outcome.next }.tellAll outcome.events)

/-- Carries out an operation that always answers and of which nothing is told. -/
def change {α : Type} (h : Host) (handle : Handle) (operation : Pipeline → α × Pipeline) :
    Except Error α × Host :=
  h.run handle fun p =>
    let (answer, next) := operation p
    ⟨.ok answer, next, []⟩

/-- Looks at the pipeline behind a handle. -/
def view {α : Type} (h : Host) (handle : Handle) (look : Pipeline → α) : Except Error α × Host :=
  h.change handle fun p => (look p, p)

end Host
end FrameFlow
