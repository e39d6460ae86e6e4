/-
# What the log is told

Everything that the library reports about itself, as data. Each event has a
level and one line of text.

Key definitions:
* `Event`, `Event.level`, `Event.message`.
-/
import FrameFlow.Error
import FrameFlow.Level

namespace FrameFlow

/-- Something that happened. -/
inductive Event where
  | created (pipeline : String) (stages : Nat)
  | frameAdded (pipeline : String) (id : Int) (stage : String)
  | deleted (pipeline : String) (id : Int)
  | skipped (pipeline : String) (id : Int)
  | moved (pipeline stage : String) (count : Nat)
  | carried (batch : Int) (frames updates : Nat)
  | packed (pipeline : String) (frames : Nat) (batch : Int) (stage : String)
  | unpacked (pipeline : String) (batch : Int) (frames : Nat) (stage : String)
  | rolledBack (pipeline : String) (id : Int) (cause : Error)
  | committed (pipeline : String) (id : Int) (updates : Nat)
  | registryOpened
  | registered (pipeline : String) (handle : Nat)
  | refused (call : String) (cause : Error)
  | unreadableConfig
  | remark (level : Level) (text : String)
deriving DecidableEq

namespace Event

def level : Event → Level
  | skipped .. | rolledBack .. | refused .. | unreadableConfig => .warn
  | remark level _ => level
  | _ => .debug

/-- A line of measurements: names and values, all quoted. -/
def metric (entries : List (String × String)) : String :=
  let parts := entries.map fun (name, value) => s!"\"{name}\": \"{value}\""
  "STAGEPIPE_METRIC: \x7b " ++ ", ".intercalate parts ++ " \x7d"

def message : Event → String
  | created pipeline stages => s!"pipeline '{pipeline}' created with {stages} stages"
  | frameAdded pipeline id stage =>
    metric [("event", "add_frame"), ("pipeline", pipeline), ("id", toString id), ("stage", stage)]
  | deleted pipeline id => s!"pipeline '{pipeline}': deleted {id}"
  | skipped pipeline id => s!"pipeline '{pipeline}': move_as_is skips unknown id {id}"
  | moved pipeline stage count =>
    metric [("event", "move_as_is"), ("pipeline", pipeline), ("dest", stage),
      ("moved", toString count)]
  | carried batch frames updates =>
    metric [("event", "pack"), ("batch_id", toString batch), ("frames", toString frames),
      ("carried_updates", toString updates)]
  | packed pipeline frames batch stage =>
    s!"pipeline '{pipeline}': packed {frames} frames into batch {batch} at '{stage}'"
  | unpacked pipeline batch frames stage =>
    s!"pipeline '{pipeline}': unpacked batch {batch} into {frames} frames at '{stage}'"
  | rolledBack pipeline id cause =>
    s!"pipeline '{pipeline}': apply_updates({id}) rolled back: {cause.message}"
  | committed pipeline id updates =>
    metric [("event", "apply_updates"), ("pipeline", pipeline), ("id", toString id),
      ("updates", toString updates)]
  | registryOpened => "initialising global pipeline registry"
  | registered pipeline handle => s!"pipeline '{pipeline}' registered as handle {hexText handle}"
  | refused call cause => s!"{call}: {cause.message}"
  | unreadableConfig => "pipeline_create: config is null or not UTF-8"
  | remark _ text => text

end Event
end FrameFlow
