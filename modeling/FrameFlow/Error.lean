/-
# Errors

Every way in which an operation can be refused, with what it was refused for.

Key definitions:
* `Error`, `Error.message`.
-/
import FrameFlow.Stage

namespace FrameFlow

/-- What is wrong with a configuration beside a repeated stage name. -/
inductive ConfigFault where
  | emptyStageName
  | unknownLevel (name : String)
deriving DecidableEq, Repr

/-- Why an operation was refused. -/
inductive Error where
  | stageNotFound (stage : String)
  | duplicateStage (stage : String)
  | payloadMismatch (stage : String) (holds given : Payload)
  | unknownId (id : Int)
  | notIndependent (id : Int)
  | notBatch (id : Int)
  | notInBatch (batch frame : Int)
  | repeatedFrame (id : Int)
  | emptyBatch
  | detectionNotFound (frame : Int) (detection : Int64)
  | detectionTaken (frame : Int) (detection : Int64)
  | idsExhausted (frame : Int)
  | interiorNul (detection : Int64)
  | attributeTaken (scope name : String)
  | updateFailed (id : Int) (cause : Error)
  | invalidConfig (fault : ConfigFault)
  | json (fault : Json.Fault)
  | unknownHandle (handle : Nat)
deriving DecidableEq

/-- What is wrong with a configuration, in words. -/
def ConfigFault.message : ConfigFault → String
  | emptyStageName => "stage names must not be empty"
  | unknownLevel name => s!"unknown log level '{name}'"

/-- A number in base sixteen with its usual mark. -/
def hexText (n : Nat) : String := "0x" ++ String.ofList (Nat.toDigits 16 n)

namespace Error

def message : Error → String
  | stageNotFound stage => s!"Stage not found: '{stage}'"
  | duplicateStage stage => s!"Stage '{stage}' is declared more than once"
  | payloadMismatch stage holds given =>
    s!"Stage '{stage}' holds {holds.title} payloads, got {given.title}"
  | unknownId id => s!"Unknown frame or batch id: {id}"
  | notIndependent id => s!"Id {id} is not an independent frame"
  | notBatch id => s!"Id {id} is not a batch"
  | notInBatch batch frame => s!"Frame {frame} is not a member of batch {batch}"
  | repeatedFrame id => s!"Frame id {id} appears more than once in a pack request"
  | emptyBatch => "Cannot pack an empty list of frames into a batch"
  | detectionNotFound frame detection => s!"Object {detection.toInt} not found in frame {frame}"
  | detectionTaken frame detection =>
    s!"Object id {detection.toInt} already exists in frame {frame}"
  | idsExhausted frame => s!"Frame {frame} has no object id left to assign"
  | interiorNul detection => s!"Text of object {detection.toInt} contains a NUL byte"
  | attributeTaken scope name => s!"Attribute ({scope}, {name}) already exists"
  | updateFailed id cause => s!"Applying updates to id {id} failed: {cause.message}"
  | invalidConfig fault => s!"Invalid pipeline configuration: {fault.message}"
  | json fault => s!"Serde JSON error: {fault.message}"
  | unknownHandle handle => s!"FFI operation failed: unknown pipeline handle {hexText handle}"

end Error
end FrameFlow
