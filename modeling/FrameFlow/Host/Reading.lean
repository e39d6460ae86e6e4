/-
# Reading into buffers

Texts, vectors and lists of identifiers are handed out through buffers of the
caller. A batch is unpacked only if its members fit.

Key definitions:
* `Host.readText`, `Host.readVector`, `VectorReading`, `Host.unpackInto`.
-/
import FrameFlow.Buffer
import FrameFlow.Host.Basic
import FrameFlow.Pipeline.Access
import FrameFlow.Pipeline.Movement

namespace FrameFlow

/-- What became of reading a vector. -/
inductive VectorReading where
  | absent
  | needs (count : Nat)
  | copied (count : Nat) (confidence : Option Single)
deriving DecidableEq

namespace Host

/-- Looks something up that may be missing; an unknown handle counts as missing too. -/
def lookUp {α : Type} (h : Host) (handle : Handle) (look : Pipeline → Option α) : Option α × Host :=
  match h.view handle look with
  | (.ok found, h) => (found, h)
  | (.error _, h) => (none, h)

/-- Copies a text of a detection with a closing zero. -/
def readText (h : Host) (handle : Handle) (frame : Int) (id : Int64) (field : TextField)
    (buffer : List UInt8) : Option Transfer × List UInt8 × Host :=
  match h.lookUp handle (·.text? frame id field) with
  | (none, h) => (none, buffer, h)
  | (some text, h) =>
    let (transfer, buffer) := fillText text buffer
    (some transfer, buffer, h)

/-- Copies the numbers of a vector. -/
def readVector (h : Host) (handle : Handle) (frame : Int) (id : Int64) (scope name : String)
    (index : Nat) (buffer : List Double) : VectorReading × List Double × Host :=
  match h.lookUp handle (·.reading? frame id scope name index) with
  | (none, h) => (.absent, buffer, h)
  | (some r, h) =>
    match r.vector? with
    | none => (.absent, buffer, h)
    | some numbers =>
      match fill numbers buffer with
      | (.written count, buffer) => (.copied count r.confidence, buffer, h)
      | (.needs count, buffer) => (.needs count, buffer, h)

/-- Unpacks a batch if the buffer has room for its members, and copies them. -/
def unpackInto (h : Host) (handle : Handle) (stage : String) (batch : Int) (buffer : List Int) :
    Except Error Transfer × List Int × Host :=
  match h.run handle (·.unpackIf stage batch fun count => count ≤ buffer.length) with
  | (.error e, h) => (.error e, buffer, h)
  | (.ok (.needs count), h) => (.ok (.needs count), buffer, h)
  | (.ok (.members ids), h) =>
    let (transfer, buffer) := fill ids buffer
    (.ok transfer, buffer, h)

end Host
end FrameFlow
