/-
# Access to detections

Single fields of a detection are read and written directly, by the identifiers
of its frame and its own, whether the frame is packed or not.

Key definitions:
* `Pipeline.detection?`, `Pipeline.edit`, and the readers and writers of fields.
-/
import FrameFlow.Pipeline.Basic

namespace FrameFlow
namespace Pipeline

/-- A detection of a frame. -/
def detection? (p : Pipeline) (frame : Int) (id : Int64) : Option Detection := do
  let f ← p.frames.get? frame
  f.find? id

/-- Changes a detection, and answers whether it is there. -/
def edit (p : Pipeline) (frame : Int) (id : Int64) (change : Detection → Detection) :
    Bool × Pipeline :=
  match p.frames.get? frame with
  | none => (false, p)
  | some f =>
    if f.has id then (true, { p with frames := p.frames.set frame (f.modify id change) })
    else (false, p)

/-! ### Reading -/

def confidence? (p : Pipeline) (frame : Int) (id : Int64) : Option Single := do
  let d ← p.detection? frame id
  d.confidence

def box? (p : Pipeline) (frame : Int) (id : Int64) : Option Box :=
  (p.detection? frame id).map Detection.box

def track? (p : Pipeline) (frame : Int) (id : Int64) : Option Track := do
  let d ← p.detection? frame id
  d.track

def text? (p : Pipeline) (frame : Int) (id : Int64) (field : TextField) : Option String :=
  (p.detection? frame id).map field.read

/-- A value of an attribute of a detection. -/
def reading? (p : Pipeline) (frame : Int) (id : Int64) (scope name : String) (index : Nat) :
    Option Reading := do
  let d ← p.detection? frame id
  d.attributes.reading? scope name index

/-- A value of an attribute of a frame. -/
def frameReading? (p : Pipeline) (frame : Int) (scope name : String) (index : Nat) :
    Option Reading := do
  let f ← p.frames.get? frame
  f.attributes.reading? scope name index

/-! ### Writing -/

def setConfidence (p : Pipeline) (frame : Int) (id : Int64) (confidence : Option Single) :
    Bool × Pipeline :=
  p.edit frame id fun d => { d with confidence := confidence }

def setBox (p : Pipeline) (frame : Int) (id : Int64) (box : Box) : Bool × Pipeline :=
  p.edit frame id fun d => { d with box := box }

def setTrack (p : Pipeline) (frame : Int) (id : Int64) (track : Option Track) : Bool × Pipeline :=
  p.edit frame id fun d => { d with track := track }

end Pipeline
end FrameFlow
