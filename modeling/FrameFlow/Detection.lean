/-
# Detections

Something that was found in a frame, with an identifier that is meant to be
unique in the frame, the scope of its producer, and a label.

Key definitions:
* `Detection`, `Detection.shownLabel`, `TextField`.
-/
import FrameFlow.Box
import FrameFlow.AttributeTable

namespace FrameFlow

open Json

/-- Something found in a frame. -/
structure Detection where
  id : Int64
  scope : String
  label : String
  drawLabel : Option String
  confidence : Option Single
  box : Box
  track : Option Track
  attributes : AttributeTable
deriving DecidableEq

namespace Detection

/-- A detection about which nothing else is known. -/
def plain (id : Int64) (scope label : String) (box : Box) : Detection :=
  ⟨id, scope, label, none, none, box, none, .empty⟩

/-- The label to draw, which is the label where no other is set. -/
def shownLabel (d : Detection) : String := d.drawLabel.getD d.label

instance : Alike Detection where
  alike a b := a.id == b.id && a.scope == b.scope && a.label == b.label &&
    a.drawLabel == b.drawLabel && alike a.confidence b.confidence && alike a.box b.box &&
    alike a.track b.track && alike a.attributes b.attributes

def format : Format Detection :=
  (Format.record "struct VideoObject" <|
    .cons "id" .refused .int64 <|
    .cons "namespace" .refused .text <|
    .cons "label" .refused .text <|
    .cons "draw_label" (.default none) (.option .text) <|
    .cons "confidence" (.default none) (.option .single) <|
    .cons "detection_box" .refused Box.format <|
    .cons "tracking" (.default none) (.option Track.format) <|
    .cons "attributes" (.default .empty) AttributeTable.format .nil).map
    (fun (id, scope, label, drawLabel, confidence, box, track, attributes, ()) =>
      ⟨id, scope, label, drawLabel, confidence, box, track, attributes⟩)
    (fun d => (d.id, d.scope, d.label, d.drawLabel, d.confidence, d.box, d.track, d.attributes, ()))

end Detection

/-- A piece of text that every detection has. -/
inductive TextField where
  | scope
  | label
  | drawLabel
deriving DecidableEq, Repr

/-- The text of a detection. -/
def TextField.read : TextField → Detection → String
  | scope, d => d.scope
  | label, d => d.label
  | drawLabel, d => d.shownLabel

end FrameFlow
