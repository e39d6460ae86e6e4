/-
# Boxes and tracks

A box is given by its centre and its size. The rotation is kept as an angle and
a flag, so that an angle set on an upright box is not lost. A track is a box
with the identifier that links it across frames.

Key definitions:
* `Box`, `Box.rotation`, `Track`.
-/
import FrameFlow.Alike
import FrameFlow.Json.Record

namespace FrameFlow

open Json

/-- A box around its centre. -/
structure Box where
  xc : Single
  yc : Single
  width : Single
  height : Single
  angle : Single
  oriented : Bool
deriving DecidableEq, Inhabited

namespace Box

/-- A box along the axes. -/
def upright (xc yc width height : Single) : Box := ⟨xc, yc, width, height, .zero, false⟩

/-- A box turned by an angle in degrees. -/
def rotated (xc yc width height angle : Single) : Box := ⟨xc, yc, width, height, angle, true⟩

/-- The angle of a box that is turned. -/
def rotation (b : Box) : Option Single := if b.oriented then some b.angle else none

instance : Alike Box where
  alike a b := alike a.xc b.xc && alike a.yc b.yc && alike a.width b.width &&
    alike a.height b.height && alike a.angle b.angle && a.oriented == b.oriented

/-- Angle and flag may be left out. -/
def format : Format Box :=
  (Format.record "struct BoundingBox" <|
    .cons "xc" .refused .single <|
    .cons "yc" .refused .single <|
    .cons "width" .refused .single <|
    .cons "height" .refused .single <|
    .cons "angle" (.default .zero) .single <|
    .cons "oriented" (.default false) .bool .nil).map
    (fun (xc, yc, width, height, angle, oriented, ()) => ⟨xc, yc, width, height, angle, oriented⟩)
    (fun b => (b.xc, b.yc, b.width, b.height, b.angle, b.oriented, ()))

end Box

/-- A box followed across frames. -/
structure Track where
  box : Box
  id : Int64
deriving DecidableEq, Inhabited

namespace Track

instance : Alike Track where
  alike a b := alike a.box b.box && a.id == b.id

def format : Format Track :=
  (Format.record "struct TrackingInfo" <|
    .cons "bbox" .refused Box.format <|
    .cons "id" .refused .int64 .nil).map
    (fun (box, id, ()) => ⟨box, id⟩)
    (fun t => (t.box, t.id, ()))

end Track
end FrameFlow
