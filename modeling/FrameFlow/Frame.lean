/-
# Frames

One unit of data from a source, with its detections in the order in which they
were added and attributes of its own. Detections are addressed by identifier;
the first one counts where several share one.

Key definitions:
* `Frame`, `Frame.find?`, `Frame.modify`, `Frame.remove`, `Frame.nextId?`.
* `Batch`: frames packed together.
-/
import FrameFlow.Detection

namespace FrameFlow

open Json

/-- One unit of data from a source. -/
structure Frame where
  source : String
  pts : Int64
  width : Int64
  height : Int64
  detections : List Detection
  attributes : AttributeTable
deriving DecidableEq

namespace Frame

/-- A frame without detections. -/
def blank (source : String) (pts : Int64) : Frame := ⟨source, pts, 0, 0, [], .empty⟩

instance : Alike Frame where
  alike a b := a.source == b.source && a.pts == b.pts && a.width == b.width &&
    a.height == b.height && alike a.detections b.detections && alike a.attributes b.attributes

/-- The first detection with an identifier. -/
def find? (f : Frame) (id : Int64) : Option Detection := f.detections.find? fun d => d.id == id

/-- Whether there is a detection with an identifier. -/
def has (f : Frame) (id : Int64) : Bool := (f.find? id).isSome

/-- Adds a detection behind the others. -/
def add (f : Frame) (d : Detection) : Frame := { f with detections := f.detections ++ [d] }

/-- Changes the first detection with an identifier. -/
def modifyFirst (id : Int64) (change : Detection → Detection) : List Detection → List Detection
  | [] => []
  | d :: ds => if d.id == id then change d :: ds else d :: modifyFirst id change ds

/-- Changes the first detection with an identifier, if there is one. -/
def modify (f : Frame) (id : Int64) (change : Detection → Detection) : Frame :=
  { f with detections := modifyFirst id change f.detections }

/-- Takes out the first detection with an identifier; the order of the others stays. -/
def remove (f : Frame) (id : Int64) : Frame :=
  { f with detections := f.detections.eraseP fun d => d.id == id }

/-- The greatest of some integers, the first of which is given. -/
def greatest (first : Int) (rest : List Int) : Int :=
  rest.foldl (fun m i => if m < i then i else m) first

/-- The least identifier above all others, unless the greatest one is taken. -/
def nextId? (f : Frame) : Option Int64 :=
  match f.detections.map fun d => d.id.toInt with
  | [] => some 0
  | i :: is =>
    let top := greatest i is
    if top < 0x7FFFFFFFFFFFFFFF then some (Int64.ofInt (top + 1)) else none

/-- Drops the attributes of the frame and of its detections that are not persistent. -/
def dropTemporary (f : Frame) : Frame :=
  { f with
    attributes := f.attributes.dropTemporary
    detections := f.detections.map fun d => { d with attributes := d.attributes.dropTemporary } }

def format : Format Frame :=
  (Format.record "struct VideoFrame" <|
    .cons "source_id" .refused .text <|
    .cons "pts" (.default 0) .int64 <|
    .cons "width" (.default 0) .int64 <|
    .cons "height" (.default 0) .int64 <|
    .cons "objects" (.default []) (.list Detection.format) <|
    .cons "attributes" (.default .empty) AttributeTable.format .nil).map
    (fun (source, pts, width, height, detections, attributes, ()) =>
      ⟨source, pts, width, height, detections, attributes⟩)
    (fun f => (f.source, f.pts, f.width, f.height, f.detections, f.attributes, ()))

/-- Reads a frame. -/
def ofJson (text : String) : Except Fault Frame := format.parse text

/-- Writes a frame. -/
def toJson (f : Frame) : String := format.render f

end Frame

/-- Frames packed together. Only membership is recorded, in the order of packing. -/
structure Batch where
  id : Int
  members : List Int
deriving DecidableEq, Repr

namespace Batch

def has (b : Batch) (id : Int) : Bool := b.members.contains id

def format : Format Batch :=
  (Format.record "struct FrameBatch" <|
    .cons "id" .refused .int <|
    .cons "frames" .refused (.list .int) .nil).map
    (fun (id, members, ()) => ⟨id, members⟩)
    (fun b => (b.id, b.members, ()))

end Batch
end FrameFlow
