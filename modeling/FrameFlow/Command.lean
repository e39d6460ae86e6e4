/-
# Commands on a frame

A command changes one part of a frame: a field of one detection, the list of
detections, or an attribute. A command that is refused leaves the frame as it
was. An update is a list of commands, run in order up to the first that is
refused.

Key definitions:
* `Command`, `Command.apply`.
* `Update`, `Update.run`.
-/
import FrameFlow.Frame
import FrameFlow.Error

namespace FrameFlow

open Json

/-! ### Policies -/

/-- What is done with a detection whose identifier is taken. -/
inductive DetectionPolicy where
  | renumber
  | refuse
  | replace
deriving DecidableEq, Repr, Inhabited

namespace DetectionPolicy

def name : DetectionPolicy → String
  | renumber => "add_foreign_objects"
  | refuse => "error_if_id_collides"
  | replace => "replace_same_id_objects"

def all : List DetectionPolicy := [renumber, refuse, replace]

def format : Format DetectionPolicy := .choice all name

end DetectionPolicy

/-- What is done with an attribute whose key is taken. -/
inductive AttributePolicy where
  | replace
  | keep
  | refuse
deriving DecidableEq, Repr, Inhabited

namespace AttributePolicy

def name : AttributePolicy → String
  | replace => "replace_with_foreign_when_duplicate"
  | keep => "keep_own_when_duplicate"
  | refuse => "error_when_duplicate"

def all : List AttributePolicy := [replace, keep, refuse]

def format : Format AttributePolicy := .choice all name

end AttributePolicy

/-! ### Commands -/

/-- One change to a frame. -/
inductive Command where
  | setConfidence (id : Int64) (confidence : Option Single)
  | setBox (id : Int64) (box : Box)
  | setTrack (id : Int64) (track : Option Track)
  | setLabel (id : Int64) (label : String)
  | setDrawLabel (id : Int64) (label : Option String)
  | addDetection (detection : Detection) (policy : DetectionPolicy)
  | removeDetection (id : Int64)
  | setAttribute (id : Int64) (entry : Attribute) (policy : AttributePolicy)
  | removeAttribute (id : Int64) (scope name : String)
  | setFrameAttribute (entry : Attribute) (policy : AttributePolicy)
  | removeFrameAttribute (scope name : String)
deriving DecidableEq

/-- Writes an attribute into a table as a policy says. -/
def AttributeTable.merge (t : AttributeTable) (a : Attribute) (policy : AttributePolicy) :
    Except Error AttributeTable :=
  if t.has a.scope a.name then
    match policy with
    | .replace => .ok (t.insert a)
    | .keep => .ok t
    | .refuse => .error (.attributeTaken a.scope a.name)
  else .ok (t.insert a)

/-- Adds a detection as a policy says. -/
def Frame.admit (f : Frame) (frameId : Int) (d : Detection) (policy : DetectionPolicy) :
    Except Error Frame :=
  if f.has d.id then
    match policy with
    | .renumber =>
      match f.nextId? with
      | some id => .ok (f.add { d with id := id })
      | none => .error (.idsExhausted frameId)
    | .refuse => .error (.detectionTaken frameId d.id)
    | .replace => .ok (f.modify d.id fun _ => d)
  else .ok (f.add d)

/-- Changes a detection that has to be there. -/
def Frame.edit (f : Frame) (frameId : Int) (id : Int64) (change : Detection → Detection) :
    Except Error Frame :=
  if f.has id then .ok (f.modify id change) else .error (.detectionNotFound frameId id)

namespace Command

/-- The frame after a command. The frame's identifier stands in errors only. -/
def apply (frameId : Int) (f : Frame) : Command → Except Error Frame
  | setConfidence id confidence => f.edit frameId id fun d => { d with confidence := confidence }
  | setBox id box => f.edit frameId id fun d => { d with box := box }
  | setTrack id track => f.edit frameId id fun d => { d with track := track }
  | setLabel id label => f.edit frameId id fun d => { d with label := label }
  | setDrawLabel id label => f.edit frameId id fun d => { d with drawLabel := label }
  | addDetection d policy => f.admit frameId d policy
  | removeDetection id =>
    if f.has id then .ok (f.remove id) else .error (.detectionNotFound frameId id)
  | setAttribute id a policy =>
    match f.find? id with
    | none => .error (.detectionNotFound frameId id)
    | some d => do
      let table ← d.attributes.merge a policy
      return f.modify id fun d => { d with attributes := table }
  | removeAttribute id scope name =>
    f.edit frameId id fun d => { d with attributes := d.attributes.erase (scope, name) }
  | setFrameAttribute a policy => do
    let table ← f.attributes.merge a policy
    return { f with attributes := table }
  | removeFrameAttribute scope name =>
    .ok { f with attributes := f.attributes.erase (scope, name) }

/-! ### The JSON form -/

/-- The identifier of a detection and one more field. -/
def fieldsOf {α : Type} (name : String) (missing : Missing α) (f : Format α) :=
  Fields.cons "object_id" .refused Format.int64 (.cons name missing f .nil)

def confidenceFields := fieldsOf "confidence" .optional (.option .single)

def boxFields := fieldsOf "bbox" .refused Box.format

def trackFields := fieldsOf "tracking" .optional (.option Track.format)

def labelFields := fieldsOf "label" .refused .text

def drawLabelFields := fieldsOf "draw_label" .optional (.option .text)

def detectionFields :=
  Fields.cons "object" .refused Detection.format <|
    .cons "policy" (.default .renumber) DetectionPolicy.format .nil

def idFields := Fields.cons "object_id" .refused Format.int64 .nil

def frameAttributeFields :=
  Fields.cons "attribute" .refused Attribute.format <|
    .cons "policy" (.default .replace) AttributePolicy.format .nil

def attributeFields := Fields.cons "object_id" .refused Format.int64 frameAttributeFields

def frameKeyFields :=
  Fields.cons "namespace" .refused Format.text (.cons "name" .refused .text .nil)

def keyFields := Fields.cons "object_id" .refused Format.int64 frameKeyFields

/-- The commands by the names of their tags. -/
def variants : List (Variant Command) :=
  [.record "set_confidence" "UpdateCommand::SetConfidence" confidenceFields
      fun (id, confidence, ()) => setConfidence id confidence,
    .record "set_detection_box" "UpdateCommand::SetDetectionBox" boxFields
      fun (id, box, ()) => setBox id box,
    .record "set_tracking_info" "UpdateCommand::SetTrackingInfo" trackFields
      fun (id, track, ()) => setTrack id track,
    .record "set_label" "UpdateCommand::SetLabel" labelFields
      fun (id, label, ()) => setLabel id label,
    .record "set_draw_label" "UpdateCommand::SetDrawLabel" drawLabelFields
      fun (id, label, ()) => setDrawLabel id label,
    .record "add_object" "UpdateCommand::AddObject" detectionFields
      fun (d, policy, ()) => addDetection d policy,
    .record "delete_object" "UpdateCommand::DeleteObject" idFields
      fun (id, ()) => removeDetection id,
    .record "set_object_attribute" "UpdateCommand::SetObjectAttribute" attributeFields
      fun (id, a, policy, ()) => setAttribute id a policy,
    .record "delete_object_attribute" "UpdateCommand::DeleteObjectAttribute" keyFields
      fun (id, scope, name, ()) => removeAttribute id scope name,
    .record "set_frame_attribute" "UpdateCommand::SetFrameAttribute" frameAttributeFields
      fun (a, policy, ()) => setFrameAttribute a policy,
    .record "delete_frame_attribute" "UpdateCommand::DeleteFrameAttribute" frameKeyFields
      fun (scope, name, ()) => removeFrameAttribute scope name]

/-- The tag of a command and its written fields. -/
def written : Command → String × List (List Char)
  | setConfidence id confidence =>
    ("set_confidence", confidenceFields.writeMembers (id, confidence, ()))
  | setBox id box => ("set_detection_box", boxFields.writeMembers (id, box, ()))
  | setTrack id track => ("set_tracking_info", trackFields.writeMembers (id, track, ()))
  | setLabel id label => ("set_label", labelFields.writeMembers (id, label, ()))
  | setDrawLabel id label => ("set_draw_label", drawLabelFields.writeMembers (id, label, ()))
  | addDetection d policy => ("add_object", detectionFields.writeMembers (d, policy, ()))
  | removeDetection id => ("delete_object", idFields.writeMembers (id, ()))
  | setAttribute id a policy =>
    ("set_object_attribute", attributeFields.writeMembers (id, a, policy, ()))
  | removeAttribute id scope name =>
    ("delete_object_attribute", keyFields.writeMembers (id, scope, name, ()))
  | setFrameAttribute a policy =>
    ("set_frame_attribute", frameAttributeFields.writeMembers (a, policy, ()))
  | removeFrameAttribute scope name =>
    ("delete_frame_attribute", frameKeyFields.writeMembers (scope, name, ()))

def format : Format Command :=
  .tagged "internally tagged enum UpdateCommand" "op" variants written

end Command

/-! ### Updates -/

/-- Commands for one frame, in order. -/
structure Update where
  commands : List Command
deriving DecidableEq

namespace Update

/-- Runs commands up to the first one that is refused: the frame then, and the refusal. -/
def runList (frameId : Int) : Frame → List Command → Frame × Except Error Unit
  | f, [] => (f, .ok ())
  | f, c :: cs =>
    match c.apply frameId f with
    | .ok f' => runList frameId f' cs
    | .error e => (f, .error e)

/-- Runs an update up to the first command that is refused. -/
def run (frameId : Int) (f : Frame) (u : Update) : Frame × Except Error Unit :=
  runList frameId f u.commands

/-- The frame after an update all of whose commands are accepted. -/
def apply (frameId : Int) (f : Frame) (u : Update) : Except Error Frame :=
  match u.run frameId f with
  | (f', .ok ()) => .ok f'
  | (_, .error e) => .error e

def format : Format Update :=
  (Format.record "struct FrameUpdate" <|
    .cons "commands" (.default []) (.list Command.format) .nil).map
    (fun (commands, ()) => ⟨commands⟩)
    (fun u => (u.commands, ()))

/-- Reads an update. -/
def ofJson (text : String) : Except Fault Update := format.parse text

/-- Writes an update. -/
def toJson (u : Update) : String := format.render u

end Update
end FrameFlow
