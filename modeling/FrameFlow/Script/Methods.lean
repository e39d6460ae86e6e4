/-
# The methods of a pipeline object

What a script can ask of a pipeline. Each method has a signature and a body that
runs on the host with the converted arguments; the body's refusals become
failures of the script.

Key definitions:
* `Method`, `Method.call`, `methods`.
-/
import FrameFlow.Host.Ingest
import FrameFlow.Pipeline.Access
import FrameFlow.Script.Call

namespace FrameFlow.Script

open Signature Value

/-- What a script can call by a name. -/
structure Method where
  name : String
  call : Handle → Arguments → Host → Except Failure Value × Host

/-- Makes a method of a signature, a body, and the value that the body's answer becomes. -/
def Method.of {α β : Type} (name : String) (signature : Signature α)
    (body : α → Handle → Host → Except Error β × Host) (answer : β → Value) : Method where
  name := name
  call handle arguments h :=
    match signature.bind arguments with
    | .error e => (.error e, h)
    | .ok a =>
      match body a handle h with
      | (.error e, h) => (.error (.refused e), h)
      | (.ok b, h) => (.ok (answer b), h)

/-- A method that carries out an operation of the pipeline. -/
def Method.operation {α β : Type} (name : String) (signature : Signature α)
    (operation : α → Pipeline → Outcome β) (answer : β → Value) : Method :=
  .of name signature (fun a handle h => h.run handle (operation a)) answer

/-- A method that looks at the pipeline. -/
def Method.look {α β : Type} (name : String) (signature : Signature α)
    (look : α → Pipeline → β) (answer : β → Value) : Method :=
  .of name signature (fun a handle h => h.view handle (look a)) answer

/-- A method that changes the pipeline and answers whether it did. -/
def Method.change {α : Type} (name : String) (signature : Signature α)
    (change : α → Pipeline → Bool × Pipeline) : Method :=
  .of name signature (fun a handle h => h.change handle (change a)) .bool

/-! ### Signatures -/

/-- One identifier of a frame or a batch. -/
def idOnly (name : String) := needed name asId nil

/-- The name of a stage. -/
def stageOnly := needed "stage" asText nil

/-- The identifiers of a frame and of a detection in it, and what follows. -/
def ofDetection {β : Type} (rest : Signature β) :=
  needed "frame_id" asId (needed "object_id" asInt64 rest)

/-- A box that is upright unless there is an angle. -/
def boxOf : Single × Single × Single × Single → Option Single → Box
  | (xc, yc, width, height), some angle => .rotated xc yc width height angle
  | (xc, yc, width, height), Option.none => .upright xc yc width height

/-! ### Methods -/

def stageMethods : List Method :=
  [.look "stage_names" nil (fun _ p => p.stageNames) fun names => .list (names.map .text),
    .look "get_stage_type" stageOnly (fun (stage, ()) p => p.payload? stage)
      (ofOption fun payload => .text payload.name),
    .look "stage_len" stageOnly (fun (stage, ()) p => p.stageSize? stage)
      (ofOption fun n => .int (Int.ofNat n))]

def frameMethods : List Method :=
  [.of "add_frame" (needed "stage" asText (needed "frame_json" asText nil))
      (fun (stage, frame, ()) handle h => h.addFrame handle stage frame) .int,
    .look "get_frame" (idOnly "frame_id") (fun (id, ()) p => p.frame? id)
      (ofOption fun f => .text f.toJson),
    .operation "delete" (idOnly "id") (fun (id, ()) p => p.delete id) fun () => .none]

def movementMethods : List Method :=
  [.operation "move_as_is" (needed "dest_stage" asText (needed "ids" asIds nil))
      (fun (stage, ids, ()) p => p.move stage ids) fun n => .int (Int.ofNat n),
    .operation "move_and_pack_frames" (needed "dest_stage" asText (needed "frame_ids" asIds nil))
      (fun (stage, ids, ()) p => p.pack stage ids) .int,
    .operation "move_and_unpack_batch" (needed "dest_stage" asText (idOnly "batch_id"))
      (fun (stage, batch, ()) p => p.unpack stage batch) ofIds]

def updateMethods : List Method :=
  [.of "add_frame_update" (needed "frame_id" asId (needed "update_json" asText nil))
      (fun (id, update, ()) handle h => h.enqueue handle id update) fun () => .none,
    .of "add_batched_frame_update"
      (needed "batch_id" asId (needed "frame_id" asId (needed "update_json" asText nil)))
      (fun (batch, id, update, ()) handle h => h.enqueueBatched handle batch id update)
      fun () => .none,
    .operation "apply_updates" (idOnly "id") (fun (id, ()) p => p.commit id) .bool,
    .change "clear_updates" (idOnly "id") fun (id, ()) p => p.discard id]

/-- A method that reads a text of a detection. -/
def textMethod (name : String) (field : TextField) : Method :=
  .look name (ofDetection nil) (fun (frame, id, ()) p => p.text? frame id field) (ofOption .text)

def fieldMethods : List Method :=
  [.look "get_confidence" (ofDetection nil) (fun (frame, id, ()) p => p.confidence? frame id)
      (ofOption ofSingle),
    .change "set_confidence" (ofDetection (needed "confidence" asSingle nil))
      fun (frame, id, confidence, ()) p => p.setConfidence frame id (some confidence),
    .change "clear_confidence" (ofDetection nil)
      fun (frame, id, ()) p => p.setConfidence frame id Option.none,
    textMethod "get_label" .label,
    textMethod "get_namespace" .scope,
    textMethod "get_draw_label" .drawLabel,
    .look "get_detection_box" (ofDetection nil) (fun (frame, id, ()) p => p.box? frame id)
      (ofOption ofBox),
    .change "set_detection_box"
      (ofDetection (needed "bbox" asCorners (optional "angle" asSingle nil)))
      fun (frame, id, corners, angle, ()) p => p.setBox frame id (boxOf corners angle),
    .look "get_tracking_info" (ofDetection nil) (fun (frame, id, ()) p => p.track? frame id)
      (ofOption ofTrack),
    .change "set_tracking_info"
      (ofDetection (needed "bbox" asCorners
        (needed "track_id" asInt64 (optional "angle" asSingle nil))))
      fun (frame, id, corners, track, angle, ()) p =>
        p.setTrack frame id (some ⟨boxOf corners angle, track⟩),
    .change "clear_tracking_info" (ofDetection nil)
      fun (frame, id, ()) p => p.setTrack frame id Option.none]

/-- The numbers and the confidence of a reading that is a vector. -/
def ofVector (r : Reading) : Value :=
  ofOption (fun numbers => .tuple [.list (numbers.map .float), ofOption ofSingle r.confidence])
    r.vector?

def vectorMethod : Method :=
  .look "get_float_vec_attribute_value"
    (ofDetection (needed "namespace" asText (needed "name" asText (needed "index" asIndex nil))))
    (fun (frame, id, scope, name, index, ()) p => p.reading? frame id scope name index)
    (ofOption ofVector)

/-- Lets the pipeline go. This is the one method that no pipeline is needed for. -/
def releaseMethod : Method where
  name := "release"
  call handle arguments h :=
    match nil.bind arguments with
    | .error e => (.error e, h)
    | .ok () =>
      let (gone, h) := h.release handle
      (.ok (.bool gone), h)

/-- All methods of a pipeline object. -/
def methods : List Method :=
  releaseMethod :: vectorMethod ::
    (stageMethods ++ frameMethods ++ movementMethods ++ updateMethods ++ fieldMethods)

end FrameFlow.Script
