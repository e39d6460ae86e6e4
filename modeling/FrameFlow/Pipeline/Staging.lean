/-
# Staged updates

Updates are staged under a single frame or under a batch and one of its members.
Committing runs all that waits under an identifier, in staging order and each on
its own frame, and either all of it takes effect or nothing does.

Key definitions:
* `Pipeline.enqueue`, `Pipeline.enqueueBatched`, `Pipeline.discard`.
* `Pipeline.runPending`, `Pipeline.commit`.
-/
import FrameFlow.Pipeline.Basic

namespace FrameFlow
namespace Pipeline

/-- Stages an update under a single frame. -/
def enqueue (p : Pipeline) (id : Int) (u : Update) : Outcome Unit :=
  match p.independentStage id with
  | .error e => .refuse p e []
  | .ok _ => ⟨.ok (), { p with queue := p.queue.push id ⟨id, u⟩ }, []⟩

/-- Stages an update under a batch for one of its members. -/
def enqueueBatched (p : Pipeline) (batch id : Int) (u : Update) : Outcome Unit :=
  match p.batches.get? batch with
  | none => .refuse p (.notBatch batch) []
  | some b =>
    if b.has id then ⟨.ok (), { p with queue := p.queue.push batch ⟨id, u⟩ }, []⟩
    else .refuse p (.notInBatch batch id) []

/-- The frames that a commit is about. -/
def targets (p : Pipeline) (id : Int) : Option (List Int) :=
  match p.places.get? id with
  | none => none
  | some _ =>
    if p.frames.contains id then some [id]
    else (p.batches.get? id).map Batch.members

/-- The copy of a frame that an update runs on: the one that the updates before it left, or else a
new one of a target. -/
def copy? (targets : List Int) (frames copies : Table Int Frame) (id : Int) : Option Frame :=
  match copies.get? id with
  | some f => some f
  | none => if targets.contains id then frames.get? id else none

/-- Runs waiting updates one after another, each on a copy of its own frame among the targets. -/
def runPending (id : Int) (targets : List Int) (frames : Table Int Frame) :
    Table Int Frame → List Pending → Except Error (Table Int Frame)
  | copies, [] => .ok copies
  | copies, u :: us =>
    match copy? targets frames copies u.frame with
    | none => .error (.notInBatch id u.frame)
    | some f =>
      match u.update.apply u.frame f with
      | .error e => .error e
      | .ok f' => runPending id targets frames (copies.set u.frame f') us

/-- Writes the copies of targets over the frames. -/
def overwrite (copies : Table Int Frame) : Table Int Frame → List Int → Table Int Frame
  | frames, [] => frames
  | frames, id :: ids =>
    match copies.get? id with
    | none => overwrite copies frames ids
    | some f => overwrite copies (frames.set id f) ids

/-- Commits what waits under an identifier and answers whether there was anything. When an update is
refused, all of them are put back. -/
def commit (p : Pipeline) (id : Int) : Outcome Bool :=
  match p.targets id with
  | none => ⟨.ok false, p, []⟩
  | some targets =>
    match p.queue.take id with
    | (none, _) => ⟨.ok false, p, []⟩
    | (some waiting, queue) =>
      match runPending id targets p.frames .empty waiting with
      | .error e =>
        ⟨.error (.updateFailed id e), { p with queue := queue.restore id waiting },
          [.rolledBack p.name id e]⟩
      | .ok copies =>
        ⟨.ok true, { p with frames := overwrite copies p.frames targets, queue := queue },
          [.committed p.name id waiting.length]⟩

/-- Drops what waits under an identifier and answers whether there was anything. -/
def discard (p : Pipeline) (id : Int) : Bool × Pipeline :=
  let (dropped, queue) := p.queue.clear id
  (dropped, { p with queue := queue })

end Pipeline
end FrameFlow
