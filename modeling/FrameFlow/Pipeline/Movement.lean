/-
# Movement

Frames come into a pipeline, go from stage to stage, are packed into batches and
unpacked again, and leave. Each operation looks at everything it needs before it
changes anything.

Key definitions:
* `Pipeline.addFrame`, `Pipeline.delete`, `Pipeline.move`.
* `Pipeline.pack`, `Pipeline.unpack`, `Pipeline.unpackIf`.
-/
import FrameFlow.Pipeline.Basic

namespace FrameFlow
namespace Pipeline

/-- Makes an identifier resident in a stage. -/
def settle (p : Pipeline) (id : Int) (stage : Nat) : Pipeline :=
  { p with
    stages := p.stages.modify stage (·.add id)
    places := p.places.set id (.stage stage) }

/-- Makes identifiers resident in a stage. -/
def settleAll (p : Pipeline) (ids : List Int) (stage : Nat) : Pipeline :=
  ids.foldl (fun p id => p.settle id stage) p

/-- Takes an identifier out of a stage. -/
def leave (p : Pipeline) (id : Int) (stage : Nat) : Pipeline :=
  { p with stages := p.stages.modify stage (·.drop id) }

/-! ### Coming and going -/

/-- Takes in a frame under the next identifier. -/
def arrive (p : Pipeline) (f : Frame) (stage : Nat) : Pipeline :=
  let id := p.lastId + 1
  { p with lastId := id, frames := p.frames.set id f }.settle id stage

/-- Puts a new frame into a stage and answers its identifier. -/
def addFrame (p : Pipeline) (stage : String) (f : Frame) : Outcome Int :=
  match p.destinationFor stage .frame with
  | .error e => .refuse p e []
  | .ok i =>
    let id := p.lastId + 1
    ⟨.ok id, p.arrive f i, [.frameAdded p.name id stage]⟩

/-- Forgets the frames of a batch. -/
def forget (p : Pipeline) (members : List Int) : Pipeline :=
  members.foldl (fun p id => { p with frames := p.frames.erase id, places := p.places.erase id }) p

/-- Takes an identifier out of its stage, with what waits under it. -/
def depart (p : Pipeline) (id : Int) (stage : Nat) : Pipeline :=
  { p.leave id stage with places := p.places.erase id, queue := (p.queue.clear id).2 }

/-- Takes out a single frame. -/
def dropFrame (p : Pipeline) (id : Int) (stage : Nat) : Pipeline :=
  { p.depart id stage with frames := p.frames.erase id }

/-- Takes out a batch with its frames. -/
def dropBatch (p : Pipeline) (id : Int) (stage : Nat) (b : Batch) : Pipeline :=
  { p.depart id stage with batches := p.batches.erase id }.forget b.members

/-- Takes out a single frame, or a batch with its frames, and what waits under it. -/
def delete (p : Pipeline) (id : Int) : Outcome Unit :=
  match p.places.get? id with
  | none => .refuse p (.unknownId id) []
  | some (.batch _) => .refuse p (.notIndependent id) []
  | some (.stage i) =>
    let next :=
      if p.frames.contains id then p.dropFrame id i
      else match p.batches.get? id with
        | none => p.depart id i
        | some b => p.dropBatch id i b
    ⟨.ok (), next, [.deleted p.name id]⟩

/-! ### Moving -/

/-- Goes through requested identifiers and notes from which stage each comes. Repeated ones count
once. Unknown ones are left out or refused as the pipeline says. -/
def planMove (p : Pipeline) (dest : Stage) :
    List Int → List Int → Except Error (List (Int × Nat)) × List Event
  | _, [] => (.ok [], [])
  | seen, id :: ids =>
    if seen.contains id then p.planMove dest seen ids
    else match p.places.get? id with
      | none =>
        match p.missingIds with
        | .abort => (.error (.unknownId id), [])
        | .skip =>
          let (plan, events) := p.planMove dest (id :: seen) ids
          (plan, .skipped p.name id :: events)
      | some (.batch _) => (.error (.notIndependent id), [])
      | some (.stage i) =>
        match p.stages[i]? with
        | none => (.error (.unknownId id), [])
        | some source =>
          match expect dest source.payload with
          | .error e => (.error e, [])
          | .ok () =>
            let (plan, events) := p.planMove dest (id :: seen) ids
            (((id, i) :: ·) <$> plan, events)

/-- Carries out a plan. -/
def relocate (p : Pipeline) (dest : Nat) (plan : List (Int × Nat)) : Pipeline :=
  plan.foldl (fun p (id, source) => (p.leave id source).settle id dest) p

/-- What a move is about: the listed identifiers, or everything in the stage before. -/
def requested (p : Pipeline) (dest : Nat) (ids : List Int) : List Int :=
  if ids.isEmpty then
    match dest with
    | 0 => []
    | before + 1 => ((p.stages[before]?).map fun s => s.residents.toList).getD []
  else ids

/-- Moves frames or batches unchanged and answers how many were moved. -/
def move (p : Pipeline) (stage : String) (ids : List Int) : Outcome Nat :=
  match p.destination stage with
  | .error e => .refuse p e []
  | .ok (dest, s) =>
    if ids.isEmpty && dest == 0 then ⟨.ok 0, p, []⟩
    else match p.planMove s [] (p.requested dest ids) with
      | (.error e, events) => .refuse p e events
      | (.ok plan, events) =>
        ⟨.ok plan.length, p.relocate dest plan, events ++ [.moved p.name stage plan.length]⟩

/-! ### Packing -/

/-- The stages of frames to be packed: they have to be different single frames. -/
def planPack (p : Pipeline) : List Int → List Int → Except Error (List (Int × Nat))
  | _, [] => .ok []
  | seen, id :: ids =>
    if seen.contains id then .error (.repeatedFrame id)
    else do
      let source ← p.independentStage id
      let rest ← p.planPack (id :: seen) ids
      return (id, source) :: rest

/-- Takes frames out of their stages into a batch. -/
def enclose (p : Pipeline) (batch : Int) (plan : List (Int × Nat)) : Pipeline :=
  plan.foldl (fun p (id, source) =>
    { p.leave id source with places := p.places.set id (.batch batch) }) p

/-- Takes what waits under identifiers, in their order. -/
def takeAll (q : Queue) : List Int → List Pending × Queue
  | [] => ([], q)
  | id :: ids =>
    let (taken, q') := q.take id
    let (rest, q'') := takeAll q' ids
    (taken.getD [] ++ rest, q'')

/-- Puts frames into a batch under the next identifier. What waits under them goes with them. -/
def bundle (p : Pipeline) (ids : List Int) (plan : List (Int × Nat)) (dest : Nat) : Pipeline :=
  let id := p.lastId + 1
  let (carried, queue) := takeAll p.queue ids
  let enclosed := { p with lastId := id }.enclose id plan
  { enclosed with
    batches := enclosed.batches.set id ⟨id, ids⟩
    queue := queue.extend id carried }.settle id dest

/-- Packs single frames into a new batch and answers its identifier. -/
def pack (p : Pipeline) (stage : String) (ids : List Int) : Outcome Int :=
  if ids.isEmpty then .refuse p .emptyBatch []
  else
    let plan := do
      let dest ← p.destinationFor stage .batch
      let plan ← p.planPack [] ids
      return (dest, plan)
    match plan with
    | .error e => .refuse p e []
    | .ok (dest, plan) =>
      let id := p.lastId + 1
      let carried := (takeAll p.queue ids).1
      ⟨.ok id, p.bundle ids plan dest,
        [.carried id ids.length carried.length, .packed p.name ids.length id stage]⟩

/-! ### Unpacking -/

/-- Puts updates back under the frames that they are meant for. -/
def scatter (q : Queue) (ps : List Pending) : Queue := ps.foldl (fun q u => q.push u.frame u) q

/-- Dissolves a batch into a stage. -/
def dissolve (p : Pipeline) (source dest : Nat) (b : Batch) : Pipeline :=
  let (waiting, queue) := p.queue.take b.id
  let gone := { p.leave b.id source with
    batches := p.batches.erase b.id
    places := p.places.erase b.id
    queue := scatter queue (waiting.getD []) }
  gone.settleAll b.members dest

/-- The stage of a batch, the stage it is to be unpacked into, and the batch. -/
def unpackRoute (p : Pipeline) (stage : String) (id : Int) : Except Error (Nat × Nat × Batch) := do
  let dest ← p.destinationFor stage .frame
  let source ← p.batchStage id
  match p.batches.get? id with
  | none => .error (.notBatch id)
  | some b => return (source, dest, b)

/-- What an unpacking that asks first answers. -/
inductive Unpacked where
  | members (ids : List Int)
  | needs (count : Nat)
deriving DecidableEq, Repr

/-- Dissolves a batch if the number of its members is accepted. -/
def unpackIf (p : Pipeline) (stage : String) (id : Int) (accept : Nat → Bool) : Outcome Unpacked :=
  match p.unpackRoute stage id with
  | .error e => .refuse p e []
  | .ok (source, dest, b) =>
    let count := b.members.length
    if accept count then
      ⟨.ok (.members b.members), p.dissolve source dest b, [.unpacked p.name id count stage]⟩
    else ⟨.ok (.needs count), p, []⟩

/-- Dissolves a batch and answers its members in the order of packing. -/
def unpack (p : Pipeline) (stage : String) (id : Int) : Outcome (List Int) :=
  match p.unpackRoute stage id with
  | .error e => .refuse p e []
  | .ok (source, dest, b) =>
    ⟨.ok b.members, p.dissolve source dest b, [.unpacked p.name id b.members.length stage]⟩

end Pipeline
end FrameFlow
