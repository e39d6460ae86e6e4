/-
# What changes the contents of a frame

There are two ways to the contents of a frame. A direct setter writes one field of
one detection of it, and an accepted commit under its keeper writes what its
updates make of it. Whatever else is done leaves each frame that stays as it is,
and shows the same to every reader. Staging shows nowhere: what is staged under an
identifier under which nothing waits is dropped again without a trace.

Key definitions: `Operation.Rewrites`, `Pipeline.LooksSame`, `Pipeline.ContentsKept`.
Key theorems: `Pipeline.rewrites_run`, `Pipeline.DiffersUnder.discard`,
`Pipeline.contents_kept`.
-/
import FrameFlow.Proofs.Frame.Detections
import FrameFlow.Proofs.Pipeline.Refusals

namespace FrameFlow

/-- A setter of a field changes the detection that it addresses, and leaves every other frame, and a
frame without this detection. -/
def Frame.AfterSetter (x : Int) (f g : Frame) (frame : Int) (id : Int64)
    (change : Detection → Detection) : Prop :=
  if frame = x ∧ f.has id then f.Rewritten id change g else g = f

/-- What an operation makes of a frame that stays in the pipeline. -/
def Operation.Rewrites (p : Pipeline) (x : Int) (f g : Frame) : Operation → Prop
  | .setConfidence frame id confidence =>
    Frame.AfterSetter x f g frame id fun d => { d with confidence := confidence }
  | .setBox frame id box => Frame.AfterSetter x f g frame id fun d => { d with box := box }
  | .setTrack frame id track => Frame.AfterSetter x f g frame id fun d => { d with track := track }
  | .commit id =>
    g = f ∨ (p.commit id).answer = .ok true ∧ (id = x ∨ p.locate x = some (.batch id))
  | _ => g = f

/-- What touches no frame: to move, pack and unpack, to stage updates and to drop them, and a commit
that answers no or is refused. -/
def Operation.Quiet (p : Pipeline) : Operation → Prop
  | .move .. | .pack .. | .unpack .. | .unpackIf .. => True
  | .enqueue .. | .enqueueBatched .. | .discard _ => True
  | .commit id => (p.commit id).answer ≠ .ok true
  | .addFrame .. | .delete _ | .setConfidence .. | .setBox .. | .setTrack .. => False

/-- To stage an update under an identifier. -/
def Operation.StagesUnder (id : Int) : Operation → Prop
  | .enqueue k _ | .enqueueBatched k _ _ => k = id
  | _ => False

namespace Pipeline

variable {p q : Pipeline}

/-! ### Operations that touch no frame -/

theorem frames_move (stage : String) (ids : List Int) :
    (p.move stage ids).next.frames = p.frames := by
  unfold move
  split
  · rfl
  · split
    · rfl
    · split
      · rfl
      · exact (reseated_relocate p _ _).frames

theorem frames_pack (stage : String) (ids : List Int) :
    (p.pack stage ids).next.frames = p.frames := by
  unfold pack
  split
  · rfl
  · simp only
    split
    · rfl
    · exact frames_bundle _ _ _ ids

theorem frames_unpack (stage : String) (id : Int) : (p.unpack stage id).next.frames = p.frames := by
  unfold unpack
  split
  · rfl
  · exact frames_dissolve _ _ _ _

theorem frames_unpackIf (stage : String) (id : Int) (accept : Nat → Bool) :
    (p.unpackIf stage id accept).next.frames = p.frames := by
  unfold unpackIf
  split
  · rfl
  · simp only
    split
    · exact frames_dissolve _ _ _ _
    · rfl

theorem frames_enqueue (id : Int) (u : Update) : (p.enqueue id u).next.frames = p.frames := by
  rcases enqueue_cases (p := p) id u with ⟨e, refused⟩ | ⟨_, -, -, staged⟩
  · rw [refused]; rfl
  · rw [staged]

theorem frames_enqueueBatched (h : p.Consistent) (batch id : Int) (u : Update) :
    (p.enqueueBatched batch id u).next.frames = p.frames := by
  rcases enqueueBatched_cases h batch id u with ⟨e, refused⟩ | ⟨-, -, staged⟩
  · rw [refused]; rfl
  · rw [staged]

theorem frames_quiet (h : p.Consistent) {op : Operation} (quiet : op.Quiet p) :
    (op.run p).2.frames = p.frames := by
  cases op with
  | addFrame stage f => cases quiet
  | delete id => cases quiet
  | move stage ids => exact frames_move stage ids
  | pack stage ids => exact frames_pack stage ids
  | unpack stage batch => exact frames_unpack stage batch
  | unpackIf stage batch accept => exact frames_unpackIf stage batch accept
  | enqueue id u => exact frames_enqueue id u
  | enqueueBatched batch id u => exact frames_enqueueBatched h batch id u
  | commit id => exact congrArg Pipeline.frames (commit_refused quiet)
  | discard id => rfl
  | setConfidence frame id confidence => cases quiet
  | setBox frame id box => cases quiet
  | setTrack frame id track => cases quiet

/-! ### Every operation -/

/-- What is taken out is gone, and all other frames are as they were. -/
theorem get?_delete (h : p.Consistent) (id x : Int) : (p.delete id).next.frames.get? x = none ∨
    (p.delete id).next.frames.get? x = p.frames.get? x := by
  rcases delete_cases h id with ⟨e, refused⟩ | ⟨i, -, -, ⟨_, -, next⟩ | ⟨b, -, next⟩⟩
  · rw [refused]
    exact .inr rfl
  · rw [next, frames_dropFrame]
    split
    · exact .inl rfl
    · exact .inr rfl
  · rw [next, frames_dropBatch]
    split
    · exact .inl rfl
    · exact .inr rfl

section Rewrites

variable {x : Int} {f g : Frame} (before : p.frame? x = some f)
include before

/-- A frame that is the same in the table is the same. -/
theorem contents_of_get? (after : q.frame? x = some g)
    (same : q.frames.get? x = p.frames.get? x) : g = f := by
  have both : some g = some f := by
    calc some g = q.frames.get? x := after.symm
      _ = p.frames.get? x := same
      _ = some f := before
  exact Option.some.inj both

theorem contents_addFrame (h : p.Consistent) {stage : String} {new : Frame}
    (after : (p.addFrame stage new).next.frame? x = some g) : g = f := by
  have old : p.lastId + 1 ≠ x := h.frame_ne (Option.isSome_of_eq_some before)
  exact contents_of_get? before after ((movement_addFrame stage new).frames old)

theorem contents_delete (h : p.Consistent) {id : Int}
    (after : (p.delete id).next.frame? x = some g) : g = f := by
  have present : (p.delete id).next.frames.get? x = some g := after
  rcases get?_delete h id x with gone | same
  · rw [gone] at present
    cases present
  · exact contents_of_get? before after same

theorem contents_edit (frame : Int) (id : Int64) (change : Detection → Detection)
    (after : (p.edit frame id change).2.frame? x = some g) :
    Frame.AfterSetter x f g frame id change := by
  unfold Frame.AfterSetter
  by_cases meant : frame = x ∧ f.has id
  · obtain ⟨rfl, has⟩ := meant
    rw [if_pos ⟨rfl, has⟩]
    have written : p.edit frame id change =
        (true, { p with frames := p.frames.set frame (f.modify id change) }) := by
      have there : p.frames.get? frame = some f := before
      simp only [edit, there, has, if_true]
    rw [written] at after
    have new : some (f.modify id change) = some g :=
      (Table.get?_set_self p.frames frame (f.modify id change)).symm.trans after
    cases new
    exact Frame.rewritten_modify has change
  · rw [if_neg meant]
    rcases edit_cases (p := p) frame id change with no | ⟨f', there, written⟩
    · rw [no] at after
      exact contents_of_get? before after rfl
    · rw [written] at after
      refine contents_of_get? before after ?_
      by_cases e : frame = x
      · -- the frame has no such detection
        subst e
        cases (before.symm.trans there : some f = some f')
        have no : f.has id = false := by simpa using meant
        unfold edit at written
        rw [there] at written
        simp [no] at written
      · exact Table.get?_set_ne _ _ e

theorem contents_commit (h : p.Consistent) (a : p.Addressed) {id : Int}
    (after : (p.commit id).next.frame? x = some g) :
    g = f ∨ (p.commit id).answer = .ok true ∧ (id = x ∨ p.locate x = some (.batch id)) := by
  by_cases yes : (p.commit id).answer = .ok true
  · rcases commit_cases (p := p) id with
      ⟨no, -⟩ | ⟨ids, targets, waits, ⟨e, -, no, -⟩ | ⟨copies, -, -, next⟩⟩
    · rw [no] at yes
      cases yes
    · rw [no] at yes
      cases yes
    by_cases target : x ∈ ids
    · refine .inr ⟨yes, ?_⟩
      have keeper : p.keeper? x = some id := by
        rw [← a.mem_targets h waits (Option.isSome_of_eq_some before), targets]
        exact target
      rcases keeper?_eq_some_iff.mp keeper with ⟨rfl, -⟩ | packed
      · exact .inl rfl
      · right
        rw [locate, packed]
    · left
      rw [next] at after
      refine contents_of_get? before after ?_
      show (overwrite copies p.frames ids).get? x = p.frames.get? x
      rw [get?_overwrite, if_neg target]
  · left
    rw [commit_refused yes] at after
    exact contents_of_get? before after rfl

/-- Whatever is done, a frame that stays is what it was, but for the field that a setter writes and
for an accepted commit of its keeper. -/
theorem rewrites_run (h : p.Consistent) (a : p.Addressed) (op : Operation)
    (after : (op.run p).2.frame? x = some g) : op.Rewrites p x f g := by
  have still : op.Quiet p → g = f := fun quiet =>
    contents_of_get? before after (congrArg (Table.get? · x) (frames_quiet h quiet))
  cases op with
  | addFrame stage new => exact contents_addFrame before h after
  | delete id => exact contents_delete before h after
  | commit id => exact contents_commit before h a after
  | setConfidence frame id confidence => exact contents_edit before frame id _ after
  | setBox frame id box => exact contents_edit before frame id _ after
  | setTrack frame id track => exact contents_edit before frame id _ after
  | _ => exact still trivial

end Rewrites

/-! ### Readers -/

/-- Two pipelines show the same of a frame to every reader. -/
structure LooksSame (p q : Pipeline) (x : Int) : Prop where
  frame : q.frame? x = p.frame? x
  detection : ∀ id, q.detection? x id = p.detection? x id
  confidence : ∀ id, q.confidence? x id = p.confidence? x id
  box : ∀ id, q.box? x id = p.box? x id
  track : ∀ id, q.track? x id = p.track? x id
  text : ∀ id field, q.text? x id field = p.text? x id field
  reading : ∀ id scope name index,
    q.reading? x id scope name index = p.reading? x id scope name index
  frameReading : ∀ scope name index,
    q.frameReading? x scope name index = p.frameReading? x scope name index

/-- No reader looks at anything but the frame. -/
theorem LooksSame.of_frame {x : Int} (same : q.frame? x = p.frame? x) : p.LooksSame q x := by
  have frames : q.frames.get? x = p.frames.get? x := same
  have detection : ∀ id, q.detection? x id = p.detection? x id := by
    intro id
    rw [detection?, frames, detection?]
  refine ⟨same, detection, fun id => ?_, fun id => ?_, fun id => ?_, fun id field => ?_,
    fun id scope name index => ?_, fun scope name index => ?_⟩
  · rw [confidence?, detection, confidence?]
  · rw [box?, detection, box?]
  · rw [track?, detection, track?]
  · rw [text?, detection, text?]
  · rw [reading?, detection, reading?]
  · rw [frameReading?, frames, frameReading?]

/-! ### Staging and dropping again -/

/-- A pipeline differs from another only in what waits under an identifier. -/
structure DiffersUnder (p : Pipeline) (id : Int) (q : Pipeline) : Prop where
  rest : q = { p with queue := q.queue }
  tight : q.queue.Tight
  others : ∀ k, id ≠ k → q.queue.under k = p.queue.under k

namespace DiffersUnder

variable {id : Int} (d : p.DiffersUnder id q)
include d

theorem push (u : Pending) : p.DiffersUnder id { q with queue := q.queue.push id u } where
  rest := by rw [d.rest]
  tight := d.tight.put _ _
  others k ne := by
    show (q.queue.push id u).under k = p.queue.under k
    rw [Queue.under_push, if_neg ne]
    exact d.others k ne

theorem run (h : q.Consistent) {op : Operation} (stages : op.StagesUnder id) :
    p.DiffersUnder id (op.run q).2 := by
  cases op with
  | enqueue k u =>
    cases stages
    show p.DiffersUnder id (q.enqueue id u).next
    rcases enqueue_cases (p := q) id u with ⟨e, refused⟩ | ⟨_, -, -, staged⟩
    · rw [refused]; exact d
    · rw [staged]; exact d.push _
  | enqueueBatched k f u =>
    cases stages
    show p.DiffersUnder id (q.enqueueBatched id f u).next
    rcases enqueueBatched_cases h id f u with ⟨e, refused⟩ | ⟨-, -, staged⟩
    · rw [refused]; exact d
    · rw [staged]; exact d.push _
  | _ => cases stages

theorem after (h : q.Consistent) {ops : List Operation} (stages : ∀ op ∈ ops, op.StagesUnder id) :
    p.DiffersUnder id (q.after ops) := by
  induction ops generalizing q with
  | nil => exact d
  | cons op ops ih =>
    have step := d.run h (stages op List.mem_cons_self)
    have rest : ∀ op ∈ ops, op.StagesUnder id :=
      fun op hop => stages op (List.mem_cons_of_mem _ hop)
    exact ih step (h.effect (effect_run h op)) rest

/-- What waits under the identifier is dropped, and then nothing is different if nothing waited. -/
theorem discard (a : p.Addressed) (nothing : p.queue.under id = []) : (q.discard id).2 = p := by
  have queue : q.queue.put id [] = p.queue := by
    refine Queue.ext_under (d.tight.put id []) a.tight fun k => ?_
    rw [Queue.under_put]
    split
    · next e => rw [← e, nothing]
    · next ne => exact d.others k ne
  calc (q.discard id).2 = { q with queue := q.queue.put id [] } := by
        rw [Pipeline.discard, Queue.clear_eq]
    _ = { p with queue := q.queue.put id [] } := by rw [d.rest]
    _ = p := by rw [queue]

end DiffersUnder

/-! ### The contents of frames -/

/-- What can happen to the contents of frames. -/
structure ContentsKept (p : Pipeline) : Prop where
  /-- A frame that stays is what it was, but for the field that a direct setter writes and for an
  accepted commit of the frame or of the batch in which it is packed. -/
  rewrites : ∀ (op : Operation) x f g, p.frame? x = some f → (op.run p).2.frame? x = some g →
    op.Rewrites p x f g
  /-- Moving, packing, unpacking, staging, dropping, and commits that are not accepted are not seen
  by any reader. -/
  quiet : ∀ op : Operation, op.Quiet p → ∀ x, p.LooksSame (op.run p).2 x
  /-- Taking something out is not seen in a frame that stays. -/
  spared : ∀ id x, ((p.delete id).next.frame? x).isSome → p.LooksSame (p.delete id).next x
  /-- Where nothing waits, whatever is staged is dropped without a trace. -/
  unstaged : ∀ id (ops : List Operation), p.pending id = 0 → (∀ op ∈ ops, op.StagesUnder id) →
    ((p.after ops).discard id).2 = p

/-- **Frame contents change only by a direct setter or by an accepted commit.** -/
theorem contents_kept (reachable : p.Reachable) : p.ContentsKept where
  rewrites op x f g before after :=
    rewrites_run before reachable.consistent reachable.addressed op after
  quiet op quiet x :=
    .of_frame (congrArg (Table.get? · x) (frames_quiet reachable.consistent quiet))
  spared id x stays := by
    rcases get?_delete reachable.consistent id x with gone | same
    · rw [frame?, gone] at stays
      cases stays
    · exact .of_frame same
  unstaged id ops nothing stages := by
    have h := reachable.consistent
    have a := reachable.addressed
    have start : p.DiffersUnder id p := ⟨rfl, a.tight, fun _ _ => rfl⟩
    exact (start.after h stages).discard a (List.length_eq_zero_iff.mp nothing)

/-- In the sample, the batch is committed, so that nothing waits under it; then the removal of an
attribute that one of its members has is staged under it, one for a frame that is not in it is
refused, and both are gone when they are dropped. -/
theorem contents_kept_sample : (sample.after [.commit 3]).Reachable ∧
    (sample.after [.commit 3]).pending 3 = 0 ∧
    (((sample.after [.commit 3]).after
      [.enqueueBatched 3 1 ⟨[.removeFrameAttribute "model" "seen"]⟩,
        .enqueueBatched 3 9 ⟨[.removeFrameAttribute "model" "seen"]⟩]).discard 3).2 =
      sample.after [.commit 3] :=
  have reachable := reachable_sample.after [.commit 3]
  ⟨reachable, by decide,
    (contents_kept reachable).unstaged 3 _ (by decide) (by simp [Operation.StagesUnder])⟩

end Pipeline
end FrameFlow
