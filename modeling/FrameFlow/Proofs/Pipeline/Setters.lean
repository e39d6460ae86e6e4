/-
# Setting a field directly, and by an update

A field of a detection can be set on the frame itself, or by a command that is
staged and committed. Where nothing else waits, both are one: an update that waits
alone is, when it is committed, what it makes of its frame, and nothing waits any
more (`Pipeline.commit_alone`). The direct call says no just where the commit is
refused, because the detection is not there.

Key definitions: `Setter`, `Pipeline.SetsAlike`.
Key theorems: `Pipeline.commit_alone`, `Pipeline.sets_alike`.
-/
import FrameFlow.Proofs.Pipeline.Acceptance
import FrameFlow.Proofs.Pipeline.Agreement
import FrameFlow.Proofs.Pipeline.Transactions

namespace FrameFlow

/-! ### Setters -/

/-- What can be set on a detection without staging it. Nothing is set where a confidence or a track
is cleared. -/
inductive Setter where
  | confidence (confidence : Option Single)
  | box (box : Box)
  | track (track : Option Track)
deriving DecidableEq

namespace Setter

/-- The detection that a setter leaves. -/
def change : Setter → Detection → Detection
  | confidence c, d => { d with confidence := c }
  | box b, d => { d with box := b }
  | track t, d => { d with track := t }

/-- The direct call. -/
def direct (p : Pipeline) (frame : Int) (id : Int64) : Setter → Bool × Pipeline
  | confidence c => p.setConfidence frame id c
  | box b => p.setBox frame id b
  | track t => p.setTrack frame id t

/-- The command that sets the same. -/
def command (id : Int64) : Setter → Command
  | confidence c => .setConfidence id c
  | box b => .setBox id b
  | track t => .setTrack id t

/-- The update of this command alone. -/
def update (s : Setter) (id : Int64) : Update := ⟨[s.command id]⟩

theorem direct_eq (s : Setter) (p : Pipeline) (frame : Int) (id : Int64) :
    s.direct p frame id = p.edit frame id s.change := by
  cases s with
  | confidence c => rfl
  | box b => rfl
  | track t => rfl

theorem apply_update (s : Setter) (id : Int64) (x : Int) (f : Frame) :
    (s.update id).apply x f = f.edit x id s.change := by
  have one : (s.command id).apply x f = f.edit x id s.change := by
    cases s with
    | confidence c => rfl
    | box b => rfl
    | track t => rfl
  simp only [Update.apply, Update.run, update, Update.runList, one]
  rcases f.edit x id s.change with e | g
  · rfl
  · rfl

end Setter

namespace Pipeline

/-- The pipeline with one more update under an identifier. -/
def waiting (p : Pipeline) (k : Int) (u : Pending) : Pipeline :=
  { p with queue := p.queue.push k u }

/-- What a setter does directly to a detection of a frame, it does when it is staged, with an
outcome `o`, under an identifier `k` that is then committed. -/
structure SetsAlike (p : Pipeline) (s : Setter) (frame : Int) (id : Int64) (k : Int)
    (o : Outcome Unit) : Prop where
  /-- The update is staged. -/
  staged : o.answer = .ok ()
  /-- The direct call says yes just where the commit does. -/
  answer : (s.direct p frame id).1 = true ↔ (o.next.commit k).answer = .ok true
  /-- Then both leave the same pipeline. -/
  next : (s.direct p frame id).1 = true → (o.next.commit k).next = (s.direct p frame id).2
  /-- Otherwise the commit is refused, since there is no such detection. -/
  refused : (s.direct p frame id).1 = false →
    (o.next.commit k).answer = .error (.updateFailed k (.detectionNotFound frame id))
  /-- Then neither does anything. -/
  kept : (s.direct p frame id).1 = false →
    (s.direct p frame id).2 = p ∧ (o.next.commit k).next = o.next

variable {p : Pipeline}

/-! ### An update that waits alone -/

section Alone

variable (h : p.Consistent) (a : p.Addressed) {k x : Int} {f : Frame}
  (there : p.frames.get? x = some f) (keeper : p.keeper? x = some k)
  (nothing : p.queue.under k = [])
include h a there keeper nothing

/-- A commit of one update makes of the frame what the update does, and leaves nothing behind; an
update that is refused still waits. -/
theorem commit_alone (u : Update) :
    (∀ e, u.apply x f = .error e →
      ((p.waiting k ⟨x, u⟩).commit k).answer = .error (.updateFailed k e) ∧
        ((p.waiting k ⟨x, u⟩).commit k).next = p.waiting k ⟨x, u⟩) ∧
    ∀ f', u.apply x f = .ok f' → ((p.waiting k ⟨x, u⟩).commit k).answer = .ok true ∧
      ((p.waiting k ⟨x, u⟩).commit k).next = { p with frames := p.frames.set x f' } := by
  have effect : p.Effect (p.waiting k ⟨x, u⟩) := .enqueue (Option.isSome_of_eq_some there) keeper
  have alone : (p.queue.push k ⟨x, u⟩).under k = [⟨x, u⟩] := by
    rw [Queue.under_push, if_pos rfl, nothing, List.nil_append]
  have waits : (p.waiting k ⟨x, u⟩).queue.under k ≠ [] := by simp [waiting, alone]
  have emptied : (p.queue.push k ⟨x, u⟩).put k [] = p.queue := by
    refine Queue.ext_under ((a.tight.put _ _).put _ _) a.tight fun j => ?_
    rw [Queue.under_put, Queue.under_push]
    by_cases e : k = j
    · rw [if_pos e, ← e, nothing]
    · rw [if_neg e, if_neg e]
  have done := commit_execute (h.effect effect) (a.effect h effect) waits
  have run : execute (p.waiting k ⟨x, u⟩).frames (u.commands.map (fun c => (x, c)) ++ []) = _ :=
    execute_update x [] u.commands there
  have script : script ((p.waiting k ⟨x, u⟩).queue.under k) =
      u.commands.map (fun c => (x, c)) ++ [] := by
    rw [waiting, alone, script_cons]
    rfl
  rw [script] at done
  constructor
  · intro e refused
    rw [show Update.apply x f ⟨u.commands⟩ = .error e from refused] at run
    rw [run] at done
    exact done
  · intro f' accepted
    rw [show Update.apply x f ⟨u.commands⟩ = .ok f' from accepted] at run
    rw [run] at done
    obtain ⟨yes, next⟩ := done
    refine ⟨yes, ?_⟩
    calc ((p.waiting k ⟨x, u⟩).commit k).next
        = { p with frames := p.frames.set x f', queue := (p.queue.push k ⟨x, u⟩).put k [] } := next
      _ = { p with frames := p.frames.set x f' } := by rw [emptied]

/-- A setter that waits alone does what the direct call does. -/
theorem setsAlike_alone (s : Setter) (id : Int64) :
    p.SetsAlike s x id k ⟨.ok (), p.waiting k ⟨x, s.update id⟩, []⟩ := by
  obtain ⟨whenRefused, whenAccepted⟩ := commit_alone h a there keeper nothing (s.update id)
  by_cases has : f.has id
  · -- the detection is there: the commit is accepted, and so is the direct call
    have edited : f.edit x id s.change = .ok (f.modify id s.change) := by
      simp only [Frame.edit, has, if_true]
    have direct : s.direct p x id =
        (true, { p with frames := p.frames.set x (f.modify id s.change) }) := by
      rw [s.direct_eq, Pipeline.edit, there]
      simp only [has, if_true]
    obtain ⟨yes, next⟩ := whenAccepted _ ((s.apply_update id x f).trans edited)
    constructor <;> simp [direct, yes, next]
  · have edited : f.edit x id s.change = .error (.detectionNotFound x id) := by
      simp only [Frame.edit, has, if_false, Bool.false_eq_true]
    have direct : s.direct p x id = (false, p) := by
      rw [s.direct_eq, Pipeline.edit, there]
      simp only [has, if_false, Bool.false_eq_true]
    obtain ⟨refused, next⟩ := whenRefused _ ((s.apply_update id x f).trans edited)
    constructor <;> simp [direct, refused, next]

end Alone

/-! ### Single and packed frames -/

/-- **Setters and updates agree.** In every reachable pipeline, what a setter does to any detection
of a single frame under which nothing waits is what a commit of its command does; and so it is with
a packed frame, when nothing waits under its batch and the command is staged there. -/
theorem sets_alike (reachable : p.Reachable) (s : Setter) (frame : Int) (id : Int64) :
    (p.Independent frame → p.pending frame = 0 →
      p.SetsAlike s frame id frame (p.enqueue frame (s.update id))) ∧
    ∀ k, p.locate frame = some (.batch k) → p.pending k = 0 →
      p.SetsAlike s frame id k (p.enqueueBatched k frame (s.update id)) := by
  have h := reachable.consistent
  have a := reachable.addressed
  constructor
  · intro single nothing
    obtain ⟨f, there⟩ := Option.isSome_iff_exists.mp single.frame
    obtain ⟨i, place⟩ := single.place
    obtain ⟨_, stands⟩ := single.independentStage
    have keeper : p.keeper? frame = some frame := keeper?_eq_some_iff.mpr (.inl ⟨rfl, i, place⟩)
    have staged : p.enqueue frame (s.update id) =
        ⟨.ok (), p.waiting frame ⟨frame, s.update id⟩, []⟩ := by
      rw [enqueue, stands]
      rfl
    rw [staged]
    exact setsAlike_alone h a there keeper (List.length_eq_zero_iff.mp nothing) s id
  · intro k packed nothing
    obtain ⟨b, batch, member⟩ := h.locate_eq_batch_iff.mp packed
    have place : p.places.get? frame = some (.batch k) := h.packed_iff.mpr ⟨b, batch, member⟩
    obtain ⟨f, -, there, -⟩ := h.packed place
    have keeper : p.keeper? frame = some k := keeper?_eq_some_iff.mpr (.inr place)
    have has : b.has frame := by simpa [Batch.has] using member
    have staged : p.enqueueBatched k frame (s.update id) =
        ⟨.ok (), p.waiting k ⟨frame, s.update id⟩, []⟩ := by
      rw [enqueueBatched, show p.batches.get? k = some b from batch]
      simp only [has, if_true]
      rfl
    rw [staged]
    exact setsAlike_alone h a there keeper (List.length_eq_zero_iff.mp nothing) s id

/-- Two frames with a detection each, one in a stage and one in a batch. -/
def observed : Pipeline :=
  let f : Frame := { Frame.blank "camera" 0 with detections := [.plain 7 "model" "car" default] }
  (ofConfig sampleConfig).after [.addFrame "in" f, .addFrame "in" f, .pack "packs" [2]]

theorem reachable_observed : observed.Reachable :=
  ⟨sampleConfig, _, _, _, create_of_check rfl, rfl⟩

def observedTrack : Track := ⟨default, 5⟩

/-- The detection in the single frame gets a confidence, and the one in the packed frame a track,
directly or by an update; the packed frame has no detection 8 whose track could be cleared. -/
theorem sets_alike_observed : observed.Reachable ∧
    (((observed.enqueue 1 ((Setter.confidence (some .zero)).update 7)).next.commit 1).next =
        (observed.setConfidence 1 7 (some .zero)).2 ∧
      observed.confidence? 1 7 = none ∧
      (observed.setConfidence 1 7 (some .zero)).2.confidence? 1 7 = some .zero) ∧
    (((observed.enqueueBatched 3 2 ((Setter.track observedTrack).update 7)).next.commit 3).next =
        (observed.setTrack 2 7 observedTrack).2 ∧
      observed.track? 2 7 = none ∧
      (observed.setTrack 2 7 observedTrack).2.track? 2 7 = some observedTrack) ∧
    ((observed.enqueueBatched 3 2 ((Setter.track none).update 8)).next.commit 3).answer =
      .error (.updateFailed 3 (.detectionNotFound 2 8)) := by
  have single := (sets_alike reachable_observed (.confidence (some .zero)) 1 7).1
    ⟨by decide, "in", .frame, by decide⟩ (by decide)
  have packed := (sets_alike reachable_observed (.track observedTrack) 2 7).2 3
    (by decide) (by decide)
  have missing := (sets_alike reachable_observed (.track none) 2 8).2 3 (by decide) (by decide)
  exact ⟨reachable_observed, ⟨single.next rfl, rfl, rfl⟩, ⟨packed.next rfl, rfl, rfl⟩,
    missing.refused rfl⟩

end Pipeline
end FrameFlow
