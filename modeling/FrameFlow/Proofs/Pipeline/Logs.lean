/-
# Updates follow their frames

No update is lost, doubled, reordered or moved to another frame. Staging adds to
one log at its end, a commit or a discard that finds something empties the logs
that it is about, and no other operation is seen in the log of a frame that
stays (`Operation.logged`). Over a whole run, a log is what the operations of the
run made of it, one after another (`Pipeline.replay`).

Key definitions: `Operation.logged`, `Pipeline.replay`, `Pipeline.LogsFollow`.
Key theorem: `Pipeline.logs_follow`.
-/
import Mathlib
import FrameFlow.Proofs.Pipeline.Refusals

namespace FrameFlow

/-- What an operation that answers so makes of the log of a frame: staging adds to the log of its
frame, a commit or a discard of something empties the logs of what it is about, and nothing else is
seen in a log. -/
def Operation.logged (p : Pipeline) (f : Int) (log : List Pending) :
    Operation → Reply → List Pending
  | .enqueue g u, .done => if g = f then log ++ [⟨g, u⟩] else log
  | .enqueueBatched _ g u, .done => if g = f then log ++ [⟨g, u⟩] else log
  | .commit id, .flag true => if f ∈ (p.targets id).getD [] then [] else log
  | .discard id, .flag true => if f ∈ (p.targets id).getD [] then [] else log
  | _, _ => log

namespace Pipeline

variable {p : Pipeline}

/-! ### Every operation -/

section Step

variable (a : p.Addressed) (h : p.Consistent)
include a h

theorem log_commit (id : Int) {f : Int} (hf : (p.frames.get? f).isSome) :
    (p.commit id).next.log f =
      (Operation.commit id).logged p f (p.log f) (Operation.run p (.commit id)).1 := by
  simp only [Operation.run, Outcome.replied]
  rcases commit_cases (p := p) id with ⟨answer, next, -⟩ |
    ⟨ids, ht, waits, ⟨e, -, answer, next⟩ | ⟨copies, -, answer, next⟩⟩
  · rw [answer, next]; rfl
  · rw [answer, next]; rfl
  · rw [answer, next, log_put_nil]
    simp only [Reply.ofExcept, Operation.logged]
    simp only [a.mem_targets h waits hf]

theorem log_discard (id : Int) {f : Int} (hf : (p.frames.get? f).isSome) :
    (p.discard id).2.log f =
      (Operation.discard id).logged p f (p.log f) (Operation.run p (.discard id)).1 := by
  simp only [Operation.run, Reply.ofFlag, discard, Queue.clear_eq]
  rw [log_put_nil]
  by_cases waits : p.queue.under id = []
  · -- nothing waits there, and all frames are kept elsewhere or have no updates
    simp only [waits, ne_eq, not_true_eq_false, decide_false, Operation.logged]
    split
    · next keeper =>
      rw [a.log_eq h hf keeper, waits, List.filter_nil]
    · rfl
  · simp only [waits, ne_eq, not_false_eq_true, decide_true, Operation.logged]
    simp only [a.mem_targets h waits hf]

/-- What an operation makes of the log of a frame that stays. -/
theorem log_run (op : Operation) {f : Int} (hf : (p.frames.get? f).isSome)
    (hf' : ((op.run p).2.frames.get? f).isSome) :
    (op.run p).2.log f = op.logged p f (p.log f) (op.run p).1 := by
  cases op with
  | addFrame stage g => exact keepsLogs_movement a h (movement_addFrame stage g) f hf hf'
  | move stage ids => exact keepsLogs_movement a h (movement_move stage ids) f hf hf'
  | pack stage ids => exact keepsLogs_movement a h (movement_pack stage ids) f hf hf'
  | unpack stage batch => exact keepsLogs_movement a h (movement_unpack h stage batch) f hf hf'
  | unpackIf stage batch accept =>
    exact keepsLogs_movement a h (movement_unpackIf h stage batch accept) f hf hf'
  | delete id =>
    change (p.delete id).next.log f = p.log f
    change ((p.delete id).next.frames.get? f).isSome at hf'
    rcases delete_cases h id with ⟨e, hd⟩ | ⟨i, hp, -, ⟨g, hg, next⟩ | ⟨b, hb, next⟩⟩
    · rw [hd]; rfl
    · rw [next] at hf' ⊢
      exact keepsLogs_dropFrame a h hp hg f hf hf'
    · rw [next] at hf' ⊢
      exact keepsLogs_dropBatch a h hp hb f hf hf'
  | enqueue g u =>
    simp only [Operation.run, Outcome.replied]
    rcases enqueue_cases (p := p) g u with ⟨e, he⟩ | ⟨i, hp, hg, he⟩
    · rw [he]; rfl
    · rw [he]
      exact log_push h hf (keeper?_eq_some_iff.mpr (.inl ⟨rfl, i, hp⟩))
  | enqueueBatched batch g u =>
    simp only [Operation.run, Outcome.replied]
    rcases enqueueBatched_cases h batch g u with ⟨e, he⟩ | ⟨hp, hg, he⟩
    · rw [he]; rfl
    · rw [he]
      exact log_push h hf (keeper?_eq_some_iff.mpr (.inr hp))
  | commit id => exact log_commit a h id hf
  | discard id => exact log_discard a h id hf
  | setConfidence g id confidence => exact log_edit g id _
  | setBox g id box => exact log_edit g id _
  | setTrack g id track => exact log_edit g id _

/-- A frame that comes in has no updates. -/
theorem log_addFrame {stage : String} {g : Frame} {id : Int}
    (answer : (p.addFrame stage g).answer = .ok id) : (p.addFrame stage g).next.log id = [] := by
  unfold addFrame at answer ⊢
  split at answer
  · cases answer
  · next i hd =>
    cases answer
    have place : (p.arrive g i).places.get? (p.lastId + 1) = some (.stage i) :=
      Table.get?_set_self _ _ _
    have waits : (p.arrive g i).queue.under (p.lastId + 1) = [] := under_next a h
    unfold log
    simp only
    rw [place]
    exact waits

end Step

/-! ### Counting -/

/-- Updates for some frames are counted frame by frame. -/
theorem length_eq_sum : ∀ (fs : List Int) (us : List Pending), fs.Nodup → (∀ u ∈ us, u.frame ∈ fs) →
    us.length = (fs.map fun f => (us.filter fun u => u.frame = f).length).sum
  | [], us, _, all => by
    have none : us = [] := List.eq_nil_iff_forall_not_mem.mpr fun u hu => by cases all u hu
    rw [none]
    rfl
  | f :: fs, us, nodup, all => by
    obtain ⟨fresh, nodup⟩ := List.nodup_cons.mp nodup
    -- those for the first frame, and the others
    have split := List.length_eq_length_filter_add (l := us) fun u => decide (u.frame = f)
    have others : ∀ u ∈ us.filter fun u => !decide (u.frame = f), u.frame ∈ fs := by
      intro u hu
      obtain ⟨hu, ne⟩ := List.mem_filter.mp hu
      have ne : u.frame ≠ f := by simpa using ne
      exact (List.mem_cons.mp (all u hu)).resolve_left ne
    have ih := length_eq_sum fs _ nodup others
    have same : ∀ g ∈ fs, ((us.filter fun u => !decide (u.frame = f)).filter fun u => u.frame = g) =
        us.filter fun u => u.frame = g := by
      intro g hg
      rw [List.filter_filter]
      refine List.filter_congr fun u _ => ?_
      by_cases e : u.frame = g
      · have ne : g ≠ f := by
          rintro rfl
          exact fresh hg
        simp [e, ne]
      · simp [e]
    rw [List.map_cons, List.sum_cons, split, ih]
    congr 2
    exact List.map_congr_left fun g hg => by rw [same g hg]

/-- As many updates wait under a single frame as there are in its log. -/
theorem pending_single {f : Int} {i : Nat} (hp : p.places.get? f = some (.stage i)) :
    p.pending f = (p.log f).length := by
  unfold log
  rw [hp]
  rfl

/-- As many updates wait under a batch as there are in the logs of its members together. -/
theorem pending_batch (a : p.Addressed) (h : p.Consistent) {k : Int} {b : Batch}
    (hb : p.batches.get? k = some b) :
    p.pending k = (b.members.map fun m => (p.log m).length).sum := by
  obtain ⟨-, -, -, distinct, members⟩ := h.batch hb
  have all : ∀ u ∈ p.queue.under k, u.frame ∈ b.members := fun u hu => a.frame_mem h hb hu
  refine (length_eq_sum _ _ distinct all).trans
    (congrArg List.sum (List.map_congr_left fun m hm => ?_))
  unfold log
  rw [members m hm]

/-! ### Runs -/

/-- The log of a frame after some operations: what each of them, with its reply, makes of it. -/
def replay (p : Pipeline) (f : Int) (log : List Pending) : List Operation → List Pending
  | [] => log
  | op :: ops => replay (op.run p).2 f (op.logged p f log (op.run p).1) ops

/-- The log of a frame that is there before and after a run is what the operations made of it. -/
theorem log_after (ops : List Operation) {f : Int} (h : p.Consistent) (a : p.Addressed)
    (hf : (p.frames.get? f).isSome) (hf' : ((p.after ops).frames.get? f).isSome) :
    (p.after ops).log f = p.replay f (p.log f) ops := by
  induction ops generalizing p with
  | nil => rfl
  | cons op ops ih =>
    have e := effect_run h op
    have between := live_between h op ops hf hf'
    have step := log_run a h op hf between
    have rest := ih (h.effect e) (a.effect h e) between hf'
    rw [step] at rest
    exact rest

/-! ### The queue and the logs -/

/-- The queue is told from outside as one log for each frame. -/
structure LogsFollow (p : Pipeline) : Prop where
  /-- All that waits for a frame is meant for it. -/
  own : ∀ f, (p.frame? f).isSome → ∀ u ∈ p.log f, u.frame = f
  /-- Frames that come in have no updates. -/
  new : ∀ stage g id, (p.addFrame stage g).answer = .ok id → (p.addFrame stage g).next.log id = []
  /-- Only a deletion takes frames out, unless it is refused. -/
  stay : ∀ op : Operation, (∀ id, op ≠ .delete id) ∨ (op.run p).1.isRefusal →
    ∀ f, (p.frame? f).isSome → ((op.run p).2.frame? f).isSome
  /-- What an operation makes of the log of a frame that stays. -/
  step : ∀ (op : Operation) f, (p.frame? f).isSome → ((op.run p).2.frame? f).isSome →
    (op.run p).2.log f = op.logged p f (p.log f) (op.run p).1
  /-- What a run makes of the log of a frame that stays. -/
  run : ∀ ops f, (p.frame? f).isSome → ((p.after ops).frame? f).isSome →
    (p.after ops).log f = p.replay f (p.log f) ops
  /-- What is pending under a single frame is its log. -/
  single : ∀ f stage payload, p.locate f = some (.stage stage payload) → (p.frame? f).isSome →
    p.pending f = (p.log f).length
  /-- What is pending under a batch is the logs of its members. -/
  batch : ∀ k b, p.batch? k = some b → p.pending k = (b.members.map fun m => (p.log m).length).sum

/-- **Updates follow their frames.** Whatever reachable pipeline is asked, and whatever it is asked
for, updates are neither lost nor doubled, reordered or given to other frames. -/
theorem logs_follow (reachable : p.Reachable) : p.LogsFollow := by
  have h := reachable.consistent
  have a := reachable.addressed
  refine ⟨fun f hf u hu => a.frame_of_mem_log h hf hu, fun _ _ _ => log_addFrame a h, ?_,
    fun op f => log_run a h op, fun ops f => log_after ops h a, ?_, fun k b => pending_batch a h⟩
  · rintro op (other | refused) f hf
    · exact frames_stay h op other hf
    · rw [run_refused h a op refused]
      exact hf
  · intro f stage payload hl _
    unfold locate at hl
    split at hl
    · cases hl
    · cases hl
    · next i hp => exact pending_single hp

theorem logs_follow_sample : sample.Reachable ∧ sample.LogsFollow :=
  ⟨reachable_sample, logs_follow reachable_sample⟩

/-- Packed in a batch, a frame has the update that was staged while it was single. -/
example : sample.log 1 = [⟨1, ⟨[.setFrameAttribute sampleAttribute .refuse]⟩⟩] ∧
    sample.pending 3 = 2 := by
  decide

end Pipeline
end FrameFlow
