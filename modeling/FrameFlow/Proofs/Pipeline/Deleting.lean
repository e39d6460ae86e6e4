/-
# Deleting a batch

A batch is deleted in one go, with its members and with all that waits under it. It
could also be unpacked, which gives its members a stage and what waits for them,
and the members be deleted one by one, in any order. Both ways leave the same
pipeline: the batch and its members are unknown, and nothing else was touched
(`Pipeline.Without`). Like packing and moving, they are compared view by view.

Key definitions: `Pipeline.dropFrames`, `Pipeline.Without`,
`Pipeline.DeletesWithMembers`.
Key theorems: `Pipeline.dropFrames_dissolve`, `Pipeline.without_dropBatch`,
`Pipeline.delete_batch`.
-/
import FrameFlow.Proofs.Pipeline.Batching
import FrameFlow.Proofs.Pipeline.Refusals

namespace FrameFlow
namespace Pipeline

variable {p : Pipeline}

/-! ### Taking out frames of one stage -/

/-- Takes out single frames of a stage, one after another. -/
def dropFrames (p : Pipeline) (ids : List Int) (stage : Nat) : Pipeline :=
  ids.foldl (fun p id => p.dropFrame id stage) p

section DropFrames

variable (j : Nat)

theorem settings_dropFrames : ∀ (ids : List Int) (p : Pipeline),
    (p.dropFrames ids j).name = p.name ∧ (p.dropFrames ids j).missingIds = p.missingIds
  | [], _ => ⟨rfl, rfl⟩
  | id :: ids, p => settings_dropFrames ids (p.dropFrame id j)

theorem shape_dropFrames : ∀ (ids : List Int) (p : Pipeline), (p.dropFrames ids j).shape = p.shape
  | [], _ => rfl
  | id :: ids, p =>
    (shape_dropFrames ids (p.dropFrame id j)).trans (reseated_leave p id j).shape

theorem batches_dropFrames : ∀ (ids : List Int) (p : Pipeline),
    (p.dropFrames ids j).batches = p.batches
  | [], _ => rfl
  | id :: ids, p => batches_dropFrames ids (p.dropFrame id j)

theorem lastId_dropFrames :
    ∀ (ids : List Int) (p : Pipeline), (p.dropFrames ids j).lastId = p.lastId
  | [], _ => rfl
  | id :: ids, p => lastId_dropFrames ids (p.dropFrame id j)

theorem frames_dropFrames (x : Int) : ∀ (ids : List Int) (p : Pipeline),
    (p.dropFrames ids j).frames.get? x = if x ∈ ids then none else p.frames.get? x
  | [], _ => by simp [dropFrames]
  | id :: ids, p => by
    have ih := frames_dropFrames x ids (p.dropFrame id j)
    simp only [dropFrames, List.foldl_cons] at ih ⊢
    rw [ih, frames_dropFrame]
    by_cases e : id = x
    · simp [e]
    · simp [e, Ne.symm e]

theorem places_dropFrames (x : Int) : ∀ (ids : List Int) (p : Pipeline),
    (p.dropFrames ids j).places.get? x = if x ∈ ids then none else p.places.get? x
  | [], _ => by simp [dropFrames]
  | id :: ids, p => by
    have ih := places_dropFrames x ids (p.dropFrame id j)
    have here : (p.dropFrame id j).places.get? x = if id = x then none else p.places.get? x :=
      Table.get?_erase _ _ x
    simp only [dropFrames, List.foldl_cons] at ih ⊢
    rw [ih, here]
    by_cases e : id = x
    · simp [e]
    · simp [e, Ne.symm e]

theorem holds_dropFrames {i : Nat} {x : Int} : ∀ (ids : List Int) (p : Pipeline),
    (p.dropFrames ids j).Holds i x ↔ p.Holds i x ∧ ¬(i = j ∧ x ∈ ids)
  | [], _ => by simp [dropFrames]
  | id :: ids, p => by
    have ih := holds_dropFrames (i := i) (x := x) ids (p.dropFrame id j)
    have here : (p.dropFrame id j).Holds i x ↔ p.Holds i x ∧ ¬(i = j ∧ x = id) := holds_leave
    simp only [dropFrames, List.foldl_cons] at ih ⊢
    rw [ih, here, List.mem_cons]
    tauto

theorem under_dropFrames (x : Int) : ∀ (ids : List Int) (p : Pipeline),
    (p.dropFrames ids j).queue.under x = if x ∈ ids then [] else p.queue.under x
  | [], _ => by simp [dropFrames]
  | id :: ids, p => by
    have ih := under_dropFrames x ids (p.dropFrame id j)
    have here : (p.dropFrame id j).queue.under x = if id = x then [] else p.queue.under x := by
      show (p.queue.clear id).2.under x = _
      rw [Queue.clear_eq, Queue.under_put]
    simp only [dropFrames, List.foldl_cons] at ih ⊢
    rw [ih, here]
    by_cases e : id = x
    · simp [e]
    · simp [e, Ne.symm e]

theorem tight_dropFrames : ∀ (ids : List Int) (p : Pipeline), p.queue.Tight →
    (p.dropFrames ids j).queue.Tight
  | [], _, tight => tight
  | id :: ids, p, tight => tight_dropFrames ids (p.dropFrame id j) (tight_dropped tight id)

/-- A frame that stands in a stage is deleted. -/
theorem delete_accepts {id : Int} (place : p.places.get? id = some (.stage j))
    (frame : (p.frames.get? id).isSome) :
    (Operation.delete id).run p = (.done, p.dropFrame id j) := by
  have there : p.frames.contains id = true := by
    rw [Table.contains_eq]
    exact frame
  simp only [Operation.run, Outcome.replied, delete, place, there, if_true]
  rfl

/-- Different frames of a stage are deleted one after another. -/
theorem history_deletes : ∀ (ids : List Int) (p : Pipeline), ids.Nodup →
    (∀ id ∈ ids, p.places.get? id = some (.stage j) ∧ (p.frames.get? id).isSome) →
    (∀ e ∈ p.history (ids.map .delete), e.2.1 = .done) ∧
      p.after (ids.map .delete) = p.dropFrames ids j
  | [], _, _, _ => ⟨by simp [history], rfl⟩
  | id :: ids, p, nodup, there => by
    obtain ⟨fresh, nodup⟩ := List.nodup_cons.mp nodup
    obtain ⟨place, frame⟩ := there id List.mem_cons_self
    have done := delete_accepts j place frame
    -- the others are still where they were
    have later : ∀ x ∈ ids, (p.dropFrame id j).places.get? x = some (.stage j) ∧
        ((p.dropFrame id j).frames.get? x).isSome := by
      intro x hx
      obtain ⟨place, frame⟩ := there x (List.mem_cons_of_mem _ hx)
      have ne : id ≠ x := fun e => fresh (e ▸ hx)
      rw [frames_dropFrame, if_neg ne]
      exact ⟨(Table.get?_erase_ne _ ne).trans place, frame⟩
    obtain ⟨replies, state⟩ := history_deletes ids (p.dropFrame id j) nodup later
    rw [List.map_cons, history, Pipeline.after, done]
    refine ⟨fun e he => ?_, state⟩
    rcases List.mem_cons.mp he with rfl | he
    · rfl
    · exact replies e he

end DropFrames

/-! ### What is left -/

/-- The pipeline `q` is `p` without some identifiers: nobody knows them, nothing waits under them,
and all else is as it was. -/
structure Without (p : Pipeline) (gone : List Int) (q : Pipeline) : Prop where
  unknown : ∀ x ∈ gone, q.Unknown x
  frames : ∀ x ∉ gone, q.frame? x = p.frame? x
  batches : ∀ x ∉ gone, q.batch? x = p.batch? x
  locations : ∀ x ∉ gone, q.locate x = p.locate x
  residents : ∀ i x, q.Holds i x ↔ p.Holds i x ∧ x ∉ gone
  waiting : ∀ x ∉ gone, q.queue.entries.get? x = p.queue.entries.get? x
  shape : q.shape = p.shape
  counter : q.lastId = p.lastId

/-- A location is a place and the stage there. -/
theorem locate_congr {q : Pipeline} (shape : q.shape = p.shape) {x : Int}
    (place : q.places.get? x = p.places.get? x) : q.locate x = p.locate x := by
  have stage : ∀ r : Pipeline, ∀ i : Nat,
      (r.stages[i]?).map (fun s => Location.stage s.name s.payload) =
      (r.shape[i]?).map fun s => .stage s.1 s.2 := by
    intro r i
    simp [Pipeline.shape, Function.comp_def]
  unfold locate
  rw [place]
  rcases p.places.get? x with _ | i | k
  · rfl
  · simp only
    rw [stage, stage, shape]
  · rfl

section Batch

variable {k : Int} {i j : Nat} {b : Batch} (h : p.Consistent) (a : p.Addressed)
  (live : p.batches.get? k = some b)
include h live

/-- A member is in no stage. -/
theorem Consistent.member_not_held {x : Int} (hx : x ∈ b.members) (l : Nat) : ¬p.Holds l x := by
  intro held
  obtain ⟨-, -, -, -, members⟩ := h.batch live
  rw [← h.resident, members x hx] at held
  cases held

include a

/-- A deleted batch is gone with its members, and nothing else is. -/
theorem without_dropBatch (place : p.places.get? k = some (.stage i)) :
    p.Without (k :: b.members) (p.dropBatch k i b) := by
  have h' := h.dropBatch place live
  have a' : (p.dropBatch k i b).Addressed := a.dropBatch h live
  have apart : ∀ {x}, x ∉ k :: b.members → x ∉ b.members ∧ k ≠ x := by
    intro x hx
    rw [List.mem_cons, not_or] at hx
    exact ⟨hx.2, Ne.symm hx.1⟩
  have shape : (p.dropBatch k i b).shape = p.shape := by
    rw [dropBatch_eq]
    exact (reseated_leave p k i).shape
  refine
    { unknown := fun x hx => .of_place h' a' ?_
      frames := fun x hx => (frames_dropBatch p k i b x).trans (if_neg (apart hx).1)
      batches := fun x hx => (batches_dropBatch p k i b x).trans (if_neg (apart hx).2)
      locations := fun x hx => locate_congr shape ?_
      residents := fun l x => ?_
      waiting := fun x hx => ?_
      shape := shape
      counter := by rw [dropBatch_eq]; rfl }
  · rw [places_dropBatch]
    rcases List.mem_cons.mp hx with rfl | hx
    · rw [if_pos rfl, ite_self]
    · rw [if_pos hx]
  · rw [places_dropBatch, if_neg (apart hx).1, if_neg (apart hx).2]
  · rw [holds_dropBatch, List.mem_cons, not_or]
    constructor
    · rintro ⟨held, other⟩
      refine ⟨held, fun e => ?_, fun hx => h.member_not_held live hx l held⟩
      exact other ⟨h.only (e ▸ place) held, e⟩
    · rintro ⟨held, ne, -⟩
      exact ⟨held, fun e => ne e.2⟩
  · rw [Queue.get?_entries a'.tight, Queue.get?_entries a.tight, queue_dropBatch, Queue.clear_eq,
      Queue.under_put_ne _ _ (apart hx).2]

variable (payload : p.payloadAt? j = some .frame) (place : p.places.get? k = some (.stage i))
include payload place

/-- Taking out the members of a dissolved batch, in any order, comes to the same as taking out the
batch. -/
theorem dropFrames_dissolve {fs : List Int} (perm : fs.Perm b.members) :
    (p.dissolve i j b).dropFrames fs j = p.dropBatch k i b := by
  have label : b.id = k := (h.batch live).2.1
  subst label
  have mem : ∀ x, x ∈ fs ↔ x ∈ b.members := fun x => perm.mem_iff
  have settings := settings_dropFrames j fs (p.dissolve i j b)
  have dissolved := settings_dissolve p i j b
  have kept : (p.dropBatch b.id i b).name = p.name ∧
      (p.dropBatch b.id i b).missingIds = p.missingIds := by
    rw [dropBatch_eq]
    exact ⟨rfl, rfl⟩
  have whole := without_dropBatch h a live place
  refine ext_views ⟨?_, ?_⟩ ?_ (fun l x => ?_) (fun x => ?_) (fun x => ?_) (fun x => ?_) ?_ ?_
  · exact settings.1.trans (dissolved.1.trans kept.1.symm)
  · exact settings.2.trans (dissolved.2.trans kept.2.symm)
  · exact (shape_dropFrames j fs _).trans ((shape_dissolve p i j b).trans whole.shape.symm)
  · -- the members have been in the stage between the two steps only
    have here := h.member_not_held live (x := x)
    rw [holds_dropFrames, holds_dissolve (lt_of_payloadAt? payload), holds_dropBatch, mem]
    by_cases hx : x ∈ b.members
    · have out : ¬p.Holds l x := here hx l
      tauto
    · tauto
  · rw [frames_dropFrames, frames_dissolve, frames_dropBatch]
    exact if_congr (mem x) rfl rfl
  · rw [batches_dropFrames, batches_dissolve, batches_dropBatch]
  · rw [places_dropFrames, places_dissolve, places_dropBatch]
    by_cases hx : x ∈ b.members
    · rw [if_pos ((mem x).mpr hx), if_pos hx]
    · rw [if_neg (mt (mem x).mp hx), if_neg hx, if_neg hx]
  · exact (lastId_dropFrames j fs _).trans ((lastId_dissolve p i j b).trans whole.counter.symm)
  · have tight : (p.dissolve i j b).queue.Tight := tight_dissolve a.tight
    refine Queue.ext_under (tight_dropFrames j fs _ tight) (a.dropBatch h live).tight fun x => ?_
    rw [under_dropFrames, under_dissolve, queue_dropBatch, Queue.clear_eq, Queue.under_put]
    by_cases hx : x ∈ b.members
    · obtain ⟨-, -, -, -, members⟩ := h.batch live
      rw [if_pos ((mem x).mpr hx), a.under_packed h (members x hx), ite_self]
    · rw [if_neg (mt (mem x).mp hx), filter_under_of_not_member h a live hx, List.append_nil]

end Batch

/-! ### Deleting -/

/-- Deleting a batch, and unpacking it and deleting its members in some order: all of it is done,
with the same pipeline in the end, which is without the batch and its members. -/
structure DeletesWithMembers (p : Pipeline) (out : String) (k : Int) (b : Batch) (fs : List Int) :
    Prop where
  deleted : (p.delete k).answer = .ok ()
  unpacked : (p.unpack out k).answer = .ok b.members
  each : ∀ e ∈ (p.unpack out k).next.history (fs.map .delete), e.2.1 = .done
  same : p.after (.unpack out k :: fs.map .delete) = (p.delete k).next
  left : p.Without (k :: b.members) (p.delete k).next

/-- **Deleting a batch is unpacking it and deleting its members.** For a batch of a reachable
pipeline, any stage for frames and any order of the members, both ways are carried out, and
leave the pipeline without the batch and its members. -/
theorem delete_batch (reachable : p.Reachable) {k : Int} {b : Batch} {out : String} {fs : List Int}
    (live : p.batch? k = some b) (hout : p.payload? out = some .frame) (perm : fs.Perm b.members) :
    p.DeletesWithMembers out k b fs := by
  have h := reachable.consistent
  have a := reachable.addressed
  obtain ⟨j, hj⟩ := destinationFor_of_payload? hout
  have payload := destinationFor_ok hj
  obtain ⟨i, place, unpacked, dissolved⟩ := unpack_accepts h hj live
  obtain ⟨-, -, -, distinct, members⟩ := h.batch live
  have deleted : (p.delete k).answer = .ok () ∧ (p.delete k).next = p.dropBatch k i b := by
    have batch : p.batches.get? k = some b := live
    rcases delete_cases h k with
      ⟨e, refused⟩ | ⟨i', place', done, ⟨f, frame, -⟩ | ⟨b', live', next⟩⟩
    · unfold delete at refused
      rw [place] at refused
      cases congrArg Outcome.answer refused
    · rw [h.frame_of_batch batch] at frame
      cases frame
    · cases place.symm.trans place'
      cases batch.symm.trans live'
      exact ⟨done, next⟩
  -- after unpacking, the members are single frames of the stage
  have there : ∀ x ∈ fs, (p.dissolve i j b).places.get? x = some (.stage j) ∧
      ((p.dissolve i j b).frames.get? x).isSome := by
    intro x hx
    have member := perm.mem_iff.mp hx
    obtain ⟨f, -, frame, -⟩ := h.packed (members x member)
    rw [places_dissolve, if_pos member, frames_dissolve, frame]
    exact ⟨rfl, rfl⟩
  obtain ⟨each, state⟩ := history_deletes j fs (p.dissolve i j b)
    (perm.nodup_iff.mpr distinct) there
  refine
    { deleted := deleted.1
      unpacked := unpacked
      each := by rw [dissolved]; exact each
      same := ?_
      left := by rw [deleted.2]; exact without_dropBatch h a live place }
  calc p.after (.unpack out k :: fs.map .delete)
      = (p.unpack out k).next.after (fs.map .delete) := rfl
    _ = (p.dissolve i j b).dropFrames fs j := by rw [dissolved, state]
    _ = (p.delete k).next := by
      rw [dropFrames_dissolve h a live payload place perm, deleted.2]

theorem delete_batch_sample : sample.Reachable ∧ sample.batch? 3 = some ⟨3, [2, 1]⟩ ∧
    sample.payload? "out" = some .frame ∧ [1, 2].Perm [2, 1] ∧
    sample.DeletesWithMembers "out" 3 ⟨3, [2, 1]⟩ [1, 2] :=
  ⟨reachable_sample, by decide, by decide, by decide,
    delete_batch reachable_sample (by decide) (by decide) (by decide)⟩

end Pipeline
end FrameFlow
