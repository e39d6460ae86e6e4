/-
# Nothing waits where nobody looks

The queue is kept apart from the graph, and nothing in it points there. Still
every key of it is an identifier by which its updates are reached: that of a frame
that stands by itself, or that of a batch. A packed frame, a batch that was
unpacked and whatever was deleted are no keys, and the last two never become keys
again, since identifiers are not issued twice.

Key definitions: `Pipeline.GoneForGood`, `Pipeline.QueueAnchored`.
Key theorem: `Pipeline.queue_anchored`.
-/
import FrameFlow.Proofs.Pipeline.Acceptance
import FrameFlow.Proofs.Pipeline.Addressed
import FrameFlow.Proofs.Pipeline.Agreement

namespace FrameFlow
namespace Pipeline

variable {p : Pipeline}

/-! ### Keys -/

section Keys

variable (h : p.Consistent) (a : p.Addressed)
include h a

/-- Under a key some updates wait, for a frame that stands by itself or for members of a batch. -/
theorem key_cases {k : Int} {us : List Pending} (entry : p.queue.entries.get? k = some us) :
    us ≠ [] ∧ (p.Independent k ∧ (∀ u ∈ us, u.frame = k) ∨
      ∃ b, p.batch? k = some b ∧ ∀ u ∈ us, u.frame ∈ b.members) := by
  have waiting : p.queue.under k = us := by rw [Queue.under, entry, Option.getD_some]
  have filled : us ≠ [] := by
    rintro rfl
    exact a.tight k entry
  obtain ⟨u, us', e⟩ := List.exists_cons_of_ne_nil filled
  have first : u ∈ p.queue.under k := by
    rw [waiting, e]
    exact List.mem_cons_self
  -- the key keeps updates, so it stands in a stage, as a frame or as a batch
  obtain ⟨i, place⟩ := h.keeper_known (a.meant first).2
  refine ⟨filled, ?_⟩
  rcases h.of_stage place with ⟨-, frame, -⟩ | ⟨-, -, batch⟩
  · refine .inl ⟨h.independent_iff.mpr ⟨frame, i, place⟩, fun v hv => ?_⟩
    exact a.frame_eq h frame (waiting ▸ hv)
  · obtain ⟨b, hb⟩ := Option.isSome_iff_exists.mp batch
    exact .inr ⟨b, hb, fun v hv => a.frame_mem h hb (waiting ▸ hv)⟩

/-- What waits under a key is reached by it. -/
theorem key_reached {k : Int} {us : List Pending} (entry : p.queue.entries.get? k = some us) :
    (p.commit k).answer ≠ .ok false ∧ (p.discard k).1 = true := by
  obtain ⟨filled, -⟩ := key_cases h a entry
  have waiting : p.queue.under k ≠ [] := by
    rw [Queue.under, entry, Option.getD_some]
    exact filled
  obtain ⟨u, us', e⟩ := List.exists_cons_of_ne_nil waiting
  obtain ⟨frame, keeper⟩ := a.meant (e ▸ List.mem_cons_self)
  have target : u.frame ∈ (p.targets k).getD [] := (a.mem_targets h waiting frame).mpr keeper
  constructor
  · intro answer
    rcases commit_cases (p := p) k with ⟨-, -, unknown | nothing⟩ | ⟨ids, -, -, other⟩
    · rw [unknown] at target
      cases target
    · exact waiting nothing
    · rcases other with ⟨e, -, refused, -⟩ | ⟨copies, -, accepted, -⟩
      · rw [refused] at answer
        cases answer
      · rw [accepted] at answer
        cases answer
  · unfold discard
    rw [Queue.clear_eq]
    simpa using waiting

omit h in
/-- Where nothing waits, a commit and a discard answer no and change nothing. -/
theorem commit_discard_of_nil {id : Int} (nothing : p.queue.under id = []) :
    p.commit id = ⟨.ok false, p, []⟩ ∧ p.discard id = (false, p) := by
  constructor
  · unfold commit
    rcases p.targets id with _ | ids
    · rfl
    · simp only [Queue.take_of_nil nothing]
  · unfold discard
    rw [Queue.clear_eq, Queue.put_nil a.tight nothing, nothing]
    rfl

omit h in
theorem not_key_of_nil {id : Int} (nothing : p.queue.under id = []) :
    p.queue.entries.get? id = none := by
  rw [Queue.get?_entries a.tight, if_pos nothing]

end Keys

/-! ### Identifiers that are gone -/

/-- Whatever is asked of a pipeline from now on, nobody knows an identifier, and nothing waits under
it. -/
def GoneForGood (p : Pipeline) (id : Int) : Prop :=
  ∀ ops : List Operation, (p.after ops).Unknown id ∧ (p.after ops).pending id = 0

/-- What has its place taken by an operation is gone for good. -/
theorem goneForGood_run (reachable : p.Reachable) (op : Operation) {x : Int} {place : Place}
    (known : p.places.get? x = some place) (gone : (op.run p).2.places.get? x = none) :
    (op.run p).2.GoneForGood x := by
  intro ops
  have h := reachable.consistent
  have e := effect_run h op
  have old : x ≤ (op.run p).2.lastId := Int.le_trans (h.issued known).2 e.lastId_le
  have later := reachable.after (op :: ops)
  have stays : (p.after (op :: ops)).places.get? x = none :=
    unknown_after ops (h.effect e) old gone
  have nothing := later.addressed.under_unknown later.consistent stays
  refine ⟨.of_place later.consistent later.addressed stays, ?_⟩
  change ((p.after (op :: ops)).queue.under x).length = 0
  rw [nothing]
  rfl

section Gone

variable (h : p.Consistent)
include h

/-- A deletion takes what it is asked for out of its place, and the members of a batch with it. -/
theorem places_delete {id x : Int} (deleted : (p.delete id).answer = .ok ())
    (hx : x = id ∨ x ∈ p.membersOf id) :
    (∃ place, p.places.get? x = some place) ∧ (p.delete id).next.places.get? x = none := by
  rcases delete_cases h id with ⟨e, refused⟩ | ⟨i, place, -, ⟨f, frame, next⟩ | ⟨b, live, next⟩⟩
  · rw [refused] at deleted
    cases deleted
  · have self : x = id := by
      rcases hx with rfl | hx
      · rfl
      · rw [membersOf, batch?, h.batch_of_frame frame] at hx
        cases hx
    subst self
    refine ⟨⟨_, place⟩, ?_⟩
    rw [next]
    exact Table.get?_erase_self _ _
  · obtain ⟨-, -, -, -, members⟩ := h.batch live
    have listed : p.membersOf id = b.members := by
      rw [membersOf, batch?, live]
      rfl
    rw [listed] at hx
    rw [next, places_dropBatch]
    rcases hx with rfl | hx
    · exact ⟨⟨_, place⟩, by rw [if_pos rfl, ite_self]⟩
    · exact ⟨⟨_, members x hx⟩, if_pos hx⟩

/-- A batch that is dissolved has no place any more. -/
theorem places_unpackRoute {stage : String} {k : Int} {source dest : Nat} {b : Batch}
    (route : p.unpackRoute stage k = .ok (source, dest, b)) :
    (∃ place, p.places.get? k = some place) ∧
      (p.dissolve source dest b).places.get? k = none := by
  obtain ⟨-, place, live⟩ := unpackRoute_ok route
  have label : b.id = k := (h.batch live).2.1
  subst label
  refine ⟨⟨_, place⟩, ?_⟩
  rw [places_dissolve, if_neg (h.not_mem_members place live), if_pos rfl]

theorem places_unpack {stage : String} {k : Int} {ids : List Int}
    (unpacked : (p.unpack stage k).answer = .ok ids) :
    (∃ place, p.places.get? k = some place) ∧ (p.unpack stage k).next.places.get? k = none := by
  unfold unpack at unpacked ⊢
  rcases route : p.unpackRoute stage k with e | ⟨source, dest, b⟩
  · rw [route] at unpacked
    cases unpacked
  · exact places_unpackRoute h route

theorem places_unpackIf {stage : String} {k : Int} {accept : Nat → Bool} {ids : List Int}
    (unpacked : (p.unpackIf stage k accept).answer = .ok (.members ids)) :
    (∃ place, p.places.get? k = some place) ∧
      (p.unpackIf stage k accept).next.places.get? k = none := by
  unfold unpackIf at unpacked ⊢
  rcases route : p.unpackRoute stage k with e | ⟨source, dest, b⟩
  · rw [route] at unpacked
    cases unpacked
  · rw [route] at unpacked
    simp only at unpacked ⊢
    split at unpacked
    · next accepted =>
      rw [if_pos accepted]
      exact places_unpackRoute h route
    · cases unpacked

end Gone

/-! ### The queue and the graph -/

/-- The queue goes together with the graph. -/
structure QueueAnchored (p : Pipeline) : Prop where
  /-- Under a key some updates wait, and it is a frame by itself, for which all of them are meant,
  or a batch, and all of them are meant for members. -/
  keys : ∀ k us, p.queue.entries.get? k = some us → us ≠ [] ∧
    (p.Independent k ∧ (∀ u ∈ us, u.frame = k) ∨
      ∃ b, p.batch? k = some b ∧ ∀ u ∈ us, u.frame ∈ b.members)
  /-- What waits under a key is reached by it. -/
  reached : ∀ k us, p.queue.entries.get? k = some us →
    (p.commit k).answer ≠ .ok false ∧ (p.discard k).1 = true
  /-- A packed frame is no key: to commit or to discard what waits under it is to do nothing. -/
  packed : ∀ f k, p.locate f = some (.batch k) → p.queue.entries.get? f = none ∧
    p.commit f = ⟨.ok false, p, []⟩ ∧ p.discard f = (false, p)
  /-- What nobody knows is no key. -/
  unknown : ∀ id, p.locate id = none → p.queue.entries.get? id = none
  /-- What is deleted is gone for good, and the members of a batch with it. -/
  deleted : ∀ id, (p.delete id).answer = .ok () → ∀ x, x = id ∨ x ∈ p.membersOf id →
    (p.delete id).next.GoneForGood x
  /-- A batch that is unpacked is gone for good. -/
  unpacked : ∀ stage k ids, (p.unpack stage k).answer = .ok ids →
    (p.unpack stage k).next.GoneForGood k
  unpackedIf : ∀ stage k accept ids, (p.unpackIf stage k accept).answer = .ok (.members ids) →
    (p.unpackIf stage k accept).next.GoneForGood k

/-- **No update is stranded.** In a reachable pipeline, updates wait under frames that stand by
themselves and under batches, and under nothing else, and what is deleted or unpacked has no updates
ever after. -/
theorem queue_anchored (reachable : p.Reachable) : p.QueueAnchored := by
  have h := reachable.consistent
  have a := reachable.addressed
  refine
    { keys := fun _ _ => key_cases h a
      reached := fun _ _ => key_reached h a
      packed := ?packed
      unknown := ?unknown
      deleted := ?deleted
      unpacked := ?unpacked
      unpackedIf := ?unpackedIf }
  case packed =>
    intro f k located
    have place : p.places.get? f = some (.batch k) :=
      h.packed_iff.mpr (h.locate_eq_batch_iff.mp located)
    have nothing := a.under_packed h place
    exact ⟨not_key_of_nil a nothing, commit_discard_of_nil a nothing⟩
  case unknown =>
    intro id nowhere
    have known : (p.places.get? id).isSome ↔ (p.locate id).isSome :=
      h.known_iff.trans h.locate_isSome_iff.symm
    have place : p.places.get? id = none := by simpa [nowhere] using known
    exact not_key_of_nil a (a.under_unknown h place)
  case deleted =>
    intro id deleted x hx
    obtain ⟨⟨_, known⟩, gone⟩ := places_delete h deleted hx
    exact goneForGood_run reachable (.delete id) known gone
  case unpacked =>
    intro stage k ids unpacked
    obtain ⟨⟨_, known⟩, gone⟩ := places_unpack h unpacked
    exact goneForGood_run reachable (.unpack stage k) known gone
  case unpackedIf =>
    intro stage k accept ids unpacked
    obtain ⟨⟨_, known⟩, gone⟩ := places_unpackIf h unpacked
    exact goneForGood_run reachable (.unpackIf stage k accept) known gone

/-- Two updates wait under the batch, none under its members, and none are left when it is gone. -/
theorem queue_anchored_sample : sample.Reachable ∧ sample.pending 3 = 2 ∧
    sample.commit 1 = ⟨.ok false, sample, []⟩ ∧ (sample.delete 3).next.GoneForGood 1 := by
  have packed : sample.locate 1 = some (.batch 3) := by decide
  have deleted : (sample.delete 3).answer = .ok () := rfl
  have anchored := queue_anchored reachable_sample
  exact ⟨reachable_sample, by decide, (anchored.packed 1 3 packed).2.1,
    anchored.deleted 3 deleted 1 (.inr (by decide))⟩

end Pipeline
end FrameFlow
