/-
# Unpacking undoes packing

Frames that are packed and unpacked again are where a plain move would have taken
them, whatever stages they came from and whatever waited for them: the batch
leaves no trace but the identifier that it has used up. The two ways are compared
view by view, since a pipeline is known by its views (`ext_views`).

Key definition: `Pipeline.PackedAndUnpacked`.
Key theorems: `Pipeline.dissolve_bundle`, `Pipeline.unpack_pack`.
-/
import FrameFlow.Proofs.Pipeline.Acceptance
import FrameFlow.Proofs.Pipeline.Addressed

namespace FrameFlow
namespace Pipeline

variable {p : Pipeline}

/-! ### Dissolving what was bundled -/

section DissolveBundle

variable {i j : Nat} {plan : List (Int × Nat)} (h : p.Consistent) (a : p.Addressed)
  (distinct : (plan.map Prod.fst).Nodup)
  (sources : ∀ e ∈ plan, p.places.get? e.1 = some (.stage e.2) ∧ (p.frames.get? e.1).isSome)
include h

include sources in
/-- A planned frame is resident where the plan says, and nowhere else. -/
theorem holds_of_plan : ∀ e ∈ plan, ∀ k, p.Holds k e.1 → k = e.2 :=
  fun e he _ hk => h.only (sources e he).1 hk

include sources in
/-- The next identifier is not planned for. -/
theorem next_not_mem_plan : p.lastId + 1 ∉ plan.map Prod.fst := by
  intro hx
  obtain ⟨e, he, same⟩ := List.mem_map.mp hx
  have place := (sources e he).1
  rw [same, h.fresh] at place
  cases place

/-- Nothing stands under the next identifier. -/
theorem next_not_held (k : Nat) : ¬p.Holds k (p.lastId + 1) := by
  intro hk
  have place := h.resident.mpr hk
  rw [h.fresh] at place
  cases place

theorem places_dissolve_bundle (x : Int) :
    ((p.bundle (plan.map Prod.fst) plan i).dissolve i j
      ⟨p.lastId + 1, plan.map Prod.fst⟩).places.get? x = (p.relocate j plan).places.get? x := by
  rw [places_dissolve, places_bundle, places_relocate]
  by_cases hx : x ∈ plan.map Prod.fst
  · rw [if_pos hx, if_pos hx]
  · simp only [if_neg hx]
    by_cases new : p.lastId + 1 = x
    · rw [if_pos new, ← new, h.fresh]
    · rw [if_neg new, if_neg new]

include sources

include distinct in
theorem holds_dissolve_bundle (hi : i < p.stages.length) (hj : j < p.stages.length) (k : Nat)
    (x : Int) :
    ((p.bundle (plan.map Prod.fst) plan i).dissolve i j
        ⟨p.lastId + 1, plan.map Prod.fst⟩).Holds k x ↔
      (p.relocate j plan).Holds k x := by
  have only := holds_of_plan h sources
  have bundled := length_congr (shape_bundle p plan i (plan.map Prod.fst))
  rw [holds_dissolve (by rw [bundled]; exact hj), holds_bundle _ hi only,
    holds_relocate plan p hj distinct only]
  by_cases hx : x ∈ plan.map Prod.fst
  · have old : x ≠ p.lastId + 1 := fun e => next_not_mem_plan h sources (e ▸ hx)
    simp [hx, old]
  · have new : p.Holds k x → x ≠ p.lastId + 1 := by
      rintro hk rfl
      exact next_not_held h k hk
    rw [if_neg hx]
    tauto

include a distinct

/-- Every frame has what it had, and nothing waits under the batch. -/
theorem queue_dissolve_bundle :
    ((p.bundle (plan.map Prod.fst) plan i).dissolve i j ⟨p.lastId + 1, plan.map Prod.fst⟩).queue =
      p.queue := by
  have tight : (p.bundle (plan.map Prod.fst) plan i).queue.Tight := tight_bundle _ a.tight
  refine Queue.ext_under (tight_dissolve tight) a.tight fun x => ?_
  have none := under_next a h
  have own := own_of_plan a h sources
  rw [under_dissolve, under_bundle distinct none, under_bundle distinct none, if_pos rfl]
  by_cases hx : x ∈ plan.map Prod.fst
  · have old : p.lastId + 1 ≠ x := fun e => next_not_mem_plan h sources (e ▸ hx)
    rw [filter_flatMap_under distinct hx own, if_neg old, if_neg old, if_pos hx, List.nil_append]
  · have others := filter_flatMap_under_of_not_mem hx own
    rw [others, List.append_nil]
    by_cases new : p.lastId + 1 = x
    · rw [if_pos new, ← new, none]
    · rw [if_neg new, if_neg new, if_neg hx]

/-- A batch that is dissolved as soon as it is made leaves what a move would have left, but for the
counter. -/
theorem dissolve_bundle (hi : i < p.stages.length) (hj : j < p.stages.length) :
    (p.bundle (plan.map Prod.fst) plan i).dissolve i j ⟨p.lastId + 1, plan.map Prod.fst⟩ =
      { p.relocate j plan with lastId := p.lastId + 1 } := by
  have moved := reseated_relocate p j plan
  have bundled := settings_bundle p plan i (plan.map Prod.fst)
  have dissolved := settings_dissolve (p.bundle (plan.map Prod.fst) plan i) i j
    ⟨p.lastId + 1, plan.map Prod.fst⟩
  refine ext_views ⟨?_, ?_⟩ ?_ (holds_dissolve_bundle h distinct sources hi hj) (fun x => ?_)
    (fun x => ?_) (places_dissolve_bundle h) ?_ ?_
  · exact dissolved.1.trans (bundled.1.trans moved.name.symm)
  · exact dissolved.2.trans (bundled.2.trans moved.missingIds.symm)
  · exact (shape_dissolve _ _ _ _).trans ((shape_bundle _ _ _ _).trans moved.shape.symm)
  · rw [frames_dissolve, frames_bundle, moved.frames]
  · rw [batches_dissolve, batches_bundle, moved.batches]
    by_cases new : p.lastId + 1 = x
    · rw [if_pos new, ← new, (h.unknown h.fresh).2]
    · rw [if_neg new, if_neg new]
  · exact (lastId_dissolve _ _ _ _).trans (lastId_bundle _ _ _ _)
  · exact (queue_dissolve_bundle h a distinct sources).trans moved.queue.symm

end DissolveBundle

/-! ### Packing and unpacking -/

/-- Packing frames under a new identifier and unpacking them comes to the same as moving them. -/
structure PackedAndUnpacked (p : Pipeline) (packs out : String) (ids : List Int) (k : Int) :
    Prop where
  next : k = p.lastId + 1
  new : p.Unknown k
  packed : (p.pack packs ids).answer = .ok k
  unpacked : ((p.pack packs ids).next.unpack out k).answer = .ok ids
  moved : (p.move out ids).answer = .ok ids.length
  same : ((p.pack packs ids).next.unpack out k).next =
    { (p.move out ids).next with lastId := (p.move out ids).next.lastId + 1 }
  gone : ((p.pack packs ids).next.unpack out k).next.Unknown k

/-- **Unpacking undoes packing.** Different single frames of a reachable pipeline, from any stages
and in any order, that are packed and unpacked are answered in that order, and the pipeline is as
if they had been moved, but for the counter, which is one higher. -/
theorem unpack_pack (reachable : p.Reachable) {packs out : String} {ids : List Int}
    (hpacks : p.payload? packs = some .batch) (hout : p.payload? out = some .frame)
    (filled : ids ≠ []) (nodup : ids.Nodup) (single : ∀ id ∈ ids, p.Independent id) :
    ∃ k, p.PackedAndUnpacked packs out ids k := by
  have h := reachable.consistent
  have a := reachable.addressed
  obtain ⟨i, hi⟩ := destinationFor_of_payload? hpacks
  obtain ⟨j, hj⟩ := destinationFor_of_payload? hout
  obtain ⟨plan, planned, packed, bundled⟩ := pack_accepts hi filled nodup single
  obtain ⟨moved, relocated⟩ := move_accepts h hj filled planned
  obtain ⟨listed, -, -, sources⟩ := planPack_ok ids [] planned
  subst listed
  -- the batch is there to be dissolved, in the stage that it was packed into
  have consistent : (p.bundle (plan.map Prod.fst) plan i).Consistent :=
    h.bundle (destinationFor_ok hi) (by simpa using filled) nodup sources
  have live : (p.bundle (plan.map Prod.fst) plan i).batches.get? (p.lastId + 1) =
      some ⟨p.lastId + 1, plan.map Prod.fst⟩ := by
    rw [batches_bundle, if_pos rfl]
  have there := destinationFor_congr (shape_bundle p plan i (plan.map Prod.fst)) hj
  obtain ⟨source, place, unpacked, dissolved⟩ := unpack_accepts consistent there live
  have here : source = i := by
    rw [places_bundle, if_pos rfl] at place
    cases place
    rfl
  subst here
  have same := dissolve_bundle h a nodup sources (lt_of_payloadAt? (destinationFor_ok hi))
    (lt_of_payloadAt? (destinationFor_ok hj))
  have lastId : (p.relocate j plan).lastId = p.lastId := (reseated_relocate p j plan).lastId
  refine ⟨p.lastId + 1,
    { next := rfl
      new := .of_place h a h.fresh
      packed := packed
      unpacked := ?unpacked
      moved := moved
      same := ?same
      gone := ?gone }⟩
  case unpacked =>
    rw [bundled]
    exact unpacked
  case same => rw [bundled, dissolved, same, relocated, lastId]
  case gone =>
    have stays : ((p.pack packs (plan.map Prod.fst)).next.unpack out (p.lastId + 1)).next =
        p.after [.pack packs (plan.map Prod.fst), .unpack out (p.lastId + 1)] := rfl
    rw [stays]
    have later := reachable.after [.pack packs (plan.map Prod.fst), .unpack out (p.lastId + 1)]
    refine .of_place later.consistent later.addressed ?_
    rw [← stays, bundled, dissolved, same]
    exact (places_relocate j _ plan p).trans
      ((if_neg (next_not_mem_plan h sources)).trans h.fresh)

/-- The two frames in different stages, with an update waiting for each. -/
def parted : Pipeline := sample.after [.unpack "out" 3, .move "in" [1]]

theorem reachable_parted : parted.Reachable := reachable_sample.after _

theorem independent_parted : ∀ id ∈ [2, 1], parted.Independent id := by
  intro id hid
  rcases List.mem_pair.mp hid with rfl | rfl
  · exact ⟨by decide, "out", .frame, by decide⟩
  · exact ⟨by decide, "in", .frame, by decide⟩

theorem unpack_pack_parted : parted.Reachable ∧ parted.payload? "packs" = some .batch ∧
    parted.payload? "in" = some .frame ∧ (∀ id ∈ [2, 1], parted.Independent id) ∧
    ∃ k, parted.PackedAndUnpacked "packs" "in" [2, 1] k :=
  ⟨reachable_parted, by decide, by decide, independent_parted,
    unpack_pack reachable_parted (by decide) (by decide) (by decide) (by decide)
      independent_parted⟩

/-- The updates are back under their frames. -/
example : (parted.after [.pack "packs" [2, 1], .unpack "in" 4]).queue = parted.queue := by
  decide

end Pipeline
end FrameFlow
