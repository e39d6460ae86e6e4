/-
# Batching is not seen by updates

A batch is committed in one run over one list, in which the updates for its
members are mixed; unpacked, its members are committed one by one. Both ways come
to the same, in whatever order the members are taken: the commit of the batch is
refused when that of some member is, and otherwise the same pipeline is left. The
same holds of committing frames before they are packed, or their batch afterwards.

Moving goes the same whatever the frames look like and whatever waits
(`dissolve_contents`, `bundle_contents`), so that it is enough to compare the
frames and the queue.

Key definition: `Pipeline.BatchingTransparent`.
Key theorem: `Pipeline.batching_transparent`.
-/
import FrameFlow.Proofs.Pipeline.Interleaving
import FrameFlow.Proofs.Pipeline.RoundTrip

namespace FrameFlow
namespace Pipeline

/-! ### Movement with other contents -/

section Contents

variable (frames : Table Int Frame) (queue : Queue)

theorem settleAll_contents (i : Nat) : ∀ (ids : List Int) (p : Pipeline),
    { p with frames := frames, queue := queue }.settleAll ids i =
      { p.settleAll ids i with frames := frames, queue := queue }
  | [], _ => rfl
  | id :: ids, p => settleAll_contents i ids (p.settle id i)

theorem enclose_contents (k : Int) : ∀ (plan : List (Int × Nat)) (p : Pipeline),
    { p with frames := frames, queue := queue }.enclose k plan =
      { p.enclose k plan with frames := frames, queue := queue }
  | [], _ => rfl
  | (id, source) :: plan, p =>
    enclose_contents k plan { p.leave id source with places := p.places.set id (.batch k) }

variable (p : Pipeline)

/-- A batch is dissolved alike, whatever the frames and the queue. -/
theorem dissolve_contents (source dest : Nat) (b : Batch) :
    { p with frames := frames, queue := queue }.dissolve source dest b =
      { p.dissolve source dest b with
        frames := frames
        queue := scatter (queue.take b.id).2 ((queue.take b.id).1.getD []) } :=
  settleAll_contents frames (scatter (queue.take b.id).2 ((queue.take b.id).1.getD [])) dest
    b.members { p.leave b.id source with
      batches := p.batches.erase b.id
      places := p.places.erase b.id
      queue := scatter (p.queue.take b.id).2 ((p.queue.take b.id).1.getD []) }

/-- Frames are packed alike, whatever they look like and whatever waits. -/
theorem bundle_contents (ids : List Int) (plan : List (Int × Nat)) (dest : Nat) :
    { p with frames := frames, queue := queue }.bundle ids plan dest =
      { p.bundle ids plan dest with
        frames := frames
        queue := (takeAll queue ids).2.extend (p.lastId + 1) (takeAll queue ids).1 } := by
  have enclosed :=
    enclose_contents frames queue (p.lastId + 1) plan { p with lastId := p.lastId + 1 }
  unfold bundle
  simp only
  rw [enclosed]
  rfl

end Contents

variable {p : Pipeline}

/-! ### Members of a batch -/

section Members

variable {source dest : Nat} {b : Batch} (h : p.Consistent) (a : p.Addressed)
  (live : p.batches.get? b.id = some b)
include h a live

/-- A member of a batch that is dissolved has what waited for it under the batch. -/
theorem under_member {x : Int} (hx : x ∈ b.members) :
    (p.dissolve source dest b).queue.under x =
      (p.queue.under b.id).filter fun u => u.frame = x := by
  obtain ⟨-, -, -, -, members⟩ := h.batch live
  rw [under_dissolve, a.under_packed h (members x hx), ite_self, List.nil_append]

/-- Nothing waits under a batch for a frame that is no member. -/
theorem filter_under_of_not_member {x : Int} (hx : x ∉ b.members) :
    ((p.queue.under b.id).filter fun u => u.frame = x) = [] := by
  apply List.filter_eq_nil_iff.mpr
  intro u hu e
  have member := a.frame_mem h live hu
  rw [show u.frame = x by simpa using e] at member
  exact hx member

variable (payload : p.payloadAt? dest = some .frame)
  (place : p.places.get? b.id = some (.stage source))
include payload place

/-- A commit of a batch is refused when, after unpacking, the commit of a member is. -/
theorem commitFails_dissolve : p.CommitFails b.id ↔
    ∃ x ∈ b.members, (p.dissolve source dest b).CommitFails x := by
  have member : ∀ x ∈ b.members, ((p.dissolve source dest b).CommitFails x ↔
      ¬∃ frames, execute p.frames (script ((p.queue.under b.id).filter fun u => u.frame = x)) =
        .ok frames) := by
    intro x hx
    rw [commitFails_iff (h.dissolve payload place live) (a.dissolve h live), frames_dissolve,
      under_member h a live hx]
  have other : ∀ x ∉ b.members,
      ∃ frames, execute p.frames (script ((p.queue.under b.id).filter fun u => u.frame = x)) =
        .ok frames := by
    intro x hx
    rw [filter_under_of_not_member h a live hx]
    exact ⟨p.frames, rfl⟩
  rw [commitFails_iff h a, execute_each]
  constructor
  · intro refused
    obtain ⟨x, hx⟩ := not_forall.mp refused
    have inside : x ∈ b.members := by
      by_contra out
      exact hx (other x out)
    exact ⟨x, inside, (member x inside).mpr hx⟩
  · rintro ⟨x, hx, fails⟩ accepted
    exact (member x hx).mp fails (accepted x)

/-- Where nothing is refused, it is the same to commit a batch and to unpack it, and to unpack it
and to commit its members, in any order. -/
theorem dissolve_after_commit {frames : Table Int Frame} {fs : List Int} (perm : fs.Perm b.members)
    (run : execute p.frames (script (p.queue.under b.id)) = .ok frames) :
    { p with frames := frames, queue := p.queue.put b.id [] }.dissolve source dest b =
      (p.dissolve source dest b).after (fs.map .commit) := by
  have h' := h.dissolve payload place live
  have a' : (p.dissolve source dest b).Addressed := a.dissolve h live
  obtain ⟨-, -, -, distinct, members⟩ := h.batch live
  have nodup : fs.Nodup := perm.nodup_iff.mpr distinct
  have mem : ∀ x, x ∈ fs ↔ x ∈ b.members := fun x => perm.mem_iff
  have own : ∀ x ∈ fs, ∀ u ∈ (p.dissolve source dest b).queue.under x, u.frame = x := by
    intro x hx u hu
    rw [under_member h a live ((mem x).mp hx)] at hu
    simpa using (List.mem_filter.mp hu).2
  -- the members have the same updates, one member after another
  have run' : execute (p.dissolve source dest b).frames
      (script (fs.flatMap (p.dissolve source dest b).queue.under)) = .ok frames := by
    rw [frames_dissolve]
    refine execute_script_congr (fun x => ?_) run
    by_cases hx : x ∈ fs
    · rw [filter_flatMap_under nodup hx own, under_member h a live ((mem x).mp hx)]
    · rw [filter_flatMap_under_of_not_mem hx own,
        filter_under_of_not_member h a live (mt (mem x).mpr hx)]
  have emptied : ((p.queue.put b.id []).take b.id) = (none, p.queue.put b.id []) :=
    Queue.take_of_nil (Queue.under_put_self _ _ _)
  have queue : scatter ((p.queue.put b.id []).take b.id).2
        (((p.queue.put b.id []).take b.id).1.getD []) =
      (takeAll (p.dissolve source dest b).queue fs).2 := by
    rw [emptied]
    refine Queue.ext_under (a.tight.put b.id []) (tight_takeAll _ fs a'.tight) fun x => ?_
    change (p.queue.put b.id []).under x = _
    rw [under_takeAll, Queue.under_put]
    by_cases hx : x ∈ fs
    · rw [if_pos hx, a.under_packed h (members x ((mem x).mp hx)), ite_self]
    · rw [if_neg hx, under_dissolve, filter_under_of_not_member h a live (mt (mem x).mpr hx),
        List.append_nil]
  rw [after_commits h' a' fs nodup run', dissolve_contents, queue]

end Members

/-! ### Frames to be packed -/

section Packed

variable {dest : Nat} {plan : List (Int × Nat)} (h : p.Consistent) (a : p.Addressed)
  (distinct : (plan.map Prod.fst).Nodup)
  (sources : ∀ e ∈ plan, p.places.get? e.1 = some (.stage e.2) ∧ (p.frames.get? e.1).isSome)
include h a distinct sources

/-- Where no frame refuses a commit, the updates of all of them are accepted together. -/
theorem execute_plan (accepted : ∀ x ∈ plan.map Prod.fst, ¬p.CommitFails x) :
    ∃ frames,
      execute p.frames (script ((plan.map Prod.fst).flatMap p.queue.under)) = .ok frames := by
  have own := own_of_plan a h sources
  rw [execute_each]
  intro x
  by_cases hx : x ∈ plan.map Prod.fst
  · rw [filter_flatMap_under distinct hx own]
    exact not_not.mp (mt (commitFails_iff h a).mpr (accepted x hx))
  · rw [filter_flatMap_under_of_not_mem hx own]
    exact ⟨p.frames, rfl⟩

/-- The updates of all frames come to the same in whatever order the frames are taken. -/
theorem execute_plan_perm {frames : Table Int Frame} {fs : List Int}
    (perm : fs.Perm (plan.map Prod.fst))
    (run : execute p.frames (script ((plan.map Prod.fst).flatMap p.queue.under)) = .ok frames) :
    execute p.frames (script (fs.flatMap p.queue.under)) = .ok frames := by
  have nodup : fs.Nodup := perm.nodup_iff.mpr distinct
  have mem : ∀ x, x ∈ fs ↔ x ∈ plan.map Prod.fst := fun x => perm.mem_iff
  have own := own_of_plan a h sources
  have own' : ∀ x ∈ fs, ∀ u ∈ p.queue.under x, u.frame = x := fun x hx => own x ((mem x).mp hx)
  refine execute_script_congr (fun x => ?_) run
  by_cases hx : x ∈ fs
  · rw [filter_flatMap_under distinct ((mem x).mp hx) own, filter_flatMap_under nodup hx own']
  · rw [filter_flatMap_under_of_not_mem (mt (mem x).mpr hx) own,
      filter_flatMap_under_of_not_mem hx own']

omit sources in
/-- It is the same to pack frames and to drop what waits under the batch, and to drop what waits
under them and to pack them. -/
theorem bundle_takeAll (frames : Table Int Frame) {fs : List Int}
    (perm : fs.Perm (plan.map Prod.fst)) :
    { p with frames := frames, queue := (takeAll p.queue fs).2 }.bundle (plan.map Prod.fst) plan
        dest =
      { p.bundle (plan.map Prod.fst) plan dest with
        frames := frames
        queue := (p.bundle (plan.map Prod.fst) plan dest).queue.put (p.lastId + 1) [] } := by
  have mem : ∀ x, x ∈ fs ↔ x ∈ plan.map Prod.fst := fun x => perm.mem_iff
  have fresh := under_next a h
  -- nothing is carried any more
  have carried : (takeAll (takeAll p.queue fs).2 (plan.map Prod.fst)).1 = [] := by
    rw [takeAll_fst _ _ distinct]
    apply List.flatMap_eq_nil_iff.mpr
    intro x hx
    rw [under_takeAll, if_pos ((mem x).mpr hx)]
  have tight : (takeAll p.queue fs).2.Tight := tight_takeAll _ fs a.tight
  have queue : (takeAll (takeAll p.queue fs).2 (plan.map Prod.fst)).2.extend (p.lastId + 1)
        (takeAll (takeAll p.queue fs).2 (plan.map Prod.fst)).1 =
      (p.bundle (plan.map Prod.fst) plan dest).queue.put (p.lastId + 1) [] := by
    refine Queue.ext_under ((tight_takeAll _ _ tight).put _ _)
      ((tight_bundle _ a.tight).put _ _) fun x => ?_
    rw [carried, Queue.under_extend, under_takeAll, under_takeAll, Queue.under_put,
      under_bundle distinct fresh, List.append_nil, ite_self]
    by_cases new : p.lastId + 1 = x
    · rw [if_pos new, ← new, fresh, ite_self, ite_self]
    · rw [if_neg new, if_neg new]
      by_cases hx : x ∈ plan.map Prod.fst
      · rw [if_pos hx, if_pos hx]
      · rw [if_neg hx, if_neg hx, if_neg (mt (mem x).mp hx)]
  rw [bundle_contents, queue]

end Packed

/-! ### Batching -/

/-- Whether frames are in a batch is not seen by updates. -/
structure BatchingTransparent (p : Pipeline) : Prop where
  /-- A batch is unpacked into a stage for frames, before a commit of it and afterwards. -/
  unpacks : ∀ {k b out}, p.batch? k = some b → p.payload? out = some .frame →
    (p.unpack out k).answer = .ok b.members ∧
      ((p.commit k).next.unpack out k).answer = .ok b.members
  /-- A commit of a batch is refused when, after unpacking, that of a member is. -/
  fails : ∀ {k b out}, p.batch? k = some b → p.payload? out = some .frame →
    (p.CommitFails k ↔ ∃ f ∈ b.members, (p.unpack out k).next.CommitFails f)
  /-- Unpacking after the commit of the batch, or before the commits of its members, leaves the same
  pipeline. -/
  unpacked : ∀ {k b out}, p.batch? k = some b → p.payload? out = some .frame → ¬p.CommitFails k →
    ∀ {fs : List Int}, fs.Perm b.members →
      p.after [.commit k, .unpack out k] = p.after (.unpack out k :: fs.map .commit)
  /-- Packing before the commit of the batch, or after the commits of the frames, leaves the same
  pipeline, with the same new identifier. -/
  packed : ∀ {ids packs}, ids ≠ [] → ids.Nodup → (∀ f ∈ ids, p.Independent f) →
    p.payload? packs = some .batch → (∀ f ∈ ids, ¬p.CommitFails f) →
    ∀ {fs : List Int}, fs.Perm ids →
      ∃ k, (p.pack packs ids).answer = .ok k ∧
        ((p.after (fs.map .commit)).pack packs ids).answer = .ok k ∧
        ¬(p.pack packs ids).next.CommitFails k ∧
        p.after [.pack packs ids, .commit k] = p.after (fs.map .commit ++ [.pack packs ids])

section Transparent

variable (h : p.Consistent) (a : p.Addressed)

/-- A commit changes frames and the queue only. -/
theorem commit_contents (id : Int) : ∃ frames queue,
    (p.commit id).next = { p with frames := frames, queue := queue } := by
  rcases commit_cases (p := p) id with
    ⟨-, next, -⟩ | ⟨_, -, -, ⟨_, -, -, next⟩ | ⟨_, -, -, next⟩⟩
  · exact ⟨p.frames, p.queue, next⟩
  · exact ⟨p.frames, p.queue, next⟩
  · exact ⟨_, _, next⟩

include h

/-- A batch is unpacked from the same stage before a commit of it and afterwards. -/
theorem unpack_commit {k : Int} {b : Batch} {out : String} {dest : Nat}
    (hd : p.destinationFor out .frame = .ok dest) (hb : p.batches.get? k = some b) :
    ∃ source, p.places.get? k = some (.stage source) ∧
      (p.unpack out k).answer = .ok b.members ∧
      (p.unpack out k).next = p.dissolve source dest b ∧
      ((p.commit k).next.unpack out k).answer = .ok b.members ∧
      ((p.commit k).next.unpack out k).next = (p.commit k).next.dissolve source dest b := by
  have h' := h.effect (effect_commit h k)
  obtain ⟨frames, queue, next⟩ := commit_contents (p := p) k
  have hd' : (p.commit k).next.destinationFor out .frame = .ok dest := by
    rw [next]
    exact destinationFor_congr rfl hd
  have hb' : (p.commit k).next.batches.get? k = some b := by
    rw [next]
    exact hb
  obtain ⟨source, place, answer, unpacked⟩ := unpack_accepts h hd hb
  obtain ⟨source', place', answer', unpacked'⟩ := unpack_accepts h' hd' hb'
  have same : source' = source := by
    rw [next] at place'
    cases place.symm.trans place'
    rfl
  rw [same] at unpacked'
  exact ⟨source, place, answer, unpacked, answer', unpacked'⟩

include a

theorem after_unpack {k : Int} {b : Batch} {out : String} (hb : p.batches.get? k = some b)
    (hout : p.payload? out = some .frame) (accepted : ¬p.CommitFails k) {fs : List Int}
    (perm : fs.Perm b.members) :
    p.after [.commit k, .unpack out k] = p.after (.unpack out k :: fs.map .commit) := by
  obtain ⟨dest, hd⟩ := destinationFor_of_payload? hout
  obtain ⟨source, place, -, unpacked, -, unpacked'⟩ := unpack_commit h hd hb
  obtain ⟨frames, run⟩ := not_not.mp (mt (commitFails_iff h a).mpr accepted)
  have label : b.id = k := (h.batch hb).2.1
  subst label
  calc p.after [.commit b.id, .unpack out b.id]
      = ((p.commit b.id).next.unpack out b.id).next := rfl
    _ = (p.dissolve source dest b).after (fs.map .commit) := by
      rw [unpacked', (commit_accepted h a run).2]
      exact dissolve_after_commit h a hb (destinationFor_ok hd) place perm run
    _ = p.after (.unpack out b.id :: fs.map .commit) := by
      rw [← unpacked]
      rfl

theorem after_pack {ids : List Int} {packs : String} (filled : ids ≠ []) (nodup : ids.Nodup)
    (single : ∀ f ∈ ids, p.Independent f) (hpacks : p.payload? packs = some .batch)
    (accepted : ∀ f ∈ ids, ¬p.CommitFails f) {fs : List Int} (perm : fs.Perm ids) :
    ∃ k, (p.pack packs ids).answer = .ok k ∧
      ((p.after (fs.map .commit)).pack packs ids).answer = .ok k ∧
      ¬(p.pack packs ids).next.CommitFails k ∧
      p.after [.pack packs ids, .commit k] = p.after (fs.map .commit ++ [.pack packs ids]) := by
  obtain ⟨dest, hd⟩ := destinationFor_of_payload? hpacks
  obtain ⟨plan, planned, packed, bundled⟩ := pack_accepts hd filled nodup single
  obtain ⟨listed, -, -, sources⟩ := planPack_ok ids [] planned
  subst listed
  obtain ⟨frames, run⟩ := execute_plan h a nodup sources accepted
  -- the batch has the updates of all frames, and its commit makes the same of them
  have filled' : plan ≠ [] := by simpa using filled
  have consistent := h.bundle (destinationFor_ok hd) filled' nodup sources
  have addressed : (p.bundle (plan.map Prod.fst) plan dest).Addressed := a.bundle h nodup sources
  have waiting : execute (p.bundle (plan.map Prod.fst) plan dest).frames
      (script ((p.bundle (plan.map Prod.fst) plan dest).queue.under (p.lastId + 1))) =
        .ok frames := by
    rw [frames_bundle, under_bundle nodup (under_next a h), if_pos rfl]
    exact run
  obtain ⟨succeeds, committed⟩ := commit_accepted consistent addressed waiting
  -- after the commits of the frames, they can still be packed, as before
  have commits := after_commits h a fs (perm.nodup_iff.mpr nodup)
    (execute_plan_perm h a nodup sources perm run)
  have live := execute_isSome run
  have single' : ∀ f ∈ plan.map Prod.fst, (p.after (fs.map .commit)).Independent f := by
    intro f hf
    rw [commits]
    exact ⟨(live f).trans (single f hf).frame, (single f hf).single⟩
  have hd' : (p.after (fs.map .commit)).destinationFor packs .batch = .ok dest := by
    rw [commits]
    exact destinationFor_congr rfl hd
  obtain ⟨plan', planned', packed', bundled'⟩ := pack_accepts hd' filled nodup single'
  have same : plan' = plan := by
    rw [planPack_congr (p := p) (by rw [commits]) (by rw [commits]; exact live)] at planned'
    cases planned.symm.trans planned'
    rfl
  subst same
  refine ⟨p.lastId + 1, packed, ?_, ?_, ?_⟩
  · rw [packed', commits]
  · rw [bundled]
    exact succeeds
  · calc p.after [.pack packs (plan'.map Prod.fst), .commit (p.lastId + 1)]
        = ((p.pack packs (plan'.map Prod.fst)).next.commit (p.lastId + 1)).next := rfl
      _ = (p.after (fs.map .commit)).bundle (plan'.map Prod.fst) plan' dest := by
        rw [bundled, committed, commits, bundle_takeAll h a nodup frames perm]
      _ = p.after (fs.map .commit ++ [.pack packs (plan'.map Prod.fst)]) := by
        rw [after_append, ← bundled']
        rfl

end Transparent

/-- **Batching is not seen by updates.** Of a reachable pipeline, any batch may be unpacked before
or after its updates are committed, and any frames may be packed before or after. -/
theorem batching_transparent (reachable : p.Reachable) : p.BatchingTransparent := by
  have h := reachable.consistent
  have a := reachable.addressed
  refine
    { unpacks := ?unpacks
      fails := ?fails
      unpacked := fun hb hout accepted _ perm => after_unpack h a hb hout accepted perm
      packed := fun filled nodup single hpacks accepted _ perm =>
        after_pack h a filled nodup single hpacks accepted perm }
  case unpacks =>
    intro k b out hb hout
    obtain ⟨dest, hd⟩ := destinationFor_of_payload? hout
    obtain ⟨_, -, answer, -, answer', -⟩ := unpack_commit h hd hb
    exact ⟨answer, answer'⟩
  case fails =>
    intro k b out hb hout
    obtain ⟨dest, hd⟩ := destinationFor_of_payload? hout
    obtain ⟨source, place, -, unpacked, -, -⟩ := unpack_commit h hd hb
    have label : b.id = k := (h.batch hb).2.1
    subst label
    rw [unpacked]
    exact commitFails_dissolve h a hb (destinationFor_ok hd) place

theorem commit_accepts_sample : ¬sample.CommitFails 3 := by
  rintro ⟨e, refused⟩
  have answer : (sample.commit 3).answer.toOption = some true := by decide
  rw [refused] at answer
  cases answer

/-- The batch may be unpacked before or after the commits, which go in the other order. The
detection and the attribute that they add are there either way. -/
theorem batching_transparent_sample : sample.Reachable ∧ ¬sample.CommitFails 3 ∧
    sample.after [.commit 3, .unpack "out" 3] =
      sample.after (.unpack "out" 3 :: [1, 2].map .commit) ∧
    sample.detection? 2 7 = none ∧ sample.frameReading? 1 "model" "seen" 0 = none ∧
    (sample.after [.commit 3, .unpack "out" 3]).detection? 2 7 = some sampleDetection ∧
    (sample.after [.commit 3, .unpack "out" 3]).frameReading? 1 "model" "seen" 0 =
      some ⟨none, .integer 1⟩ := by
  have live : sample.batch? 3 = some ⟨3, [2, 1]⟩ := by decide
  have out : sample.payload? "out" = some .frame := by decide
  have perm : ([1, 2] : List Int).Perm [2, 1] := List.Perm.swap 2 1 []
  have same : sample.after [.commit 3, .unpack "out" 3] =
      sample.after (.unpack "out" 3 :: [1, 2].map .commit) :=
    (batching_transparent reachable_sample).unpacked live out commit_accepts_sample perm
  exact ⟨reachable_sample, commit_accepts_sample, same, rfl, rfl, rfl, rfl⟩

end Pipeline
end FrameFlow
