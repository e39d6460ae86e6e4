/-
# The tables of a pipeline always go together

A new pipeline is consistent, and each effect that an operation can have keeps it
so: whatever the effect does not touch keeps its standing (`Standing.keep`), and
what it touches gets a new one. So every reachable pipeline is consistent.

Key theorems: `Pipeline.Consistent.effect`, `Pipeline.Reachable.consistent`.
-/
import FrameFlow.Proofs.Config
import FrameFlow.Proofs.Pipeline.Steps

namespace FrameFlow

theorem Config.nodup_of_check {c : Config} (h : c.check = .ok ()) :
    (c.stages.map StageSpec.name).Nodup :=
  (check_eq_ok_iff.mp h).names.distinct

namespace Pipeline

theorem consistent_ofConfig {c : Config} (h : c.check = .ok ()) : (ofConfig c).Consistent where
  standing _ := .unknown rfl rfl rfl
  resident {id i} := by
    constructor
    · intro hp; cases hp
    · rintro ⟨s, hs, hid⟩
      simp only [ofConfig, List.getElem?_map, Option.map_eq_some_iff] at hs
      obtain ⟨_, -, rfl⟩ := hs
      exact absurd hid (Ids.mem_empty id)
  issued hp := by cases hp
  counted := Int.le_refl 0
  names := by
    have same : (ofConfig c).stageNames = c.stages.map StageSpec.name := by
      simp [stageNames, ofConfig]
    rw [same]
    exact Config.nodup_of_check h

namespace Consistent

variable {p : Pipeline} (h : p.Consistent)
include h

/-- Names are as different as before where stages are as before. -/
theorem names_of_shape {q : Pipeline} (shape : q.shape = p.shape) : q.stageNames.Nodup := by
  rw [stageNames_eq, shape, ← stageNames_eq]
  exact h.names

/-- Frames may be changed where there are any. -/
theorem of_frames {frames : Table Int Frame} (queue : Queue)
    (same : ∀ x, (frames.get? x).isSome = (p.frames.get? x).isSome) :
    Consistent { p with frames := frames, queue := queue } where
  standing x := (h.standing x).keep rfl rfl (same x) rfl (fun _ _ => rfl) fun _ _ => rfl
  resident := h.resident
  issued := h.issued
  counted := h.counted
  names := h.names

/-! ### Movement -/

theorem arrive {i : Nat} (f : Frame) (payload : p.payloadAt? i = some .frame) :
    (p.arrive f i).Consistent := by
  have shape : (p.arrive f i).shape = p.shape := (reseated_settle _ _ _).shape
  have here : (p.arrive f i).places.get? (p.lastId + 1) = some (.stage i) :=
    Table.get?_set_self _ _ _
  have place : ∀ x, x ≠ p.lastId + 1 → (p.arrive f i).places.get? x = p.places.get? x :=
    fun x hx => Table.get?_set_ne _ _ (Ne.symm hx)
  have holds : ∀ j x, (p.arrive f i).Holds j x ↔ p.Holds j x ∨ j = i ∧ x = p.lastId + 1 :=
    fun j x => holds_settle (lt_of_payloadAt? payload)
  have away : ∀ j, ¬p.Holds j (p.lastId + 1) := fun j hj => by
    simpa [h.fresh] using h.resident.mpr hj
  refine ⟨fun x => ?_, fun {x j} => ?_, fun {x _} hx => ?_, ?_, h.names_of_shape shape⟩
  · by_cases e : x = p.lastId + 1
    · subst e
      exact .single here ((payloadAt?_congr shape i).trans payload) (Table.get?_set_self _ _ _)
        (h.unknown h.fresh).2
    · refine (h.standing x).keep shape (place x e) ?_ rfl (fun _ _ => rfl) fun m hm => place m ?_
      · exact congrArg _ (Table.get?_set_ne _ _ (Ne.symm e))
      · rintro rfl
        simp [h.fresh] at hm
  · rw [holds]
    by_cases e : x = p.lastId + 1
    · subst e
      rw [here]
      simp [away, eq_comm]
    · rw [place x e, h.resident]
      simp [e]
  · have := h.counted
    by_cases e : x = p.lastId + 1
    · subst e
      exact ⟨by omega, Int.le_refl _⟩
    · rw [place x e] at hx
      have := h.issued hx
      exact ⟨this.1, by change x ≤ p.lastId + 1; omega⟩
  · have := h.counted
    change 0 ≤ p.lastId + 1
    omega

section Relocate

variable {dest : Nat} {k : Payload} {plan : List (Int × Nat)}
  (payload : p.payloadAt? dest = some k) (distinct : (plan.map Prod.fst).Nodup)
  (sources : ∀ e ∈ plan, p.places.get? e.1 = some (.stage e.2) ∧ p.payloadAt? e.2 = some k)

omit h in
/-- What is packed stays where it is. -/
theorem places_relocate_packed
    (sources : ∀ e ∈ plan, p.places.get? e.1 = some (.stage e.2) ∧ p.payloadAt? e.2 = some k)
    {m b : Int} (hm : p.places.get? m = some (.batch b)) :
    (p.relocate dest plan).places.get? m = some (.batch b) := by
  have out : m ∉ plan.map Prod.fst := by
    intro hin
    obtain ⟨e, he, rfl⟩ := List.mem_map.mp hin
    simp [(sources e he).1] at hm
  rw [places_relocate, if_neg out]
  exact hm

include payload sources

/-- What is moved is what it was, in another stage of its kind. -/
theorem standing_relocate (x : Int) : (p.relocate dest plan).Standing x := by
  have rest := reseated_relocate p dest plan
  have inside : ∀ {m}, p.places.get? m = some (.batch x) →
      (p.relocate dest plan).places.get? m = p.places.get? m :=
    fun hm => (places_relocate_packed sources hm).trans hm.symm
  by_cases hx : x ∈ plan.map Prod.fst
  · have here : (p.relocate dest plan).places.get? x = some (.stage dest) := by
      rw [places_relocate, if_pos hx]
    have hk := (payloadAt?_congr rest.shape dest).trans payload
    obtain ⟨e, he, rfl⟩ := List.mem_map.mp hx
    obtain ⟨hp, hs⟩ := sources e he
    cases h.standing e.1 with
    | single place payload' frame batch =>
      cases hp.symm.trans place
      cases hs.symm.trans payload'
      exact .single here hk (by rw [rest.frames]; exact frame) (by rw [rest.batches]; exact batch)
    | batch place payload' frame batch label filled distinct members =>
      cases hp.symm.trans place
      cases hs.symm.trans payload'
      exact .batch here hk (by rw [rest.frames]; exact frame) (by rw [rest.batches]; exact batch)
        label filled distinct fun m hm => (inside (members m hm)).trans (members m hm)
    | _ => simp_all
  · have same : (p.relocate dest plan).places.get? x = p.places.get? x := by
      rw [places_relocate, if_neg hx]
    exact (h.standing x).keep rest.shape same (by rw [rest.frames]) (by rw [rest.batches])
      (fun _ _ => by rw [rest.batches]) fun _ => inside

include distinct

theorem resident_relocate {x : Int} {j : Nat} :
    (p.relocate dest plan).places.get? x = some (.stage j) ↔ (p.relocate dest plan).Holds j x := by
  have holds := holds_relocate (j := j) (x := x) plan p (lt_of_payloadAt? payload) distinct
    fun e he _ hj => h.only (sources e he).1 hj
  rw [holds, places_relocate]
  split
  · simp [eq_comm]
  · exact h.resident

theorem relocate : (p.relocate dest plan).Consistent := by
  have rest := reseated_relocate p dest plan
  refine ⟨h.standing_relocate payload sources, h.resident_relocate payload distinct sources,
    fun {x _} hx => ?_, rest.lastId ▸ h.counted, h.names_of_shape rest.shape⟩
  rw [rest.lastId]
  rw [places_relocate] at hx
  split at hx
  · next hin =>
    obtain ⟨e, he, rfl⟩ := List.mem_map.mp hin
    exact h.issued (sources e he).1
  · exact h.issued hx

end Relocate

section Bundle

variable {dest : Nat} {plan : List (Int × Nat)} (payload : p.payloadAt? dest = some .batch)
  (filled : plan ≠ []) (distinct : (plan.map Prod.fst).Nodup)
  (sources : ∀ e ∈ plan, p.places.get? e.1 = some (.stage e.2) ∧ (p.frames.get? e.1).isSome)

/-- What has a place is not the next identifier. -/
theorem ne_next {x : Int} {at' : Place} (hx : p.places.get? x = some at') : p.lastId + 1 ≠ x := by
  rintro rfl
  rw [h.fresh] at hx
  cases hx

omit h in
/-- What is packed is a single frame. -/
theorem single_of_plan
    (sources : ∀ e ∈ plan, p.places.get? e.1 = some (.stage e.2) ∧ (p.frames.get? e.1).isSome)
    {x : Int} (hx : x ∈ plan.map Prod.fst) :
    ∃ i, p.places.get? x = some (.stage i) ∧ (p.frames.get? x).isSome := by
  obtain ⟨e, he, rfl⟩ := List.mem_map.mp hx
  exact ⟨e.2, sources e he⟩

include sources

theorem places_bundle_packed {x : Int} (hx : x ∈ plan.map Prod.fst) :
    (p.bundle (plan.map Prod.fst) plan dest).places.get? x = some (.batch (p.lastId + 1)) := by
  obtain ⟨i, hp, -⟩ := single_of_plan sources hx
  rw [places_bundle, if_neg (h.ne_next hp), if_pos hx]

include payload filled distinct

theorem standing_bundle (x : Int) :
    (p.bundle (plan.map Prod.fst) plan dest).Standing x := by
  have shape := shape_bundle p plan dest (plan.map Prod.fst)
  have frames := frames_bundle p plan dest (plan.map Prod.fst)
  have batch : ∀ {k}, p.lastId + 1 ≠ k →
      (p.bundle (plan.map Prod.fst) plan dest).batches.get? k = p.batches.get? k :=
    fun hk => by rw [batches_bundle, if_neg hk]
  have live : (p.bundle (plan.map Prod.fst) plan dest).batches.get? (p.lastId + 1) =
      some ⟨p.lastId + 1, plan.map Prod.fst⟩ := by
    rw [batches_bundle, if_pos rfl]
  by_cases hn : p.lastId + 1 = x
  · -- the new batch
    subst hn
    have here : (p.bundle (plan.map Prod.fst) plan dest).places.get? (p.lastId + 1) =
        some (.stage dest) := by
      rw [places_bundle, if_pos rfl]
    exact .batch here ((payloadAt?_congr shape dest).trans payload)
      (by rw [frames]; exact (h.unknown h.fresh).1) live rfl (by simpa using filled) distinct
      fun m hm => h.places_bundle_packed sources hm
  by_cases hx : x ∈ plan.map Prod.fst
  · -- a frame that it packs
    obtain ⟨i, hp, hf⟩ := single_of_plan sources hx
    obtain ⟨f, hf⟩ := Option.isSome_iff_exists.mp hf
    exact .packed (h.places_bundle_packed sources hx) (by rw [frames]; exact hf)
      ((batch hn).trans (h.batch_of_frame hf)) live hx
  · refine (h.standing x).keep shape ?_ (by rw [frames]) (batch hn) (fun k hk => ?_) fun m hm => ?_
    · rw [places_bundle, if_neg hn, if_neg hx]
    · obtain ⟨_, b, -, hb, -⟩ := h.packed hk
      obtain ⟨⟨i, hi, -⟩, -⟩ := h.batch hb
      exact batch (h.ne_next hi)
    · have out : m ∉ plan.map Prod.fst := by
        intro hin
        obtain ⟨i, hp, -⟩ := single_of_plan sources hin
        cases hp.symm.trans hm
      rw [places_bundle, if_neg (h.ne_next hm), if_neg out]

omit filled distinct in
theorem resident_bundle {x : Int} {j : Nat} :
    (p.bundle (plan.map Prod.fst) plan dest).places.get? x = some (.stage j) ↔
      (p.bundle (plan.map Prod.fst) plan dest).Holds j x := by
  rw [holds_bundle _ (lt_of_payloadAt? payload) fun e he _ hj => h.only (sources e he).1 hj,
    places_bundle, ← h.resident]
  by_cases hn : p.lastId + 1 = x
  · subst hn
    rw [if_pos rfl, h.fresh]
    simp [eq_comm]
  · rw [if_neg hn]
    split
    · next hx => simp [hx, Ne.symm hn]
    · next hx => simp [hx, Ne.symm hn]

theorem bundle : (p.bundle (plan.map Prod.fst) plan dest).Consistent := by
  have counted := h.counted
  refine ⟨h.standing_bundle payload filled distinct sources, h.resident_bundle payload sources,
    fun {x _} hx => ?_, ?_, h.names_of_shape (shape_bundle _ _ _ _)⟩
  · rw [lastId_bundle]
    rw [places_bundle] at hx
    split at hx
    · omega
    · have known : ∃ at', p.places.get? x = some at' := by
        split at hx
        · next hin =>
          obtain ⟨i, hp, -⟩ := single_of_plan sources hin
          exact ⟨_, hp⟩
        · exact ⟨_, hx⟩
      obtain ⟨at', hp⟩ := known
      have := h.issued hp
      omega
  · rw [lastId_bundle]
    omega

end Bundle

section Dissolve

variable {source dest : Nat} {b : Batch} (payload : p.payloadAt? dest = some .frame)
  (place : p.places.get? b.id = some (.stage source)) (live : p.batches.get? b.id = some b)
include place live

/-- A batch does not list itself. -/
theorem not_mem_members : b.id ∉ b.members := by
  obtain ⟨-, -, -, -, members⟩ := h.batch live
  intro hin
  cases (members _ hin).symm.trans place

include payload

theorem standing_dissolve (x : Int) : (p.dissolve source dest b).Standing x := by
  have shape := shape_dissolve p source dest b
  have frames := frames_dissolve p source dest b
  obtain ⟨-, -, -, -, members⟩ := h.batch live
  have batch : ∀ {k}, b.id ≠ k → (p.dissolve source dest b).batches.get? k = p.batches.get? k :=
    fun hk => by rw [batches_dissolve, if_neg hk]
  by_cases hx : x ∈ b.members
  · -- a frame that was packed
    obtain ⟨f, _, hf, -⟩ := h.packed (members x hx)
    have freed : (p.dissolve source dest b).places.get? x = some (.stage dest) := by
      rw [places_dissolve, if_pos hx]
    have ne : b.id ≠ x := fun e => h.not_mem_members place live (e ▸ hx)
    exact .single freed ((payloadAt?_congr shape dest).trans payload) (by rw [frames]; exact hf)
      ((batch ne).trans (h.batch_of_frame hf))
  by_cases hb : b.id = x
  · -- the batch
    subst hb
    exact .unknown (by rw [places_dissolve, if_neg hx, if_pos rfl])
      (by rw [frames]; exact h.frame_of_batch live) (by rw [batches_dissolve, if_pos rfl])
  · refine (h.standing x).keep shape ?_ (by rw [frames]) (batch hb) (fun k hk => batch ?_)
      fun m hm => ?_
    · rw [places_dissolve, if_neg hx, if_neg hb]
    · rintro rfl
      obtain ⟨_, b', -, hb', hm⟩ := h.packed hk
      cases live.symm.trans hb'
      exact hx hm
    · have out : m ∉ b.members := by
        intro hin
        cases (members m hin).symm.trans hm
        exact hb rfl
      have ne : b.id ≠ m := by
        rintro rfl
        cases place.symm.trans hm
      rw [places_dissolve, if_neg out, if_neg ne]

theorem resident_dissolve {x : Int} {j : Nat} :
    (p.dissolve source dest b).places.get? x = some (.stage j) ↔
      (p.dissolve source dest b).Holds j x := by
  obtain ⟨-, -, -, -, members⟩ := h.batch live
  rw [holds_dissolve (lt_of_payloadAt? payload), places_dissolve, ← h.resident]
  split
  · next hx =>
    rw [members x hx]
    simp [hx, eq_comm]
  · next hx =>
    split
    · next hb =>
      subst hb
      rw [place]
      simp [hx, eq_comm]
    · next hb => simp [hx, Ne.symm hb]

theorem dissolve : (p.dissolve source dest b).Consistent := by
  obtain ⟨-, -, -, -, members⟩ := h.batch live
  refine ⟨h.standing_dissolve payload place live, h.resident_dissolve payload place live,
    fun {x _} hx => ?_, ?_, h.names_of_shape (shape_dissolve _ _ _ _)⟩
  · rw [lastId_dissolve]
    rw [places_dissolve] at hx
    split at hx
    · next hin => exact h.issued (members x hin)
    · split at hx
      · cases hx
      · exact h.issued hx
  · rw [lastId_dissolve]
    exact h.counted

end Dissolve

/-! ### Removal -/

theorem dropFrame {id : Int} {i : Nat} {f : Frame} (place : p.places.get? id = some (.stage i))
    (frame : p.frames.get? id = some f) : (p.dropFrame id i).Consistent := by
  have shape : (p.dropFrame id i).shape = p.shape := (reseated_leave p id i).shape
  have holds : ∀ j x, (p.dropFrame id i).Holds j x ↔ p.Holds j x ∧ ¬(j = i ∧ x = id) :=
    fun j x => holds_leave
  have gone : (p.dropFrame id i).places.get? id = none := Table.get?_erase_self _ _
  have same : ∀ x, id ≠ x → (p.dropFrame id i).places.get? x = p.places.get? x :=
    fun x hx => Table.get?_erase_ne _ hx
  refine ⟨fun x => ?_, fun {x j} => ?_, fun {x _} hx => ?_, h.counted, h.names_of_shape shape⟩
  · by_cases e : id = x
    · subst e
      exact .unknown gone (Table.get?_erase_self _ _) (h.batch_of_frame frame)
    · refine (h.standing x).keep shape (same x e) ?_ rfl (fun _ _ => rfl) fun m hm => same m ?_
      · exact congrArg _ (Table.get?_erase_ne _ e)
      · rintro rfl
        simp [place] at hm
  · rw [holds]
    by_cases e : id = x
    · subst e
      rw [gone]
      simp only [reduceCtorEq, and_true, false_iff, not_and, not_not]
      exact fun hj => h.only place hj
    · rw [same x e, h.resident]
      simp [Ne.symm e]
  · by_cases e : id = x
    · exact e ▸ h.issued place
    · exact h.issued ((same x e).symm.trans hx)

theorem dropBatch {id : Int} {i : Nat} {b : Batch} (place : p.places.get? id = some (.stage i))
    (live : p.batches.get? id = some b) : (p.dropBatch id i b).Consistent := by
  have shape : (p.dropBatch id i b).shape = p.shape := by
    rw [dropBatch_eq]
    exact (reseated_leave p id i).shape
  obtain ⟨-, -, -, -, members⟩ := h.batch live
  have gone : ∀ x, x ∈ b.members ∨ id = x → (p.dropBatch id i b).places.get? x = none := by
    intro x hx
    rw [places_dropBatch]
    rcases hx with hx | hx <;> simp [hx]
  have same : ∀ x, x ∉ b.members → id ≠ x →
      (p.dropBatch id i b).places.get? x = p.places.get? x := fun x hx hb => by
    rw [places_dropBatch, if_neg hx, if_neg hb]
  have batch : ∀ x, id ≠ x → (p.dropBatch id i b).batches.get? x = p.batches.get? x :=
    fun x hb => by rw [batches_dropBatch, if_neg hb]
  have lastId : (p.dropBatch id i b).lastId = p.lastId := by
    rw [dropBatch_eq]
    rfl
  refine ⟨fun x => ?_, fun {x j} => ?_, fun {x _} hx => ?_, by rw [lastId]; exact h.counted,
    h.names_of_shape shape⟩
  · by_cases hx : x ∈ b.members
    · obtain ⟨f, _, hf, -⟩ := h.packed (members x hx)
      refine .unknown (gone x (.inl hx)) (by rw [frames_dropBatch, if_pos hx]) ?_
      rw [batches_dropBatch, h.batch_of_frame hf, ite_self]
    by_cases hb : id = x
    · subst hb
      refine .unknown (gone id (.inr rfl)) ?_ (by rw [batches_dropBatch, if_pos rfl])
      rw [frames_dropBatch, h.frame_of_batch live, ite_self]
    · refine (h.standing x).keep shape (same x hx hb) (by rw [frames_dropBatch, if_neg hx])
        (batch x hb) (fun k hk => ?_) fun m hm => same m (fun hin => ?_) ?_
      · refine batch k ?_
        rintro rfl
        obtain ⟨_, b', -, hb', hm⟩ := h.packed hk
        cases live.symm.trans hb'
        exact hx hm
      · cases (members m hin).symm.trans hm
        exact hb rfl
      · rintro rfl
        simp [place] at hm
  · rw [holds_dropBatch]
    by_cases hx : x ∈ b.members
    · have away : ¬p.Holds j x := fun hj => by
        simpa [members x hx] using h.resident.mpr hj
      rw [gone x (.inl hx)]
      simp [away]
    by_cases hb : id = x
    · subst hb
      rw [gone id (.inr rfl)]
      simp only [reduceCtorEq, and_true, false_iff, not_and, not_not]
      exact fun hj => h.only place hj
    · rw [same x hx hb, h.resident]
      simp [Ne.symm hb]
  · rw [lastId]
    by_cases hin : x ∈ b.members
    · exact h.issued (members x hin)
    by_cases hb : id = x
    · exact hb ▸ h.issued place
    · exact h.issued ((same x hin hb).symm.trans hx)

/-! ### All effects -/

theorem movement {q : Pipeline} (m : p.Movement q) : q.Consistent := by
  cases m with
  | stay => exact h
  | arrive f payload => exact h.arrive f payload
  | relocate payload distinct sources => exact h.relocate payload distinct sources
  | bundle payload filled distinct sources => exact h.bundle payload filled distinct sources
  | dissolve payload place live => exact h.dissolve payload place live

/-- Every effect of an operation keeps the tables together. -/
theorem effect {q : Pipeline} (e : p.Effect q) : q.Consistent := by
  cases e with
  | movement m => exact h.movement m
  | dropFrame place frame => exact h.dropFrame place frame
  | dropBatch place live => exact h.dropBatch place live
  | enqueue frame keeper => exact h.of_frames _ fun _ => rfl
  | settle id same => exact h.of_frames _ same
  | edit g frame =>
    refine h.of_frames _ fun x => ?_
    rw [Table.get?_set]
    split
    · next e => simp [← e, frame]
    · rfl

end Consistent

theorem Reachable.consistent {p : Pipeline} (h : p.Reachable) : p.Consistent :=
  h.induct (fun _ hc => consistent_ofConfig hc) fun _ op hp => hp.effect (effect_run hp op)

end Pipeline
end FrameFlow
