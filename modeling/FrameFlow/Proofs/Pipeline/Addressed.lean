/-
# Where updates wait

What waits for a frame stands in one place of the queue: under the frame itself
while it is single, and among what waits under its batch while it is packed
(`Pipeline.Addressed`). So a frame has a log, the list of what waits for it in
the order of staging. Moving, packing and unpacking put updates elsewhere in the
queue, and leave every log as it was (`Pipeline.KeepsLogs`).

Key definitions: `Pipeline.log`, `Pipeline.Addressed`, `Pipeline.KeepsLogs`,
`Pipeline.Unknown`.
Key theorems: `Pipeline.keepsLogs_movement`, `Pipeline.log_push`,
`Pipeline.log_put_nil`, `Pipeline.Reachable.addressed`.
-/
import FrameFlow.Proofs.Pipeline.Lifetimes

namespace FrameFlow
namespace Pipeline

/-- What waits for a frame: what waits under it while it is single, and what is meant for it among
what waits under its batch while it is packed. -/
def log (p : Pipeline) (f : Int) : List Pending :=
  match p.places.get? f with
  | none => []
  | some (.stage _) => p.queue.under f
  | some (.batch k) => (p.queue.under k).filter fun u => u.frame = f

/-- Every update that waits is meant for a frame that is there, and waits where the updates for this
frame do. -/
structure Addressed (p : Pipeline) : Prop where
  tight : p.queue.Tight
  meant : ∀ {id u}, u ∈ p.queue.under id →
    (p.frames.get? u.frame).isSome ∧ p.keeper? u.frame = some id

variable {p q : Pipeline}

/-! ### Where updates wait -/

namespace Addressed

variable (a : p.Addressed)
include a

/-- An update that waits under a frame is meant for it. -/
theorem frame_eq (h : p.Consistent) {f : Int} {u : Pending} (hf : (p.frames.get? f).isSome)
    (hu : u ∈ p.queue.under f) : u.frame = f :=
  h.keeper_self hf (a.meant hu).2

/-- Nothing waits under what is no keeper. -/
theorem under_eq_nil {id : Int} (h : ∀ f, (p.frames.get? f).isSome → p.keeper? f ≠ some id) :
    p.queue.under id = [] := by
  rw [List.eq_nil_iff_forall_not_mem]
  intro u hu
  obtain ⟨frame, keeper⟩ := a.meant hu
  exact h u.frame frame keeper

/-- Nothing waits under an identifier that is unknown. -/
theorem under_unknown (h : p.Consistent) {id : Int} (hp : p.places.get? id = none) :
    p.queue.under id = [] := by
  apply a.under_eq_nil
  intro f _ keeper
  obtain ⟨i, hi⟩ := h.keeper_known keeper
  rw [hp] at hi
  cases hi

/-- Nothing waits under a frame itself while it is packed. -/
theorem under_packed (h : p.Consistent) {id k : Int} (hp : p.places.get? id = some (.batch k)) :
    p.queue.under id = [] := by
  apply a.under_eq_nil
  intro f _ keeper
  obtain ⟨i, hi⟩ := h.keeper_known keeper
  rw [hp] at hi
  cases hi

/-- An update that waits under a batch is meant for a member of it. -/
theorem frame_mem (h : p.Consistent) {k : Int} {b : Batch} (hb : p.batches.get? k = some b)
    {u : Pending} (hu : u ∈ p.queue.under k) : u.frame ∈ b.members := by
  obtain ⟨frame, keeper⟩ := a.meant hu
  exact (h.keeper_batch hb frame).mp keeper

/-- The log of a frame is what is meant for it among what waits under its keeper. -/
theorem log_eq (h : p.Consistent) {f k : Int} (hf : (p.frames.get? f).isSome)
    (hk : p.keeper? f = some k) :
    p.log f = (p.queue.under k).filter fun u => u.frame = f := by
  unfold log
  rcases keeper?_eq_some_iff.mp hk with ⟨rfl, i, hp⟩ | hp
  · rw [hp]
    have own : ∀ u ∈ p.queue.under f, u.frame = f := fun u hu => a.frame_eq h hf hu
    exact (List.filter_eq_self.mpr (by simpa using own)).symm
  · rw [hp]

/-- All updates in the log of a frame are meant for it. -/
theorem frame_of_mem_log (h : p.Consistent) {f : Int} {u : Pending} (hf : (p.frames.get? f).isSome)
    (hu : u ∈ p.log f) : u.frame = f := by
  obtain ⟨k, hk⟩ := h.keeper_isSome hf
  rw [a.log_eq h hf hk] at hu
  simpa using (List.mem_filter.mp hu).2

/-- Where something waits, the frames that are kept there are the targets of a commit. -/
theorem mem_targets (h : p.Consistent) {id f : Int} (waits : p.queue.under id ≠ [])
    (hf : (p.frames.get? f).isSome) : f ∈ (p.targets id).getD [] ↔ p.keeper? f = some id := by
  obtain ⟨u, us, e⟩ := List.exists_cons_of_ne_nil waits
  obtain ⟨i, place⟩ := h.keeper_known (a.meant (e ▸ List.mem_cons_self)).2
  unfold targets
  rw [place]
  simp only [Table.contains_eq]
  rcases h.of_stage place with ⟨-, frame, -⟩ | ⟨-, frame, batch⟩
  · rw [if_pos frame, Option.getD_some, List.mem_singleton]
    constructor
    · rintro rfl
      exact keeper?_eq_some_iff.mpr (.inl ⟨rfl, i, place⟩)
    · exact h.keeper_self frame
  · obtain ⟨b, hb⟩ := Option.isSome_iff_exists.mp batch
    rw [frame, hb]
    simpa using (h.keeper_batch hb hf).symm

/-- Updates are addressed after a change that keeps the frames and keepers of those that wait. -/
theorem keep (tight : q.queue.Tight) (same : ∀ {id u}, u ∈ q.queue.under id →
      u ∈ p.queue.under id ∧ (q.frames.get? u.frame).isSome = (p.frames.get? u.frame).isSome ∧
        q.keeper? u.frame = p.keeper? u.frame) : q.Addressed where
  tight := tight
  meant hu := by
    obtain ⟨hu, frame, keeper⟩ := same hu
    rw [frame, keeper]
    exact a.meant hu

end Addressed

/-! ### Logs that are kept -/

/-- Frames that stay keep their logs. -/
def KeepsLogs (p q : Pipeline) : Prop :=
  ∀ f, (p.frames.get? f).isSome → (q.frames.get? f).isSome → q.log f = p.log f

/-- Logs are kept where the same is meant for a frame under its keepers before and after. -/
theorem keepsLogs_of (a : p.Addressed) (h : p.Consistent) (b : q.Addressed) (k : q.Consistent)
    (same : ∀ {f i j}, (p.frames.get? f).isSome → (q.frames.get? f).isSome →
      p.keeper? f = some i → q.keeper? f = some j →
      ((q.queue.under j).filter fun u => u.frame = f) =
        (p.queue.under i).filter fun u => u.frame = f) : KeepsLogs p q := by
  intro f hf hf'
  obtain ⟨i, hi⟩ := h.keeper_isSome hf
  obtain ⟨j, hj⟩ := k.keeper_isSome hf'
  rw [a.log_eq h hf hi, b.log_eq k hf' hj]
  exact same hf hf' hi hj

/-- Logs are kept where queue and keepers are. -/
theorem keepsLogs_of_queue (a : p.Addressed) (h : p.Consistent) (b : q.Addressed)
    (k : q.Consistent) (queue : q.queue = p.queue)
    (keeper : ∀ {f}, (p.frames.get? f).isSome → q.keeper? f = p.keeper? f) : KeepsLogs p q := by
  refine keepsLogs_of a h b k fun {f i j} hf _ hi hj => ?_
  rw [keeper hf, hi] at hj
  cases hj
  rw [queue]

section Arrive

variable (a : p.Addressed) (h : p.Consistent)
include h

theorem keeper?_arrive {i : Nat} (f : Frame) {x : Int} (hx : (p.frames.get? x).isSome) :
    (p.arrive f i).keeper? x = p.keeper? x :=
  keeper?_congr (Table.get?_set_ne _ _ (h.frame_ne hx))

include a

theorem Addressed.arrive {i : Nat} (f : Frame) : (p.arrive f i).Addressed := by
  refine a.keep a.tight fun {id u} hu => ?_
  have live := (a.meant hu).1
  refine ⟨hu, ?_, keeper?_arrive h f live⟩
  exact congrArg Option.isSome (Table.get?_set_ne _ _ (h.frame_ne live))

theorem keepsLogs_arrive {i : Nat} (f : Frame) (payload : p.payloadAt? i = some .frame) :
    KeepsLogs p (p.arrive f i) :=
  keepsLogs_of_queue a h (a.arrive h f) (h.arrive f payload) rfl (keeper?_arrive h f)

end Arrive

section Relocate

variable {dest : Nat} {k : Payload} {plan : List (Int × Nat)}
  (sources : ∀ e ∈ plan, p.places.get? e.1 = some (.stage e.2) ∧ p.payloadAt? e.2 = some k)
include sources

theorem keeper?_relocate (x : Int) : (p.relocate dest plan).keeper? x = p.keeper? x := by
  by_cases hx : x ∈ plan.map Prod.fst
  · obtain ⟨e, he, rfl⟩ := List.mem_map.mp hx
    unfold keeper?
    rw [places_relocate, if_pos hx, (sources e he).1]
    rfl
  · refine keeper?_congr ?_
    rw [places_relocate, if_neg hx]

theorem Addressed.relocate (a : p.Addressed) : (p.relocate dest plan).Addressed := by
  have rest := reseated_relocate p dest plan
  refine a.keep (rest.queue ▸ a.tight) fun {id u} hu => ?_
  rw [rest.queue] at hu
  exact ⟨hu, by rw [rest.frames], keeper?_relocate sources u.frame⟩

theorem keepsLogs_relocate (a : p.Addressed) (h : p.Consistent)
    (payload : p.payloadAt? dest = some k) (distinct : (plan.map Prod.fst).Nodup) :
    KeepsLogs p (p.relocate dest plan) :=
  keepsLogs_of_queue a h (a.relocate sources) (h.relocate payload distinct sources)
    (reseated_relocate p dest plan).queue fun {f} _ => keeper?_relocate sources f

end Relocate

/-! ### Packing -/

section Bundle

variable {dest : Nat} {plan : List (Int × Nat)}

theorem tight_bundle (ids : List Int) (tight : p.queue.Tight) :
    (p.bundle ids plan dest).queue.Tight :=
  (tight_takeAll p.queue ids tight).put _ _

/-- Everything that waits under the packed frames waits under the new batch, frame by frame. -/
theorem under_bundle {ids : List Int} (nodup : ids.Nodup)
    (fresh : p.queue.under (p.lastId + 1) = []) (x : Int) :
    (p.bundle ids plan dest).queue.under x =
      if p.lastId + 1 = x then ids.flatMap p.queue.under
      else if x ∈ ids then [] else p.queue.under x := by
  refine (Queue.under_extend _ _ x _).trans ?_
  rw [under_takeAll, takeAll_fst _ _ nodup]
  split
  · next e =>
    rw [← e, fresh, ite_self, List.nil_append]
  · rfl

/-- A joined list has nothing for a frame that is not among those whose lists are joined. -/
theorem filter_flatMap_under_of_not_mem {q : Queue} {f : Int} {ids : List Int} (hf : f ∉ ids)
    (own : ∀ x ∈ ids, ∀ u ∈ q.under x, u.frame = x) :
    ((ids.flatMap q.under).filter fun u => u.frame = f) = [] := by
  apply List.filter_eq_nil_iff.mpr
  intro u hu
  obtain ⟨x, hx, hu⟩ := List.mem_flatMap.mp hu
  have ne : x ≠ f := fun e => hf (e ▸ hx)
  simpa [own x hx u hu] using ne

/-- What a frame adds to the joined list is what waits under it. -/
theorem filter_flatMap_under {q : Queue} {f : Int} : ∀ {ids : List Int}, ids.Nodup → f ∈ ids →
    (∀ x ∈ ids, ∀ u ∈ q.under x, u.frame = x) →
    ((ids.flatMap q.under).filter fun u => u.frame = f) = q.under f
  | [], _, hf, _ => by cases hf
  | x :: ids, nodup, hf, own => by
    obtain ⟨fresh, nodup⟩ := List.nodup_cons.mp nodup
    have rest : ∀ y ∈ ids, ∀ u ∈ q.under y, u.frame = y :=
      fun y hy => own y (List.mem_cons_of_mem _ hy)
    rw [List.flatMap_cons, List.filter_append]
    by_cases e : x = f
    · subst e
      -- the frame comes first, and the others have nothing for it
      have all : ∀ u ∈ q.under x, u.frame = x := own x List.mem_cons_self
      rw [List.filter_eq_self.mpr (by simpa using all), filter_flatMap_under_of_not_mem fresh rest,
        List.append_nil]
    · have hf : f ∈ ids := (List.mem_cons.mp hf).resolve_left (Ne.symm e)
      have none : ∀ u ∈ q.under x, u.frame ≠ f := by
        intro u hu
        rw [own x List.mem_cons_self u hu]
        exact e
      rw [List.filter_eq_nil_iff.mpr (by simpa using none), List.nil_append,
        filter_flatMap_under nodup hf rest]

variable (a : p.Addressed) (h : p.Consistent) (distinct : (plan.map Prod.fst).Nodup)
  (sources : ∀ e ∈ plan, p.places.get? e.1 = some (.stage e.2) ∧ (p.frames.get? e.1).isSome)

include sources in
/-- What is packed keeps its updates itself by then. -/
theorem keeper_of_plan {x : Int} (hx : x ∈ plan.map Prod.fst) :
    (p.frames.get? x).isSome ∧ p.keeper? x = some x := by
  obtain ⟨i, hp, hf⟩ := Consistent.single_of_plan sources hx
  exact ⟨hf, keeper?_eq_some_iff.mpr (.inl ⟨rfl, i, hp⟩)⟩

include a h sources in
/-- What waits under a frame that is packed is meant for it. -/
theorem own_of_plan : ∀ x ∈ plan.map Prod.fst, ∀ u ∈ p.queue.under x, u.frame = x :=
  fun _ hx _ hu => a.frame_eq h (keeper_of_plan sources hx).1 hu

include h in
theorem keeper?_bundle {x : Int} (hx : (p.frames.get? x).isSome) :
    (p.bundle (plan.map Prod.fst) plan dest).keeper? x =
      if x ∈ plan.map Prod.fst then some (p.lastId + 1) else p.keeper? x := by
  unfold keeper?
  rw [places_bundle, if_neg (h.frame_ne hx)]
  split <;> rfl

include a h in
/-- Nothing waits under the next identifier. -/
theorem under_next : p.queue.under (p.lastId + 1) = [] := by
  refine a.under_eq_nil fun f _ hf => ?_
  obtain ⟨i, hi⟩ := h.keeper_known hf
  rw [h.fresh] at hi
  cases hi

include a h distinct sources

theorem Addressed.bundle : (p.bundle (plan.map Prod.fst) plan dest).Addressed where
  tight := tight_bundle _ a.tight
  meant {id u} hu := by
    rw [under_bundle distinct (under_next a h)] at hu
    rw [frames_bundle]
    split at hu
    · next e =>
      obtain ⟨x, hx, hu⟩ := List.mem_flatMap.mp hu
      have own : u.frame = x := a.frame_eq h (keeper_of_plan sources hx).1 hu
      have live := (a.meant hu).1
      rw [keeper?_bundle h live, own, if_pos hx, e]
      exact ⟨(keeper_of_plan sources hx).1, rfl⟩
    · split at hu
      · cases hu
      · next hid =>
        obtain ⟨live, keeper⟩ := a.meant hu
        have out : u.frame ∉ plan.map Prod.fst := by
          intro hx
          have := (keeper_of_plan sources hx).2.symm.trans keeper
          cases this
          exact hid hx
        rw [keeper?_bundle h live, if_neg out]
        exact ⟨live, keeper⟩

theorem keepsLogs_bundle (payload : p.payloadAt? dest = some .batch) (filled : plan ≠ []) :
    KeepsLogs p (p.bundle (plan.map Prod.fst) plan dest) := by
  refine keepsLogs_of a h (a.bundle h distinct sources) (h.bundle payload filled distinct sources)
    fun {f i j} hf _ hi hj => ?_
  rw [keeper?_bundle h hf] at hj
  split at hj
  · next hx =>
    cases hj
    obtain ⟨-, single⟩ := keeper_of_plan sources hx
    cases single.symm.trans hi
    have own := own_of_plan a h sources
    have mine : ∀ u ∈ p.queue.under f, u.frame = f := own f hx
    rw [under_bundle distinct (under_next a h), if_pos rfl, filter_flatMap_under distinct hx own,
      List.filter_eq_self.mpr (by simpa using mine)]
  · next hx =>
    cases hi.symm.trans hj
    obtain ⟨s, hs⟩ := h.keeper_known hi
    have old : p.lastId + 1 ≠ i := h.ne_next hs
    have out : i ∉ plan.map Prod.fst := by
      intro hin
      have := h.keeper_self (keeper_of_plan sources hin).1 hi
      exact hx (this ▸ hin)
    rw [under_bundle distinct (under_next a h), if_neg old, if_neg out]

end Bundle

/-! ### Unpacking -/

section Dissolve

variable {source dest : Nat} {b : Batch}

theorem queue_dissolve : (p.dissolve source dest b).queue =
    scatter (p.queue.take b.id).2 ((p.queue.take b.id).1.getD []) :=
  (reseated_settleAll _ b.members dest).queue

theorem tight_dissolve (tight : p.queue.Tight) : (p.dissolve source dest b).queue.Tight := by
  rw [queue_dissolve]
  exact tight_scatter _ _ (tight.take b.id)

/-- What waits under the batch waits under the frames that it is meant for, behind what waits
there. -/
theorem under_dissolve (x : Int) : (p.dissolve source dest b).queue.under x =
    (if b.id = x then [] else p.queue.under x) ++
      (p.queue.under b.id).filter fun u => u.frame = x := by
  rw [queue_dissolve, under_scatter, Queue.under_take, Queue.take_fst]

variable (a : p.Addressed) (h : p.Consistent) (live : p.batches.get? b.id = some b)
include h live

theorem keeper?_dissolve {x : Int} (hx : (p.frames.get? x).isSome) :
    (p.dissolve source dest b).keeper? x = if x ∈ b.members then some x else p.keeper? x := by
  have ne : b.id ≠ x := by
    rintro rfl
    rw [h.frame_of_batch live] at hx
    cases hx
  unfold keeper?
  rw [places_dissolve, if_neg ne]
  split <;> rfl

include a

theorem Addressed.dissolve : (p.dissolve source dest b).Addressed where
  tight := tight_dissolve a.tight
  meant {id u} hu := by
    rw [frames_dissolve]
    rw [under_dissolve, List.mem_append] at hu
    rcases hu with hu | hu
    · split at hu
      · cases hu
      · next ne =>
        obtain ⟨frame, keeper⟩ := a.meant hu
        have out : u.frame ∉ b.members := by
          intro hm
          have := ((h.keeper_batch live frame).mpr hm).symm.trans keeper
          cases this
          exact ne rfl
        rw [keeper?_dissolve h live frame, if_neg out]
        exact ⟨frame, keeper⟩
    · obtain ⟨hu, e⟩ := List.mem_filter.mp hu
      obtain ⟨frame, keeper⟩ := a.meant hu
      have member := (h.keeper_batch live frame).mp keeper
      rw [keeper?_dissolve h live frame, if_pos member]
      exact ⟨frame, by simpa using e⟩

theorem keepsLogs_dissolve (payload : p.payloadAt? dest = some .frame)
    (place : p.places.get? b.id = some (.stage source)) :
    KeepsLogs p (p.dissolve source dest b) := by
  refine keepsLogs_of a h (a.dissolve h live) (h.dissolve payload place live)
    fun {f i j} hf _ hi hj => ?_
  rw [keeper?_dissolve h live hf] at hj
  rw [under_dissolve, List.filter_append]
  split at hj
  · next hm =>
    cases hj
    cases ((h.keeper_batch live hf).mpr hm).symm.trans hi
    -- while it was packed, nothing waited under the frame itself
    obtain ⟨-, -, -, -, members⟩ := h.batch live
    have none : p.queue.under f = [] := a.under_packed h (members f hm)
    rw [none, ite_self, List.filter_nil, List.nil_append, List.filter_filter]
    simp
  · next hm =>
    cases hi.symm.trans hj
    have ne : b.id ≠ i := by
      rintro rfl
      exact hm ((h.keeper_batch live hf).mp hi)
    have none : (((p.queue.under b.id).filter fun u => u.frame = i).filter fun u => u.frame = f) =
        [] := by
      rw [List.filter_eq_nil_iff]
      intro u hu e
      have keeper := (a.meant (List.mem_filter.mp hu).1).2
      rw [show u.frame = f by simpa using e, hi] at keeper
      exact ne (Option.some.inj keeper).symm
    rw [if_neg ne, none, List.append_nil]

end Dissolve

/-- Moving, packing and unpacking keep updates addressed. -/
theorem Addressed.movement (a : p.Addressed) (h : p.Consistent) (m : p.Movement q) :
    q.Addressed := by
  cases m with
  | stay => exact a
  | arrive f payload => exact a.arrive h f
  | relocate payload distinct sources => exact a.relocate sources
  | bundle payload filled distinct sources => exact a.bundle h distinct sources
  | dissolve payload place live => exact a.dissolve h live

/-- Moving, packing and unpacking keep every log. -/
theorem keepsLogs_movement (a : p.Addressed) (h : p.Consistent) (m : p.Movement q) :
    KeepsLogs p q := by
  cases m with
  | stay => exact fun _ _ _ => rfl
  | arrive f payload => exact keepsLogs_arrive a h f payload
  | relocate payload distinct sources => exact keepsLogs_relocate sources a h payload distinct
  | bundle payload filled distinct sources =>
    exact keepsLogs_bundle a h distinct sources payload filled
  | dissolve payload place live => exact keepsLogs_dissolve a h live payload place

/-! ### Taking out -/

theorem mem_under_dropped {id k : Int} {u : Pending} (hu : u ∈ (p.queue.clear id).2.under k) :
    id ≠ k ∧ u ∈ p.queue.under k := by
  rw [Queue.clear_eq, Queue.under_put] at hu
  split at hu
  · cases hu
  · next ne => exact ⟨ne, hu⟩

theorem tight_dropped (tight : p.queue.Tight) (id : Int) : (p.queue.clear id).2.Tight := by
  rw [Queue.clear_eq]
  exact tight.put id []

/-- Logs of frames that others keep are as before when one keeper goes with all that waits under
it. -/
theorem keepsLogs_drop (a : p.Addressed) (h : p.Consistent) (b : q.Addressed) (k : q.Consistent)
    {id : Int} (queue : q.queue = (p.queue.clear id).2)
    (keeper : ∀ {f}, (p.frames.get? f).isSome → (q.frames.get? f).isSome →
      q.keeper? f = p.keeper? f ∧ p.keeper? f ≠ some id) : KeepsLogs p q := by
  refine keepsLogs_of a h b k fun {f i j} hf hf' hi hj => ?_
  obtain ⟨same, other⟩ := keeper hf hf'
  rw [same, hi] at hj
  cases hj
  have ne : id ≠ i := fun e => other (e ▸ hi)
  rw [queue, Queue.clear_eq, Queue.under_put_ne _ _ ne]

section DropFrame

variable {id : Int} {i : Nat}

theorem keeper?_dropFrame {x : Int} (ne : id ≠ x) : (p.dropFrame id i).keeper? x = p.keeper? x :=
  keeper?_congr (Table.get?_erase_ne _ ne)

variable (a : p.Addressed) (h : p.Consistent) {f : Frame}
  (place : p.places.get? id = some (.stage i)) (frame : p.frames.get? id = some f)
include a place

theorem Addressed.dropFrame : (p.dropFrame id i).Addressed := by
  refine a.keep (tight_dropped a.tight id) fun {k u} hu => ?_
  obtain ⟨ne, hu⟩ := mem_under_dropped hu
  have other : id ≠ u.frame := by
    intro e
    have keeper := (a.meant hu).2
    rw [← e, keeper?_eq_some_iff.mpr (.inl ⟨rfl, i, place⟩)] at keeper
    exact ne (Option.some.inj keeper)
  refine ⟨hu, ?_, keeper?_dropFrame other⟩
  rw [frames_dropFrame, if_neg other]

include h frame

theorem keepsLogs_dropFrame : KeepsLogs p (p.dropFrame id i) := by
  refine keepsLogs_drop a h (a.dropFrame place) (h.dropFrame place frame) rfl fun {x} hx hx' => ?_
  have ne : id ≠ x := by
    rintro rfl
    rw [frames_dropFrame, if_pos rfl] at hx'
    cases hx'
  refine ⟨keeper?_dropFrame ne, fun keeper => ?_⟩
  exact ne (h.keeper_self (by simp [frame]) keeper).symm

end DropFrame

section DropBatch

variable {id : Int} {i : Nat} {b : Batch}

theorem queue_dropBatch : (p.dropBatch id i b).queue = (p.queue.clear id).2 := by
  rw [dropBatch_eq]
  rfl

variable (a : p.Addressed) (h : p.Consistent) (place : p.places.get? id = some (.stage i))
  (live : p.batches.get? id = some b)
include h live

theorem keeper?_dropBatch {x : Int} (hx : (p.frames.get? x).isSome) (out : x ∉ b.members) :
    (p.dropBatch id i b).keeper? x = p.keeper? x := by
  refine keeper?_congr ?_
  have ne : id ≠ x := by
    rintro rfl
    rw [h.frame_of_batch live] at hx
    cases hx
  rw [places_dropBatch, if_neg out, if_neg ne]

include a

theorem Addressed.dropBatch : (p.dropBatch id i b).Addressed := by
  refine a.keep (queue_dropBatch ▸ tight_dropped a.tight id) fun {k u} hu => ?_
  rw [queue_dropBatch] at hu
  obtain ⟨ne, hu⟩ := mem_under_dropped hu
  obtain ⟨frame, keeper⟩ := a.meant hu
  have out : u.frame ∉ b.members := by
    intro hm
    have := ((h.keeper_batch live frame).mpr hm).symm.trans keeper
    exact ne (Option.some.inj this)
  refine ⟨hu, ?_, keeper?_dropBatch h live frame out⟩
  rw [frames_dropBatch, if_neg out]

include place

theorem keepsLogs_dropBatch : KeepsLogs p (p.dropBatch id i b) := by
  refine keepsLogs_drop a h (a.dropBatch h live) (h.dropBatch place live) queue_dropBatch
    fun {x} hx hx' => ?_
  have out : x ∉ b.members := by
    intro hm
    rw [frames_dropBatch, if_pos hm] at hx'
    cases hx'
  exact ⟨keeper?_dropBatch h live hx out, fun keeper => out ((h.keeper_batch live hx).mp keeper)⟩

end DropBatch

/-! ### Staging -/

/-- A staged update stands at the end of the log of its frame, and in no other log. -/
theorem log_push (h : p.Consistent) {id f : Int} {u : Pending} (hf : (p.frames.get? f).isSome)
    (keeper : p.keeper? u.frame = some id) : log { p with queue := p.queue.push id u } f =
      if u.frame = f then p.log f ++ [u] else p.log f := by
  unfold log
  rcases hp : p.places.get? f with _ | i | k
  · -- a frame has a place
    obtain ⟨k, hk⟩ := h.keeper_isSome hf
    obtain ⟨-, _, hp'⟩ | hp' := keeper?_eq_some_iff.mp hk <;> rw [hp] at hp' <;> cases hp'
  · simp only
    rw [Queue.under_push]
    have own : p.keeper? f = some f := keeper?_eq_some_iff.mpr (.inl ⟨rfl, i, hp⟩)
    have here : id = f ↔ u.frame = f := by
      constructor
      · rintro rfl
        exact h.keeper_self hf keeper
      · intro e
        rw [e, own] at keeper
        exact (Option.some.inj keeper).symm
    by_cases e : u.frame = f
    · rw [if_pos (here.mpr e), if_pos e]
    · rw [if_neg (mt here.mp e), if_neg e]
  · simp only
    rw [Queue.under_push]
    have own : p.keeper? f = some k := keeper?_eq_some_iff.mpr (.inr hp)
    by_cases e : u.frame = f
    · rw [e, own] at keeper
      rw [if_pos (Option.some.inj keeper).symm, List.filter_append, if_pos e]
      simp [e]
    · rw [if_neg e]
      split
      · rw [List.filter_append]
        simp [e]
      · rfl

/-- Where all that waits under an identifier is dropped, the logs of the frames that it keeps are
empty, and the others as before. -/
theorem log_put_nil (p : Pipeline) (frames : Table Int Frame) (id f : Int) :
    log { p with frames := frames, queue := p.queue.put id [] } f =
      if p.keeper? f = some id then [] else p.log f := by
  unfold log keeper?
  rcases p.places.get? f with _ | i | k
  · simp
  · simp only [Option.map_some, Option.some.injEq]
    rw [Queue.under_put]
    by_cases e : id = f
    · rw [if_pos e, if_pos e.symm]
    · rw [if_neg e, if_neg (Ne.symm e)]
  · simp only [Option.map_some, Option.some.injEq]
    rw [Queue.under_put]
    by_cases e : id = k
    · rw [if_pos e, if_pos e.symm, List.filter_nil]
    · rw [if_neg e, if_neg (Ne.symm e)]

/-- Writing to a detection is not seen in any log. -/
theorem log_edit (frame : Int) (id : Int64) (change : Detection → Detection) {f : Int} :
    (p.edit frame id change).2.log f = p.log f := by
  rcases edit_cases (p := p) frame id change with he | ⟨_, -, he⟩
  · rw [he]
  · rw [he]; rfl

/-! ### Every operation -/

/-- Every effect of an operation keeps updates addressed. -/
theorem Addressed.effect (a : p.Addressed) (h : p.Consistent) (e : p.Effect q) : q.Addressed := by
  cases e with
  | movement m => exact a.movement h m
  | dropFrame place frame => exact a.dropFrame place
  | dropBatch place live => exact a.dropBatch h live
  | @enqueue id u frame keeper =>
    refine ⟨a.tight.put _ _, fun {k v} hv => ?_⟩
    rw [Queue.under_push] at hv
    split at hv
    · next e =>
      rcases List.mem_append.mp hv with hv | hv
      · exact a.meant (e ▸ hv)
      · rw [List.mem_singleton.mp hv, ← e]
        exact ⟨frame, keeper⟩
    · exact a.meant hv
  | @settle frames id same =>
    refine a.keep (a.tight.put _ _) fun {k u} hu => ⟨?_, same u.frame, rfl⟩
    rw [Queue.under_put] at hu
    split at hu
    · cases hu
    · exact hu
  | @edit id f g frame =>
    refine a.keep a.tight fun {k u} hu => ⟨hu, ?_, rfl⟩
    rw [Table.get?_set]
    split
    · next e => simp [← e, frame]
    · rfl

theorem Reachable.addressed (h : p.Reachable) : p.Addressed := by
  have both : p.Consistent ∧ p.Addressed := by
    refine Reachable.induct (P := fun p => p.Consistent ∧ p.Addressed) (fun c hc => ?_) ?_ h
    · exact ⟨consistent_ofConfig hc, Queue.tight_empty, fun hu => by cases hu⟩
    · rintro p op ⟨hp, a⟩
      have e := effect_run hp op
      exact ⟨hp.effect e, a.effect hp e⟩
  exact both.2

/-! ### Unknown identifiers -/

/-- Nobody knows an identifier, and nothing waits under it. -/
structure Unknown (p : Pipeline) (id : Int) : Prop where
  nowhere : p.locate id = none
  noFrame : p.frame? id = none
  noBatch : p.batch? id = none
  nothing : p.queue.entries.get? id = none

theorem Unknown.of_place (h : p.Consistent) (a : p.Addressed) {id : Int}
    (place : p.places.get? id = none) : p.Unknown id := by
  obtain ⟨frame, batch⟩ := h.unknown place
  refine ⟨?_, frame, batch, ?_⟩
  · unfold locate
    rw [place]
  · rw [Queue.get?_entries a.tight, if_pos (a.under_unknown h place)]

end Pipeline
end FrameFlow
