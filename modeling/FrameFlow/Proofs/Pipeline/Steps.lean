/-
# What an operation can do

Whatever its arguments, an operation changes a pipeline in one of a few ways.
Four of them move frames and batches about (`Pipeline.Movement`); the others take
some out, stage updates, or write to frames (`Pipeline.Effect`). Each way comes
with what the operation has checked by then.

Key definitions: `Pipeline.Movement`, `Pipeline.Effect`.
Key theorem: `Pipeline.effect_run`, every operation has one of these effects.
-/
import FrameFlow.Proofs.Pipeline.Runs
import FrameFlow.Proofs.Pipeline.Standing
import FrameFlow.Proofs.Queue

namespace FrameFlow
namespace Pipeline

/-- The ways to move frames and batches, with what is known of them before. -/
inductive Movement (p : Pipeline) : Pipeline → Prop where
  | stay : Movement p p
  | arrive {i : Nat} (f : Frame) (payload : p.payloadAt? i = some .frame) :
      Movement p (p.arrive f i)
  | relocate {dest : Nat} {k : Payload} {plan : List (Int × Nat)}
      (payload : p.payloadAt? dest = some k) (distinct : (plan.map Prod.fst).Nodup)
      (sources : ∀ e ∈ plan, p.places.get? e.1 = some (.stage e.2) ∧ p.payloadAt? e.2 = some k) :
      Movement p (p.relocate dest plan)
  | bundle {dest : Nat} {plan : List (Int × Nat)} (payload : p.payloadAt? dest = some .batch)
      (filled : plan ≠ []) (distinct : (plan.map Prod.fst).Nodup)
      (sources : ∀ e ∈ plan, p.places.get? e.1 = some (.stage e.2) ∧ (p.frames.get? e.1).isSome) :
      Movement p (p.bundle (plan.map Prod.fst) plan dest)
  | dissolve {source dest : Nat} {b : Batch} (payload : p.payloadAt? dest = some .frame)
      (place : p.places.get? b.id = some (.stage source)) (live : p.batches.get? b.id = some b) :
      Movement p (p.dissolve source dest b)

/-- The ways to change a pipeline, with what is known before. -/
inductive Effect (p : Pipeline) : Pipeline → Prop where
  | movement {q : Pipeline} (h : Movement p q) : Effect p q
  | dropFrame {id : Int} {i : Nat} {f : Frame} (place : p.places.get? id = some (.stage i))
      (frame : p.frames.get? id = some f) : Effect p (p.dropFrame id i)
  | dropBatch {id : Int} {i : Nat} {b : Batch} (place : p.places.get? id = some (.stage i))
      (live : p.batches.get? id = some b) : Effect p (p.dropBatch id i b)
  | enqueue {id : Int} {u : Pending} (frame : (p.frames.get? u.frame).isSome)
      (keeper : p.keeper? u.frame = some id) : Effect p { p with queue := p.queue.push id u }
  | settle {frames : Table Int Frame} (id : Int)
      (same : ∀ x, (frames.get? x).isSome = (p.frames.get? x).isSome) :
      Effect p { p with frames := frames, queue := p.queue.put id [] }
  | edit {id : Int} {f : Frame} (g : Frame) (frame : p.frames.get? id = some f) :
      Effect p { p with frames := p.frames.set id g }

variable {p : Pipeline}

/-! ### What operations have checked -/

theorem destination_ok {stage : String} {i : Nat} {s : Stage}
    (h : p.destination stage = .ok (i, s)) : p.stages[i]? = some s := by
  unfold destination at h
  split at h
  · cases h
  · split at h
    · cases h
    · next e => cases h; exact e

theorem expect_ok {s : Stage} {k : Payload} (h : expect s k = .ok ()) : s.payload = k := by
  unfold expect at h
  split at h
  · assumption
  · cases h

theorem destinationFor_ok {stage : String} {k : Payload} {i : Nat}
    (h : p.destinationFor stage k = .ok i) : p.payloadAt? i = some k := by
  unfold destinationFor at h
  rcases hd : p.destination stage with _ | ⟨j, s⟩
  · rw [hd] at h; cases h
  · rw [hd] at h
    rcases he : expect s k with _ | ⟨⟩
    · simp only [bind, Except.bind, he] at h; cases h
    · simp only [bind, Except.bind, he] at h
      cases h
      rw [payloadAt?, destination_ok hd, Option.map_some, expect_ok he]

theorem independentStage_ok {id : Int} {i : Nat} (h : p.independentStage id = .ok i) :
    p.places.get? id = some (.stage i) ∧ (p.frames.get? id).isSome := by
  unfold independentStage at h
  split at h
  · cases h
  · next j hp =>
    split at h
    · next hf =>
      cases h
      exact ⟨hp, by rwa [Table.contains_eq] at hf⟩
    · cases h
  · cases h

theorem batchStage_ok {id : Int} {i : Nat} (h : p.batchStage id = .ok i) :
    p.places.get? id = some (.stage i) ∧ (p.batches.get? id).isSome := by
  unfold batchStage at h
  split at h
  · cases h
  · next j hp =>
    split at h
    · next hb =>
      cases h
      exact ⟨hp, by rwa [Table.contains_eq] at hb⟩
    · cases h
  · cases h

theorem unpackRoute_ok {stage : String} {id : Int} {source dest : Nat} {b : Batch}
    (h : p.unpackRoute stage id = .ok (source, dest, b)) :
    p.payloadAt? dest = some .frame ∧ p.places.get? id = some (.stage source) ∧
      p.batches.get? id = some b := by
  unfold unpackRoute at h
  rcases hd : p.destinationFor stage .frame with _ | i
  · rw [hd] at h; cases h
  · rcases hs : p.batchStage id with _ | j
    · rw [hd, hs] at h; cases h
    · rw [hd, hs] at h
      simp only [bind, Except.bind] at h
      split at h
      · cases h
      · next hb =>
        cases h
        exact ⟨destinationFor_ok hd, (batchStage_ok hs).1, hb⟩

/-- A plan of a move lists different identifiers, none of them seen before, each with its stage,
which holds what the destination holds. -/
theorem planMove_ok {dest : Stage} : ∀ (ids seen : List Int) {plan : List (Int × Nat)}
    {events : List Event}, p.planMove dest seen ids = (.ok plan, events) →
    (plan.map Prod.fst).Nodup ∧ ∀ e ∈ plan, e.1 ∉ seen ∧
      p.places.get? e.1 = some (.stage e.2) ∧ p.payloadAt? e.2 = some dest.payload
  | [], _, plan, _, h => by
    unfold planMove at h
    cases h
    simp
  | id :: ids, seen, plan, events, h => by
    unfold planMove at h
    split at h
    · exact planMove_ok ids seen h
    next unseen =>
    split at h
    · -- an unknown identifier is left out
      split at h
      · cases h
      · rcases hr : p.planMove dest (id :: seen) ids with ⟨rest, events'⟩
        rw [hr] at h
        cases h
        obtain ⟨nodup, all⟩ := planMove_ok ids (id :: seen) hr
        exact ⟨nodup, fun e he =>
          ⟨fun hs => (all e he).1 (List.mem_cons_of_mem _ hs), (all e he).2⟩⟩
    · cases h
    · next i hp =>
      split at h
      · cases h
      next source hs =>
      split at h
      · cases h
      next hk =>
      rcases hr : p.planMove dest (id :: seen) ids with ⟨rest, events'⟩
      rw [hr] at h
      rcases rest with _ | rest
      · cases h
      · cases h
        obtain ⟨nodup, all⟩ := planMove_ok ids (id :: seen) hr
        refine ⟨List.nodup_cons.mpr ⟨fun hm => ?_, nodup⟩, fun e he => ?_⟩
        · obtain ⟨e, he, hid⟩ := List.mem_map.mp hm
          exact (all e he).1 (hid ▸ List.mem_cons_self)
        · rcases List.mem_cons.mp he with rfl | he
          · refine ⟨by simpa using unseen, hp, ?_⟩
            rw [payloadAt?, hs, Option.map_some, expect_ok hk]
          · exact ⟨fun hs => (all e he).1 (List.mem_cons_of_mem _ hs), (all e he).2⟩

/-- A plan of a packing lists the requested identifiers, which are different single frames. -/
theorem planPack_ok : ∀ (ids seen : List Int) {plan : List (Int × Nat)},
    p.planPack seen ids = .ok plan →
    plan.map Prod.fst = ids ∧ ids.Nodup ∧ (∀ id ∈ ids, id ∉ seen) ∧
      ∀ e ∈ plan, p.places.get? e.1 = some (.stage e.2) ∧ (p.frames.get? e.1).isSome
  | [], _, plan, h => by
    unfold planPack at h
    cases h
    simp
  | id :: ids, seen, plan, h => by
    unfold planPack at h
    split at h
    · cases h
    next unseen =>
    rcases hs : p.independentStage id with _ | source
    · rw [hs] at h; cases h
    rcases hr : p.planPack (id :: seen) ids with _ | rest
    · rw [hs, hr] at h; cases h
    rw [hs, hr] at h
    cases h
    obtain ⟨same, nodup, fresh, all⟩ := planPack_ok ids (id :: seen) hr
    refine ⟨by rw [List.map_cons, same], List.nodup_cons.mpr ⟨fun hm => ?_, nodup⟩, ?_, ?_⟩
    · exact fresh id hm List.mem_cons_self
    · intro x hx
      rcases List.mem_cons.mp hx with rfl | hx
      · simpa using unseen
      · exact fun hs => fresh x hx (List.mem_cons_of_mem _ hs)
    · intro e he
      rcases List.mem_cons.mp he with rfl | he
      · exact independentStage_ok hs
      · exact all e he

/-! ### Operations that move -/

theorem movement_addFrame (stage : String) (f : Frame) : p.Movement (p.addFrame stage f).next := by
  unfold addFrame
  split
  · exact .stay
  · next hd => exact .arrive f (destinationFor_ok hd)

theorem movement_move (stage : String) (ids : List Int) : p.Movement (p.move stage ids).next := by
  unfold move
  split
  · exact .stay
  · next dest s hd =>
    split
    · exact .stay
    · split
      · exact .stay
      · next plan events hp =>
        obtain ⟨nodup, all⟩ := planMove_ok _ _ hp
        have payload : p.payloadAt? dest = some s.payload := by
          rw [payloadAt?, destination_ok hd, Option.map_some]
        exact .relocate payload nodup fun e he => (all e he).2

theorem movement_pack (stage : String) (ids : List Int) : p.Movement (p.pack stage ids).next := by
  unfold pack
  split
  · exact .stay
  next hne =>
  simp only
  split
  · exact .stay
  next dest plan hp =>
  rcases hd : p.destinationFor stage .batch with _ | i
  · rw [hd] at hp; cases hp
  rcases hr : p.planPack [] ids with _ | rest
  · rw [hd, hr] at hp; cases hp
  rw [hd, hr] at hp
  cases hp
  obtain ⟨same, nodup, -, all⟩ := planPack_ok _ _ hr
  have filled : plan ≠ [] := by
    rintro rfl
    rw [← same] at hne
    exact hne rfl
  subst same
  exact .bundle (destinationFor_ok hd) filled nodup all

theorem movement_dissolve (h : p.Consistent) {stage : String} {id : Int} {source dest : Nat}
    {b : Batch} (hr : p.unpackRoute stage id = .ok (source, dest, b)) :
    p.Movement (p.dissolve source dest b) := by
  obtain ⟨payload, place, live⟩ := unpackRoute_ok hr
  have label : b.id = id := (h.batch live).2.1
  subst label
  exact .dissolve payload place live

theorem movement_unpack (h : p.Consistent) (stage : String) (id : Int) :
    p.Movement (p.unpack stage id).next := by
  unfold unpack
  split
  · exact .stay
  · next hr => exact movement_dissolve h hr

theorem movement_unpackIf (h : p.Consistent) (stage : String) (id : Int) (accept : Nat → Bool) :
    p.Movement (p.unpackIf stage id accept).next := by
  unfold unpackIf
  split
  · exact .stay
  · next hr =>
    simp only
    split
    · exact movement_dissolve h hr
    · exact .stay

/-! ### Other operations -/

theorem Effect.refl (p : Pipeline) : p.Effect p := .movement .stay

/-- Only what stands in a stage can be taken out. -/
theorem delete_cases (h : p.Consistent) (id : Int) :
    (∃ e, p.delete id = .refuse p e []) ∨
      ∃ i, p.places.get? id = some (.stage i) ∧ (p.delete id).answer = .ok () ∧
        ((∃ f, p.frames.get? id = some f ∧ (p.delete id).next = p.dropFrame id i) ∨
          ∃ b, p.batches.get? id = some b ∧ (p.delete id).next = p.dropBatch id i b) := by
  unfold delete
  rcases hp : p.places.get? id with _ | i | k
  · exact .inl ⟨_, rfl⟩
  · refine .inr ⟨i, rfl, rfl, ?_⟩
    simp only [Table.contains_eq]
    rcases h.of_stage hp with ⟨-, hf, -⟩ | ⟨-, hf, hb⟩
    · obtain ⟨f, hf⟩ := Option.isSome_iff_exists.mp hf
      exact .inl ⟨f, hf, by simp [hf]⟩
    · obtain ⟨b, hb⟩ := Option.isSome_iff_exists.mp hb
      exact .inr ⟨b, hb, by simp [hf, hb]⟩
  · exact .inl ⟨_, rfl⟩

theorem effect_delete (h : p.Consistent) (id : Int) : p.Effect (p.delete id).next := by
  rcases delete_cases h id with ⟨e, hd⟩ | ⟨i, hp, -, ⟨f, hf, hn⟩ | ⟨b, hb, hn⟩⟩
  · rw [hd]; exact .refl p
  · rw [hn]; exact .dropFrame hp hf
  · rw [hn]; exact .dropBatch hp hb

/-- An update is staged under a single frame. -/
theorem enqueue_cases (id : Int) (u : Update) :
    (∃ e, p.enqueue id u = .refuse p e []) ∨
      ∃ i, p.places.get? id = some (.stage i) ∧ (p.frames.get? id).isSome ∧
        p.enqueue id u = ⟨.ok (), { p with queue := p.queue.push id ⟨id, u⟩ }, []⟩ := by
  unfold enqueue
  rcases hs : p.independentStage id with e | i
  · exact .inl ⟨e, rfl⟩
  · obtain ⟨hp, hf⟩ := independentStage_ok hs
    exact .inr ⟨i, hp, hf, rfl⟩

theorem effect_enqueue (id : Int) (u : Update) : p.Effect (p.enqueue id u).next := by
  rcases enqueue_cases (p := p) id u with ⟨e, he⟩ | ⟨i, hp, hf, he⟩
  · rw [he]; exact .refl p
  · rw [he]
    exact .enqueue hf (by simp [keeper?, hp])

/-- An update is staged under a batch for a frame that is packed in it. -/
theorem enqueueBatched_cases (h : p.Consistent) (batch id : Int) (u : Update) :
    (∃ e, p.enqueueBatched batch id u = .refuse p e []) ∨
      p.places.get? id = some (.batch batch) ∧ (p.frames.get? id).isSome ∧
        p.enqueueBatched batch id u =
          ⟨.ok (), { p with queue := p.queue.push batch ⟨id, u⟩ }, []⟩ := by
  unfold enqueueBatched
  rcases hb : p.batches.get? batch with _ | b
  · exact .inl ⟨_, rfl⟩
  by_cases hm : b.has id
  · have place := (h.batch hb).2.2.2.2 id (by simpa [Batch.has] using hm)
    obtain ⟨f, -, hf, -⟩ := h.packed place
    exact .inr ⟨place, by simp [hf], by simp [hm]⟩
  · exact .inl ⟨.notInBatch batch id, by simp [hm]⟩

theorem effect_enqueueBatched (h : p.Consistent) (batch id : Int) (u : Update) :
    p.Effect (p.enqueueBatched batch id u).next := by
  rcases enqueueBatched_cases h batch id u with ⟨e, he⟩ | ⟨hp, hf, he⟩
  · rw [he]; exact .refl p
  · rw [he]
    exact .enqueue hf (by simp [keeper?, hp])

theorem effect_discard (id : Int) : p.Effect (p.discard id).2 := by
  unfold discard
  rw [Queue.clear_eq]
  exact .settle id fun _ => rfl

/-- A detection is changed where it is. -/
theorem edit_cases (frame : Int) (id : Int64) (change : Detection → Detection) :
    p.edit frame id change = (false, p) ∨
      ∃ f, p.frames.get? frame = some f ∧ p.edit frame id change =
        (true, { p with frames := p.frames.set frame (f.modify id change) }) := by
  unfold edit
  rcases hf : p.frames.get? frame with _ | f
  · exact .inl rfl
  by_cases hd : f.has id
  · exact .inr ⟨f, rfl, by simp [hd]⟩
  · exact .inl (by simp [hd])

theorem effect_edit (frame : Int) (id : Int64) (change : Detection → Detection) :
    p.Effect (p.edit frame id change).2 := by
  rcases edit_cases (p := p) frame id change with he | ⟨f, hf, he⟩
  · rw [he]; exact .refl p
  · rw [he]; exact .edit _ hf

/-! ### Committing -/

/-- A commit is about frames only. -/
theorem targets_live (h : p.Consistent) {id : Int} {ids : List Int} (ht : p.targets id = some ids) :
    ∀ x ∈ ids, (p.frames.get? x).isSome := by
  unfold targets at ht
  split at ht
  · cases ht
  · split at ht
    · next hf =>
      cases ht
      intro x hx
      rw [List.mem_singleton.mp hx, ← Table.contains_eq]
      exact hf
    · obtain ⟨b, hb, rfl⟩ := Option.map_eq_some_iff.mp ht
      intro x hx
      obtain ⟨f, -, hf, -⟩ := h.packed ((h.batch hb).2.2.2.2 x hx)
      simp [hf]

theorem get?_overwrite (copies : Table Int Frame) (x : Int) :
    ∀ (ids : List Int) (frames : Table Int Frame), (overwrite copies frames ids).get? x =
      if x ∈ ids then (copies.get? x).or (frames.get? x) else frames.get? x
  | [], _ => by simp [overwrite]
  | id :: ids, frames => by
    unfold overwrite
    split
    · next hc =>
      rw [get?_overwrite copies x ids frames]
      by_cases e : x = id
      · subst e
        simp [hc]
      · simp [e]
    · next f hc =>
      rw [get?_overwrite copies x ids _, Table.get?_set]
      by_cases e : x = id
      · subst e
        simp [hc]
      · simp [e, Ne.symm e]

/-- A refused commit leaves the pipeline as it was, since all updates are put back. -/
theorem commit_cases (id : Int) :
    ((p.commit id).answer = .ok false ∧ (p.commit id).next = p ∧
        (p.targets id = none ∨ p.queue.under id = [])) ∨
      ∃ ids, p.targets id = some ids ∧ p.queue.under id ≠ [] ∧
        ((∃ e, runPending id ids p.frames .empty (p.queue.under id) = .error e ∧
            (p.commit id).answer = .error (.updateFailed id e) ∧ (p.commit id).next = p) ∨
          ∃ copies, runPending id ids p.frames .empty (p.queue.under id) = .ok copies ∧
            (p.commit id).answer = .ok true ∧ (p.commit id).next =
              { p with frames := overwrite copies p.frames ids, queue := p.queue.put id [] }) := by
  unfold commit
  rcases ht : p.targets id with _ | ids
  · exact .inl ⟨rfl, rfl, .inl rfl⟩
  by_cases hw : p.queue.under id = []
  · simp only [Queue.take_of_nil hw]
    exact .inl ⟨trivial, trivial, .inr hw⟩
  · refine .inr ⟨ids, rfl, hw, ?_⟩
    simp only [Queue.take_of_ne_nil hw]
    rcases hr : runPending id ids p.frames .empty (p.queue.under id) with e | copies
    · refine .inl ⟨e, rfl, rfl, ?_⟩
      simp only [Queue.restore_take hw]
    · exact .inr ⟨copies, rfl, rfl, rfl⟩

theorem effect_commit (h : p.Consistent) (id : Int) : p.Effect (p.commit id).next := by
  rcases commit_cases (p := p) id with ⟨-, hn, -⟩ | ⟨ids, ht, -, ⟨e, -, -, hn⟩ | ⟨copies, -, -, hn⟩⟩
  · rw [hn]; exact .refl p
  · rw [hn]; exact .refl p
  · rw [hn]
    refine .settle id fun x => ?_
    rw [get?_overwrite]
    split
    · next hx => simp [targets_live h ht x hx]
    · rfl

/-! ### All operations -/

/-- Whatever is asked of a consistent pipeline, it changes in one of these ways. -/
theorem effect_run (h : p.Consistent) (op : Operation) : p.Effect (op.run p).2 := by
  cases op with
  | addFrame stage f => exact .movement (movement_addFrame stage f)
  | delete id => exact effect_delete h id
  | move stage ids => exact .movement (movement_move stage ids)
  | pack stage ids => exact .movement (movement_pack stage ids)
  | unpack stage batch => exact .movement (movement_unpack h stage batch)
  | unpackIf stage batch accept => exact .movement (movement_unpackIf h stage batch accept)
  | enqueue id u => exact effect_enqueue id u
  | enqueueBatched batch id u => exact effect_enqueueBatched h batch id u
  | commit id => exact effect_commit h id
  | discard id => exact effect_discard id
  | setConfidence frame id confidence => exact effect_edit frame id _
  | setBox frame id box => exact effect_edit frame id _
  | setTrack frame id track => exact effect_edit frame id _

end Pipeline
end FrameFlow
