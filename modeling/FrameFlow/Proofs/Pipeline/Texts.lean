/-
# Texts without NULs

The scope and the labels of a detection are free of NULs when those of the frames
and updates that come in are. A command changes no text but by the one that it
brings. What takes place in a pipeline otherwise changes no frame and no update:
frames and updates that are there afterwards were there before.

Key definitions: `Detection.Clean`, `Frame.Clean`, `Command.Clean`, `Update.Clean`,
`Operation.Clean`, `Pipeline.Clean`.
Key theorems: `Command.clean_apply`, `Update.clean_apply`, `Pipeline.clean_runPending`,
`Pipeline.clean_run`.
-/
import FrameFlow.Proofs.Frame.Locality
import FrameFlow.Proofs.Octets
import FrameFlow.Proofs.Pipeline.Addressed

namespace FrameFlow

/-- A detection whose texts are free of NULs. -/
structure Detection.Clean (d : Detection) : Prop where
  scope : NulFree d.scope
  label : NulFree d.label
  drawLabel : ∀ label, d.drawLabel = some label → NulFree label

def Frame.Clean (f : Frame) : Prop := ∀ d ∈ f.detections, d.Clean

/-- A command that brings in no NUL in a text of a detection. -/
def Command.Clean : Command → Prop
  | addDetection d _ => d.Clean
  | setLabel _ label => NulFree label
  | setDrawLabel _ label => ∀ text, label = some text → NulFree text
  | _ => True

def Update.Clean (u : Update) : Prop := ∀ c ∈ u.commands, c.Clean

/-- An operation that brings in clean frames and updates only. -/
def Operation.Clean : Operation → Prop
  | addFrame _ frame => frame.Clean
  | enqueue _ update => update.Clean
  | enqueueBatched _ _ update => update.Clean
  | _ => True

/-- The text that is read of a clean detection is free of NULs. -/
theorem Detection.Clean.read {d : Detection} (h : d.Clean) (field : TextField) :
    NulFree (field.read d) := by
  cases field with
  | scope => exact h.scope
  | label => exact h.label
  | drawLabel =>
    change NulFree (d.drawLabel.getD d.label)
    rcases shown : d.drawLabel with _ | label
    · exact h.label
    · exact h.drawLabel label shown

/-! ### Frames -/

namespace Frame

theorem mem_modifyFirst {id : Int64} {change : Detection → Detection} {d : Detection} :
    ∀ {ds : List Detection}, d ∈ modifyFirst id change ds → d ∈ ds ∨ ∃ e ∈ ds, d = change e
  | [], hd => by cases hd
  | e :: es, hd => by
    unfold modifyFirst at hd
    split at hd
    · rcases List.mem_cons.mp hd with rfl | hd
      · exact .inr ⟨e, List.mem_cons_self, rfl⟩
      · exact .inl (List.mem_cons_of_mem e hd)
    · rcases List.mem_cons.mp hd with rfl | hd
      · exact .inl List.mem_cons_self
      · rcases mem_modifyFirst hd with hd | ⟨x, hx, rfl⟩
        · exact .inl (List.mem_cons_of_mem e hd)
        · exact .inr ⟨x, List.mem_cons_of_mem e hx, rfl⟩

namespace Clean

variable {f f' : Frame} (h : f.Clean)
include h

theorem append {d : Detection} (hd : d.Clean) :
    Clean { f with detections := f.detections ++ [d] } := by
  intro e he
  rcases List.mem_append.mp he with he | he
  · exact h e he
  · rw [List.mem_singleton.mp he]
    exact hd

theorem modify {change : Detection → Detection} (keep : ∀ d, d.Clean → (change d).Clean)
    (id : Int64) : (f.modify id change).Clean := by
  intro d hd
  rcases mem_modifyFirst hd with hd | ⟨e, he, rfl⟩
  · exact h d hd
  · exact keep e (h e he)

theorem remove (id : Int64) : (f.remove id).Clean :=
  fun d hd => h d (List.mem_of_mem_eraseP hd)

theorem rewritten {id : Int64} {change : Detection → Detection}
    (rewritten : f.Rewritten id change f') (keep : ∀ d, d.Clean → (change d).Clean) : f'.Clean := by
  obtain ⟨-, rfl⟩ := rewritten_iff.mp rewritten
  exact h.modify keep id

/-- A detection that is added under another identifier has the texts that it came with. -/
theorem admitted {d : Detection} (hd : d.Clean) {policy : DetectionPolicy}
    (admitted : f.Admitted d policy f') : f'.Clean := by
  cases admitted with
  | free free => exact h.append hd
  | renumbered taken next => exact h.append ⟨hd.scope, hd.label, hd.drawLabel⟩
  | replaced rewritten => exact h.rewritten rewritten fun _ _ => hd

end Clean
end Frame

/-! ### Commands and updates -/

/-- A command leaves a clean frame when it brings in nothing else. -/
theorem Command.clean_apply {c : Command} (hc : c.Clean) {frameId : Int} {f f' : Frame}
    (h : f.Clean) (done : c.apply frameId f = .ok f') : f'.Clean := by
  have changes : c.Changes f f' := apply_ok_iff.mp done
  cases c with
  | setConfidence id confidence =>
    exact h.rewritten changes fun d hd => ⟨hd.scope, hd.label, hd.drawLabel⟩
  | setBox id box => exact h.rewritten changes fun d hd => ⟨hd.scope, hd.label, hd.drawLabel⟩
  | setTrack id track => exact h.rewritten changes fun d hd => ⟨hd.scope, hd.label, hd.drawLabel⟩
  | setLabel id label => exact h.rewritten changes fun d hd => ⟨hd.scope, hc, hd.drawLabel⟩
  | setDrawLabel id label => exact h.rewritten changes fun d hd => ⟨hd.scope, hd.label, hc⟩
  | addDetection d policy => exact h.admitted hc changes
  | removeDetection id =>
    obtain ⟨-, rfl⟩ := Frame.removed_iff.mp changes
    exact h.remove id
  | setAttribute id a policy =>
    obtain ⟨_, _, -, -, rewritten⟩ := changes
    exact h.rewritten rewritten fun d hd => ⟨hd.scope, hd.label, hd.drawLabel⟩
  | removeAttribute id scope name =>
    obtain ⟨_, _, -, -, rewritten⟩ := changes
    exact h.rewritten rewritten fun d hd => ⟨hd.scope, hd.label, hd.drawLabel⟩
  | setFrameAttribute a policy =>
    obtain ⟨t, -, rfl⟩ := changes
    exact h
  | removeFrameAttribute scope name =>
    obtain ⟨t, -, rfl⟩ := changes
    exact h

namespace Update

theorem clean_runList {frameId : Int} {cs : List Command} {f : Frame} (clean : ∀ c ∈ cs, c.Clean)
    (h : f.Clean) : (runList frameId f cs).1.Clean :=
  runList_keeps (fun c hc _ _ => Command.clean_apply (clean c hc)) h

theorem clean_apply {u : Update} (hu : u.Clean) {frameId : Int} {f f' : Frame} (h : f.Clean)
    (done : u.apply frameId f = .ok f') : f'.Clean := by
  have after : (u.run frameId f).1.Clean := clean_runList hu h
  unfold apply at done
  split at done
  · next run =>
    cases done
    rw [run] at after
    exact after
  · cases done

end Update

/-! ### Pipelines -/

/-- All texts of detections in a pipeline are free of NULs, in frames and in what waits. -/
structure Pipeline.Clean (p : Pipeline) : Prop where
  frame : ∀ {id f}, p.frames.get? id = some f → f.Clean
  waiting : ∀ {id u}, u ∈ p.queue.under id → u.update.Clean

namespace Pipeline

variable {p q : Pipeline}

theorem clean_ofConfig (c : Config) : (ofConfig c).Clean where
  frame there := by cases there
  waiting hu := by cases hu

/-- What is in a pipeline was in another one. -/
structure Inherits (p q : Pipeline) : Prop where
  frame : ∀ {id f}, q.frames.get? id = some f → p.frames.get? id = some f
  waiting : ∀ {k u}, u ∈ q.queue.under k → ∃ j, u ∈ p.queue.under j

theorem Inherits.refl (p : Pipeline) : p.Inherits p := ⟨id, fun hu => ⟨_, hu⟩⟩

theorem Inherits.clean (h : p.Clean) (i : p.Inherits q) : q.Clean where
  frame there := h.frame (i.frame there)
  waiting hu := by
    obtain ⟨j, hj⟩ := i.waiting hu
    exact h.waiting hj

theorem inherits_of_clear {q : Pipeline} {id : Int} (queue : q.queue = (p.queue.clear id).2)
    (frame : ∀ {x f}, q.frames.get? x = some f → p.frames.get? x = some f) : p.Inherits q := by
  refine ⟨frame, fun {k u} hu => ?_⟩
  rw [queue] at hu
  exact ⟨k, (mem_under_dropped hu).2⟩

theorem inherits_relocate (dest : Nat) (plan : List (Int × Nat)) :
    p.Inherits (p.relocate dest plan) := by
  have same := reseated_relocate p dest plan
  refine ⟨fun there => ?_, fun {k u} hu => ⟨k, ?_⟩⟩
  · rwa [same.frames] at there
  · rwa [same.queue] at hu

theorem inherits_bundle (h : p.Consistent) (a : p.Addressed) {ids : List Int} (nodup : ids.Nodup)
    (plan : List (Int × Nat)) (dest : Nat) : p.Inherits (p.bundle ids plan dest) := by
  refine ⟨fun there => ?_, fun {k u} hu => ?_⟩
  · rwa [frames_bundle] at there
  · rw [under_bundle nodup (under_next a h)] at hu
    split at hu
    · obtain ⟨j, -, hj⟩ := List.mem_flatMap.mp hu
      exact ⟨j, hj⟩
    · split at hu
      · cases hu
      · exact ⟨k, hu⟩

theorem inherits_dissolve (source dest : Nat) (b : Batch) :
    p.Inherits (p.dissolve source dest b) := by
  refine ⟨fun there => ?_, fun {k u} hu => ?_⟩
  · rwa [frames_dissolve] at there
  · rw [under_dissolve, List.mem_append] at hu
    rcases hu with hu | hu
    · split at hu
      · cases hu
      · exact ⟨k, hu⟩
    · exact ⟨b.id, (List.mem_filter.mp hu).1⟩

theorem inherits_move (stage : String) (ids : List Int) : p.Inherits (p.move stage ids).next := by
  unfold move
  split
  · exact .refl p
  · split
    · exact .refl p
    · split
      · exact .refl p
      · exact inherits_relocate _ _

theorem inherits_pack (h : p.Consistent) (a : p.Addressed) (stage : String) (ids : List Int) :
    p.Inherits (p.pack stage ids).next := by
  unfold pack
  split
  · exact .refl p
  · simp only
    split
    · exact .refl p
    · next dest plan planned =>
      rcases hd : p.destinationFor stage .batch with _ | i
      · rw [hd] at planned; cases planned
      rcases hr : p.planPack [] ids with _ | rest
      · rw [hd, hr] at planned; cases planned
      exact inherits_bundle h a (planPack_ok ids [] hr).2.1 plan dest

theorem inherits_unpack (stage : String) (k : Int) : p.Inherits (p.unpack stage k).next := by
  unfold unpack
  split
  · exact .refl p
  · exact inherits_dissolve _ _ _

theorem inherits_unpackIf (stage : String) (k : Int) (accept : Nat → Bool) :
    p.Inherits (p.unpackIf stage k accept).next := by
  unfold unpackIf
  split
  · exact .refl p
  · simp only
    split
    · exact inherits_dissolve _ _ _
    · exact .refl p

theorem inherits_delete (h : p.Consistent) (id : Int) : p.Inherits (p.delete id).next := by
  rcases delete_cases h id with ⟨e, done⟩ | ⟨i, -, -, ⟨f, -, next⟩ | ⟨b, -, next⟩⟩
  · rw [done]
    exact .refl p
  · rw [next]
    refine inherits_of_clear rfl fun {x f} there => ?_
    rw [show (p.dropFrame id i).frames = p.frames.erase id from rfl, Table.get?_erase] at there
    split at there
    · cases there
    · exact there
  · rw [next]
    refine inherits_of_clear queue_dropBatch fun {x f} there => ?_
    rw [frames_dropBatch] at there
    split at there
    · cases there
    · exact there

theorem inherits_discard (id : Int) : p.Inherits (p.discard id).2 :=
  inherits_of_clear rfl fun there => there

/-! ### What comes in and what changes -/

theorem clean_addFrame (clean : p.Clean) (stage : String) {f : Frame} (hf : f.Clean) :
    (p.addFrame stage f).next.Clean := by
  unfold addFrame
  split
  · exact clean
  · refine ⟨fun {id g} there => ?_, clean.waiting⟩
    change (p.frames.set (p.lastId + 1) f).get? id = some g at there
    rw [Table.get?_set] at there
    split at there
    · cases there
      exact hf
    · exact clean.frame there

/-- A clean update may wait. -/
theorem clean_push (clean : p.Clean) (k : Int) {u : Pending} (hu : u.update.Clean) :
    Clean { p with queue := p.queue.push k u } where
  frame := clean.frame
  waiting := by
    intro j v hv
    rw [Queue.under_push] at hv
    split at hv
    · rcases List.mem_append.mp hv with hv | hv
      · exact clean.waiting hv
      · rw [List.mem_singleton.mp hv]
        exact hu
    · exact clean.waiting hv

theorem clean_edit (clean : p.Clean) {change : Detection → Detection}
    (keep : ∀ d, d.Clean → (change d).Clean) (frame : Int) (id : Int64) :
    (p.edit frame id change).2.Clean := by
  rcases edit_cases (p := p) frame id change with done | ⟨f, there, done⟩
  · rw [done]
    exact clean
  · rw [done]
    refine ⟨fun {x g} found => ?_, clean.waiting⟩
    rw [Table.get?_set] at found
    split at found
    · cases found
      exact (clean.frame there).modify keep id
    · exact clean.frame found

/-- Clean updates leave clean copies of clean frames. -/
theorem clean_runPending {id : Int} {targets : List Int} {frames : Table Int Frame}
    (clean : ∀ {x f}, frames.get? x = some f → f.Clean) : ∀ (us : List Pending)
    (copies : Table Int Frame) {result : Table Int Frame}, (∀ u ∈ us, u.update.Clean) →
    (∀ {x f}, copies.get? x = some f → f.Clean) →
    runPending id targets frames copies us = .ok result → ∀ {x f}, result.get? x = some f → f.Clean
  | [], copies, result, _, hcopies, done => by
    cases done
    exact hcopies
  | u :: us, copies, result, waiting, hcopies, done => by
    obtain ⟨first, rest⟩ := List.forall_mem_cons.mp waiting
    unfold runPending at done
    split at done
    · cases done
    · next f copied =>
      have hf : f.Clean := by
        unfold copy? at copied
        split at copied
        · next there =>
          cases copied
          exact hcopies there
        · split at copied
          · exact clean copied
          · cases copied
      split at done
      · cases done
      · next f' applied =>
        have after := Update.clean_apply first hf applied
        refine clean_runPending clean us _ rest (fun {x g} there => ?_) done
        rw [Table.get?_set] at there
        split at there
        · cases there
          exact after
        · exact hcopies there

theorem clean_commit (clean : p.Clean) (id : Int) : (p.commit id).next.Clean := by
  rcases commit_cases (p := p) id with
    ⟨-, next, -⟩ | ⟨ids, -, -, ⟨e, -, -, next⟩ | ⟨copies, done, -, next⟩⟩
  · rw [next]
    exact clean
  · rw [next]
    exact clean
  · have copied : ∀ {x f}, copies.get? x = some f → f.Clean :=
      clean_runPending clean.frame (p.queue.under id) .empty (fun u hu => clean.waiting hu)
        (fun there => by cases there) done
    rw [next]
    refine ⟨fun {x f} there => ?_, fun {k u} hu => ?_⟩
    · rw [get?_overwrite] at there
      split at there
      · rcases found : copies.get? x with _ | g
        · rw [found, Option.none_or] at there
          exact clean.frame there
        · rw [found, Option.some_or] at there
          cases there
          exact copied found
      · exact clean.frame there
    · rw [Queue.under_put] at hu
      split at hu
      · cases hu
      · exact clean.waiting hu

/-- **Texts stay free of NULs.** Every operation keeps a pipeline clean, when what it brings in is
clean. -/
theorem clean_run (h : p.Consistent) (a : p.Addressed) (clean : p.Clean) (op : Operation)
    (good : op.Clean) : (op.run p).2.Clean := by
  cases op with
  | addFrame stage f => exact clean_addFrame clean stage good
  | delete id => exact (inherits_delete h id).clean clean
  | move stage ids => exact (inherits_move stage ids).clean clean
  | pack stage ids => exact (inherits_pack h a stage ids).clean clean
  | unpack stage k => exact (inherits_unpack stage k).clean clean
  | unpackIf stage k accept => exact (inherits_unpackIf stage k accept).clean clean
  | enqueue id u =>
    simp only [Operation.run, Outcome.replied]
    rcases enqueue_cases (p := p) id u with ⟨e, done⟩ | ⟨_, -, -, done⟩
    · rw [done]
      exact clean
    · rw [done]
      exact clean_push clean id good
  | enqueueBatched k id u =>
    simp only [Operation.run, Outcome.replied]
    rcases enqueueBatched_cases h k id u with ⟨e, done⟩ | ⟨-, -, done⟩
    · rw [done]
      exact clean
    · rw [done]
      exact clean_push clean k good
  | commit id => exact clean_commit clean id
  | discard id => exact (inherits_discard id).clean clean
  | setConfidence frame id confidence =>
    refine clean_edit clean (fun d hd => ?_) frame id
    exact ⟨hd.scope, hd.label, hd.drawLabel⟩
  | setBox frame id box =>
    refine clean_edit clean (fun d hd => ?_) frame id
    exact ⟨hd.scope, hd.label, hd.drawLabel⟩
  | setTrack frame id track =>
    refine clean_edit clean (fun d hd => ?_) frame id
    exact ⟨hd.scope, hd.label, hd.drawLabel⟩

end Pipeline
end FrameFlow
