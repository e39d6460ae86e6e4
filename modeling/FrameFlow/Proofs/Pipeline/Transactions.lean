/-
# A commit is a transaction

What waits under an identifier is a script: commands, each with the frame that it
is for, in staging order. Running the script plainly means to run one command
after another on the frames themselves (`Pipeline.execute`). A commit works on
copies that it makes when it first needs them, update by update, and writes the
targets back at its end; it comes to the same as running the script, except that
nothing is kept when a command is refused.

Key definitions: `Pipeline.script`, `Pipeline.execute`, `Pipeline.Transacts`.
Key theorem: `Pipeline.commit_transacts`.
-/
import FrameFlow.Proofs.Pipeline.Addressed

namespace FrameFlow
namespace Pipeline

/-- The commands of updates, each with its frame, in their order. -/
def script (us : List Pending) : List (Int × Command) :=
  us.flatMap fun u => u.update.commands.map fun c => (u.frame, c)

/-- The commands of a script that are for a frame. -/
def own (f : Int) (s : List (Int × Command)) : List Command :=
  (s.filter fun e => e.1 = f).map Prod.snd

/-- Runs commands one after another, each on its own frame as it is by then, up to the first one
that is refused. -/
def execute : Table Int Frame → List (Int × Command) → Except Error (Table Int Frame)
  | frames, [] => .ok frames
  | frames, (id, c) :: s =>
    match frames.get? id with
    | none => execute frames s
    | some f =>
      match c.apply id f with
      | .error e => .error e
      | .ok f' => execute (frames.set id f') s

/-! ### Scripts -/

theorem script_cons (u : Pending) (us : List Pending) :
    script (u :: us) = (u.update.commands.map fun c => (u.frame, c)) ++ script us := by
  rw [script, List.flatMap_cons, script]

theorem own_cons_self (f : Int) (c : Command) (s : List (Int × Command)) :
    own f ((f, c) :: s) = c :: own f s := by
  simp [own]

theorem own_cons_ne {f g : Int} (ne : g ≠ f) (c : Command) (s : List (Int × Command)) :
    own f ((g, c) :: s) = own f s := by
  simp [own, ne]

/-- Whatever is done to other frames, a frame is in the end what its own commands make of it. -/
theorem execute_own : ∀ (s : List (Int × Command)) {frames frames' : Table Int Frame} {x : Int}
    {f : Frame}, execute frames s = .ok frames' → frames.get? x = some f →
    ∃ f', frames'.get? x = some f' ∧ Update.runList x f (own x s) = (f', .ok ())
  | [], _, _, _, f, h, hx => by
    cases h
    exact ⟨f, hx, rfl⟩
  | (id, c) :: s, frames, frames', x, f, h, hx => by
    unfold execute at h
    split at h
    · next hid =>
      have ne : id ≠ x := by
        rintro rfl
        rw [hid] at hx
        cases hx
      rw [own_cons_ne ne]
      exact execute_own s h hx
    · next g hid =>
      split at h
      · cases h
      · next g' hc =>
        by_cases e : id = x
        · subst e
          cases hid.symm.trans hx
          obtain ⟨f', hf', run⟩ := execute_own s h (Table.get?_set_self _ _ _)
          refine ⟨f', hf', ?_⟩
          rw [own_cons_self, Update.runList, hc]
          exact run
        · rw [own_cons_ne e]
          exact execute_own s h ((Table.get?_set_ne _ _ e).trans hx)

/-- No frame comes from nowhere. -/
theorem execute_none : ∀ (s : List (Int × Command)) {frames frames' : Table Int Frame} {x : Int},
    execute frames s = .ok frames' → frames.get? x = none → frames'.get? x = none
  | [], _, _, _, h, hx => by
    cases h
    exact hx
  | (id, c) :: s, frames, frames', x, h, hx => by
    unfold execute at h
    split at h
    · exact execute_none s h hx
    · next g hid =>
      split at h
      · cases h
      · have ne : id ≠ x := by
          rintro rfl
          rw [hid] at hx
          cases hx
        exact execute_none s h ((Table.get?_set_ne _ _ ne).trans hx)

/-- A script is refused for its first command that is. -/
theorem execute_error : ∀ (s : List (Int × Command)) {frames : Table Int Frame} {e : Error},
    execute frames s = .error e → ∃ before id c later mid f, s = before ++ (id, c) :: later ∧
      execute frames before = .ok mid ∧ mid.get? id = some f ∧ c.apply id f = .error e
  | [], _, _, h => by cases h
  | (id, c) :: s, frames, e, h => by
    unfold execute at h
    split at h
    · next hid =>
      obtain ⟨before, id', c', later, mid, f, rfl, run, rest⟩ := execute_error s h
      refine ⟨(id, c) :: before, id', c', later, mid, f, rfl, ?_, rest⟩
      rw [execute, hid]
      exact run
    · next g hid =>
      split at h
      · next e' hc =>
        cases h
        exact ⟨[], id, c, s, frames, g, rfl, rfl, hid, hc⟩
      · next g' hc =>
        obtain ⟨before, id', c', later, mid, f, rfl, run, rest⟩ := execute_error s h
        refine ⟨(id, c) :: before, id', c', later, mid, f, rfl, ?_, rest⟩
        rw [execute, hid]
        simp only [hc]
        exact run

/-- The commands of one update run as the update does. -/
theorem execute_update (id : Int) (rest : List (Int × Command)) :
    ∀ (cs : List Command) {frames : Table Int Frame} {f : Frame}, frames.get? id = some f →
    execute frames (cs.map (fun c => (id, c)) ++ rest) =
      match Update.apply id f ⟨cs⟩ with
      | .error e => .error e
      | .ok f' => execute (frames.set id f') rest
  | [], frames, f, hf => by
    have same : frames.set id f = frames := Table.set_self hf
    simp only [List.map_nil, List.nil_append, Update.apply, Update.run, Update.runList, same]
  | c :: cs, frames, f, hf => by
    rw [List.map_cons, List.cons_append, execute, hf]
    simp only [Update.apply, Update.run, Update.runList]
    rcases c.apply id f with e | f'
    · rfl
    · have ih := execute_update id rest cs (Table.get?_set_self frames id f')
      have twice : ∀ g, (frames.set id f').set id g = frames.set id g :=
        fun g => Table.set_set _ _ _ _
      simp only [ih, Update.apply, Update.run, twice]

/-! ### Copies -/

/-- Copies of targets, written over the frames, are the frames as a plain run has them by then. -/
structure Copied (targets : List Int) (frames copies current : Table Int Frame) : Prop where
  agree : ∀ x, current.get? x = (copies.get? x).or (frames.get? x)
  within : ∀ x, (copies.get? x).isSome → x ∈ targets

namespace Copied

variable {targets : List Int} {frames copies current : Table Int Frame}

theorem new (targets : List Int) (frames : Table Int Frame) :
    Copied targets frames .empty frames where
  agree x := by rw [Table.get?_empty, Option.none_or]
  within x h := by
    rw [Table.get?_empty] at h
    cases h

/-- The copy of a target is its frame as a plain run has it. -/
theorem copy?_eq (k : Copied targets frames copies current) {x : Int} (hx : x ∈ targets) :
    copy? targets frames copies x = current.get? x := by
  unfold copy?
  rw [k.agree]
  rcases copies.get? x with _ | f
  · rw [if_pos (by simpa using hx), Option.none_or]
  · rfl

theorem set (k : Copied targets frames copies current) {x : Int} (hx : x ∈ targets) (f : Frame) :
    Copied targets frames (copies.set x f) (current.set x f) where
  agree y := by
    rw [Table.get?_set, Table.get?_set]
    split
    · rfl
    · exact k.agree y
  within y h := by
    rw [Table.get?_set] at h
    split at h
    · next e => exact e ▸ hx
    · exact k.within y h

theorem overwrite_eq (k : Copied targets frames copies current) :
    overwrite copies frames targets = current := by
  refine Table.ext_get? fun x => ?_
  rw [get?_overwrite, k.agree]
  split
  · rfl
  · next out =>
    have none : copies.get? x = none := by
      by_contra some
      exact out (k.within x (Option.isSome_iff_ne_none.mpr some))
    rw [none, Option.none_or]

end Copied

/-- Updates that run on copies come to the same as the script of their commands. -/
theorem runPending_execute (id : Int) {targets : List Int} {frames : Table Int Frame} :
    ∀ (us : List Pending) {copies current : Table Int Frame}, Copied targets frames copies current →
    (∀ u ∈ us, u.frame ∈ targets ∧ (frames.get? u.frame).isSome) →
    match execute current (script us) with
    | .error e => runPending id targets frames copies us = .error e
    | .ok current' => ∃ copies', runPending id targets frames copies us = .ok copies' ∧
        Copied targets frames copies' current'
  | [], copies, current, k, _ => ⟨copies, rfl, k⟩
  | u :: us, copies, current, k, all => by
    obtain ⟨target, live⟩ := all u List.mem_cons_self
    obtain ⟨f, hf⟩ : ∃ f, current.get? u.frame = some f := by
      rw [← Option.isSome_iff_exists, k.agree, Option.isSome_or, live, Bool.or_true]
    rw [script_cons, execute_update u.frame (script us) u.update.commands hf, runPending,
      k.copy?_eq target, hf]
    simp only
    rcases u.update.apply u.frame f with e | f'
    · rfl
    · exact runPending_execute id us (k.set target f') fun v hv => all v (List.mem_cons_of_mem _ hv)

/-! ### Commits -/

/-- What a commit of an identifier does, and what it answers. -/
structure Transacts (p : Pipeline) (id : Int) : Prop where
  /-- Without updates, or without such an identifier, nothing is done. -/
  idle : p.locate id = none ∨ p.queue.under id = [] →
    (p.commit id).answer = .ok false ∧ (p.commit id).next = p
  /-- All updates are for targets, which are there. -/
  targeted : ∀ u ∈ p.queue.under id, u.frame ∈ (p.targets id).getD [] ∧ (p.frame? u.frame).isSome
  /-- Commands that are all accepted take effect, and nothing waits any more. -/
  success : ∀ frames, p.queue.under id ≠ [] →
    execute p.frames (script (p.queue.under id)) = .ok frames →
    (p.commit id).answer = .ok true ∧
      (p.commit id).next = { p with frames := frames, queue := (p.commit id).next.queue } ∧
      (p.commit id).next.queue.entries.get? id = none ∧
      ∀ k, id ≠ k → (p.commit id).next.queue.entries.get? k = p.queue.entries.get? k
  /-- Every frame is then what its own commands make of it, in their order, and one without
  commands, like any that is no target, is as it was. -/
  outcome : ∀ frames, execute p.frames (script (p.queue.under id)) = .ok frames →
    ∀ x f, p.frame? x = some f → ∃ f', frames.get? x = some f' ∧
      Update.runList x f (own x (script (p.queue.under id))) = (f', .ok ()) ∧
      (x ∉ (p.targets id).getD [] → f' = f)
  /-- No frame comes in. -/
  absent : ∀ frames, execute p.frames (script (p.queue.under id)) = .ok frames →
    ∀ x, p.frame? x = none → frames.get? x = none
  /-- When a command is refused, nothing is done. -/
  failure : ∀ e, execute p.frames (script (p.queue.under id)) = .error e →
    (p.commit id).answer = .error (.updateFailed id e) ∧ (p.commit id).next = p
  /-- The answer is then about the first command that is refused. -/
  first : ∀ e, execute p.frames (script (p.queue.under id)) = .error e →
    ∃ before x c later mid f, script (p.queue.under id) = before ++ (x, c) :: later ∧
      execute p.frames before = .ok mid ∧ mid.get? x = some f ∧ c.apply x f = .error e

variable {p : Pipeline}

/-- Nothing is for a frame that no update is for. -/
theorem own_script_eq_nil {x : Int} {us : List Pending} (h : ∀ u ∈ us, u.frame ≠ x) :
    own x (script us) = [] := by
  unfold own script
  rw [List.map_eq_nil_iff, List.filter_eq_nil_iff]
  intro e he
  obtain ⟨u, hu, he⟩ := List.mem_flatMap.mp he
  obtain ⟨c, -, rfl⟩ := List.mem_map.mp he
  simpa using h u hu

section Commit

variable (h : p.Consistent) (a : p.Addressed) {id : Int}
include h a

theorem targeted {u : Pending} (hu : u ∈ p.queue.under id) :
    u.frame ∈ (p.targets id).getD [] ∧ (p.frames.get? u.frame).isSome := by
  obtain ⟨frame, keeper⟩ := a.meant hu
  exact ⟨(a.mem_targets h (List.ne_nil_of_mem hu) frame).mpr keeper, frame⟩

/-- A commit of something comes to the same as running the script. -/
theorem commit_execute (waits : p.queue.under id ≠ []) :
    match execute p.frames (script (p.queue.under id)) with
    | .error e => (p.commit id).answer = .error (.updateFailed id e) ∧ (p.commit id).next = p
    | .ok frames => (p.commit id).answer = .ok true ∧
        (p.commit id).next = { p with frames := frames, queue := p.queue.put id [] } := by
  obtain ⟨u, us, e⟩ := List.exists_cons_of_ne_nil waits
  have some : p.targets id ≠ none := by
    intro none
    have := (targeted h a (e ▸ List.mem_cons_self : u ∈ p.queue.under id)).1
    rw [none] at this
    cases this
  rcases commit_cases (p := p) id with ⟨-, -, none | nil⟩ | ⟨ids, ht, -, cases⟩
  · exact absurd none some
  · exact absurd nil waits
  · have all : ∀ u ∈ p.queue.under id, u.frame ∈ ids ∧ (p.frames.get? u.frame).isSome := by
      intro u hu
      have := targeted h a hu
      rw [ht] at this
      exact this
    have run := runPending_execute id (p.queue.under id) (.new ids p.frames) all
    rcases hr : execute p.frames (script (p.queue.under id)) with e | frames
    · rw [hr] at run
      rcases cases with ⟨e', run', answer, next⟩ | ⟨copies, run', -, -⟩
      · cases run.symm.trans run'
        exact ⟨answer, next⟩
      · cases run.symm.trans run'
    · rw [hr] at run
      obtain ⟨copies, run, k⟩ := run
      rcases cases with ⟨e', run', -, -⟩ | ⟨copies', run', answer, next⟩
      · cases run.symm.trans run'
      · cases run.symm.trans run'
        rw [k.overwrite_eq] at next
        exact ⟨answer, next⟩

end Commit

/-- **A commit is a transaction.** Whatever reachable pipeline it is made in, all commands take
effect, each frame being changed by its own in staging order, or nothing does. -/
theorem commit_transacts (reachable : p.Reachable) (id : Int) : p.Transacts id := by
  have h := reachable.consistent
  have a := reachable.addressed
  refine ⟨fun idle => ?_, fun u hu => targeted h a hu, fun frames waits run => ?_,
    fun frames run x f hx => ?_, fun frames run x => execute_none _ run, fun e run => ?_,
    fun e run => execute_error _ run⟩
  · have nothing : p.queue.under id = [] := by
      rcases idle with unknown | nothing
      · -- where updates wait there is something in a stage
        refine a.under_eq_nil fun f _ keeper => ?_
        obtain ⟨i, hi⟩ := h.keeper_known keeper
        obtain ⟨s, hs, -⟩ := h.resident.mp hi
        simp [locate, hi, hs] at unknown
      · exact nothing
    rcases commit_cases (p := p) id with ⟨answer, next, -⟩ | ⟨_, -, waits, -⟩
    · exact ⟨answer, next⟩
    · exact absurd nothing waits
  · have done := commit_execute h a waits
    rw [run] at done
    obtain ⟨answer, next⟩ := done
    rw [next]
    refine ⟨answer, rfl, ?_, fun k ne => ?_⟩
    · exact Table.get?_erase_self _ _
    · exact Table.get?_erase_ne _ ne
  · obtain ⟨f', hf', own⟩ := execute_own _ run hx
    refine ⟨f', hf', own, fun out => ?_⟩
    have none : ∀ u ∈ p.queue.under id, u.frame ≠ x := by
      rintro u hu rfl
      exact out (targeted h a hu).1
    rw [own_script_eq_nil none] at own
    cases own
    rfl
  · have waits : p.queue.under id ≠ [] := by
      intro nothing
      rw [nothing] at run
      cases run
    have done := commit_execute h a waits
    rw [run] at done
    exact done

/-- A commit of the batch adds what the updates add, and nothing is pending in it any more. -/
theorem commit_transacts_sample : sample.Reachable ∧ sample.Transacts 3 ∧
    (sample.commit 3).answer = .ok true ∧ (sample.commit 3).next.pending 3 = 0 ∧
    (sample.commit 3).next.frame? 1 =
      some { Frame.blank "camera" 0 with attributes := .ofList [sampleAttribute] } ∧
    (sample.commit 3).next.frame? 2 =
      some { Frame.blank "camera" 1 with detections := [sampleDetection] } :=
  ⟨reachable_sample, commit_transacts reachable_sample 3, rfl, rfl, rfl, rfl⟩

end Pipeline
end FrameFlow
