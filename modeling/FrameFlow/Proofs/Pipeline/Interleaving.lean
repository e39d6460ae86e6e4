/-
# Updates for different frames do not meet

A command touches its own frame only. So what a script makes of the frames is
known from the commands of each frame alone (`Pipeline.execute_congr`): how the
commands of different frames are interleaved is not seen in the result, and a
script is refused when the commands of one frame are
(`Pipeline.execute_each`). Commits one after another, none of which is refused,
come to the same as one script of all their updates (`Pipeline.after_commits`).

Key definition: `Pipeline.CommitFails`.
Key theorems: `Pipeline.execute_congr`, `Pipeline.execute_each`,
`Pipeline.commit_accepted`, `Pipeline.after_commits`.
-/
import FrameFlow.Proofs.Pipeline.Transactions

namespace FrameFlow
namespace Pipeline

/-! ### Scripts -/

theorem script_append (us vs : List Pending) : script (us ++ vs) = script us ++ script vs :=
  List.flatMap_append

/-- A script runs on from where its first part ends. -/
theorem execute_append (t : List (Int × Command)) : ∀ (s : List (Int × Command))
    (frames : Table Int Frame), execute frames (s ++ t) =
      (execute frames s).bind fun mid => execute mid t
  | [], _ => rfl
  | (id, c) :: s, frames => by
    rw [List.cons_append, execute, execute]
    rcases frames.get? id with _ | f
    · exact execute_append t s frames
    · simp only
      rcases c.apply id f with e | f'
      · rfl
      · exact execute_append t s _

/-- Nothing is refused where no frame refuses one of its own commands. -/
theorem execute_of_own : ∀ (s : List (Int × Command)) (frames : Table Int Frame),
    (∀ x f, frames.get? x = some f → ∃ f', Update.runList x f (own x s) = (f', .ok ())) →
    ∃ frames', execute frames s = .ok frames'
  | [], frames, _ => ⟨frames, rfl⟩
  | (id, c) :: s, frames, accepts => by
    unfold execute
    rcases hid : frames.get? id with _ | g
    · refine execute_of_own s frames fun x f hx => ?_
      have ne : id ≠ x := by
        rintro rfl
        rw [hid] at hx
        cases hx
      have run := accepts x f hx
      rw [own_cons_ne ne] at run
      exact run
    · obtain ⟨g', run⟩ := accepts id g hid
      rw [own_cons_self, Update.runList] at run
      rcases hc : c.apply id g with e | mid
      · rw [hc] at run
        cases run
      rw [hc] at run
      simp only [hc]
      refine execute_of_own s _ fun x f hx => ?_
      by_cases e : id = x
      · subst e
        rw [Table.get?_set_self] at hx
        cases hx
        exact ⟨g', run⟩
      · rw [Table.get?_set_ne _ _ e] at hx
        have run := accepts x f hx
        rw [own_cons_ne e] at run
        exact run

/-- A script makes frames of frames, and nothing of nothing. -/
theorem execute_isSome {s : List (Int × Command)} {frames frames' : Table Int Frame}
    (run : execute frames s = .ok frames') (x : Int) :
    (frames'.get? x).isSome = (frames.get? x).isSome := by
  rcases hx : frames.get? x with _ | f
  · rw [execute_none s run hx]
  · obtain ⟨f', hf', -⟩ := execute_own s run hx
    rw [hf']
    rfl

/-- Scripts with the same commands for every frame make the same of the frames, in whatever way the
commands of different frames are interleaved. -/
theorem execute_congr {s t : List (Int × Command)} {frames frames' : Table Int Frame}
    (same : ∀ x, own x s = own x t) (run : execute frames s = .ok frames') :
    execute frames t = .ok frames' := by
  obtain ⟨frames'', run'⟩ : ∃ frames'', execute frames t = .ok frames'' := by
    refine execute_of_own t frames fun x f hx => ?_
    obtain ⟨f', -, own⟩ := execute_own s run hx
    exact ⟨f', same x ▸ own⟩
  have equal : frames'' = frames' := by
    refine Table.ext_get? fun x => ?_
    rcases hx : frames.get? x with _ | f
    · rw [execute_none s run hx, execute_none t run' hx]
    · obtain ⟨g, hg, left⟩ := execute_own s run hx
      obtain ⟨g', hg', right⟩ := execute_own t run' hx
      rw [same x] at left
      cases left.symm.trans right
      rw [hg, hg']
  rw [← equal]
  exact run'

/-- The commands for a frame are those of the updates for it. -/
theorem own_script (x : Int) : ∀ us : List Pending,
    own x (script us) = (us.filter fun u => u.frame = x).flatMap fun u => u.update.commands
  | [] => rfl
  | u :: us => by
    have ih := own_script x us
    have split : own x (script (u :: us)) =
        own x (u.update.commands.map fun c => (u.frame, c)) ++ own x (script us) := by
      rw [script_cons, own, List.filter_append, List.map_append]
      rfl
    rw [split, ih, List.filter_cons]
    by_cases e : u.frame = x
    · have all : own x (u.update.commands.map fun c => (u.frame, c)) = u.update.commands := by
        simp [own, e, Function.comp_def, List.filter_map]
      rw [all, if_pos (by simpa using e), List.flatMap_cons]
    · have none : own x (u.update.commands.map fun c => (u.frame, c)) = [] := by
        simp [own, e]
      rw [none, if_neg (by simpa using e), List.nil_append]

/-- Where every frame has the same updates in the same order, scripts come to the same. -/
theorem execute_script_congr {us vs : List Pending} {frames frames' : Table Int Frame}
    (same : ∀ x, (us.filter fun u => u.frame = x) = vs.filter fun u => u.frame = x)
    (run : execute frames (script us) = .ok frames') :
    execute frames (script vs) = .ok frames' := by
  refine execute_congr (fun x => ?_) run
  rw [own_script, own_script, same]

/-- Updates are accepted when those for each frame are, on their own. -/
theorem execute_each {us : List Pending} {frames : Table Int Frame} :
    (∃ frames', execute frames (script us) = .ok frames') ↔
      ∀ x, ∃ frames', execute frames (script (us.filter fun u => u.frame = x)) = .ok frames' := by
  have mine : ∀ x, ((us.filter fun u => u.frame = x).filter fun u => u.frame = x) =
      us.filter fun u => u.frame = x := by
    intro x
    rw [List.filter_filter]
    simp
  constructor
  · rintro ⟨frames', run⟩ x
    refine execute_of_own _ frames fun y f hy => ?_
    rw [own_script]
    by_cases e : y = x
    · obtain ⟨f', -, accepted⟩ := execute_own _ run hy
      rw [own_script] at accepted
      refine ⟨f', ?_⟩
      rw [e, mine, ← e]
      exact accepted
    · -- no update for the one frame is for the other
      have none : ((us.filter fun u => u.frame = x).filter fun u => u.frame = y) = [] := by
        apply List.filter_eq_nil_iff.mpr
        intro u hu hy
        have hx := (List.mem_filter.mp hu).2
        simp only [decide_eq_true_eq] at hx hy
        exact e (hy.symm.trans hx)
      rw [none]
      exact ⟨f, rfl⟩
  · intro each
    refine execute_of_own _ frames fun x f hx => ?_
    obtain ⟨frames', run⟩ := each x
    obtain ⟨f', -, accepted⟩ := execute_own _ run hx
    rw [own_script, mine, ← own_script] at accepted
    exact ⟨f', accepted⟩

/-! ### Commits -/

/-- A commit is refused. -/
def CommitFails (p : Pipeline) (id : Int) : Prop := ∃ e, (p.commit id).answer = .error e

variable {p : Pipeline} (h : p.Consistent) (a : p.Addressed)
include h a

/-- A commit that is not refused leaves what its script makes of the frames, and nothing waits under
the identifier. -/
theorem commit_accepted {id : Int} {frames : Table Int Frame}
    (run : execute p.frames (script (p.queue.under id)) = .ok frames) :
    ¬p.CommitFails id ∧
      (p.commit id).next = { p with frames := frames, queue := p.queue.put id [] } := by
  by_cases nothing : p.queue.under id = []
  · rw [nothing] at run
    cases run
    rcases commit_cases (p := p) id with ⟨answer, next, -⟩ | ⟨_, -, waits, -⟩
    · refine ⟨?_, ?_⟩
      · rintro ⟨e, refused⟩
        rw [answer] at refused
        cases refused
      · rw [next, Queue.put_nil a.tight nothing]
    · exact absurd nothing waits
  · have done := commit_execute h a nothing
    rw [run] at done
    refine ⟨?_, done.2⟩
    rintro ⟨e, refused⟩
    rw [done.1] at refused
    cases refused

/-- A commit is refused when its script is. -/
theorem commitFails_iff {id : Int} : p.CommitFails id ↔
    ¬∃ frames, execute p.frames (script (p.queue.under id)) = .ok frames := by
  constructor
  · rintro fails ⟨frames, run⟩
    exact (commit_accepted h a run).1 fails
  · intro refused
    rcases run : execute p.frames (script (p.queue.under id)) with e | frames
    · have waits : p.queue.under id ≠ [] := by
        intro nothing
        rw [nothing] at run
        cases run
      have done := commit_execute h a waits
      rw [run] at done
      exact ⟨_, done.1⟩
    · exact absurd ⟨frames, run⟩ refused

/-- Commits of different identifiers, one after another, come to the same as the script of all that
waits under them. -/
theorem after_commits (ids : List Int) (nodup : ids.Nodup) {frames : Table Int Frame}
    (run : execute p.frames (script (ids.flatMap p.queue.under)) = .ok frames) :
    p.after (ids.map .commit) = { p with frames := frames, queue := (takeAll p.queue ids).2 } := by
  induction ids generalizing p with
  | nil =>
    cases run
    rfl
  | cons id ids ih =>
    obtain ⟨fresh, nodup⟩ := List.nodup_cons.mp nodup
    rw [List.flatMap_cons, script_append, execute_append] at run
    rcases first : execute p.frames (script (p.queue.under id)) with e | mid
    · rw [first] at run
      cases run
    rw [first] at run
    have next := (commit_accepted h a first).2
    have effect := effect_commit h id
    have rest : execute (p.commit id).next.frames
        (script (ids.flatMap (p.commit id).next.queue.under)) = .ok frames := by
      have same : ids.flatMap (p.commit id).next.queue.under = ids.flatMap p.queue.under := by
        refine List.flatMap_congr fun k hk => ?_
        rw [next, Queue.under_put_ne _ _ fun e : id = k => fresh (e ▸ hk)]
      rw [same, next]
      exact run
    have taken : (p.queue.take id).2 = p.queue.put id [] := by
      by_cases nothing : p.queue.under id = []
      · rw [Queue.take_of_nil nothing, Queue.put_nil a.tight nothing]
      · rw [Queue.take_of_ne_nil nothing]
    have later := ih (h.effect effect) (a.effect h effect) nodup rest
    calc p.after ((id :: ids).map .commit) = (p.commit id).next.after (ids.map .commit) := rfl
      _ = { (p.commit id).next with
            frames := frames, queue := (takeAll (p.commit id).next.queue ids).2 } := later
      _ = { p with frames := frames, queue := (takeAll p.queue (id :: ids)).2 } := by
        rw [next]
        simp only [takeAll, taken]

end Pipeline
end FrameFlow
