/-
# Commits of different identifiers commute

A script sees the frames that it is for and no others: on tables that agree there
it is accepted or refused alike, and leaves other frames as they are
(`Pipeline.execute_agree`, `Pipeline.execute_outside`). In a reachable pipeline the
updates under two identifiers are for different frames, since every frame has one
keeper, and that is under whom its updates wait. So it is not seen which of two
commits was made first (`Pipeline.commits_commute`), also where one of them, or
both, are refused, nor in which order several were made (`Pipeline.after_perm`).

Key definition: `Pipeline.Commute`.
Key theorems: `Pipeline.execute_swap`, `Pipeline.commits_commute`,
`Pipeline.after_perm`.
-/
import FrameFlow.Proofs.Pipeline.Interleaving

namespace FrameFlow
namespace Pipeline

/-! ### Scripts for different frames -/

/-- The frames that a script is for. -/
def scope (s : List (Int × Command)) : List Int := s.map Prod.fst

/-- A script leaves the frames that it is not for. -/
theorem execute_outside {s : List (Int × Command)} {frames frames' : Table Int Frame}
    (run : execute frames s = .ok frames') {x : Int} (out : x ∉ scope s) :
    frames'.get? x = frames.get? x := by
  have none : own x s = [] := by
    rw [own, List.map_eq_nil_iff, List.filter_eq_nil_iff]
    intro e he hx
    apply out
    exact List.mem_map.mpr ⟨e, he, of_decide_eq_true hx⟩
  rcases hx : frames.get? x with _ | f
  · exact execute_none s run hx
  · obtain ⟨f', hf', kept⟩ := execute_own s run hx
    rw [none] at kept
    cases kept
    exact hf'

/-- On tables that agree on the frames that a script is for, it is refused for the same reason or
accepted, and then the tables agree wherever they did. -/
theorem execute_agree (s : List (Int × Command)) {frames mid : Table Int Frame}
    (agree : ∀ x ∈ scope s, mid.get? x = frames.get? x) :
    match execute frames s with
    | .error e => execute mid s = .error e
    | .ok frames' => ∃ mid', execute mid s = .ok mid' ∧
        ∀ x, mid.get? x = frames.get? x → mid'.get? x = frames'.get? x := by
  induction s generalizing frames mid with
  | nil => exact ⟨mid, rfl, fun _ same => same⟩
  | cons entry s ih =>
    obtain ⟨id, c⟩ := entry
    have here : mid.get? id = frames.get? id := agree id List.mem_cons_self
    have there : ∀ x ∈ scope s, mid.get? x = frames.get? x := fun x hx =>
      agree x (List.mem_cons_of_mem _ hx)
    simp only [execute, here]
    rcases frames.get? id with _ | f
    · exact ih there
    simp only
    rcases c.apply id f with e | f'
    · rfl
    -- the command writes the same into both tables
    have written : ∀ x, mid.get? x = frames.get? x →
        (mid.set id f').get? x = (frames.set id f').get? x := by
      intro x same
      rw [Table.get?_set, Table.get?_set, same]
    have later := ih fun x hx => written x (there x hx)
    simp only
    rcases run : execute (frames.set id f') s with e | frames'
    · rw [run] at later
      exact later
    · rw [run] at later
      obtain ⟨mid', run', same⟩ := later
      exact ⟨mid', run', fun x hx => same x (written x hx)⟩

/-- After a script for other frames, a script is refused for the same reason or accepted, and then
the frames are the same as with the two in the other order. -/
theorem execute_swap {s t : List (Int × Command)} (apart : ∀ x ∈ scope s, x ∉ scope t)
    {frames mid : Table Int Frame} (first : execute frames t = .ok mid) :
    match execute frames s with
    | .error e => execute mid s = .error e
    | .ok frames' => ∃ last, execute mid s = .ok last ∧ execute frames' t = .ok last := by
  have agree : ∀ x ∈ scope s, mid.get? x = frames.get? x := fun x hx =>
    execute_outside first (apart x hx)
  have second := execute_agree s agree
  rcases run : execute frames s with e | frames'
  · rw [run] at second
    exact second
  rw [run] at second
  obtain ⟨last, run', same⟩ := second
  refine ⟨last, run', ?_⟩
  have other : ∀ x ∈ scope t, frames'.get? x = frames.get? x := fun x hx =>
    execute_outside run fun hs => apart x hs hx
  have third := execute_agree t other
  rw [first] at third
  obtain ⟨last', run'', same'⟩ := third
  -- a frame is that of the script which is for it, and what it was where neither is
  have equal : last' = last := by
    refine Table.ext_get? fun x => ?_
    by_cases hx : x ∈ scope s
    · calc last'.get? x = frames'.get? x := execute_outside run'' (apart x hx)
        _ = last.get? x := (same x (agree x hx)).symm
    · calc last'.get? x = mid.get? x := same' x (execute_outside run hx)
        _ = last.get? x := (execute_outside run' hx).symm
  rw [run'', equal]

/-! ### Two commits -/

/-- Two commits, in one order and in the other: each answers what it does when it is the first, and
in the end the pipeline is the same. -/
structure Commute (p : Pipeline) (a b : Int) : Prop where
  left : ((p.commit b).next.commit a).answer = (p.commit a).answer
  right : ((p.commit a).next.commit b).answer = (p.commit b).answer
  state : ((p.commit a).next.commit b).next = ((p.commit b).next.commit a).next

theorem mem_scope_script {us : List Pending} {x : Int} (hx : x ∈ scope (script us)) :
    ∃ u ∈ us, u.frame = x := by
  obtain ⟨e, he, rfl⟩ := List.mem_map.mp hx
  obtain ⟨u, hu, he⟩ := List.mem_flatMap.mp he
  obtain ⟨c, -, rfl⟩ := List.mem_map.mp he
  exact ⟨u, hu, rfl⟩

section Commits

variable {p : Pipeline} (h : p.Consistent) (q : p.Addressed) {a b : Int}

include q in
/-- What waits under different identifiers is for different frames. -/
theorem Addressed.apart (ne : a ≠ b) :
    ∀ x ∈ scope (script (p.queue.under a)), x ∉ scope (script (p.queue.under b)) := by
  intro x hx hy
  obtain ⟨u, hu, rfl⟩ := mem_scope_script hx
  obtain ⟨v, hv, same⟩ := mem_scope_script hy
  have mine : p.keeper? u.frame = some a := (q.meant hu).2
  have other : p.keeper? v.frame = some b := (q.meant hv).2
  rw [same, mine] at other
  exact ne (Option.some.inj other)

include h q

/-- A commit answers by its script, and by whether anything waits. -/
theorem commit_answer (id : Int) : (p.commit id).answer =
    match execute p.frames (script (p.queue.under id)) with
    | .error e => .error (.updateFailed id e)
    | .ok _ => .ok (decide (p.queue.under id ≠ [])) := by
  by_cases waits : p.queue.under id = []
  · have idle := (commit_cases (p := p) id).resolve_right fun ⟨_, _, filled, _⟩ => filled waits
    rw [waits]
    exact idle.1
  · have done := commit_execute h q waits
    rcases run : execute p.frames (script (p.queue.under id)) with e | frames
    · rw [run] at done
      exact done.1
    · rw [run] at done
      rw [done.1]
      simp [waits]

/-- A refused commit leaves the pipeline as it was. -/
theorem commit_refused_next {id : Int} {e : Error}
    (run : execute p.frames (script (p.queue.under id)) = .error e) : (p.commit id).next = p := by
  have waits : p.queue.under id ≠ [] := by
    intro nothing
    rw [nothing] at run
    cases run
  have done := commit_execute h q waits
  rw [run] at done
  exact done.2

/-- A commit answers after another as it does before it. -/
theorem commit_answer_after (ne : a ≠ b) :
    ((p.commit b).next.commit a).answer = (p.commit a).answer := by
  rcases first : execute p.frames (script (p.queue.under b)) with e | mid
  · rw [commit_refused_next h q first]
  have effect := effect_commit h b
  have next := (commit_accepted h q first).2
  have under : (p.commit b).next.queue.under a = p.queue.under a := by
    rw [next]
    exact Queue.under_put_ne _ _ ne.symm
  have frames : (p.commit b).next.frames = mid := by rw [next]
  have swap := execute_swap (q.apart ne) first
  rw [commit_answer (h.effect effect) (q.effect h effect), commit_answer h q, under, frames]
  rcases run : execute p.frames (script (p.queue.under a)) with e | frames'
  · rw [run] at swap
    rw [swap]
  · rw [run] at swap
    obtain ⟨last, run', -⟩ := swap
    rw [run']

/-- A commit that is refused is refused after another, too, and both orders leave what the other
one leaves. -/
theorem commit_state_of_refused (ne : a ≠ b) {e : Error}
    (run : execute p.frames (script (p.queue.under a)) = .error e) :
    ((p.commit a).next.commit b).next = ((p.commit b).next.commit a).next := by
  have effect := effect_commit h b
  have refused : ((p.commit b).next.commit a).answer = .error (.updateFailed a e) := by
    rw [commit_answer_after h q ne, commit_answer h q, run]
  rw [commit_refused_next h q run]
  rcases again : execute (p.commit b).next.frames (script ((p.commit b).next.queue.under a))
    with e' | frames
  · exact (commit_refused_next (h.effect effect) (q.effect h effect) again).symm
  · rw [commit_answer (h.effect effect) (q.effect h effect), again] at refused
    cases refused

/-- What one commit after another leaves when both are accepted. -/
theorem commit_commit_next (ne : a ≠ b) {mid last : Table Int Frame}
    (first : execute p.frames (script (p.queue.under a)) = .ok mid)
    (second : execute mid (script (p.queue.under b)) = .ok last) :
    ((p.commit a).next.commit b).next =
      { p with frames := last, queue := (p.queue.put a []).put b [] } := by
  have effect := effect_commit h a
  have next := (commit_accepted h q first).2
  have run : execute (p.commit a).next.frames (script ((p.commit a).next.queue.under b)) =
      .ok last := by
    rw [next]
    show execute mid (script ((p.queue.put a []).under b)) = .ok last
    rw [Queue.under_put_ne _ _ ne]
    exact second
  rw [(commit_accepted (h.effect effect) (q.effect h effect) run).2, next]

/-- Two commits of different identifiers commute. -/
theorem commit_comm (ne : a ≠ b) : p.Commute a b where
  left := commit_answer_after h q ne
  right := commit_answer_after h q ne.symm
  state := by
    rcases left : execute p.frames (script (p.queue.under a)) with e | fa
    · exact commit_state_of_refused h q ne left
    rcases right : execute p.frames (script (p.queue.under b)) with e | fb
    · exact (commit_state_of_refused h q ne.symm right).symm
    have swap := execute_swap (q.apart ne) right
    rw [left] at swap
    obtain ⟨last, after, before⟩ := swap
    have queue : (p.queue.put a []).put b [] = (p.queue.put b []).put a [] := by
      refine Queue.ext_under ((q.tight.put a []).put b []) ((q.tight.put b []).put a []) fun k => ?_
      simp only [Queue.under_put]
      split <;> split <;> rfl
    rw [commit_commit_next h q ne left before, commit_commit_next h q ne.symm right after, queue]

end Commits

/-- **Commits of different identifiers commute.** In every reachable pipeline, each answers after
the other what it answers first, be it a yes, a no or a refusal, and both orders leave the same
pipeline. -/
theorem commits_commute {p : Pipeline} (reachable : p.Reachable) {a b : Int} (ne : a ≠ b) :
    p.Commute a b :=
  commit_comm reachable.consistent reachable.addressed ne

/-- The sample with one more frame, and an update for it that is refused. -/
def divided : Pipeline :=
  sample.after [.addFrame "in" (.blank "camera" 2), .enqueue 4 ⟨[.removeDetection 7]⟩]

theorem reachable_divided : divided.Reachable := reachable_sample.after _

theorem commits_commute_divided : divided.Reachable ∧ (3 : Int) ≠ 4 ∧ divided.Commute 3 4 :=
  ⟨reachable_divided, by decide, commits_commute reachable_divided (by decide)⟩

/-- The commit of the batch is accepted and that of the frame is refused, in both orders. -/
example : (divided.after [.commit 3, .commit 4]).pending 3 = 0 ∧
    (divided.after [.commit 4, .commit 3]).pending 4 = 1 := by
  decide

/-! ### Many commits -/

/-- Commits of the same identifiers leave the same pipeline in every order. -/
theorem after_perm {ids ids' : List Int} (perm : ids.Perm ids') {p : Pipeline}
    (h : p.Consistent) (q : p.Addressed) :
    p.after (ids.map .commit) = p.after (ids'.map .commit) := by
  induction perm generalizing p with
  | nil => rfl
  | cons id _ ih =>
    have effect := effect_commit h id
    exact ih (h.effect effect) (q.effect h effect)
  | swap a b ids =>
    by_cases e : a = b
    · rw [e]
    · show ((p.commit b).next.commit a).next.after _ = ((p.commit a).next.commit b).next.after _
      rw [(commit_comm h q e).state]
  | trans _ _ ih ih' => exact (ih h q).trans (ih' h q)

end Pipeline
end FrameFlow
