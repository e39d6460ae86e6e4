/-
# The update queue through what waits under each identifier

What an operation of the queue does is said by one equation on `Queue.under`,
the list that waits under an identifier. A queue in which no identifier has an
empty entry (`Queue.Tight`) is known by these lists. Taking everything under
several identifiers joins their lists (`Pipeline.takeAll_fst`); scattering
updates gives each frame its own, in their order (`Pipeline.under_scatter`).

Key definition: `Queue.Tight`.
Key theorems: `Queue.under_put`, `Queue.ext_under`, `Queue.restore_take`,
`Pipeline.takeAll_fst`, `Pipeline.under_takeAll`, `Pipeline.under_scatter`.
-/
import FrameFlow.Pipeline.Movement
import FrameFlow.Proofs.Sorted

namespace FrameFlow

namespace Queue

/-- Where nothing waits there is no entry. -/
def Tight (q : Queue) : Prop := ∀ id, q.entries.get? id ≠ some []

theorem tight_empty : empty.Tight := fun _ h => by cases h

theorem under_put (q : Queue) (id k : Int) : ∀ ps : List Pending,
    (q.put id ps).under k = if id = k then ps else q.under k
  | [] => by
    unfold under put
    rw [Table.get?_erase]
    split <;> rfl
  | p :: ps => by
    unfold under put
    rw [Table.get?_set]
    split <;> rfl

@[simp] theorem under_put_self (q : Queue) (id : Int) (ps : List Pending) :
    (q.put id ps).under id = ps := by
  rw [under_put, if_pos rfl]

theorem under_put_ne (q : Queue) {id k : Int} (ps : List Pending) (h : id ≠ k) :
    (q.put id ps).under k = q.under k := by
  rw [under_put, if_neg h]

theorem Tight.put {q : Queue} (h : q.Tight) (id : Int) : ∀ ps : List Pending, (q.put id ps).Tight
  | [], k => by
    rw [Queue.put, Table.get?_erase]
    split
    · simp
    · exact h k
  | p :: ps, k => by
    rw [Queue.put, Table.get?_set]
    split
    · simp
    · exact h k

theorem get?_entries {q : Queue} (h : q.Tight) (id : Int) :
    q.entries.get? id = if q.under id = [] then none else some (q.under id) := by
  unfold under
  rcases e : q.entries.get? id with _ | ps
  · simp
  · have : ps ≠ [] := fun hp => h id (hp ▸ e)
    simp [this]

/-- Queues without empty entries are equal when the same waits under every identifier. -/
theorem ext_under {q r : Queue} (hq : q.Tight) (hr : r.Tight) (h : ∀ id, q.under id = r.under id) :
    q = r := by
  have entries : q.entries = r.entries :=
    Table.ext_get? fun id => by rw [get?_entries hq, get?_entries hr, h]
  cases q; cases r; cases entries; rfl

/-- Dropping what waits where nothing does changes nothing. -/
theorem put_nil {q : Queue} (h : q.Tight) {id : Int} (none : q.under id = []) :
    q.put id [] = q := by
  refine ext_under (h.put id []) h fun k => ?_
  rw [under_put]
  split
  · next e => rw [← e, none]
  · rfl

/-! ### Operations -/

theorem clear_eq (q : Queue) (id : Int) :
    q.clear id = (decide (q.under id ≠ []), q.put id []) := by
  unfold clear has count
  cases q.under id <;> simp

theorem take_of_nil {q : Queue} {id : Int} (h : q.under id = []) : q.take id = (none, q) := by
  rw [take, h]

theorem take_of_ne_nil {q : Queue} {id : Int} (h : q.under id ≠ []) :
    q.take id = (some (q.under id), q.put id []) := by
  unfold take
  split
  · contradiction
  · next e => rw [e]

/-- What was taken, with nothing in the place of what was not. -/
theorem take_fst (q : Queue) (id : Int) : (q.take id).1.getD [] = q.under id := by
  by_cases h : q.under id = []
  · rw [take_of_nil h, h]; rfl
  · rw [take_of_ne_nil h]; rfl

theorem under_take (q : Queue) (id k : Int) :
    (q.take id).2.under k = if id = k then [] else q.under k := by
  by_cases h : q.under id = []
  · rw [take_of_nil h]
    split
    · next e => rw [← e, h]
    · rfl
  · rw [take_of_ne_nil h, under_put]

theorem Tight.take {q : Queue} (h : q.Tight) (id : Int) : (q.take id).2.Tight := by
  by_cases e : q.under id = []
  · rw [take_of_nil e]; exact h
  · rw [take_of_ne_nil e]; exact h.put id []

/-- Updates that were taken and are put back stand as they stood. -/
theorem restore_take {q : Queue} {id : Int} (h : q.under id ≠ []) :
    (q.put id []).restore id (q.under id) = q := by
  obtain ⟨p, ps, e⟩ := List.exists_cons_of_ne_nil h
  have entry : q.entries.get? id = some (p :: ps) := by
    unfold under at e
    rcases g : q.entries.get? id with _ | l
    · rw [g] at e; cases e
    · rw [g] at e; exact congrArg some e
  unfold restore
  rw [under_put_self, List.append_nil, e]
  simp only [put]
  rw [Table.set_erase entry]

theorem under_push (q : Queue) (id k : Int) (p : Pending) :
    (q.push id p).under k = if id = k then q.under k ++ [p] else q.under k := by
  unfold push extend
  rw [under_put]
  split
  · next e => rw [e]
  · rfl

theorem under_extend (q : Queue) (id k : Int) (ps : List Pending) :
    (q.extend id ps).under k = if id = k then q.under k ++ ps else q.under k := by
  unfold extend
  rw [under_put]
  split
  · next e => rw [e]
  · rfl

end Queue

namespace Pipeline

/-! ### Several identifiers -/

/-- Everything under different identifiers, list by list. -/
theorem takeAll_fst : ∀ (q : Queue) (ids : List Int), ids.Nodup →
    (takeAll q ids).1 = ids.flatMap q.under
  | _, [], _ => rfl
  | q, id :: ids, nodup => by
    obtain ⟨fresh, nodup⟩ := List.nodup_cons.mp nodup
    simp only [takeAll, List.flatMap_cons]
    rw [takeAll_fst _ ids nodup, Queue.take_fst]
    congr 1
    refine List.flatMap_congr fun k hk => ?_
    rw [Queue.under_take, if_neg fun e : id = k => fresh (e ▸ hk)]

theorem under_takeAll : ∀ (q : Queue) (ids : List Int) (k : Int),
    (takeAll q ids).2.under k = if k ∈ ids then [] else q.under k
  | _, [], _ => by simp [takeAll]
  | q, id :: ids, k => by
    simp only [takeAll]
    rw [under_takeAll _ ids k, Queue.under_take]
    by_cases e : id = k
    · simp [e]
    · simp [e, Ne.symm e]

theorem tight_takeAll : ∀ (q : Queue) (ids : List Int), q.Tight → (takeAll q ids).2.Tight
  | _, [], h => h
  | _, id :: ids, h => tight_takeAll _ ids (h.take id)

/-! ### Scattering -/

/-- Each frame gets the updates that are meant for it, behind those that it has. -/
theorem under_scatter : ∀ (q : Queue) (ps : List Pending) (k : Int),
    (scatter q ps).under k = q.under k ++ ps.filter fun u => u.frame = k
  | _, [], _ => by simp [scatter]
  | q, p :: ps, k => by
    have ih := under_scatter (q.push p.frame p) ps k
    simp only [scatter, List.foldl_cons] at ih ⊢
    rw [ih, Queue.under_push, List.filter_cons]
    by_cases e : p.frame = k <;> simp [e]

theorem tight_scatter : ∀ (q : Queue) (ps : List Pending), q.Tight → (scatter q ps).Tight
  | _, [], h => h
  | q, p :: ps, h => by
    have ih := tight_scatter (q.push p.frame p) ps (h.put _ _)
    simpa only [scatter, List.foldl_cons] using ih

end Pipeline
end FrameFlow
