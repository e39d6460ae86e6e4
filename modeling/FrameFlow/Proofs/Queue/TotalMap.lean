/-
# A queue is a list for every identifier

What a queue answers is told by a list for every identifier, empty where nothing waits.
Calls are kept as data here, and are asked of the queue (`Queue.ask`), of the lists
(`Queue.askLists`), and of bare entries (`Queue.askEntries`), each by one look-up or
removal that does not mind whether an entry is empty. An empty entry would be told from
no entry by such a call. There never is one: no call leaves an empty entry where there
was none, so the three give the same answers in every run.

Key definitions: `Queue.Call`, `Queue.ask`, `Queue.askEntries`, `Queue.askLists`,
`Queue.KeepsLists`.
Key theorems: `Queue.simulates_lists`, `Queue.simulates_entries`,
`Queue.restore_after_take`, `Queue.keepsLists`.
-/
import FrameFlow.Proofs.Calls
import FrameFlow.Proofs.Queue

namespace FrameFlow
namespace Queue

open Calls

/-! ### Calls -/

/-- A call of a queue. -/
inductive Call where
  | push (id : Int) (p : Pending)
  | extend (id : Int) (ps : List Pending)
  | take (id : Int)
  | restore (id : Int) (ps : List Pending)
  | clear (id : Int)
  | count (id : Int)
  | has (id : Int)
deriving DecidableEq

/-- What a call answers. -/
inductive Reply where
  | done
  | taken (ps : Option (List Pending))
  | told (b : Bool)
  | counted (n : Nat)
deriving DecidableEq

namespace Call

/-- The identifier that a call is about. -/
def id : Call → Int
  | push id _ | extend id _ | take id | restore id _ | clear id | count id | has id => id

end Call

/-- What a queue answers a call, and the queue afterwards. -/
def ask (q : Queue) : Call → Reply × Queue
  | .push id p => (.done, q.push id p)
  | .extend id ps => (.done, q.extend id ps)
  | .take id => (.taken (q.take id).1, (q.take id).2)
  | .restore id ps => (.done, q.restore id ps)
  | .clear id => (.told (q.clear id).1, (q.clear id).2)
  | .count id => (.counted (q.count id), q)
  | .has id => (.told (q.has id), q)

/-- What bare entries answer a call, and the entries afterwards. -/
def askEntries (t : Table Int (List Pending)) : Call → Reply × Table Int (List Pending)
  | .push id p => (.done, t.set id ((t.get? id).getD [] ++ [p]))
  | .extend _ [] => (.done, t)
  | .extend id (p :: ps) => (.done, t.set id ((t.get? id).getD [] ++ p :: ps))
  | .take id => (.taken (t.get? id), t.erase id)
  | .restore id ps =>
    match ps ++ (t.get? id).getD [] with
    | [] => (.done, t.erase id)
    | p :: ps => (.done, Table.set (t.erase id) id (p :: ps))
  | .clear id => (.told ((t.get? id).any fun ps => !ps.isEmpty), t.erase id)
  | .count id => (.counted ((t.get? id).elim 0 List.length), t)
  | .has id => (.told (decide (0 < (t.get? id).elim 0 List.length)), t)

/-- What a list for every identifier answers a call, and the lists afterwards. -/
def askLists (L : Int → List Pending) : Call → Reply × (Int → List Pending)
  | .push id p => (.done, Function.update L id (L id ++ [p]))
  | .extend id ps => (.done, Function.update L id (L id ++ ps))
  | .take id => (.taken (if L id = [] then none else some (L id)), Function.update L id [])
  | .restore id ps => (.done, Function.update L id (ps ++ L id))
  | .clear id => (.told (decide (L id ≠ [])), Function.update L id [])
  | .count id => (.counted (L id).length, L)
  | .has id => (.told (decide (L id ≠ [])), L)

/-! ### The lists -/

theorem under_eq_update {q r : Queue} {id : Int} {ps : List Pending}
    (h : ∀ k, r.under k = if id = k then ps else q.under k) :
    r.under = Function.update q.under id ps := by
  funext k
  rw [h, Function.update_apply]
  simp only [eq_comm]

theorem under_put_eq (q : Queue) (id : Int) (ps : List Pending) :
    (q.put id ps).under = Function.update q.under id ps :=
  under_eq_update fun k => under_put q id k ps

/-- A call answers what the lists tell. -/
theorem reply_ask (q : Queue) (c : Call) : (q.ask c).1 = (askLists q.under c).1 := by
  cases c with
  | push | extend | restore | count => rfl
  | take id =>
    simp only [ask, askLists]
    by_cases none : q.under id = []
    · rw [take_of_nil none, if_pos none]
    · rw [take_of_ne_nil none, if_neg none]
  | clear id =>
    simp only [ask, askLists]
    rw [clear_eq]
  | has id =>
    simp only [ask, askLists, has, count]
    simp only [List.length_pos_iff]

/-- A call changes the lists as it says. -/
theorem under_ask (q : Queue) (c : Call) : (q.ask c).2.under = (askLists q.under c).2 := by
  cases c with
  | push id p => exact under_put_eq q id _
  | extend id ps => exact under_put_eq q id _
  | restore id ps => exact under_put_eq q id _
  | take id => exact under_eq_update fun k => under_take q id k
  | clear id => exact under_put_eq q id []
  | count | has => rfl

theorem simulates_lists : Simulates ask askLists fun q L => q.under = L where
  reply := by
    rintro q _ rfl c
    exact reply_ask q c
  next := by
    rintro q _ rfl c
    exact under_ask q c

/-! ### The entries -/

theorem tight_ask {q : Queue} (tight : q.Tight) (c : Call) : (q.ask c).2.Tight := by
  cases c with
  | push id p => exact tight.put id _
  | extend id ps => exact tight.put id _
  | restore id ps => exact tight.put id _
  | take id => exact tight.take id
  | clear id => exact tight.put id []
  | count | has => exact tight

theorem tight_after {q : Queue} (tight : q.Tight) (cs : List Call) : (after ask q cs).Tight :=
  after_keeps (P := Tight) (fun _ c h => tight_ask h c) tight cs

theorem entries_put_ne_nil (q : Queue) (id : Int) {ps : List Pending} (ne : ps ≠ []) :
    (q.put id ps).entries = q.entries.set id ps := by
  obtain ⟨p, ps, rfl⟩ := List.exists_cons_of_ne_nil ne
  rfl

/-- Where nothing waits there is nothing to drop. -/
theorem entries_erase {q : Queue} (tight : q.Tight) {id : Int} (none : q.under id = []) :
    q.entries.erase id = q.entries := by
  have same : (q.put id []).entries = q.entries := by rw [put_nil tight none]
  exact same

theorem elim_length (q : Queue) (id : Int) :
    (q.entries.get? id).elim 0 List.length = q.count id := by
  unfold count under
  cases q.entries.get? id <;> rfl

/-- Bare entries answer as the queue does, where none of them is empty. -/
theorem reply_askEntries {q : Queue} (tight : q.Tight) (c : Call) :
    (askEntries q.entries c).1 = (q.ask c).1 := by
  have entry := get?_entries tight
  cases c with
  | push => rfl
  | extend id ps => cases ps <;> rfl
  | restore id ps =>
    simp only [askEntries, ask]
    split <;> rfl
  | take id =>
    simp only [askEntries, ask]
    rw [entry]
    by_cases none : q.under id = []
    · rw [take_of_nil none, if_pos none]
    · rw [take_of_ne_nil none, if_neg none]
  | clear id =>
    simp only [askEntries, ask]
    rw [entry, clear_eq]
    by_cases none : q.under id = []
    · simp [none]
    · simp [none]
  | count id => exact congrArg Reply.counted (elim_length q id)
  | has id => exact congrArg (fun n => Reply.told (decide (0 < n))) (elim_length q id)

/-- Bare entries change as those of the queue do, where none of them is empty. -/
theorem entries_ask {q : Queue} (tight : q.Tight) (c : Call) :
    (askEntries q.entries c).2 = (q.ask c).2.entries := by
  cases c with
  | push id p => exact (entries_put_ne_nil q id (by simp)).symm
  | extend id ps =>
    cases ps with
    | nil =>
      have same : q.extend id [] = q := by
        refine ext_under (tight.put id _) tight fun k => ?_
        rw [under_extend, List.append_nil, ite_self]
      exact congrArg entries same.symm
    | cons p ps => exact (entries_put_ne_nil q id (by simp)).symm
  | restore id ps =>
    have kept : (q.restore id ps).entries = (q.put id (ps ++ q.under id)).entries := rfl
    simp only [askEntries, ask]
    rw [kept]
    unfold under
    split
    · next none => rw [none]; rfl
    · next p ps' some => rw [some, Table.set_erased]; rfl
  | take id =>
    simp only [askEntries, ask]
    by_cases none : q.under id = []
    · rw [take_of_nil none, entries_erase tight none]
    · rw [take_of_ne_nil none]; rfl
  | clear | count | has => rfl

theorem simulates_entries : Simulates askEntries ask fun t q => q.Tight ∧ t = q.entries where
  reply := by
    rintro _ q ⟨tight, rfl⟩ c
    exact reply_askEntries tight c
  next := by
    rintro _ q ⟨tight, rfl⟩ c
    exact ⟨tight_ask tight c, entries_ask tight c⟩

/-! ### Putting back -/

/-- Whether a call only stages updates. -/
def Call.stages : Call → Bool
  | push _ _ | extend _ _ => true
  | _ => false

/-- The updates that a call stages under an identifier. -/
def Call.staged (k : Int) : Call → List Pending
  | push id p => if id = k then [p] else []
  | extend id ps => if id = k then ps else []
  | _ => []

theorem under_ask_of_stages (q : Queue) {c : Call} (stages : c.stages) (k : Int) :
    (q.ask c).2.under k = q.under k ++ c.staged k := by
  cases c with
  | push id p =>
    simp only [ask, Call.staged]
    rw [under_push]
    split <;> simp
  | extend id ps =>
    simp only [ask, Call.staged]
    rw [under_extend]
    split <;> simp
  | take | restore | clear | count | has => cases stages

/-- What some calls stage comes behind what waits. -/
theorem under_after_of_stages (q : Queue) {cs : List Call} (stage : ∀ c ∈ cs, c.stages) (k : Int) :
    (after ask q cs).under k = q.under k ++ cs.flatMap (Call.staged k) := by
  induction cs generalizing q with
  | nil => exact (List.append_nil _).symm
  | cons c cs ih =>
    have later := ih (q.ask c).2 fun d hd => stage d (List.mem_cons_of_mem c hd)
    rw [under_ask_of_stages q (stage c List.mem_cons_self)] at later
    rw [List.flatMap_cons, ← List.append_assoc]
    exact later

/-- Updates that are taken, and put back before others staged meanwhile, are where they would be had
they not been taken. -/
theorem restore_after_take {q : Queue} (tight : q.Tight) (id : Int) {cs : List Call}
    (stage : ∀ c ∈ cs, c.stages) :
    (after ask (q.take id).2 cs).restore id ((q.take id).1.getD []) = after ask q cs := by
  refine ext_under ((tight_after (tight.take id) cs).put id _) (tight_after tight cs) fun k => ?_
  have alone := under_after_of_stages q stage k
  have meanwhile := under_after_of_stages (q.take id).2 stage k
  rw [under_take] at meanwhile
  by_cases here : id = k
  · rw [if_pos here, List.nil_append] at meanwhile
    subst here
    calc ((after ask (q.take id).2 cs).restore id ((q.take id).1.getD [])).under id
        = q.under id ++ (after ask (q.take id).2 cs).under id := by
          rw [restore, under_put_self, take_fst]
      _ = q.under id ++ cs.flatMap (Call.staged id) := by rw [meanwhile]
      _ = (after ask q cs).under id := alone.symm
  · rw [if_neg here] at meanwhile
    calc ((after ask (q.take id).2 cs).restore id ((q.take id).1.getD [])).under k
        = (after ask (q.take id).2 cs).under k := under_put_ne _ _ here
      _ = q.under k ++ cs.flatMap (Call.staged k) := meanwhile
      _ = (after ask q cs).under k := alone.symm

/-! ### Every run -/

/-- The queue and the lists that some calls come to, from nothing, are told apart by no answer. -/
structure KeepsLists (calls : List Call) (q : Queue) (L : Int → List Pending) : Prop where
  /-- The queue has the lists. -/
  under : q.under = L
  /-- The calls were answered as the lists answer them. -/
  answers : replies ask empty calls = replies askLists (fun _ => []) calls
  /-- No entry is empty. -/
  tight : q.Tight
  /-- Bare entries come to those of the queue. -/
  entries : after askEntries .empty calls = q.entries
  /-- The calls are answered by bare entries as the lists answer them. -/
  entryAnswers : replies askEntries .empty calls = replies askLists (fun _ => []) calls
  /-- A further call changes nothing under another identifier than its own. -/
  elsewhere : ∀ (c : Call) (k : Int), k ≠ c.id → (q.ask c).2.under k = L k
  /-- Updates may be taken and put back, whatever is staged between. -/
  restored : ∀ (id : Int) (staging : List Call), (∀ c ∈ staging, c.stages) →
    (after ask (q.take id).2 staging).restore id ((q.take id).1.getD []) = after ask q staging

theorem askLists_ne (L : Int → List Pending) (c : Call) {k : Int} (ne : k ≠ c.id) :
    (askLists L c).2 k = L k := by
  cases c with
  | push | extend | take | restore | clear => exact Function.update_of_ne ne _ _
  | count | has => rfl

/-- **A queue is a list for every identifier.** Whatever is asked of an empty queue, it answers as
the lists do, and as entries do that may be empty. -/
theorem keepsLists (calls : List Call) :
    KeepsLists calls (after ask empty calls) (after askLists (fun _ => []) calls) := by
  have start : empty.under = fun _ => [] := rfl
  have bare : empty.Tight ∧ (.empty : Table Int (List Pending)) = empty.entries :=
    ⟨tight_empty, rfl⟩
  have lists := simulates_lists.replies_eq start calls
  have under := simulates_lists.after_rel start calls
  have tight := tight_after tight_empty calls
  refine ⟨under, lists, tight, ?entries, ?entryAnswers, ?elsewhere, ?restored⟩
  case entries => exact (simulates_entries.after_rel bare calls).2
  case entryAnswers => exact (simulates_entries.replies_eq bare calls).trans lists
  case elsewhere =>
    intro c k ne
    rw [under_ask, under]
    exact askLists_ne _ c ne
  case restored =>
    intro id staging stage
    exact restore_after_take tight id stage

end Queue
end FrameFlow
