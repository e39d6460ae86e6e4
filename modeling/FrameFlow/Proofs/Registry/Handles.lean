/-
# Handles are names that are used once

Slots are used again, and a handle is only the number of a slot with that of the
slot's generation. Still a registry goes as a map whose names are never used
twice: as long as generations do not run out, a handle that was issued is behind
the generation of its slot as soon as the slot is emptied, and stays there. One
call keeps the slots in step with the history (`Registry.Tracks.step`), and so
does every run of calls.

Key definitions: `Registry.Sound`, `Registry.Tracks`, `Registry.NamesValues`.
Key theorems: `Registry.insert_cases`, `Registry.remove_cases`,
`Registry.Tracks.run`, `Registry.names_values`.
-/
import FrameFlow.Proofs.Registry.Runs
import Mathlib

namespace FrameFlow

/-- Different numbers stand for different handles. -/
theorem Handle.ofNumber_inj {m n : Nat} : ofNumber m = ofNumber n ↔ m = n := by
  constructor
  · intro same
    rw [← number_ofNumber m, same, number_ofNumber]
  · exact congrArg ofNumber

/-- A handle is the slot together with the generation. -/
theorem Handle.eq_iff {h k : Handle} :
    h = k ↔ h.index = k.index ∧ h.generation = k.generation := by
  cases h
  cases k
  simp [and_comm]

namespace Registry

variable {α : Type} {r : Registry α}

/-! ### Slots -/

/-- The free slots are those without a value, each listed once. -/
structure Sound (r : Registry α) : Prop where
  nodup : r.free.Nodup
  free : ∀ {i}, i ∈ r.free ↔ ∃ g, r.slots[i]? = some ⟨g, none⟩

/-- A value is behind a handle when it is in the slot, in the same generation. -/
theorem get?_eq_some_iff {k : Handle} {a : α} :
    r.get? k = some a ↔ r.slots[k.index]? = some ⟨k.generation, some a⟩ := by
  unfold get?
  rcases r.slots[k.index]? with _ | ⟨g, v⟩
  · simp
  · by_cases e : g = k.generation
    · simp [e]
    · simp [e]

theorem generationAt_of_some {i : Nat} {s : Slot α} (there : r.slots[i]? = some s) :
    r.generationAt i = s.generation := by
  unfold generationAt
  rw [there]
  rfl

/-- The handle for the next value, with the slots that are free afterwards: a new slot, or the one
that was emptied last. -/
inductive Next (r : Registry α) : Handle → List Nat → Prop where
  | new (full : r.free = []) : Next r ⟨1, r.slots.length⟩ []
  | recycled {i g : Nat} {free : List Nat} (first : r.free = i :: free)
      (empty : r.slots[i]? = some ⟨g, none⟩) : Next r ⟨g, i⟩ free

namespace Next

variable {h : Handle} {free : List Nat}

/-- There is no value in the slot by then. -/
theorem vacant (n : r.Next h free) {s : Slot α} (there : r.slots[h.index]? = some s) :
    s = ⟨h.generation, none⟩ := by
  cases n with
  | new full =>
    rw [List.getElem?_eq_none (Nat.le_refl _)] at there
    cases there
  | recycled first empty =>
    cases there.symm.trans empty
    rfl

theorem get?_eq_none (n : r.Next h free) {k : Handle} (same : h.index = k.index) :
    r.get? k = none := by
  rw [Option.eq_none_iff_forall_ne_some]
  intro a held
  have there := get?_eq_some_iff.mp held
  rw [← same] at there
  have value : some a = none := congrArg Slot.value (n.vacant there)
  cases value

/-- The slot is not free any more, and the others are as free as before. -/
theorem free_iff (n : r.Next h free) (sound : r.Sound) {j : Nat} :
    j ∈ free ↔ j ≠ h.index ∧ j ∈ r.free := by
  cases n with
  | new full => simp [full]
  | @recycled i g free first empty =>
    have distinct := sound.nodup
    rw [first] at distinct ⊢
    obtain ⟨fresh, -⟩ := List.nodup_cons.mp distinct
    constructor
    · intro hj
      refine ⟨?_, List.mem_cons_of_mem _ hj⟩
      rintro rfl
      exact fresh hj
    · rintro ⟨ne, hj⟩
      exact (List.mem_cons.mp hj).resolve_left ne

theorem index_le (n : r.Next h free) : h.index ≤ r.slots.length := by
  cases n with
  | new full => exact Nat.le_refl _
  | recycled first empty => exact Nat.le_of_lt (List.getElem?_eq_some_iff.mp empty).1

theorem generationAt (n : r.Next h free) : r.generationAt h.index = h.generation := by
  cases n with
  | new full => simp [Registry.generationAt]
  | recycled first empty => exact generationAt_of_some empty

theorem nodup (n : r.Next h free) (sound : r.Sound) : free.Nodup := by
  cases n with
  | new full => exact List.nodup_nil
  | recycled first empty =>
    have distinct := sound.nodup
    rw [first] at distinct
    exact (List.nodup_cons.mp distinct).2

end Next

/-- A value goes into the next slot, and nothing else changes. -/
theorem insert_cases (sound : r.Sound) (a : α) : ∃ h free slots, r.Next h free ∧
    r.insert a = (h, ⟨slots, free, r.live + 1⟩) ∧ slots.length ≤ r.slots.length + 1 ∧
    ∀ j, slots[j]? = if h.index = j then some ⟨h.generation, some a⟩ else r.slots[j]? := by
  rcases full : r.free with _ | ⟨i, free⟩
  · refine ⟨_, _, r.slots ++ [⟨1, some a⟩], .new full, ?_, ?_, fun j => ?_⟩
    · unfold insert
      rw [full]
    · simp
    · by_cases e : r.slots.length = j
      · subst e
        simp
      · simp only [if_neg e]
        rcases Nat.lt_or_ge j r.slots.length with lt | ge
        · exact List.getElem?_append_left lt
        · have out : r.slots.length + 1 ≤ j := by omega
          rw [List.getElem?_eq_none ge, List.getElem?_eq_none (by simpa using out)]
  · have empty : i ∈ r.free := by
      rw [full]
      exact List.mem_cons_self
    obtain ⟨g, there⟩ := sound.free.mp empty
    refine ⟨_, _, r.slots.modify i (·.holding a), .recycled full there, ?_, ?_, fun j => ?_⟩
    · unfold insert generationAt
      rw [full]
      simp only [there]
      rfl
    · rw [List.length_modify]
      exact Nat.le_succ _
    · rw [List.getElem?_modify]
      by_cases e : i = j
      · subst e
        simp [there, Slot.holding]
      · simp [e]

/-- A value that is there is taken out of its slot, which gets another generation and is free from
then on. -/
theorem remove_cases (r : Registry α) (k : Handle) :
    (r.get? k = none ∧ r.remove k = (none, r)) ∨
      ∃ a slots, r.slots[k.index]? = some ⟨k.generation, some a⟩ ∧
        r.remove k = (some a, ⟨slots, k.index :: r.free, r.live - 1⟩) ∧
        slots.length = r.slots.length ∧
        ∀ j, slots[j]? =
          if k.index = j then some ⟨Slot.nextGeneration k.generation, none⟩ else r.slots[j]? := by
  unfold remove
  rcases held : r.get? k with _ | a
  · exact .inl ⟨rfl, rfl⟩
  · have there := get?_eq_some_iff.mp held
    refine .inr ⟨a, _, there, rfl, List.length_modify .., fun j => ?_⟩
    rw [List.getElem?_modify]
    by_cases e : k.index = j
    · subst e
      simp [there, Slot.emptied]
    · simp [e]

/-! ### One call -/

theorem Sound.insert (sound : r.Sound) (a : α) : (r.insert a).2.Sound := by
  obtain ⟨h, free, slots, next, done, -, slot⟩ := insert_cases sound a
  rw [done]
  refine ⟨next.nodup sound, fun {j} => ?_⟩
  change j ∈ free ↔ ∃ g, slots[j]? = some ⟨g, none⟩
  rw [next.free_iff sound, sound.free, slot]
  by_cases e : h.index = j
  · simp [e]
  · simp [e, Ne.symm e]

theorem Sound.remove (sound : r.Sound) (k : Handle) : (r.remove k).2.Sound := by
  rcases remove_cases r k with ⟨-, done⟩ | ⟨a, slots, there, done, -, slot⟩
  · rw [done]
    exact sound
  · rw [done]
    have taken : k.index ∉ r.free := by
      intro hk
      obtain ⟨g, empty⟩ := sound.free.mp hk
      cases there.symm.trans empty
    refine ⟨List.nodup_cons.mpr ⟨taken, sound.nodup⟩, fun {j} => ?_⟩
    change j ∈ k.index :: r.free ↔ ∃ g, slots[j]? = some ⟨g, none⟩
    rw [List.mem_cons, sound.free, slot]
    by_cases e : k.index = j
    · simp [e]
    · simp [e, Ne.symm e]

theorem generationAt_insert (sound : r.Sound) (a : α) (i : Nat) :
    (r.insert a).2.generationAt i = r.generationAt i := by
  obtain ⟨h, free, slots, next, done, -, slot⟩ := insert_cases sound a
  rw [done]
  unfold generationAt
  simp only [slot]
  by_cases e : h.index = i
  · have before := next.generationAt
    subst e
    rw [if_pos rfl]
    exact before.symm
  · rw [if_neg e]

/-- A value that is put in is behind the handle that is answered, and the other handles have what
they had. -/
theorem get?_insert (sound : r.Sound) (a : α) (k : Handle) :
    (r.insert a).2.get? k = if (r.insert a).1 = k then some a else r.get? k := by
  obtain ⟨h, free, slots, next, done, -, slot⟩ := insert_cases sound a
  rw [done]
  simp only
  by_cases e : h.index = k.index
  · have before := next.get?_eq_none e
    unfold get?
    simp only [slot, if_pos e]
    have same : h = k ↔ h.generation = k.generation := Handle.eq_iff.trans (and_iff_right e)
    by_cases g : h.generation = k.generation
    · rw [if_pos g, if_pos (same.mpr g)]
    · rw [if_neg g, if_neg (mt same.mp g)]
      exact before.symm
  · have other : h ≠ k := fun same => e (same ▸ rfl)
    rw [if_neg other]
    unfold get?
    simp only [slot, if_neg e]

/-- After a removal there is nothing behind the handle, and the other handles have what they had. -/
theorem get?_remove (r : Registry α) (h k : Handle) :
    (r.remove h).2.get? k = if h = k then none else r.get? k := by
  rcases remove_cases r h with ⟨nothing, done⟩ | ⟨a, slots, there, done, -, slot⟩
  · rw [done]
    by_cases same : h = k
    · rw [if_pos same, ← same, nothing]
    · rw [if_neg same]
  · rw [done]
    by_cases e : h.index = k.index
    · have gone : get? ⟨slots, h.index :: r.free, r.live - 1⟩ k = none := by
        unfold get?
        simp [slot, e]
      rw [gone]
      split
      · rfl
      · next other =>
        unfold get?
        rw [← e, there]
        have old : h.generation ≠ k.generation := fun g => other (Handle.eq_iff.mpr ⟨e, g⟩)
        simp [old]
    · have other : h ≠ k := fun same => e (same ▸ rfl)
      rw [if_neg other]
      unfold get?
      simp only [slot, if_neg e]

/-! ### Slots and the history -/

/-- The slots are in step with the history. -/
structure Tracks (r : Registry α) (t : History α) : Prop where
  sound : r.Sound
  /-- A value that was put in is there, or was taken out. -/
  counted : (outstanding t).length + (vacated t).length = (issued t).length
  live : r.live = (outstanding t).length
  slots : r.slots.length ≤ (issued t).length
  /-- The generation of a slot tells how often it was emptied. -/
  generation : ∀ i, r.generationAt i = 1 + (vacated t).count i
  held : ∀ {n a}, (n, a) ∈ outstanding t ↔ r.get? (.ofNumber n) = some a
  /-- A handle that was issued is not ahead of its slot, and behind it when the slot is empty. -/
  used : ∀ {n}, n ∈ issued t → ∃ s, r.slots[(Handle.ofNumber n).index]? = some s ∧
    1 ≤ (Handle.ofNumber n).generation ∧ (Handle.ofNumber n).generation ≤ s.generation ∧
    (s.value = none → (Handle.ofNumber n).generation ≠ s.generation)
  distinct : (issued t).Nodup

theorem tracks_empty : (empty : Registry α).Tracks [] where
  sound := ⟨List.nodup_nil, by simp [empty]⟩
  counted := rfl
  live := rfl
  slots := Nat.le_refl _
  generation _ := rfl
  held := by simp [outstanding, get?, empty]
  used hn := by cases hn
  distinct := List.nodup_nil

namespace Tracks

variable {t : History α} (h : r.Tracks t)
include h

/-- A number that is there is behind nothing else. -/
theorem nodup_outstanding : ((outstanding t).map Prod.fst).Nodup :=
  h.distinct.sublist ((outstanding_sublist t).map Prod.fst)

/-- A slot was not emptied more often than values were put in. -/
theorem generationAt_le (i : Nat) :
    r.generationAt i + (outstanding t).length ≤ 1 + (issued t).length := by
  have counted := h.counted
  have generation := h.generation i
  have times : (vacated t).count i ≤ (vacated t).length := List.count_le_length
  omega

/-- The handle for the next value was not issued before, and its number tells it. -/
theorem next {k : Handle} {free : List Nat} (n : r.Next k free)
    (room : (issued t).length < Handle.span) :
    Handle.ofNumber k.number = k ∧ k.number ∉ issued t ∧ 1 ≤ k.generation := by
  have slots := h.slots
  have index : k.index < Handle.span := Nat.lt_of_le_of_lt (Nat.le_trans n.index_le slots) room
  have named := Handle.ofNumber_number index
  refine ⟨named, fun issued => ?_, ?_⟩
  · obtain ⟨s, there, -, -, behind⟩ := h.used issued
    rw [named] at there behind
    cases n.vacant there
    exact behind rfl rfl
  · rw [← n.generationAt, h.generation]
    exact Nat.le_add_right _ _

/-- A value that is put in is told by the history. -/
theorem insert (a : α) (room : (issued t).length + 1 < Handle.span) :
    Tracks (r.insert a).2 (t ++ [(Call.insert a, Answer.issued (r.insert a).1.number)]) := by
  have sound := h.sound.insert a
  have get := get?_insert h.sound a
  have generation := generationAt_insert h.sound a
  obtain ⟨k, free, slots, n, done, length, slot⟩ := insert_cases h.sound a
  obtain ⟨named, fresh, positive⟩ := h.next n (Nat.lt_of_succ_lt room)
  rw [done] at sound get generation ⊢
  have issued' : issued (t ++ [(Call.insert a, Answer.issued k.number)]) = issued t ++ [k.number] :=
    issued_concat t _
  have vacated' : vacated (t ++ [(Call.insert a, Answer.issued k.number)]) = vacated t :=
    (vacated_concat t _).trans (List.append_nil _)
  have outstanding' : outstanding (t ++ [(Call.insert a, Answer.issued k.number)]) =
      outstanding t ++ [(k.number, a)] :=
    outstanding_concat_of_kept fun _ _ => rfl
  refine ⟨sound, ?counted, ?live, ?slots, fun i => ?generation, fun {m b} => ?held,
    fun {m} hm => ?used, ?distinct⟩
  case counted =>
    have counted := h.counted
    rw [outstanding', vacated', issued', List.length_append, List.length_append,
      List.length_singleton, List.length_singleton]
    omega
  case live =>
    rw [outstanding', List.length_append, ← h.live]
    rfl
  case slots =>
    rw [issued', List.length_append]
    exact Nat.le_trans length (Nat.add_le_add_right h.slots 1)
  case generation =>
    rw [generation, vacated']
    exact h.generation i
  case held =>
    rw [outstanding', get, List.mem_append, List.mem_singleton, Prod.mk.injEq]
    by_cases e : m = k.number
    · subst e
      have old : (k.number, b) ∉ outstanding t := fun there => fresh (issued_of_outstanding there)
      rw [named, if_pos rfl]
      simp [old, eq_comm]
    · have other : k ≠ Handle.ofNumber m := by
        rintro rfl
        exact e (Handle.number_ofNumber m).symm
      rw [if_neg other, ← h.held]
      simp [e]
  case used =>
    change ∃ s, slots[(Handle.ofNumber m).index]? = some s ∧ _
    rw [slot]
    rw [issued', List.mem_append, List.mem_singleton] at hm
    rcases hm with hm | rfl
    · obtain ⟨s, there, least, most, behind⟩ := h.used hm
      by_cases e : k.index = (Handle.ofNumber m).index
      · -- the slot was empty, in the generation of the new handle
        rw [← e] at there
        cases n.vacant there
        exact ⟨_, if_pos e, least, most, fun none => by cases none⟩
      · exact ⟨s, (if_neg e).trans there, least, most, behind⟩
    · rw [named]
      exact ⟨_, if_pos rfl, positive, Nat.le_refl _, fun none => by cases none⟩
  case distinct =>
    rw [issued', List.nodup_append]
    refine ⟨h.distinct, List.nodup_singleton _, fun m hm m' hm' => ?_⟩
    rintro rfl
    rw [List.mem_singleton] at hm'
    exact fresh (hm' ▸ hm)

/-- A call that puts nothing in and takes nothing out is not seen. -/
theorem quiet {e : Call α × Answer α} (puts : placed? e = none) (takes : vacated? e = none)
    (kept : ∀ x ∈ outstanding t, e.1.removes x.1 = false) : Tracks r (t ++ [e]) := by
  have issued' : issued (t ++ [e]) = issued t := by
    rw [issued_concat, puts]
    exact List.append_nil _
  have vacated' : vacated (t ++ [e]) = vacated t := by
    rw [vacated_concat, takes]
    exact List.append_nil _
  have outstanding' : outstanding (t ++ [e]) = outstanding t := by
    rw [outstanding_concat_of_kept kept, puts]
    exact List.append_nil _
  exact
    { sound := h.sound
      counted := by rw [outstanding', vacated', issued', h.counted]
      live := by rw [outstanding', h.live]
      slots := by rw [issued']; exact h.slots
      generation := by rw [vacated']; exact h.generation
      held := by rw [outstanding']; exact h.held
      used := by rw [issued']; exact h.used
      distinct := by rw [issued']; exact h.distinct }

/-- One value less is there when a number that is there is left out. -/
theorem length_filter_outstanding {n : Nat} {a : α} (there : (n, a) ∈ outstanding t) :
    ((outstanding t).filter fun x => !(x.1 == n)).length + 1 = (outstanding t).length := by
  have once : ((outstanding t).map Prod.fst).count n = 1 :=
    List.count_eq_one_of_mem h.nodup_outstanding (List.mem_map_of_mem (f := Prod.fst) there)
  have same : ((outstanding t).filter fun x => x.1 == n).length = 1 := by
    rw [← List.countP_eq_length_filter, ← once, List.count_eq_countP, List.countP_map]
    rfl
  have split := List.length_eq_length_filter_add (l := outstanding t) fun x => x.1 == n
  omega

/-- A value that is taken out is told by the history. -/
theorem remove {n : Nat} {a : α} (held : r.get? (.ofNumber n) = some a)
    (room : (issued t).length + 1 < Handle.span) :
    Tracks (r.remove (.ofNumber n)).2 (t ++ [(Call.remove n, Answer.value (some a))]) := by
  have sound := h.sound.remove (.ofNumber n)
  have get := get?_remove r (.ofNumber n)
  have there : (n, a) ∈ outstanding t := h.held.mpr held
  have less := h.length_filter_outstanding there
  rcases remove_cases r (.ofNumber n) with ⟨nothing, -⟩ | ⟨b, slots, filled, done, length, slot⟩
  · rw [held] at nothing
    cases nothing
  rw [done] at sound get ⊢
  have issued' : issued (t ++ [(Call.remove n, Answer.value (some a))]) = issued t :=
    (issued_concat t _).trans (List.append_nil _)
  have vacated' : vacated (t ++ [(Call.remove n, Answer.value (some a))]) =
      vacated t ++ [(Handle.ofNumber n).index] :=
    vacated_concat t _
  have outstanding' : outstanding (t ++ [(Call.remove n, Answer.value (some a))]) =
      (outstanding t).filter fun x => !(x.1 == n) :=
    (outstanding_concat t _).trans (List.append_nil _)
  -- generations do not run out, since a value is there for which the slot was not emptied yet
  have current : r.generationAt (Handle.ofNumber n).index = (Handle.ofNumber n).generation :=
    generationAt_of_some filled
  have raised : Slot.nextGeneration (Handle.ofNumber n).generation =
      (Handle.ofNumber n).generation + 1 := by
    have most := h.generationAt_le (Handle.ofNumber n).index
    rw [current] at most
    exact if_pos (by omega)
  rw [raised] at slot
  refine ⟨sound, ?counted, ?live, ?slots, fun i => ?generation, fun {m b} => ?held,
    fun {m} hm => ?used, ?distinct⟩
  case counted =>
    have counted := h.counted
    rw [outstanding', vacated', issued', List.length_append, List.length_singleton]
    omega
  case live =>
    have live := h.live
    rw [outstanding']
    change r.live - 1 = _
    omega
  case slots =>
    rw [issued']
    exact length ▸ h.slots
  case generation =>
    have before := h.generation i
    rw [vacated', List.count_append]
    unfold generationAt at before ⊢
    simp only [slot]
    by_cases e : (Handle.ofNumber n).index = i
    · subst e
      rw [filled] at before
      simp at before ⊢
      omega
    · simpa [e] using before
  case held =>
    rw [outstanding', get, List.mem_filter, h.held]
    by_cases e : m = n
    · subst e
      simp
    · have other : Handle.ofNumber n ≠ Handle.ofNumber m := fun same =>
        e (Handle.ofNumber_inj.mp same).symm
      simp [e, other]
  case used =>
    change ∃ s, slots[(Handle.ofNumber m).index]? = some s ∧ _
    rw [slot]
    rw [issued'] at hm
    obtain ⟨s, old, least, most, behind⟩ := h.used hm
    by_cases e : (Handle.ofNumber n).index = (Handle.ofNumber m).index
    · rw [← e, filled] at old
      cases old
      simp only at most
      refine ⟨_, if_pos e, least, ?_, fun _ => ?_⟩
      · simp only
        omega
      · simp only
        omega
    · exact ⟨s, (if_neg e).trans old, least, most, behind⟩
  case distinct =>
    rw [issued']
    exact h.distinct

/-- Every call is told by the history, while there are not too many insertions. -/
theorem step (c : Call α) (room : (issued t).length + insertions [c] + 1 < Handle.span) :
    Tracks (c.run r).2 (t ++ [(c, (c.run r).1)]) := by
  cases c with
  | insert a => exact h.insert a (Nat.lt_of_succ_lt room)
  | get n => exact h.quiet rfl rfl fun _ _ => rfl
  | remove n =>
    have room : (issued t).length + 1 < Handle.span := room
    rcases held : r.get? (.ofNumber n) with _ | a
    · have missed : r.remove (.ofNumber n) = (none, r) := by
        rcases remove_cases r (.ofNumber n) with ⟨-, done⟩ | ⟨a, slots, filled, -⟩
        · exact done
        · rw [get?_eq_some_iff.mpr filled] at held
          cases held
      have kept : ∀ x ∈ outstanding t, Call.removes x.1 (.remove n : Call α) = false := by
        rintro ⟨m, a⟩ there
        have value := h.held.mp there
        apply beq_eq_false_iff_ne.mpr
        rintro rfl
        rw [held] at value
        cases value
      simp only [Call.run, missed]
      exact h.quiet rfl rfl kept
    · have taken : (r.remove (.ofNumber n)).1 = some a := by
        unfold Registry.remove
        rw [held]
      have told := h.remove held room
      rw [← taken] at told
      exact told

/-- Every run of calls is told by the history, while there are not too many insertions. -/
theorem run (cs : List (Call α)) (room : (issued t).length + insertions cs + 1 < Handle.span) :
    Tracks (r.after cs) (t ++ r.history cs) := by
  induction cs generalizing r t with
  | nil =>
    rw [history, List.append_nil]
    exact h
  | cons c cs ih =>
    rw [insertions_cons] at room
    have more : (issued (t ++ [(c, (c.run r).1)])).length = (issued t).length + insertions [c] := by
      rw [issued_append, List.length_append]
      exact congrArg _ (length_issued_history [c] r)
    have told := h.step c (by omega)
    rw [history, List.append_cons]
    exact ih told (by omega)

/-- A number that was issued is not zero, and has two halves. -/
theorem number_bounds (room : (issued t).length + 1 < Handle.span) {n : Nat} (hn : n ∈ issued t) :
    n ≠ 0 ∧ n < Handle.span * Handle.span := by
  obtain ⟨s, there, least, most, -⟩ := h.used hn
  have current : r.generationAt (Handle.ofNumber n).index = s.generation :=
    generationAt_of_some there
  have reached := h.generationAt_le (Handle.ofNumber n).index
  have half : n / Handle.span < Handle.span := by
    change (Handle.ofNumber n).generation < Handle.span
    omega
  constructor
  · rintro rfl
    exact absurd least (by decide)
  · exact (Nat.div_lt_iff_lt_mul (by decide)).mp half

end Tracks

/-! ### Names -/

/-- After some calls on an empty registry, its values have names that are never used twice. -/
structure NamesValues (calls : List (Call α)) : Prop where
  /-- Every insertion issues a number, and all of them are different. -/
  counted : (issued (empty.history calls)).length = insertions calls
  distinct : (issued (empty.history calls)).Nodup
  numbers : ∀ n ∈ issued (empty.history calls), n ≠ 0 ∧ n < 2 ^ 64
  /-- There is a value behind a number when it is outstanding. -/
  get : ∀ n a, (empty.after calls).get? (.ofNumber n) = some a ↔
    (n, a) ∈ outstanding (empty.history calls)
  /-- It is outstanding when the number was issued for it and not removed since. -/
  since : ∀ n a, (n, a) ∈ outstanding (empty.history calls) ↔
    ∃ before later, calls = before ++ Call.insert a :: later ∧
      (((empty : Registry α).after before).insert a).1.number = n ∧ Call.remove n ∉ later
  /-- A removal answers what is there, and changes nothing when nothing is. -/
  remove : ∀ n, ((empty.after calls).remove (.ofNumber n)).1 =
      (empty.after calls).get? (.ofNumber n) ∧
    ((empty.after calls).get? (.ofNumber n) = none →
      ((empty.after calls).remove (.ofNumber n)).2 = empty.after calls)
  zero : (empty.after calls).get? (.ofNumber 0) = none
  unissued : ∀ n, n ∉ issued (empty.history calls) →
    (empty.after calls).get? (.ofNumber n) = none
  /-- Whatever is called from then on, there is nothing behind a number once it was removed. -/
  removed : ∀ n ∈ issued (empty.history calls), ∀ more,
    insertions (calls ++ Call.remove n :: more) < 2 ^ 32 - 1 →
    (empty.after (calls ++ Call.remove n :: more)).get? (.ofNumber n) = none
  /-- Neither is there behind a number that was issued and has nothing behind it by now. -/
  stale : ∀ n ∈ issued (empty.history calls), (empty.after calls).get? (.ofNumber n) = none →
    ∀ more, insertions (calls ++ more) < 2 ^ 32 - 1 →
      (empty.after (calls ++ more)).get? (.ofNumber n) = none
  live : (empty.after calls).live = (outstanding (empty.history calls)).length
  isEmpty : (empty.after calls).isEmpty ↔ outstanding (empty.history calls) = []

theorem tracks_after {calls : List (Call α)} (room : insertions calls < 2 ^ 32 - 1) :
    (empty.after calls).Tracks (empty.history calls) := by
  have span : Handle.span = 2 ^ 32 := rfl
  have start : (issued ([] : History α)).length = 0 := rfl
  exact tracks_empty.run calls (by omega)

/-- A number that was issued and has nothing behind it has nothing behind it ever after. -/
theorem get?_after_eq_none {calls more : List (Call α)} {n : Nat}
    (room : insertions (calls ++ more) < 2 ^ 32 - 1) (known : n ∈ issued (empty.history calls))
    (nothing : (empty.after calls).get? (.ofNumber n) = none) :
    (empty.after (calls ++ more)).get? (.ofNumber n) = none := by
  have later := tracks_after room
  have fewer : insertions calls ≤ insertions (calls ++ more) := by
    unfold insertions
    rw [List.countP_append]
    exact Nat.le_add_right _ _
  have now := tracks_after (Nat.lt_of_le_of_lt fewer room)
  rw [Option.eq_none_iff_forall_ne_some]
  intro a value
  have there := later.held.mpr value
  have distinct := later.distinct
  rw [history_append] at there distinct
  rw [issued_append, List.nodup_append] at distinct
  rw [outstanding_append, List.mem_append, List.mem_filter] at there
  rcases there with ⟨before, -⟩ | since
  · have held := now.held.mp before
    rw [nothing] at held
    cases held
  · exact distinct.2.2 n known n (issued_of_outstanding since) rfl

/-- **Handles are never used twice.** After any calls on an empty registry, with fewer than
`2 ^ 32 - 1` insertions among them, the values that were put in and not removed are there under the
numbers that were issued for them, and there is nothing behind any other number. -/
theorem names_values {calls : List (Call α)} (room : insertions calls < 2 ^ 32 - 1) :
    NamesValues calls := by
  have span : Handle.span = 2 ^ 32 := rfl
  have h := tracks_after room
  have counted := length_issued_history calls (empty : Registry α)
  have numbers : ∀ n ∈ issued (empty.history calls), n ≠ 0 ∧ n < 2 ^ 64 := by
    intro n hn
    exact h.number_bounds (by omega) hn
  have unissued : ∀ n, n ∉ issued (empty.history calls) →
      (empty.after calls).get? (.ofNumber n) = none := by
    intro n hn
    rw [Option.eq_none_iff_forall_ne_some]
    intro a value
    exact hn (issued_of_outstanding (h.held.mpr value))
  refine
    { counted := counted
      distinct := h.distinct
      numbers := numbers
      get := fun n a => h.held.symm
      since := fun n a => mem_outstanding_history calls empty
      remove := fun n => ?remove
      zero := ?zero
      unissued := unissued
      removed := ?removed
      stale := fun n known nothing more room' => get?_after_eq_none room' known nothing
      live := h.live
      isEmpty := ?isEmpty }
  case remove =>
    rcases remove_cases (empty.after calls) (.ofNumber n) with
      ⟨nothing, done⟩ | ⟨a, slots, filled, done, -⟩
    · rw [done]
      exact ⟨nothing.symm, fun _ => rfl⟩
    · have held := get?_eq_some_iff.mpr filled
      rw [done, held]
      refine ⟨rfl, fun nothing => ?_⟩
      cases nothing
  case zero => exact unissued 0 fun hn => (numbers 0 hn).1 rfl
  case removed =>
    intro n known more room'
    rw [List.append_cons] at room' ⊢
    refine get?_after_eq_none room' ?_ ?_
    · rw [history_append, issued_append]
      exact List.mem_append_left _ known
    · rw [after_append]
      exact (get?_remove _ _ _).trans (if_pos rfl)
  case isEmpty =>
    unfold isEmpty
    rw [h.live, beq_iff_eq, List.length_eq_zero_iff]

/-- A slot is emptied and filled again: the old handle is not the new one. -/
def recycling : List (Call Char) :=
  [.insert 'a', .insert 'b', .remove 0x100000000, .insert 'c', .get 0x100000000, .remove 7]

theorem names_values_recycling : insertions recycling < 2 ^ 32 - 1 ∧ NamesValues recycling ∧
    issued (empty.history recycling) = [0x100000000, 0x100000001, 0x200000000] ∧
    outstanding (empty.history recycling) = [(0x100000001, 'b'), (0x200000000, 'c')] :=
  ⟨by decide, names_values (by decide), by decide, by decide⟩

end Registry
end FrameFlow
