/-
# Runs of a registry

A call of a registry is kept as data, and so is what it answers. The history of a
registry is the calls since it was empty, with their answers. It tells by itself
which values have to be there by now: those that were put in and whose number was
not given to a removal since (`Registry.outstanding`).

Key definitions: `Registry.Call`, `Registry.after`, `Registry.history`,
`Registry.issued`, `Registry.outstanding`.
Key theorem: `Registry.outstanding_append`.
-/
import FrameFlow.Registry

namespace FrameFlow
namespace Registry

/-- A call of a registry. A number stands for a handle, whether it was issued or not. -/
inductive Call (α : Type) where
  | insert (a : α)
  | get (n : Nat)
  | remove (n : Nat)
deriving DecidableEq

/-- What a call answers. -/
inductive Answer (α : Type) where
  | issued (n : Nat)
  | value (a : Option α)
deriving DecidableEq

variable {α : Type}

namespace Call

/-- What a call answers, and the registry afterwards. -/
def run (r : Registry α) : Call α → Answer α × Registry α
  | insert a => (.issued (r.insert a).1.number, (r.insert a).2)
  | get n => (.value (r.get? (.ofNumber n)), r)
  | remove n => (.value (r.remove (.ofNumber n)).1, (r.remove (.ofNumber n)).2)

/-- Whether a value is put in. -/
def inserts : Call α → Bool
  | insert _ => true
  | _ => false

/-- Whether a number is to be removed. -/
def removes (n : Nat) : Call α → Bool
  | remove m => n == m
  | _ => false

end Call

/-- The registry after some calls, one after another. -/
def after (r : Registry α) : List (Call α) → Registry α
  | [] => r
  | c :: cs => (c.run r).2.after cs

/-- Calls with what they answered. -/
abbrev History (α : Type) := List (Call α × Answer α)

/-- What some calls answer, one after another. -/
def history (r : Registry α) : List (Call α) → History α
  | [] => []
  | c :: cs => (c, (c.run r).1) :: (c.run r).2.history cs

/-- How many values are put in. -/
def insertions (cs : List (Call α)) : Nat := cs.countP Call.inserts

theorem insertions_cons (c : Call α) (cs : List (Call α)) :
    insertions (c :: cs) = insertions [c] + insertions cs := by
  unfold insertions
  rw [← List.countP_append]
  rfl

theorem after_append (r : Registry α) : ∀ cs ds : List (Call α),
    r.after (cs ++ ds) = (r.after cs).after ds
  | [], _ => rfl
  | c :: cs, ds => after_append (c.run r).2 cs ds

theorem history_append (r : Registry α) : ∀ cs ds : List (Call α),
    r.history (cs ++ ds) = r.history cs ++ (r.after cs).history ds
  | [], _ => rfl
  | c :: cs, ds => congrArg ((c, (c.run r).1) :: ·) (history_append (c.run r).2 cs ds)

/-! ### What a history tells -/

/-- The value that was put in, with the number that was answered. -/
def placed? : Call α × Answer α → Option (Nat × α)
  | (.insert a, .issued n) => some (n, a)
  | _ => none

/-- The slot that a value was taken out of. -/
def vacated? : Call α × Answer α → Option Nat
  | (.remove n, .value (some _)) => some (Handle.ofNumber n).index
  | _ => none

/-- The values that were put in, with their numbers. -/
def placed (t : History α) : List (Nat × α) := t.filterMap placed?

/-- The numbers that were issued, in order. -/
def issued (t : History α) : List Nat := (placed t).map Prod.fst

/-- The slots that values were taken out of, one for each time. -/
def vacated (t : History α) : List Nat := t.filterMap vacated?

/-- Whether a number was given to a removal. -/
def removed (t : History α) (n : Nat) : Bool := t.any fun e => e.1.removes n

/-- The values that were put in and not removed since, with their numbers. -/
def outstanding : History α → List (Nat × α)
  | [] => []
  | e :: t =>
    match placed? e with
    | none => outstanding t
    | some x => if removed t x.1 then outstanding t else x :: outstanding t

/-! ### A history goes on -/

theorem issued_append (t t' : History α) : issued (t ++ t') = issued t ++ issued t' := by
  unfold issued placed
  rw [List.filterMap_append, List.map_append]

theorem vacated_append (t t' : History α) : vacated (t ++ t') = vacated t ++ vacated t' :=
  List.filterMap_append

theorem removed_append (t t' : History α) (n : Nat) :
    removed (t ++ t') n = (removed t n || removed t' n) :=
  List.any_append

/-- What is there later was there before and was not removed, or was put in since. -/
theorem outstanding_append : ∀ t t' : History α, outstanding (t ++ t') =
    ((outstanding t).filter fun x => !removed t' x.1) ++ outstanding t'
  | [], _ => rfl
  | e :: t, t' => by
    have ih := outstanding_append t t'
    simp only [List.cons_append, outstanding]
    rcases placed? e with _ | x
    · exact ih
    · simp only
      rw [removed_append, ih]
      by_cases gone : removed t x.1
      · simp [gone]
      · by_cases later : removed t' x.1
        · simp [gone, later]
        · simp [gone, later]

/-- What is there was put in. -/
theorem outstanding_sublist : ∀ t : History α, (outstanding t).Sublist (placed t)
  | [] => List.Sublist.refl _
  | e :: t => by
    have ih := outstanding_sublist t
    unfold outstanding placed
    rw [List.filterMap_cons]
    rcases placed? e with _ | x
    · exact ih
    · simp only
      split
      · exact ih.cons x
      · exact ih.cons_cons x

theorem issued_of_outstanding {t : History α} {n : Nat} {a : α} (h : (n, a) ∈ outstanding t) :
    n ∈ issued t :=
  List.mem_map_of_mem (f := Prod.fst) ((outstanding_sublist t).subset h)

theorem mem_outstanding_cons {e : Call α × Answer α} {t : History α} {x : Nat × α} :
    x ∈ outstanding (e :: t) ↔ (placed? e = some x ∧ ¬removed t x.1) ∨ x ∈ outstanding t := by
  simp only [outstanding]
  rcases placed? e with _ | y
  · simp
  · by_cases gone : removed t y.1
    · simp only [if_pos gone, Option.some.injEq]
      refine ⟨.inr, ?_⟩
      rintro (⟨rfl, kept⟩ | there)
      · exact absurd gone kept
      · exact there
    · simp only [if_neg gone, List.mem_cons, Option.some.injEq]
      refine or_congr_left ⟨?_, ?_⟩
      · rintro rfl
        exact ⟨rfl, gone⟩
      · rintro ⟨rfl, -⟩
        rfl

/-- As many numbers are issued as values are put in. -/
theorem length_issued_history : ∀ (cs : List (Call α)) (r : Registry α),
    (issued (r.history cs)).length = insertions cs
  | [], _ => rfl
  | c :: cs, r => by
    have ih := length_issued_history cs (c.run r).2
    have parts : issued (r.history (c :: cs)) =
        issued [(c, (c.run r).1)] ++ issued ((c.run r).2.history cs) :=
      issued_append [(c, (c.run r).1)] _
    rw [parts, insertions_cons, List.length_append, ih]
    congr 1
    cases c with
    | insert a => rfl
    | get n => rfl
    | remove n => rfl

theorem removed_history (n : Nat) : ∀ (cs : List (Call α)) (r : Registry α),
    removed (r.history cs) n ↔ Call.remove n ∈ cs
  | [], _ => by simp [history, removed]
  | c :: cs, r => by
    have ih := removed_history n cs (c.run r).2
    unfold removed at ih
    rw [history, removed, List.any_cons, Bool.or_eq_true, ih, List.mem_cons]
    cases c <;> simp [Call.removes]

/-- What is there was put in at some time, under its number, and the number was not given to a
removal since. -/
theorem mem_outstanding_history {n : Nat} {a : α} : ∀ (cs : List (Call α)) (r : Registry α),
    (n, a) ∈ outstanding (r.history cs) ↔ ∃ before later, cs = before ++ Call.insert a :: later ∧
      ((r.after before).insert a).1.number = n ∧ Call.remove n ∉ later
  | [], r => by simp [history, outstanding]
  | c :: cs, r => by
    have ih := mem_outstanding_history (n := n) (a := a) cs (c.run r).2
    -- it is put in by the first call, or by a later one
    have split : (∃ before later, c :: cs = before ++ Call.insert a :: later ∧
        ((r.after before).insert a).1.number = n ∧ Call.remove n ∉ later) ↔
        (c = .insert a ∧ (r.insert a).1.number = n ∧ .remove n ∉ cs) ∨
          (n, a) ∈ outstanding ((c.run r).2.history cs) := by
      rw [ih]
      constructor
      · rintro ⟨before, later, e, number, kept⟩
        rcases before with _ | ⟨d, before⟩
        · cases e
          exact .inl ⟨rfl, number, kept⟩
        · cases e
          exact .inr ⟨before, later, rfl, number, kept⟩
      · rintro (⟨rfl, number, kept⟩ | ⟨before, later, rfl, number, kept⟩)
        · exact ⟨[], cs, rfl, number, kept⟩
        · exact ⟨c :: before, later, rfl, number, kept⟩
    rw [split, history, mem_outstanding_cons, removed_history]
    refine or_congr_left ?_
    cases c with
    | insert b =>
      simp only [placed?, Call.run, Option.some.injEq, Prod.mk.injEq, Call.insert.injEq]
      constructor
      · rintro ⟨⟨rfl, rfl⟩, kept⟩
        exact ⟨rfl, rfl, kept⟩
      · rintro ⟨rfl, rfl, kept⟩
        exact ⟨⟨rfl, rfl⟩, kept⟩
    | get m => simp [placed?]
    | remove m => simp [placed?]

/-! ### One more call -/

variable (t : History α) (e : Call α × Answer α)

theorem issued_concat : issued (t ++ [e]) = issued t ++ ((placed? e).map Prod.fst).toList := by
  rw [issued_append]
  congr 1
  unfold issued placed
  rcases h : placed? e with _ | x
  · simp [h]
  · simp [h]

theorem vacated_concat : vacated (t ++ [e]) = vacated t ++ (vacated? e).toList := by
  rw [vacated_append]
  rfl

theorem outstanding_concat : outstanding (t ++ [e]) =
    ((outstanding t).filter fun x => !e.1.removes x.1) ++ (placed? e).toList := by
  rw [outstanding_append]
  have last : outstanding [e] = (placed? e).toList := by
    unfold outstanding
    rcases placed? e with _ | x
    · rfl
    · rfl
  rw [last]
  simp only [removed, List.any_cons, List.any_nil, Bool.or_false]

/-- A call that removes nothing of what is there leaves it there. -/
theorem outstanding_concat_of_kept {t} {e : Call α × Answer α}
    (kept : ∀ x ∈ outstanding t, e.1.removes x.1 = false) :
    outstanding (t ++ [e]) = outstanding t ++ (placed? e).toList := by
  rw [outstanding_concat, List.filter_eq_self.mpr]
  intro x hx
  rw [kept x hx]
  rfl

end Registry
end FrameFlow
