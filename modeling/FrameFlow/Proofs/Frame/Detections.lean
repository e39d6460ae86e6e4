/-
# The detection that an identifier addresses

Several detections of a frame may have one identifier, and then it stands for the
first of them. A frame in which an identifier stands for something splits there:
in front are detections with other identifiers, and behind there may be any. To
change or to take out what the identifier stands for leaves both parts as they
are.

Key definition: `Frame.Rewritten`.
Key theorems: `Frame.split_of_find?`, `Frame.rewritten_modify`,
`Frame.remove_split`, `Frame.remove_of_absent`.
-/
import FrameFlow.Frame

namespace FrameFlow
namespace Frame

/-- The first detection with an identifier is changed in a frame, and nothing else. -/
def Rewritten (f : Frame) (id : Int64) (change : Detection → Detection) (g : Frame) : Prop :=
  ∃ before d later, f.detections = before ++ d :: later ∧ d.id = id ∧ (∀ e ∈ before, e.id ≠ id) ∧
    g = { f with detections := before ++ change d :: later }

theorem modifyFirst_append {id : Int64} {d : Detection} (here : d.id = id)
    (change : Detection → Detection) (later : List Detection) {before : List Detection}
    (others : ∀ e ∈ before, e.id ≠ id) :
    modifyFirst id change (before ++ d :: later) = before ++ change d :: later := by
  induction before with
  | nil =>
    show (if d.id == id then change d :: later else _) = _
    rw [if_pos (beq_iff_eq.mpr here)]
    rfl
  | cons e before ih =>
    have ne : e.id ≠ id := others e List.mem_cons_self
    have rest := ih fun e he => others e (List.mem_cons_of_mem _ he)
    show (if e.id == id then _ else e :: modifyFirst id change (before ++ d :: later)) = _
    rw [if_neg (by simpa using ne), rest]
    rfl

variable {f : Frame} {id : Int64} {d : Detection}

/-- What is found is the first with its identifier. -/
theorem split_of_find? (found : f.find? id = some d) : ∃ before later,
    f.detections = before ++ d :: later ∧ d.id = id ∧ ∀ e ∈ before, e.id ≠ id := by
  obtain ⟨here, before, later, split, others⟩ := List.find?_eq_some_iff_append.mp found
  have same : d.id = id := by simpa using here
  exact ⟨before, later, split, same, fun e he => by simpa using others e he⟩

/-- An identifier that stands for nothing is that of no detection. -/
theorem find?_eq_none_iff : f.find? id = none ↔ ∀ e ∈ f.detections, e.id ≠ id := by
  simp [find?]

theorem has_eq_false_iff : f.has id = false ↔ f.find? id = none := by
  simp [has]

section Split

variable {before later : List Detection} (split : f.detections = before ++ d :: later)
  (here : d.id = id) (others : ∀ e ∈ before, e.id ≠ id)
include split here others

theorem find?_split : f.find? id = some d := by
  refine List.find?_eq_some_iff_append.mpr ⟨by simpa using here, before, later, split, ?_⟩
  simpa using others

theorem modify_split (change : Detection → Detection) :
    f.modify id change = { f with detections := before ++ change d :: later } := by
  rw [modify, split, modifyFirst_append here change later others]

/-- To take out a detection leaves the others, in their order. -/
theorem remove_split : f.remove id = { f with detections := before ++ later } := by
  have kept : (before ++ d :: later).eraseP (fun e => e.id == id) = before ++ later := by
    have first : ∀ e ∈ before, ¬ (e.id == id) = true := by simpa using others
    rw [List.eraseP_append_right _ first, List.eraseP_cons_of_pos (by simp [here])]
  rw [remove, split, kept]

end Split

/-- Where there is nothing to take out, nothing is taken out. -/
theorem remove_of_absent (none : f.find? id = none) : f.remove id = f := by
  have same : f.detections.eraseP (fun e => e.id == id) = f.detections := by
    apply List.eraseP_of_forall_not
    simpa using find?_eq_none_iff.mp none
  rw [remove, same]

theorem has_of_find? (found : f.find? id = some d) : f.has id = true := by
  simp [has, found]

/-- A change to a detection that is there is a change to the first one with its identifier. -/
theorem rewritten_modify (has : f.has id) (change : Detection → Detection) :
    f.Rewritten id change (f.modify id change) := by
  obtain ⟨d, found⟩ := Option.isSome_iff_exists.mp has
  obtain ⟨before, later, split, here, others⟩ := split_of_find? found
  exact ⟨before, d, later, split, here, others, modify_split split here others change⟩

theorem rewritten_iff {g : Frame} {change : Detection → Detection} :
    f.Rewritten id change g ↔ f.has id ∧ g = f.modify id change := by
  constructor
  · intro rewritten
    obtain ⟨before, d, later, split, here, others, e⟩ := rewritten
    refine ⟨has_of_find? (find?_split split here others), ?_⟩
    rw [e, modify_split split here others]
  · intro there
    rw [there.2]
    exact rewritten_modify there.1 change

/-- A change counts by what it makes of the detection that is found. -/
theorem modify_congr (found : f.find? id = some d) {change change' : Detection → Detection}
    (same : change d = change' d) : f.modify id change = f.modify id change' := by
  obtain ⟨before, later, split, here, others⟩ := split_of_find? found
  rw [modify_split split here others, modify_split split here others, same]

theorem rewritten_congr (found : f.find? id = some d) {change change' : Detection → Detection}
    (same : change d = change' d) {g : Frame} :
    f.Rewritten id change g ↔ f.Rewritten id change' g := by
  rw [rewritten_iff, rewritten_iff, modify_congr found same]

/-- What is found may be written again. -/
theorem modify_self (found : f.find? id = some d) : f.modify id (fun _ => d) = f := by
  obtain ⟨before, later, split, here, others⟩ := split_of_find? found
  rw [modify_split split here others, ← split]

end Frame
end FrameFlow
