/-
# Detections with different identifiers

No command makes two detections of one: where the identifiers of a frame are
different, they are different after every command, and so after every update,
whether it is carried out or stops. What is carried from command to command is
`Frame.Distinct`. The one command that gives an identifier of its own choice takes
the greatest and adds one, which no detection has, and is refused when there is no
such number (`Frame.nextId?_cases`).

Key definitions: `Frame.ids`, `Frame.Distinct`, `Frame.AdmitsApart`.
Key theorems: `Frame.nextId?_cases`, `Command.distinct_apply`,
`Update.distinct_run`, `Frame.kept_apart`.
-/
import FrameFlow.Proofs.Frame.Locality
import Mathlib.Data.List.Nodup

namespace FrameFlow
namespace Frame

/-- The identifiers of the detections, in their order. -/
def ids (f : Frame) : List Int64 := f.detections.map Detection.id

/-- No two detections have one identifier. -/
def Distinct (f : Frame) : Prop := f.ids.Nodup

instance (f : Frame) : Decidable f.Distinct := inferInstanceAs (Decidable f.ids.Nodup)

variable {f g : Frame} {id : Int64} {d : Detection}

/-! ### Identifiers -/

theorem mem_ids_iff : id ∈ f.ids ↔ f.has id := by
  simp [ids, has, find?]

theorem not_mem_ids_iff : id ∉ f.ids ↔ f.find? id = none := by
  rw [mem_ids_iff, ← has_eq_false_iff]
  simp

/-- A change that keeps the identifier of a detection keeps all identifiers. -/
theorem Rewritten.ids_eq {change : Detection → Detection} (rewritten : f.Rewritten id change g)
    (keeps : ∀ d, d.id = id → (change d).id = id) : g.ids = f.ids := by
  obtain ⟨before, d, later, split, here, -, rfl⟩ := rewritten
  simp [ids, split, here, keeps d here]

theorem Removed.distinct (h : f.Distinct) (removed : f.Removed id g) : g.Distinct := by
  obtain ⟨before, d, later, split, -, -, rfl⟩ := removed
  have fewer : (before ++ later).Sublist (before ++ d :: later) :=
    (List.sublist_cons_self d later).append_left before
  have all : f.ids = (before ++ d :: later).map Detection.id := by rw [ids, split]
  rw [Distinct, all] at h
  exact h.sublist (fewer.map Detection.id)

theorem Distinct.append (h : f.Distinct) (new : d.id ∉ f.ids) :
    Distinct { f with detections := f.detections ++ [d] } := by
  have all : ids { f with detections := f.detections ++ [d] } = f.ids ++ [d.id] := by simp [ids]
  rw [Distinct, all]
  refine List.nodup_append.mpr ⟨h, List.nodup_singleton _, fun a ha b hb e => ?_⟩
  rw [List.mem_singleton.mp hb] at e
  exact new (e ▸ ha)

/-! ### New identifiers -/

/-- The greatest of some integers is one of them, and no other is above it. -/
theorem greatest_spec (first : Int) (rest : List Int) : greatest first rest ∈ first :: rest ∧
    ∀ i ∈ first :: rest, i ≤ greatest first rest := by
  induction rest generalizing first with
  | nil => simp [greatest]
  | cons i rest ih =>
    by_cases up : first < i
    · have step : greatest first (i :: rest) = greatest i rest := by
        rw [greatest, List.foldl_cons, if_pos up, greatest]
      obtain ⟨among, above⟩ := ih i
      have here : i ≤ greatest i rest := above i List.mem_cons_self
      rw [step]
      refine ⟨List.mem_cons_of_mem _ among, fun j hj => ?_⟩
      rcases List.mem_cons.mp hj with rfl | hj
      · omega
      · exact above j hj
    · have step : greatest first (i :: rest) = greatest first rest := by
        rw [greatest, List.foldl_cons, if_neg up, greatest]
      obtain ⟨among, above⟩ := ih first
      have here : first ≤ greatest first rest := above first List.mem_cons_self
      rw [step]
      simp only [List.mem_cons] at among above ⊢
      refine ⟨by tauto, fun j hj => ?_⟩
      rcases hj with rfl | rfl | hj
      · exact here
      · omega
      · exact above j (.inr hj)

/-- The next identifier is the one after the greatest, unless that is the last one there is. -/
theorem nextId?_cases (f : Frame) : f.detections = [] ∧ f.nextId? = some 0 ∨
    ∃ top ∈ f.ids, (∀ i ∈ f.ids, i ≤ top) ∧
      (top = Int64.maxValue ∧ f.nextId? = none ∨
        top ≠ Int64.maxValue ∧ ∃ n, f.nextId? = some n ∧ n.toInt = top.toInt + 1) := by
  rcases all : f.detections with _ | ⟨d, ds⟩
  · exact .inl ⟨rfl, by simp [nextId?, all]⟩
  right
  have spec := greatest_spec d.id.toInt (ds.map fun d => d.id.toInt)
  generalize found : greatest d.id.toInt (ds.map fun d => d.id.toInt) = m at spec
  obtain ⟨among, above⟩ := spec
  have next : f.nextId? = if m < 0x7FFFFFFFFFFFFFFF then some (Int64.ofInt (m + 1)) else none := by
    simp only [nextId?, all, List.map_cons, found]
  have values : f.ids.map Int64.toInt = d.id.toInt :: ds.map fun d => d.id.toInt := by
    simp [ids, all]
  rw [← values] at among above
  obtain ⟨top, listed, rfl⟩ := List.mem_map.mp among
  refine ⟨top, listed, fun i hi => ?_, ?_⟩
  · exact Int64.le_iff_toInt_le.mpr (above i.toInt (List.mem_map_of_mem hi))
  · rw [next]
    by_cases last : top = Int64.maxValue
    · have full : ¬ top.toInt < 0x7FFFFFFFFFFFFFFF := by
        rw [last, Int64.toInt_maxValue]
        omega
      exact .inl ⟨last, if_neg full⟩
    · have low := Int64.le_toInt top
      have high := Int64.toInt_lt top
      have room : top.toInt < 0x7FFFFFFFFFFFFFFF := by
        by_contra full
        have same : top.toInt = Int64.maxValue.toInt := by
          rw [Int64.toInt_maxValue]
          omega
        exact last (Int64.toInt_inj.mp same)
      exact .inr ⟨last, _, if_pos room, Int64.toInt_ofInt_of_le (by omega) (by omega)⟩

/-- The next identifier is above all others. -/
theorem nextId?_new {n : Int64} (next : f.nextId? = some n) : n ∉ f.ids := by
  intro among
  rcases f.nextId?_cases with ⟨none, -⟩ | ⟨top, -, above, ⟨-, full⟩ | ⟨-, n', next', value⟩⟩
  · simp [ids, none] at among
  · rw [full] at next
    cases next
  · cases next.symm.trans next'
    have le := Int64.le_iff_toInt_le.mp (above n among)
    omega

/-- There is no next identifier just when the last one is taken. -/
theorem nextId?_eq_none_iff : f.nextId? = none ↔ Int64.maxValue ∈ f.ids := by
  rcases f.nextId?_cases with ⟨none, next⟩ | ⟨top, among, above, ⟨rfl, next⟩ | ⟨ne, n, next, -⟩⟩
  · simp [ids, none, next]
  · simp [among, next]
  · have out : Int64.maxValue ∉ f.ids := by
      intro among'
      have le := Int64.le_iff_toInt_le.mp (above _ among')
      have same : top.toInt = Int64.maxValue.toInt := Int.le_antisymm (Int64.toInt_le top) le
      exact ne (Int64.toInt_inj.mp same)
    simp [out, next]

end Frame

/-! ### Runs -/

/-- No command makes two detections of one identifier. -/
theorem Command.distinct_apply {x : Int} {c : Command} {f g : Frame} (h : f.Distinct)
    (accepted : c.apply x f = .ok g) : g.Distinct := by
  have changes : c.Changes f g := apply_ok_iff.mp accepted
  have same : g.ids = f.ids → g.Distinct := fun e => by
    rw [Frame.Distinct, e]
    exact h
  cases c with
  | setConfidence id confidence => exact same (changes.ids_eq fun _ here => here)
  | setBox id box => exact same (changes.ids_eq fun _ here => here)
  | setTrack id track => exact same (changes.ids_eq fun _ here => here)
  | setLabel id label => exact same (changes.ids_eq fun _ here => here)
  | setDrawLabel id label => exact same (changes.ids_eq fun _ here => here)
  | addDetection d policy =>
    cases changes with
    | free free => exact h.append (Frame.not_mem_ids_iff.mpr free)
    | renumbered taken next => exact h.append (Frame.nextId?_new next)
    | replaced rewritten => exact same (rewritten.ids_eq fun _ _ => rfl)
  | removeDetection id => exact Frame.Removed.distinct h changes
  | setAttribute id a policy =>
    obtain ⟨_, _, -, -, rewritten⟩ := changes
    exact same (rewritten.ids_eq fun _ here => here)
  | removeAttribute id scope name =>
    obtain ⟨_, _, -, -, rewritten⟩ := changes
    exact same (rewritten.ids_eq fun _ here => here)
  | setFrameAttribute a policy =>
    obtain ⟨t, -, rfl⟩ := changes
    exact h
  | removeFrameAttribute scope name =>
    obtain ⟨t, -, rfl⟩ := changes
    exact h

/-- What a run leaves has different identifiers, wherever it stops. -/
theorem Update.distinct_run {x : Int} {f : Frame} (h : f.Distinct) (u : Update) :
    (u.run x f).1.Distinct :=
  runList_keeps (fun _ _ _ _ => Command.distinct_apply) h

/-! ### Adding a detection -/

/-- What comes of adding a detection to a frame whose identifiers are different. -/
structure Frame.AdmitsApart (x : Int) (f : Frame) (d : Detection) : Prop where
  /-- It is put behind the others when its identifier is free. -/
  free : ∀ policy, d.id ∉ f.ids → (Command.addDetection d policy).apply x f =
    .ok { f with detections := f.detections ++ [d] }
  /-- When it is taken, it may get the one after the greatest. -/
  renumbered : d.id ∈ f.ids → Int64.maxValue ∉ f.ids → ∃ top n, top ∈ f.ids ∧
    (∀ i ∈ f.ids, i ≤ top) ∧ n.toInt = top.toInt + 1 ∧ n ∉ f.ids ∧
      (Command.addDetection d .renumber).apply x f =
        .ok { f with detections := f.detections ++ [{ d with id := n }] }
  /-- This is refused just when the greatest is the last there is. -/
  exhausted : ∀ {e}, (Command.addDetection d .renumber).apply x f = .error e ↔
    d.id ∈ f.ids ∧ Int64.maxValue ∈ f.ids ∧ e = .idsExhausted x
  /-- Or it takes the place of the detection that has its identifier. -/
  replaced : d.id ∈ f.ids → ∃ before old later, f.detections = before ++ old :: later ∧
    old.id = d.id ∧ (∀ e ∈ before ++ later, e.id ≠ d.id) ∧
      (Command.addDetection d .replace).apply x f =
        .ok { f with detections := before ++ d :: later }
  /-- This is never refused. -/
  replaces : ∃ g, (Command.addDetection d .replace).apply x f = .ok g
  /-- Or it is refused, just when its identifier is taken. -/
  refused : ∀ {e}, (Command.addDetection d .refuse).apply x f = .error e ↔
    d.id ∈ f.ids ∧ e = .detectionTaken x d.id

namespace Frame

variable {x : Int} {f : Frame} {d : Detection}

/-- Where identifiers are different, the one that an identifier stands for is the only one. -/
theorem Distinct.split (h : f.Distinct) (listed : d.id ∈ f.ids) : ∃ before old later,
    f.detections = before ++ old :: later ∧ old.id = d.id ∧ ∀ e ∈ before ++ later, e.id ≠ d.id := by
  obtain ⟨old, found⟩ := Option.isSome_iff_exists.mp (mem_ids_iff.mp listed)
  obtain ⟨before, later, split, here, others⟩ := split_of_find? found
  have all : f.ids = before.map Detection.id ++ old.id :: later.map Detection.id := by
    simp [ids, split]
  rw [Distinct, all] at h
  have behind : old.id ∉ later.map Detection.id :=
    (List.nodup_cons.mp (List.nodup_append.mp h).2.1).1
  refine ⟨before, old, later, split, here, fun e he => ?_⟩
  rcases List.mem_append.mp he with he | he
  · exact others e he
  · intro same
    exact behind (List.mem_map.mpr ⟨e, he, same.trans here.symm⟩)

theorem admitsApart (h : f.Distinct) (x : Int) (d : Detection) : f.AdmitsApart x d where
  free policy new := Command.apply_ok_iff.mpr (Admitted.free (not_mem_ids_iff.mp new))
  renumbered taken room := by
    have next : f.nextId? ≠ none := fun none => room (nextId?_eq_none_iff.mp none)
    rcases f.nextId?_cases with ⟨none, -⟩ | ⟨top, among, above, ⟨-, full⟩ | ⟨-, n, next', value⟩⟩
    · simp [ids, none] at taken
    · exact absurd full next
    · exact ⟨top, n, among, above, value, nextId?_new next',
        Command.apply_ok_iff.mpr (Admitted.renumbered (mem_ids_iff.mp taken) next')⟩
  exhausted := by
    intro e
    show f.admit x d .renumber = .error e ↔ _
    rw [admit_error_iff, ← mem_ids_iff, ← nextId?_eq_none_iff]
    simp
  replaced taken := by
    obtain ⟨before, old, later, split, here, others⟩ := h.split taken
    have rewritten : f.Rewritten d.id (fun _ => d) { f with detections := before ++ d :: later } :=
      ⟨before, old, later, split, here, fun e he => others e (List.mem_append_left later he), rfl⟩
    exact ⟨before, old, later, split, here, others,
      Command.apply_ok_iff.mpr (Admitted.replaced rewritten)⟩
  replaces := by
    show ∃ g, f.admit x d .replace = .ok g
    by_cases taken : f.has d.id
    · exact ⟨_, admit_ok_iff.mpr (.replaced (rewritten_modify taken fun _ => d))⟩
    · exact ⟨_, admit_ok_iff.mpr (.free (not_mem_ids_iff.mp (mt mem_ids_iff.mp taken)))⟩
  refused := by
    intro e
    show f.admit x d .refuse = .error e ↔ _
    rw [admit_error_iff, ← mem_ids_iff]
    simp

/-- **Updates keep identifiers different.** Where no two detections of a frame have one identifier,
this is so in what any update leaves, whether it is carried out or stops; and a detection that is
added becomes the last of them, under its own identifier or a new one, takes the place of the one
that had its identifier, or is refused. -/
theorem kept_apart (h : f.Distinct) : (∀ x (u : Update), (u.run x f).1.Distinct) ∧
    ∀ x d, f.AdmitsApart x d :=
  ⟨fun _ u => Update.distinct_run h u, admitsApart h⟩

/-- A frame with two detections. -/
def pair : Frame := { blank "camera" 0 with
  detections := [.plain 7 "model" "car" default, .plain (-3) "model" "bus" default] }

/-- A detection with an identifier that is taken gets the next one, and what an update leaves that
adds one and stops at the next command has different identifiers too. -/
theorem kept_apart_pair : pair.Distinct ∧
    (Update.run 1 pair ⟨[.addDetection (.plain 7 "model" "van" default) .renumber,
      .removeDetection 9]⟩).1.Distinct ∧
    ∃ top n, top ∈ pair.ids ∧ (∀ i ∈ pair.ids, i ≤ top) ∧ n.toInt = top.toInt + 1 ∧ n ∉ pair.ids ∧
      (Command.addDetection (.plain 7 "model" "van" default) .renumber).apply 1 pair =
        .ok { pair with detections := pair.detections ++ [.plain n "model" "van" default] } := by
  have distinct : pair.Distinct := by decide
  exact ⟨distinct, (kept_apart distinct).1 1 _,
    ((kept_apart distinct).2 1 (.plain 7 "model" "van" default)).renumbered (by decide) (by decide)⟩

end Frame
end FrameFlow
