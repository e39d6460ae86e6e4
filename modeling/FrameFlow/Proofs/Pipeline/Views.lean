/-
# What a pipeline looks like, and how the steps of movement change it

A pipeline is looked at through its stages (`Pipeline.Holds`), the places of
identifiers, and the tables of frames and batches. Each step of movement, and
each sequence of such steps, is described by what it does to these views; the
names and payloads of the stages (`Pipeline.shape`) are never changed.

Key definitions: `Pipeline.Holds`, `Pipeline.shape`, `Pipeline.payloadAt?`.
Key theorems: `Pipeline.ext_views`, a pipeline is known by its views;
`Pipeline.holds_settle`, `Pipeline.holds_leave`,
`Pipeline.holds_relocate`, `Pipeline.places_relocate`, and the like for
`settleAll`, `enclose` and `forget`.
-/
import FrameFlow.Pipeline.Movement
import FrameFlow.Proofs.Sorted

namespace FrameFlow
namespace Pipeline

/-- An identifier is resident in the stage at an index. -/
def Holds (p : Pipeline) (i : Nat) (id : Int) : Prop :=
  ∃ s, p.stages[i]? = some s ∧ id ∈ s.residents.toList

/-- The names and payloads of the stages, in graph order. -/
def shape (p : Pipeline) : List (String × Payload) := p.stages.map fun s => (s.name, s.payload)

/-- What the stage at an index holds. -/
def payloadAt? (p : Pipeline) (i : Nat) : Option Payload := (p.stages[i]?).map Stage.payload

theorem payloadAt?_eq (p : Pipeline) (i : Nat) : p.payloadAt? i = (p.shape[i]?).map Prod.snd := by
  simp [payloadAt?, shape, Function.comp_def]

theorem payloadAt?_congr {p q : Pipeline} (h : q.shape = p.shape) (i : Nat) :
    q.payloadAt? i = p.payloadAt? i := by
  rw [payloadAt?_eq, payloadAt?_eq, h]

theorem stageNames_eq (p : Pipeline) : p.stageNames = p.shape.map Prod.fst := by
  simp [stageNames, shape]

theorem lt_of_payloadAt? {p : Pipeline} {i : Nat} {k : Payload} (h : p.payloadAt? i = some k) :
    i < p.stages.length := by
  obtain ⟨s, hs, -⟩ := Option.map_eq_some_iff.mp h
  exact (List.getElem?_eq_some_iff.mp hs).1

/-! ### A step -/

/-- Residents after a change of one stage. -/
theorem mem_modify {l : List Stage} {i j : Nat} {x : Int} {f : Stage → Stage} :
    (∃ s, (l.modify i f)[j]? = some s ∧ x ∈ s.residents.toList) ↔
      ∃ s, l[j]? = some s ∧ x ∈ (if i = j then f s else s).residents.toList := by
  rw [List.getElem?_modify]
  rcases l[j]? with _ | s <;> simp

theorem holds_settle {p : Pipeline} {id x : Int} {i j : Nat} (hi : i < p.stages.length) :
    (p.settle id i).Holds j x ↔ p.Holds j x ∨ j = i ∧ x = id := by
  unfold Holds settle
  simp only
  rw [mem_modify]
  by_cases e : i = j
  · subst e
    simp [Stage.add, Ids.mem_insert, hi, or_comm]
  · simp [e, Ne.symm e]

theorem holds_leave {p : Pipeline} {id x : Int} {i j : Nat} :
    (p.leave id i).Holds j x ↔ p.Holds j x ∧ ¬(j = i ∧ x = id) := by
  unfold Holds leave
  simp only
  rw [mem_modify]
  by_cases e : i = j
  · subst e
    simp only [if_true, Stage.drop, Ids.mem_erase, true_and]
    constructor
    · rintro ⟨s, hs, hne, hx⟩
      exact ⟨⟨s, hs, hx⟩, hne⟩
    · rintro ⟨⟨s, hs, hx⟩, hne⟩
      exact ⟨s, hs, hne, hx⟩
  · simp [e, Ne.symm e]

theorem map_modify {α : Type} (g : Stage → α) (f : Stage → Stage) (h : ∀ s, g (f s) = g s)
    (l : List Stage) (i : Nat) : (l.modify i f).map g = l.map g := by
  refine List.ext_getElem? fun j => ?_
  rw [List.getElem?_map, List.getElem?_map, List.getElem?_modify]
  rcases l[j]? with _ | s
  · rfl
  · by_cases e : i = j <;> simp [e, h]

theorem length_congr {p q : Pipeline} (h : q.shape = p.shape) :
    q.stages.length = p.stages.length := by
  simpa [shape] using congrArg List.length h

/-- Stages are known by their names, payloads and residents. -/
theorem stages_eq {p q : Pipeline} (shape : q.shape = p.shape)
    (holds : ∀ i x, q.Holds i x ↔ p.Holds i x) : q.stages = p.stages := by
  refine List.ext_getElem? fun i => ?_
  have kinds : (q.stages[i]?).map (fun s => (s.name, s.payload)) =
      (p.stages[i]?).map fun s => (s.name, s.payload) := by
    rw [← List.getElem?_map, ← List.getElem?_map]
    exact congrArg (fun l : List (String × Payload) => l[i]?) shape
  have within := fun x => holds i x
  unfold Holds at within
  rcases hq : q.stages[i]? with _ | s
  · rcases hp : p.stages[i]? with _ | t
    · rfl
    · rw [hq, hp] at kinds
      cases kinds
  · rcases hp : p.stages[i]? with _ | t
    · rw [hq, hp] at kinds
      cases kinds
    · rw [hq, hp] at kinds
      simp only [Option.map_some, Option.some.injEq, Prod.mk.injEq] at kinds
      have residents : s.residents = t.residents :=
        Ids.ext_mem fun x => by simpa [hq, hp] using within x
      obtain ⟨name, payload⟩ := kinds
      cases s; cases t; cases name; cases payload; cases residents; rfl

/-- A pipeline is known by its views. -/
theorem ext_views {p q : Pipeline} (settings : q.name = p.name ∧ q.missingIds = p.missingIds)
    (shape : q.shape = p.shape) (holds : ∀ i x, q.Holds i x ↔ p.Holds i x)
    (frames : ∀ x, q.frames.get? x = p.frames.get? x)
    (batches : ∀ x, q.batches.get? x = p.batches.get? x)
    (places : ∀ x, q.places.get? x = p.places.get? x) (lastId : q.lastId = p.lastId)
    (queue : q.queue = p.queue) : q = p := by
  have stages := stages_eq shape holds
  have frames := Table.ext_get? frames
  have batches := Table.ext_get? batches
  have places := Table.ext_get? places
  obtain ⟨name, missingIds⟩ := settings
  cases p
  cases q
  simp only [Pipeline.mk.injEq]
  exact ⟨name, missingIds, stages, frames, batches, places, lastId, queue⟩

/-- Two pipelines that differ in residents and places only. -/
structure Reseated (p q : Pipeline) : Prop where
  name : q.name = p.name
  missingIds : q.missingIds = p.missingIds
  shape : q.shape = p.shape
  frames : q.frames = p.frames
  batches : q.batches = p.batches
  lastId : q.lastId = p.lastId
  queue : q.queue = p.queue

theorem Reseated.refl (p : Pipeline) : Reseated p p := ⟨rfl, rfl, rfl, rfl, rfl, rfl, rfl⟩

theorem Reseated.trans {p q r : Pipeline} (h : Reseated p q) (k : Reseated q r) : Reseated p r where
  name := k.name.trans h.name
  missingIds := k.missingIds.trans h.missingIds
  shape := k.shape.trans h.shape
  frames := k.frames.trans h.frames
  batches := k.batches.trans h.batches
  lastId := k.lastId.trans h.lastId
  queue := k.queue.trans h.queue

theorem reseated_settle (p : Pipeline) (id : Int) (i : Nat) : Reseated p (p.settle id i) :=
  { Reseated.refl p with shape := map_modify _ (·.add id) (fun _ => rfl) p.stages i }

theorem reseated_leave (p : Pipeline) (id : Int) (i : Nat) : Reseated p (p.leave id i) :=
  { Reseated.refl p with shape := map_modify _ (·.drop id) (fun _ => rfl) p.stages i }

/-! ### Steps one after another -/

theorem foldl_reseated {β : Type} {f : Pipeline → β → Pipeline} (h : ∀ p b, Reseated p (f p b)) :
    ∀ (l : List β) (p : Pipeline), Reseated p (l.foldl f p)
  | [], p => .refl p
  | b :: l, p => (h p b).trans (foldl_reseated h l (f p b))

theorem reseated_settleAll (p : Pipeline) (ids : List Int) (i : Nat) :
    Reseated p (p.settleAll ids i) :=
  foldl_reseated (fun p id => reseated_settle p id i) ids p

theorem reseated_relocate (p : Pipeline) (dest : Nat) (plan : List (Int × Nat)) :
    Reseated p (p.relocate dest plan) :=
  foldl_reseated
    (fun p ⟨id, source⟩ => (reseated_leave p id source).trans (reseated_settle _ id dest)) plan p

theorem reseated_enclose (p : Pipeline) (b : Int) (plan : List (Int × Nat)) :
    Reseated p (p.enclose b plan) :=
  foldl_reseated (fun p ⟨id, source⟩ => { reseated_leave p id source with }) plan p

theorem places_settleAll (i : Nat) (x : Int) : ∀ (ids : List Int) (p : Pipeline),
    (p.settleAll ids i).places.get? x =
      if x ∈ ids then some (.stage i) else p.places.get? x
  | [], _ => by simp [settleAll]
  | id :: ids, p => by
    have ih := places_settleAll i x ids (p.settle id i)
    simp only [settleAll, List.foldl_cons] at ih ⊢
    rw [ih]
    simp only [settle]
    rw [Table.get?_set]
    by_cases e : id = x
    · simp [e]
    · simp [e, Ne.symm e]

theorem holds_settleAll {i j : Nat} {x : Int} : ∀ (ids : List Int) (p : Pipeline),
    i < p.stages.length →
    ((p.settleAll ids i).Holds j x ↔ p.Holds j x ∨ j = i ∧ x ∈ ids)
  | [], _, _ => by simp [settleAll]
  | id :: ids, p, hi => by
    have ih := holds_settleAll (j := j) (x := x) ids (p.settle id i)
      (by rw [length_congr (reseated_settle p id i).shape]; exact hi)
    simp only [settleAll, List.foldl_cons] at ih ⊢
    rw [ih, holds_settle hi, List.mem_cons]
    tauto

theorem places_relocate (dest : Nat) (x : Int) : ∀ (plan : List (Int × Nat)) (p : Pipeline),
    (p.relocate dest plan).places.get? x =
      if x ∈ plan.map Prod.fst then some (.stage dest) else p.places.get? x
  | [], _ => by simp [relocate]
  | (id, source) :: plan, p => by
    have ih := places_relocate dest x plan ((p.leave id source).settle id dest)
    simp only [relocate, List.foldl_cons] at ih ⊢
    rw [ih, List.map_cons]
    simp only [settle, leave, List.mem_cons]
    rw [Table.get?_set]
    by_cases e : id = x
    · simp [e]
    · simp only [e, Ne.symm e, if_false, false_or]

/-- Different identifiers that leave the only stage they are in are then in the destination
only. -/
theorem holds_relocate {dest j : Nat} {x : Int} : ∀ (plan : List (Int × Nat)) (p : Pipeline),
    dest < p.stages.length → (plan.map Prod.fst).Nodup →
    (∀ e ∈ plan, ∀ j, p.Holds j e.1 → j = e.2) →
    ((p.relocate dest plan).Holds j x ↔
      if x ∈ plan.map Prod.fst then j = dest else p.Holds j x)
  | [], _, _, _, _ => by simp [relocate]
  | (id, source) :: plan, p, hd, nodup, only => by
    obtain ⟨fresh, nodup⟩ := List.nodup_cons.mp nodup
    have left : dest < (p.leave id source).stages.length := by
      rw [length_congr (reseated_leave p id source).shape]; exact hd
    have step : ∀ j y, ((p.leave id source).settle id dest).Holds j y ↔
        if y = id then j = dest else p.Holds j y := fun j y => by
      rw [holds_settle left, holds_leave]
      split
      · next e =>
        subst e
        have := only _ List.mem_cons_self j
        tauto
      · next e => tauto
    have ih := holds_relocate (j := j) (x := x) plan ((p.leave id source).settle id dest)
      (by rw [length_congr (reseated_settle _ id dest).shape]; exact left) nodup
      (fun e he j hj => by
        have hne : e.1 ≠ id := fun h => fresh (List.mem_map.mpr ⟨e, he, h⟩)
        rw [step, if_neg hne] at hj
        exact only e (List.mem_cons_of_mem _ he) j hj)
    simp only [relocate, List.foldl_cons] at ih ⊢
    rw [ih, step, List.map_cons]
    by_cases e : x = id
    · subst e
      rw [if_neg fresh]
      simp
    · simp only [e, List.mem_cons, if_false, false_or]

theorem places_enclose (b x : Int) : ∀ (plan : List (Int × Nat)) (p : Pipeline),
    (p.enclose b plan).places.get? x =
      if x ∈ plan.map Prod.fst then some (.batch b) else p.places.get? x
  | [], _ => by simp [enclose]
  | (id, source) :: plan, p => by
    have ih :=
      places_enclose b x plan { p.leave id source with places := p.places.set id (.batch b) }
    simp only [enclose, List.foldl_cons] at ih ⊢
    rw [ih, List.map_cons]
    simp only [List.mem_cons]
    rw [Table.get?_set]
    by_cases e : id = x
    · simp [e]
    · simp only [e, Ne.symm e, if_false, false_or]

/-- Identifiers that leave the only stage they are in are in none. -/
theorem holds_enclose {b x : Int} {j : Nat} : ∀ (plan : List (Int × Nat)) (p : Pipeline),
    (∀ e ∈ plan, ∀ j, p.Holds j e.1 → j = e.2) →
    ((p.enclose b plan).Holds j x ↔ p.Holds j x ∧ x ∉ plan.map Prod.fst)
  | [], _, _ => by simp [enclose]
  | (id, source) :: plan, p, only => by
    have step : ∀ j y,
        Holds { p.leave id source with places := p.places.set id (.batch b) } j y ↔
          p.Holds j y ∧ y ≠ id := fun j y => by
      refine holds_leave.trans ⟨fun ⟨h, away⟩ => ⟨h, fun e => away ⟨?_, e⟩⟩, fun ⟨h, ne⟩ => ⟨h, ?_⟩⟩
      · exact only _ List.mem_cons_self j (e ▸ h)
      · exact fun e => ne e.2
    have ih := holds_enclose (b := b) (j := j) (x := x) plan
      { p.leave id source with places := p.places.set id (.batch b) }
      (fun e he j hj => only e (List.mem_cons_of_mem _ he) j ((step j _).mp hj).1)
    simp only [enclose, List.foldl_cons] at ih ⊢
    rw [ih, step, List.map_cons, List.mem_cons]
    tauto

/-! ### Forgetting -/

theorem get?_forget (x : Int) : ∀ (ids : List Int) (p : Pipeline),
    (p.forget ids).places.get? x = (if x ∈ ids then none else p.places.get? x) ∧
      (p.forget ids).frames.get? x = if x ∈ ids then none else p.frames.get? x
  | [], _ => by simp [forget]
  | id :: ids, p => by
    have ih := get?_forget x ids
      { p with frames := p.frames.erase id, places := p.places.erase id }
    simp only [forget, List.foldl_cons] at ih ⊢
    rw [ih.1, ih.2, Table.get?_erase, Table.get?_erase]
    by_cases e : id = x
    · simp [e]
    · simp only [e, Ne.symm e, List.mem_cons, if_false, false_or, and_self]

/-- Only frames and places are forgotten. -/
theorem forget_eq : ∀ (ids : List Int) (p : Pipeline),
    p.forget ids = { p with frames := (p.forget ids).frames, places := (p.forget ids).places }
  | [], _ => rfl
  | id :: ids, p =>
    forget_eq ids { p with frames := p.frames.erase id, places := p.places.erase id }

section DropBatch

variable (p : Pipeline) (id : Int) (i : Nat) (b : Batch)

theorem dropBatch_eq : p.dropBatch id i b =
    { p.depart id i with
      batches := p.batches.erase id
      frames := (p.dropBatch id i b).frames
      places := (p.dropBatch id i b).places } :=
  forget_eq b.members _

theorem places_dropBatch (x : Int) : (p.dropBatch id i b).places.get? x =
    if x ∈ b.members then none else if id = x then none else p.places.get? x := by
  refine (get?_forget x b.members _).1.trans ?_
  rw [show (p.depart id i).places = p.places.erase id from rfl, Table.get?_erase]

theorem frames_dropBatch (x : Int) : (p.dropBatch id i b).frames.get? x =
    if x ∈ b.members then none else p.frames.get? x :=
  (get?_forget x b.members _).2

theorem batches_dropBatch (x : Int) : (p.dropBatch id i b).batches.get? x =
    if id = x then none else p.batches.get? x := by
  rw [dropBatch_eq]
  exact Table.get?_erase _ _ x

theorem holds_dropBatch {j : Nat} {x : Int} : (p.dropBatch id i b).Holds j x ↔
    p.Holds j x ∧ ¬(j = i ∧ x = id) := by
  rw [dropBatch_eq]
  exact holds_leave

end DropBatch

/-! ### Packing and unpacking -/

section Bundle

variable (p : Pipeline) (plan : List (Int × Nat)) (dest : Nat)

theorem settings_bundle (ids : List Int) : (p.bundle ids plan dest).name = p.name ∧
    (p.bundle ids plan dest).missingIds = p.missingIds :=
  have rest := reseated_enclose { p with lastId := p.lastId + 1 } (p.lastId + 1) plan
  ⟨rest.name, rest.missingIds⟩

theorem shape_bundle (ids : List Int) : (p.bundle ids plan dest).shape = p.shape :=
  (reseated_settle _ _ dest).shape.trans (reseated_enclose _ _ plan).shape

theorem frames_bundle (ids : List Int) : (p.bundle ids plan dest).frames = p.frames :=
  (reseated_enclose { p with lastId := p.lastId + 1 } _ plan).frames

theorem lastId_bundle (ids : List Int) : (p.bundle ids plan dest).lastId = p.lastId + 1 :=
  (reseated_enclose { p with lastId := p.lastId + 1 } _ plan).lastId

theorem batches_bundle (ids : List Int) (x : Int) : (p.bundle ids plan dest).batches.get? x =
    if p.lastId + 1 = x then some ⟨p.lastId + 1, ids⟩ else p.batches.get? x := by
  have same := (reseated_enclose { p with lastId := p.lastId + 1 } (p.lastId + 1) plan).batches
  refine (Table.get?_set _ _ _ x).trans ?_
  rw [same]

theorem places_bundle (ids : List Int) (x : Int) : (p.bundle ids plan dest).places.get? x =
    if p.lastId + 1 = x then some (.stage dest)
    else if x ∈ plan.map Prod.fst then some (.batch (p.lastId + 1)) else p.places.get? x := by
  refine (Table.get?_set _ _ _ x).trans ?_
  rw [places_enclose]

end Bundle

theorem holds_bundle {p : Pipeline} {plan : List (Int × Nat)} {dest j : Nat} {x : Int}
    (ids : List Int) (hd : dest < p.stages.length)
    (only : ∀ e ∈ plan, ∀ j, p.Holds j e.1 → j = e.2) :
    (p.bundle ids plan dest).Holds j x ↔
      p.Holds j x ∧ x ∉ plan.map Prod.fst ∨ j = dest ∧ x = p.lastId + 1 := by
  have rest := reseated_enclose { p with lastId := p.lastId + 1 } (p.lastId + 1) plan
  refine (holds_settle ?_).trans (or_congr_left (holds_enclose plan _ only))
  exact (length_congr rest.shape).symm ▸ hd

section Dissolve

variable (p : Pipeline) (source dest : Nat) (b : Batch)

theorem settings_dissolve : (p.dissolve source dest b).name = p.name ∧
    (p.dissolve source dest b).missingIds = p.missingIds :=
  have rest := reseated_settleAll
    { p.leave b.id source with
      batches := p.batches.erase b.id
      places := p.places.erase b.id
      queue := scatter (p.queue.take b.id).2 ((p.queue.take b.id).1.getD []) } b.members dest
  ⟨rest.name, rest.missingIds⟩

theorem shape_dissolve : (p.dissolve source dest b).shape = p.shape :=
  (reseated_settleAll _ b.members dest).shape.trans (reseated_leave p b.id source).shape

theorem frames_dissolve : (p.dissolve source dest b).frames = p.frames :=
  (reseated_settleAll _ b.members dest).frames

theorem lastId_dissolve : (p.dissolve source dest b).lastId = p.lastId :=
  (reseated_settleAll _ b.members dest).lastId

theorem batches_dissolve (x : Int) : (p.dissolve source dest b).batches.get? x =
    if b.id = x then none else p.batches.get? x := by
  have same : (p.dissolve source dest b).batches = p.batches.erase b.id :=
    (reseated_settleAll _ b.members dest).batches
  rw [same, Table.get?_erase]

theorem places_dissolve (x : Int) : (p.dissolve source dest b).places.get? x =
    if x ∈ b.members then some (.stage dest) else if b.id = x then none else p.places.get? x := by
  refine (places_settleAll dest x b.members _).trans ?_
  rw [Table.get?_erase]

end Dissolve

theorem holds_dissolve {p : Pipeline} {source dest j : Nat} {b : Batch} {x : Int}
    (hd : dest < p.stages.length) : (p.dissolve source dest b).Holds j x ↔
      p.Holds j x ∧ ¬(j = source ∧ x = b.id) ∨ j = dest ∧ x ∈ b.members := by
  refine (holds_settleAll b.members _ ?_).trans (or_congr_left holds_leave)
  exact (length_congr (reseated_leave p b.id source).shape).symm ▸ hd

end Pipeline
end FrameFlow
