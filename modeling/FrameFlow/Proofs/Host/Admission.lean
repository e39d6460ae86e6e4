/-
# What the door looks at

A frame that comes in as text is looked at for NULs in the texts of its detections, and for nothing
else (`Frame.admissible_eq_ok_iff`). It is there afterwards as it was read, with all detections
that were listed, whatever identifiers these have. An identifier stands for the first detection
that has it, for whoever looks and for whoever changes something (`Frame.Addressed`), so a
detection behind another one of its identifier cannot be addressed, and all of them can be just
when the identifiers are different (`Frame.distinct_iff_reached`).

Key definitions: `Frame.indexOf?`, `Frame.Addressed`, `Host.LetsIn`.
Key theorems: `Frame.reached_iff`, `Frame.distinct_iff_reached`, `Host.addFrame_eq_ok_iff`,
`Host.lets_in_as_listed`.
-/
import FrameFlow.Proofs.Frame.Distinct
import FrameFlow.Proofs.Host.Texts
import FrameFlow.Proofs.Pipeline.Packing

namespace FrameFlow

/-! ### Where an identifier leads -/

namespace Frame

/-- The place in the list of the detection that an identifier stands for. -/
def indexOf? (f : Frame) (id : Int64) : Option Nat := f.detections.findIdx? fun d => d.id == id

variable {f : Frame} {id : Int64} {d : Detection} {i : Nat}

/-- An identifier leads to the first place where it is. -/
theorem indexOf?_eq_some_iff : f.indexOf? id = some i ↔
    (∃ d, f.detections[i]? = some d ∧ d.id = id) ∧
      ∀ j < i, ∀ e, f.detections[j]? = some e → e.id ≠ id := by
  rw [indexOf?, List.findIdx?_eq_some_iff_getElem]
  constructor
  · rintro ⟨below, here, before⟩
    refine ⟨⟨_, List.getElem?_eq_getElem below, by simpa using here⟩, fun j hj e he => ?_⟩
    obtain ⟨_, rfl⟩ := List.getElem?_eq_some_iff.mp he
    simpa using before j hj
  · rintro ⟨⟨d, there, rfl⟩, before⟩
    obtain ⟨below, rfl⟩ := List.getElem?_eq_some_iff.mp there
    refine ⟨below, by simp, fun j hj => ?_⟩
    simpa using before j hj _ (List.getElem?_eq_getElem (by omega))

/-- A detection is reached just when none before it has its identifier. -/
theorem reached_iff (there : f.detections[i]? = some d) : f.indexOf? d.id = some i ↔
    ∀ j < i, ∀ e, f.detections[j]? = some e → e.id ≠ d.id :=
  indexOf?_eq_some_iff.trans (and_iff_right ⟨d, there, rfl⟩)

/-- All detections are reached just when no two have one identifier. -/
theorem distinct_iff_reached :
    f.Distinct ↔ ∀ i d, f.detections[i]? = some d → f.indexOf? d.id = some i := by
  constructor
  · intro distinct i d there
    rw [reached_iff there]
    intro j hj e he same
    have here : f.ids[i]? = some d.id := by rw [ids, List.getElem?_map, there, Option.map_some]
    have before : f.ids[j]? = some d.id := by
      rw [ids, List.getElem?_map, he, Option.map_some, same]
    have below : j < f.ids.length := (List.getElem?_eq_some_iff.mp before).1
    have : j = i := (List.getElem?_inj below distinct).mp (before.trans here.symm)
    omega
  · intro reached
    rw [Distinct, ids, List.nodup_iff_pairwise_ne, List.pairwise_map, List.pairwise_iff_getElem]
    intro j i hj hi before same
    have there : f.detections[i]? = some f.detections[i] := List.getElem?_eq_getElem hi
    exact (reached_iff there).mp (reached i _ there) j before _ (List.getElem?_eq_getElem hj) same

/-- Whoever names an identifier is led to one place, and whatever is done is done there. -/
structure Addressed (f : Frame) : Prop where
  find : ∀ id, f.find? id = (f.indexOf? id).bind fun i => f.detections[i]?
  modify : ∀ id change, (f.modify id change).detections =
    ((f.indexOf? id).map fun i => f.detections.modify i change).getD f.detections
  remove : ∀ id, (f.remove id).detections =
    ((f.indexOf? id).map fun i => f.detections.eraseIdx i).getD f.detections
  reached : ∀ i d, f.detections[i]? = some d →
    (f.indexOf? d.id = some i ↔ ∀ j < i, ∀ e, f.detections[j]? = some e → e.id ≠ d.id)
  all : f.Distinct ↔ ∀ i d, f.detections[i]? = some d → f.indexOf? d.id = some i

theorem modifyFirst_eq (id : Int64) (change : Detection → Detection) (l : List Detection) :
    modifyFirst id change l =
      ((l.findIdx? fun d => d.id == id).map fun i => l.modify i change).getD l := by
  induction l with
  | nil => rfl
  | cons d l ih =>
    rw [modifyFirst, List.findIdx?_cons]
    by_cases here : (d.id == id) = true
    · simp [here]
    · rw [if_neg here, if_neg here, ih]
      cases l.findIdx? (fun d => d.id == id) <;> rfl

theorem addressed (f : Frame) : f.Addressed where
  find _ := List.find?_eq_bind_findIdx?_getElem?
  modify id change := modifyFirst_eq id change f.detections
  remove id := by
    rw [remove, indexOf?, List.eraseP_eq_eraseIdx]
    cases f.detections.findIdx? (fun d => d.id == id) <;> rfl
  reached _ _ := reached_iff
  all := distinct_iff_reached

end Frame

/-! ### The door -/

theorem check_of_nulFree {id : Int64} {text : String} (free : NulFree text) :
    checkText id text = .ok () :=
  if_neg (by simpa [NulFree] using free)

theorem Detection.check_of_clean {d : Detection} (clean : d.Clean) : d.checkTexts = .ok () := by
  rw [checkTexts, check_of_nulFree clean.scope, check_of_nulFree clean.label]
  rcases shown : d.drawLabel with _ | label
  · rfl
  · exact check_of_nulFree (clean.drawLabel label shown)

theorem checkEach_of_all {α : Type} {check : α → Except Error Unit} {as : List α}
    (all : ∀ a ∈ as, check a = .ok ()) : checkEach check as = .ok () := by
  induction as with
  | nil => rfl
  | cons a as ih =>
    rw [checkEach, all a List.mem_cons_self]
    exact ih fun b hb => all b (List.mem_cons_of_mem _ hb)

/-- A frame is let through as it was read, and only for its texts it may not be. -/
theorem Frame.admissible_eq_ok_iff {text : String} {f : Frame} :
    Frame.admissible text = .ok f ↔ Frame.ofJson text = .ok f ∧ f.Clean := by
  constructor
  · intro accepted
    refine ⟨?_, clean_of_admissible accepted⟩
    unfold admissible at accepted
    split at accepted
    · cases accepted
    · next g read =>
      rcases passed : checkEach Detection.checkTexts g.detections with e | ⟨⟩
      · rw [passed] at accepted
        cases accepted
      · rw [passed] at accepted
        cases accepted
        exact read
  · rintro ⟨read, clean⟩
    have passed : checkEach Detection.checkTexts f.detections = .ok () :=
      checkEach_of_all fun d hd => Detection.check_of_clean (clean d hd)
    rw [admissible, read]
    simp only [passed]
    rfl

/-- A frame is put into a stage that holds frames, and gets the next identifier. -/
theorem Pipeline.addFrame_eq_ok_iff {p : Pipeline} {stage : String} {f : Frame} {id : Int} :
    (p.addFrame stage f).answer = .ok id ↔ p.payload? stage = some .frame ∧ id = p.lastId + 1 := by
  unfold addFrame
  rcases there : p.destinationFor stage .frame with e | i
  · refine iff_of_false (fun h => by cases h) fun h => ?_
    obtain ⟨i, found⟩ := destinationFor_of_payload? h.1
    rw [there] at found
    cases found
  · have holds := payload?_of_destinationFor there
    simp [holds, eq_comm]

/-- It is there afterwards. -/
theorem Pipeline.frame?_addFrame {p : Pipeline} {stage : String} {f : Frame} {id : Int}
    (answer : (p.addFrame stage f).answer = .ok id) :
    (p.addFrame stage f).next.frame? id = some f := by
  unfold addFrame at answer ⊢
  rcases there : p.destinationFor stage .frame with e | i
  · rw [there] at answer
    cases answer
  · rw [there] at answer
    cases answer
    exact Table.get?_set_self _ _ _

namespace Host

variable {h : Host} {k : Handle} {stage text : String} {id : Int}

/-- A text is put into a stage when it is a frame without NULs in its texts, and the stage of a
pipeline that is there holds frames. -/
theorem addFrame_eq_ok_iff : (h.addFrame k stage text).1 = .ok id ↔ ∃ f p,
    Frame.ofJson text = .ok f ∧ f.Clean ∧ h.pipelines.get? k = some p ∧
      p.payload? stage = some .frame ∧ id = p.lastId + 1 := by
  unfold addFrame whenRead
  rcases read : Frame.admissible text with e | f
  · refine iff_of_false (fun refused => by cases refused) ?_
    rintro ⟨f, p, parsed, clean, -⟩
    rw [Frame.admissible_eq_ok_iff.mpr ⟨parsed, clean⟩] at read
    cases read
  obtain ⟨parsed, clean⟩ := Frame.admissible_eq_ok_iff.mp read
  rcases live : h.pipelines.get? k with _ | p
  · simp [(run_unknown live _).1]
  · simp only [(run_known live _).1, Pipeline.addFrame_eq_ok_iff]
    constructor
    · rintro ⟨holds, next⟩
      exact ⟨f, p, parsed, clean, rfl, holds, next⟩
    · rintro ⟨f', p', -, -, same, holds, next⟩
      cases same
      exact ⟨holds, next⟩

/-- What was read is behind the handle afterwards, under the identifier that is answered. -/
theorem stored_addFrame (accepted : (h.addFrame k stage text).1 = .ok id) : ∃ f p,
    Frame.ofJson text = .ok f ∧ (h.addFrame k stage text).2.pipelines.get? k = some p ∧
      p.frame? id = some f := by
  obtain ⟨f, p, parsed, clean, live, holds, next⟩ := addFrame_eq_ok_iff.mp accepted
  have answer : (p.addFrame stage f).answer = .ok id :=
    Pipeline.addFrame_eq_ok_iff.mpr ⟨holds, next⟩
  refine ⟨f, _, parsed, ?_, Pipeline.frame?_addFrame answer⟩
  have through : h.addFrame k stage text = h.run k (·.addFrame stage f) := by
    rw [addFrame, Frame.admissible_eq_ok_iff.mpr ⟨parsed, clean⟩]
    rfl
  rw [through, (run_known live _).2, Registry.get?_replace live, if_pos rfl]

/-- A frame comes in as it was listed. -/
structure LetsIn (h : Host) (k : Handle) (stage text : String) : Prop where
  /-- What identifiers its detections have is not asked. -/
  accepted : ∀ id, (h.addFrame k stage text).1 = .ok id ↔ ∃ f p, Frame.ofJson text = .ok f ∧
    f.Clean ∧ h.pipelines.get? k = some p ∧ p.payload? stage = some .frame ∧ id = p.lastId + 1
  /-- It is stored as it was read, and an identifier leads to the first detection that has it. -/
  stored : ∀ id, (h.addFrame k stage text).1 = .ok id → ∃ f p, Frame.ofJson text = .ok f ∧
    (h.addFrame k stage text).2.pipelines.get? k = some p ∧ p.frame? id = some f ∧ f.Addressed ∧
      ∀ d, p.detection? id d = f.find? d

/-- **Frames come in as they are listed.** The door does not look at identifiers: several detections
may have one, and then it stands for the first of them, whatever is asked. All detections of what
is stored can be addressed just when their identifiers are different. -/
theorem lets_in_as_listed (h : Host) (k : Handle) (stage text : String) :
    h.LetsIn k stage text where
  accepted _ := addFrame_eq_ok_iff
  stored id accepted := by
    obtain ⟨f, p, parsed, live, there⟩ := stored_addFrame accepted
    refine ⟨f, p, parsed, live, there, f.addressed, fun d => ?_⟩
    rw [Pipeline.detection?, show p.frames.get? id = some f from there]
    rfl

/-- A car and a bus of one identifier have been found in a frame. -/
def twins : String :=
  "\x7b\"source_id\":\"camera\",\"objects\":[" ++
    "\x7b\"id\":1,\"namespace\":\"a\",\"label\":\"car\",\"detection_box\":[1,1,2,2]\x7d," ++
    "\x7b\"id\":1,\"namespace\":\"a\",\"label\":\"bus\",\"detection_box\":[1,1,2,2]\x7d]\x7d"

/-- A process with one pipeline. -/
def single : Host := ((fresh ⟨false, fun _ => none⟩).create Pipeline.sampleConfig).2

/-- Both come in, and the bus cannot be addressed: its identifier leads to the car. -/
theorem twins_let_in : (single.addFrame ⟨1, 0⟩ "in" twins).1 = .ok 1 ∧ ∃ f p,
    Frame.ofJson twins = .ok f ∧
      (single.addFrame ⟨1, 0⟩ "in" twins).2.pipelines.get? ⟨1, 0⟩ = some p ∧ p.frame? 1 = some f ∧
      ¬f.Distinct ∧ f.detections.map Detection.label = ["car", "bus"] ∧
      (p.detection? 1 1).map Detection.label = some "car" := by
  have read : (Frame.ofJson twins).map (fun f => (f.ids, f.detections.map Detection.label,
      f.detections.map Detection.checkTexts)) = .ok ([1, 1], ["car", "bus"], [.ok (), .ok ()]) := by
    decide +kernel
  rcases parsed : Frame.ofJson twins with e | f
  · rw [parsed] at read
    cases read
  rw [parsed] at read
  simp only [Except.map, Except.ok.injEq, Prod.mk.injEq] at read
  obtain ⟨ids, labels, checked⟩ := read
  have clean : f.Clean := by
    intro d hd
    have passed := List.mem_map_of_mem (f := Detection.checkTexts) hd
    rw [checked] at passed
    exact Detection.clean_of_check (by simpa using passed)
  have accepted : (single.addFrame ⟨1, 0⟩ "in" twins).1 = .ok 1 :=
    addFrame_eq_ok_iff.mpr
      ⟨f, Pipeline.ofConfig Pipeline.sampleConfig, parsed, clean, rfl, rfl, rfl⟩
  obtain ⟨g, p, same, live, there⟩ := stored_addFrame accepted
  cases parsed.symm.trans same
  refine ⟨accepted, f, p, rfl, live, there, ?_, labels, ?_⟩
  · rw [Frame.Distinct, ids]
    decide
  · rw [Pipeline.detection?, show p.frames.get? 1 = some f from there]
    -- the first of the two is found
    rcases f with ⟨_, _, _, _, _ | ⟨d, ds⟩, _⟩
    · cases labels
    · have here : d.id = 1 := (List.cons.inj ids).1
      have named : d.label = "car" := (List.cons.inj labels).1
      simp [Frame.find?, here, named]

end Host
end FrameFlow
