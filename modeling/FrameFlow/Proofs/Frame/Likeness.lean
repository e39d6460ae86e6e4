/-
# What frames are alike

Frames are alike when all their parts are, down to the numbers, which are compared as numbers.
So a frame is like itself unless there is a NaN in it.

Key definition: `Number.IsNumber`.
Key theorems: `alike_map`, `Frame.alike_iff`, `Frame.alike_self`.
-/
import FrameFlow.Proofs.Json.Frames

namespace FrameFlow

/-! ### Options and lists -/

section Parts

variable {α : Type} [Alike α]

theorem alike_option {o : Option α} (each : ∀ a ∈ o, alike a a = true) : alike o o = true := by
  rcases o with _ | a
  · rfl
  · exact each a rfl

/-- A list is like what is made of it just when all its items are. -/
theorem alike_map {g : α → α} {l : List α} :
    alike (l.map g) l = true ↔ ∀ a ∈ l, alike (g a) a = true := by
  induction l with
  | nil => exact ⟨fun _ => List.forall_mem_nil _, fun _ => rfl⟩
  | cons a l ih =>
    show (alike (g a) a && alike (l.map g) l) = true ↔ _
    rw [Bool.and_eq_true, ih, List.forall_mem_cons]

theorem alike_list {l : List α} (each : ∀ a ∈ l, alike a a = true) : alike l l = true := by
  have same := alike_map (g := id).mpr each
  rwa [List.map_id] at same

end Parts

/-! ### Frames part by part -/

theorem Box.alike_iff {a b : Box} : alike a b = true ↔ alike a.xc b.xc = true ∧
    alike a.yc b.yc = true ∧ alike a.width b.width = true ∧ alike a.height b.height = true ∧
    alike a.angle b.angle = true ∧ a.oriented = b.oriented := by
  show (alike a.xc b.xc && alike a.yc b.yc && alike a.width b.width && alike a.height b.height &&
    alike a.angle b.angle && a.oriented == b.oriented) = true ↔ _
  simp only [Bool.and_eq_true, beq_iff_eq, and_assoc]

theorem Track.alike_iff {a b : Track} :
    alike a b = true ↔ alike a.box b.box = true ∧ a.id = b.id := by
  show (alike a.box b.box && a.id == b.id) = true ↔ _
  simp only [Bool.and_eq_true, beq_iff_eq]

theorem Reading.alike_iff {a b : Reading} :
    alike a b = true ↔ alike a.confidence b.confidence = true ∧ alike a.datum b.datum = true := by
  show (alike a.confidence b.confidence && alike a.datum b.datum) = true ↔ _
  rw [Bool.and_eq_true]

theorem Attribute.alike_iff {a b : Attribute} : alike a b = true ↔ a.scope = b.scope ∧
    a.name = b.name ∧ alike a.values b.values = true ∧ a.hint = b.hint ∧
    a.persistent = b.persistent := by
  show (a.scope == b.scope && a.name == b.name && alike a.values b.values && a.hint == b.hint &&
    a.persistent == b.persistent) = true ↔ _
  simp only [Bool.and_eq_true, beq_iff_eq, and_assoc]

theorem Detection.alike_iff {a b : Detection} : alike a b = true ↔ a.id = b.id ∧
    a.scope = b.scope ∧ a.label = b.label ∧ a.drawLabel = b.drawLabel ∧
    alike a.confidence b.confidence = true ∧ alike a.box b.box = true ∧
    alike a.track b.track = true ∧ alike a.attributes b.attributes = true := by
  show (a.id == b.id && a.scope == b.scope && a.label == b.label && a.drawLabel == b.drawLabel &&
    alike a.confidence b.confidence && alike a.box b.box && alike a.track b.track &&
    alike a.attributes b.attributes) = true ↔ _
  simp only [Bool.and_eq_true, beq_iff_eq, and_assoc]

theorem Frame.alike_iff {a b : Frame} : alike a b = true ↔ a.source = b.source ∧ a.pts = b.pts ∧
    a.width = b.width ∧ a.height = b.height ∧ alike a.detections b.detections = true ∧
    alike a.attributes b.attributes = true := by
  show (a.source == b.source && a.pts == b.pts && a.width == b.width && a.height == b.height &&
    alike a.detections b.detections && alike a.attributes b.attributes) = true ↔ _
  simp only [Bool.and_eq_true, beq_iff_eq, and_assoc]

/-! ### Likeness to itself -/

/-- Not a NaN. -/
def Number.IsNumber : Number → Prop
  | single x => x.isNaN = false
  | double x => x.isNaN = false

theorem Binary.alike_self {f : Layout} {x : Binary f} (number : x.isNaN = false) :
    alike x x = true := by
  show x.sameValue x = true
  simp [sameValue, number]

theorem alike_confidence {c : Option Single} (h : ∀ x ∈ c.toList.map .single, Number.IsNumber x) :
    alike c c = true :=
  alike_option fun _ hx =>
    Binary.alike_self (h _ (List.mem_map_of_mem (Option.mem_toList.mpr hx)))

theorem Box.alike_self {b : Box} (h : ∀ x ∈ b.numbers, x.IsNumber) : alike b b = true := by
  have each (x : Single) (hx : .single x ∈ b.numbers) : alike x x = true :=
    Binary.alike_self (h (.single x) hx)
  exact alike_iff.mpr ⟨each _ (by simp [numbers]), each _ (by simp [numbers]),
    each _ (by simp [numbers]), each _ (by simp [numbers]), each _ (by simp [numbers]), rfl⟩

theorem Track.alike_self {t : Track} (h : ∀ x ∈ t.numbers, x.IsNumber) : alike t t = true :=
  alike_iff.mpr ⟨Box.alike_self h, rfl⟩

theorem Datum.alike_self {d : Datum} (h : ∀ x ∈ d.numbers, x.IsNumber) : alike d d = true := by
  cases d with
  | float x => exact Binary.alike_self (h _ List.mem_cons_self)
  | vector xs =>
    have all : ∀ x ∈ xs, alike x x = true := fun x hx =>
      Binary.alike_self (h _ (List.mem_map_of_mem hx))
    exact alike_list all
  | none => rfl
  | _ => exact beq_self_eq_true _

theorem Reading.alike_self {r : Reading} (h : ∀ x ∈ r.numbers, x.IsNumber) : alike r r = true := by
  obtain ⟨confidence, datum⟩ := List.forall_mem_append.mp h
  exact alike_iff.mpr ⟨alike_confidence confidence, Datum.alike_self datum⟩

theorem Attribute.alike_self {a : Attribute} (h : ∀ x ∈ a.numbers, x.IsNumber) :
    alike a a = true := by
  have each := List.forall_mem_flatMap.mp h
  exact alike_iff.mpr
    ⟨rfl, rfl, alike_list fun r hr => Reading.alike_self (each r hr), rfl, rfl⟩

theorem AttributeTable.alike_self {t : AttributeTable} (h : ∀ x ∈ t.numbers, x.IsNumber) :
    alike t t = true := by
  have each := List.forall_mem_flatMap.mp h
  exact alike_list fun a ha => Attribute.alike_self (each a ha)

theorem Detection.alike_self {d : Detection} (h : ∀ x ∈ d.numbers, x.IsNumber) :
    alike d d = true := by
  simp only [numbers, List.forall_mem_append] at h
  obtain ⟨⟨⟨confidence, box⟩, track⟩, table⟩ := h
  have followed : alike d.track d.track = true := alike_option fun t ht =>
    Track.alike_self (List.forall_mem_flatMap.mp track t (Option.mem_toList.mpr ht))
  exact alike_iff.mpr ⟨rfl, rfl, rfl, rfl, alike_confidence confidence, Box.alike_self box,
    followed, AttributeTable.alike_self table⟩

/-- A frame without a NaN is like itself. -/
theorem Frame.alike_self {f : Frame} (h : ∀ x ∈ f.numbers, x.IsNumber) : alike f f = true := by
  obtain ⟨detections, table⟩ := List.forall_mem_append.mp h
  have each := List.forall_mem_flatMap.mp detections
  exact alike_iff.mpr ⟨rfl, rfl, rfl, rfl, alike_list fun d hd => Detection.alike_self (each d hd),
    AttributeTable.alike_self table⟩

end FrameFlow
