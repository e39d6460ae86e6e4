/-
# A frame survives its JSON form

The format of a frame is built from the formats of its parts, each of which is faithful to
whatever its type can hold: to any text, any integer, any list, any optional field that is
there or not, any kind of datum, and any table, which is written in the order of its keys
and put together again in that order. Only numbers are left to be assumed. One that is not
finite is written as a missing value, and one that is finite is read back if its text, all
by itself, is (`Number.ReadsBack`): reading rounds more than once, so there are finite numbers
for which that fails.

Key definitions: `Number`, `Number.ReadsBack`, `Frame.numbers`.
Key theorem: `frame_ofJson_toJson`.
-/
import FrameFlow.Frame
import FrameFlow.Proofs.Json.Variants

namespace FrameFlow

open Json

/-! ### The numbers in a frame -/

/-- A floating point number of either width. -/
inductive Number where
  | single (x : Single)
  | double (x : Double)

namespace Number

/-- Neither infinite nor a NaN. -/
def isFinite : Number → Bool
  | single x => x.isFinite
  | double x => x.isFinite

/-- Reading the text that is written for a number alone gives that number. -/
def ReadsBack : Number → Prop
  | single x => Format.single.parse (Format.single.render x) = .ok x
  | double x => Format.double.parse (Format.double.render x) = .ok x

instance : (x : Number) → Decidable x.ReadsBack
  | single x => decEq (Format.single.parse (Format.single.render x)) (.ok x)
  | double x => decEq (Format.double.parse (Format.double.render x)) (.ok x)

/-- Of two small numbers the least that there is is read back, the other is not. -/
example : (double ⟨false, 1, by decide⟩).ReadsBack ∧
    ¬ (double (.ofRatio false 1 (Nat.pow 10 45))).ReadsBack := by
  decide +kernel

/-- A finite number whose text is read back. -/
def Survives (x : Number) : Prop := x.isFinite ∧ x.ReadsBack

end Number

def Box.numbers (b : Box) : List Number :=
  [.single b.xc, .single b.yc, .single b.width, .single b.height, .single b.angle]

def Track.numbers (t : Track) : List Number := t.box.numbers

def Datum.numbers : Datum → List Number
  | float x => [.double x]
  | vector xs => xs.map .double
  | _ => []

def Reading.numbers (r : Reading) : List Number :=
  r.confidence.toList.map .single ++ r.datum.numbers

def Attribute.numbers (a : Attribute) : List Number := a.values.flatMap Reading.numbers

def AttributeTable.numbers (t : AttributeTable) : List Number := t.toList.flatMap Attribute.numbers

def Detection.numbers (d : Detection) : List Number :=
  d.confidence.toList.map .single ++ d.box.numbers ++ d.track.toList.flatMap Track.numbers ++
    d.attributes.numbers

/-- All floating point numbers of a frame, those of its detections and attributes included. -/
def Frame.numbers (f : Frame) : List Number :=
  f.detections.flatMap Detection.numbers ++ f.attributes.numbers

namespace Number

theorem Survives.single {x : Single} (h : (Number.single x).Survives) {levels : Nat} :
    Format.single.Faithful levels x :=
  Format.faithful_single h.1 h.2

theorem Survives.double {x : Double} (h : (Number.double x).Survives) {levels : Nat} :
    Format.double.Faithful levels x :=
  Format.faithful_double h.1 h.2

end Number

/-! ### Parts of a frame -/

theorem Box.faithful {b : Box} (h : ∀ x ∈ b.numbers, x.Survives) : Box.format.Faithful 1 b := by
  have each (x : Single) (hx : .single x ∈ b.numbers) : Format.single.Faithful 0 x :=
    (h _ hx).single
  refine Format.faithful_wrapped ?_ rfl
  exact .cons (by decide) (each _ (by simp [Box.numbers])) <|
    .cons (by decide) (each _ (by simp [Box.numbers])) <|
    .cons (by decide) (each _ (by simp [Box.numbers])) <|
    .cons (by decide) (each _ (by simp [Box.numbers])) <|
    .cons (by decide) (each _ (by simp [Box.numbers])) <|
    .cons (by decide) (Format.faithful_bool _) <|
    Fields.faithful_nil

theorem Track.faithful {t : Track} (h : ∀ x ∈ t.numbers, x.Survives) :
    Track.format.Faithful 2 t := by
  refine Format.faithful_wrapped ?_ rfl
  exact .cons (by decide) (Box.faithful h) <|
    .cons (by decide) (Format.faithful_int64 _) <|
    Fields.faithful_nil

theorem Track.faithful_option {o : Option Track} (h : ∀ t ∈ o, ∀ x ∈ t.numbers, x.Survives) :
    (Format.option Track.format).Faithful 2 o :=
  Format.faithful_option fun t ht => ⟨Track.faithful (h t ht), nofun⟩

/-- A datum with a payload is faithful where its payload is. -/
theorem Datum.faithful_payload {d : Datum} {name : String} {p : List Char} {c : Case Datum}
    {i : Nat} (h : c.Faithful 1 p d) (written : d.written = (name, some p))
    (place : (cases.map Case.name).idxOf? name = some i) (there : cases[i]? = some c) :
    Datum.format.Faithful 2 d :=
  Format.faithful_adjacent (by decide) written place there h

theorem Datum.faithful {d : Datum} (h : ∀ x ∈ d.numbers, x.Survives) :
    Datum.format.Faithful 2 d := by
  cases d with
  | none =>
    have written : Datum.none.written = ("none", Option.none) := rfl
    have place : (cases.map Case.name).idxOf? "none" = some 0 := by decide
    exact Format.faithful_adjacent_bare written place rfl rfl
  | boolean b =>
    exact faithful_payload (i := 1) (Case.faithful_payload (Format.faithful_bool b))
      rfl (by decide) rfl
  | integer i =>
    exact faithful_payload (i := 2) (Case.faithful_payload (Format.faithful_int64 i))
      rfl (by decide) rfl
  | float x =>
    have survives : (Number.double x).Survives := h _ (by simp [numbers])
    exact faithful_payload (i := 3) (Case.faithful_payload survives.double) rfl (by decide) rfl
  | vector xs =>
    have each : ∀ x ∈ xs, Format.double.Faithful 0 x := fun x hx =>
      (h (.double x) (by simpa [numbers] using hx)).double
    exact faithful_payload (i := 4) (Case.faithful_payload (Format.faithful_list each))
      rfl (by decide) rfl
  | text s =>
    exact faithful_payload (i := 5) (Case.faithful_payload (Format.faithful_text s))
      rfl (by decide) rfl

theorem Number.Survives.option {o : Option Single} (h : ∀ x ∈ o, (Number.single x).Survives)
    {levels : Nat} : (Format.option .single).Faithful levels o := by
  refine Format.faithful_option fun x hx => ⟨(h x hx).single, ?_⟩
  have written : Format.single.write x = x.finiteText singleStyle := if_pos (h x hx).1
  rw [written]
  intro begins
  have numeric := List.all_eq_true.mp (isNumeric_finiteText singleStyle x) 'n'
    (List.mem_of_mem_head? begins)
  cases numeric

theorem Reading.faithful {r : Reading} (h : ∀ x ∈ r.numbers, x.Survives) :
    Reading.format.Faithful 3 r := by
  refine Format.faithful_wrapped ?_ rfl
  have confidence : ∀ x ∈ r.confidence, (Number.single x).Survives := fun x hx =>
    h _ (by simp [numbers, Option.mem_def.mp hx])
  have datum : ∀ x ∈ r.datum.numbers, x.Survives := fun x hx => h x (by simp [numbers, hx])
  exact .cons (by decide) (Number.Survives.option confidence) <|
    .cons (by decide) (Datum.faithful datum) <|
    Fields.faithful_nil

theorem Attribute.faithful {a : Attribute} (h : ∀ x ∈ a.numbers, x.Survives) :
    Attribute.format.Faithful 5 a := by
  have each : ∀ r ∈ a.values, Reading.format.Faithful 3 r := fun r hr =>
    Reading.faithful fun x hx => h x (List.mem_flatMap_of_mem hr hx)
  refine Format.faithful_wrapped ?_ rfl
  exact .cons (by decide) (Format.faithful_text _) <|
    .cons (by decide) (Format.faithful_text _) <|
    .cons (by decide) (Format.faithful_list each) <|
    .cons (by decide) (Format.faithful_optionText _) <|
    .cons (by decide) (Format.faithful_bool _) <|
    Fields.faithful_nil

theorem AttributeTable.faithful {t : AttributeTable} (h : ∀ x ∈ t.numbers, x.Survives) :
    AttributeTable.format.Faithful 6 t := by
  have each : ∀ a ∈ t.toList, Attribute.format.Faithful 5 a := fun a ha =>
    Attribute.faithful fun x hx => h x (List.mem_flatMap_of_mem ha hx)
  exact .map (Format.faithful_list each) (SortedBy.ofList_toList t)

theorem Detection.faithful {d : Detection} (h : ∀ x ∈ d.numbers, x.Survives) :
    Detection.format.Faithful 7 d := by
  refine Format.faithful_wrapped ?_ rfl
  have confidence : ∀ x ∈ d.confidence, (Number.single x).Survives := fun x hx =>
    h _ (by simp [numbers, Option.mem_def.mp hx])
  have box : ∀ x ∈ d.box.numbers, x.Survives := fun x hx => h x (by simp [numbers, hx])
  have table : ∀ x ∈ d.attributes.numbers, x.Survives := fun x hx => h x (by simp [numbers, hx])
  have track : (Format.option Track.format).Faithful 2 d.track :=
    Track.faithful_option fun t ht x hx => h x (by simp [numbers, Option.mem_def.mp ht, hx])
  exact .cons (by decide) (Format.faithful_int64 _) <|
    .cons (by decide) (Format.faithful_text _) <|
    .cons (by decide) (Format.faithful_text _) <|
    .cons (by decide) (Format.faithful_optionText _) <|
    .cons (by decide) (Number.Survives.option confidence) <|
    .cons (by decide) ((Box.faithful box).mono (by decide)) <|
    .cons (by decide) (track.mono (by decide)) <|
    .cons (by decide) (AttributeTable.faithful table) <|
    Fields.faithful_nil

theorem Frame.faithful {f : Frame} (h : ∀ x ∈ f.numbers, x.Survives) :
    Frame.format.Faithful 9 f := by
  refine Format.faithful_wrapped ?_ rfl
  have each : ∀ d ∈ f.detections, Detection.format.Faithful 7 d := fun d hd =>
    Detection.faithful fun x hx => h x (List.mem_append_left _ (List.mem_flatMap_of_mem hd hx))
  have table : ∀ x ∈ f.attributes.numbers, x.Survives := fun x hx =>
    h x (List.mem_append_right _ hx)
  exact .cons (by decide) (Format.faithful_text _) <|
    .cons (by decide) (Format.faithful_int64 _) <|
    .cons (by decide) (Format.faithful_int64 _) <|
    .cons (by decide) (Format.faithful_int64 _) <|
    .cons (by decide) (Format.faithful_list each) <|
    .cons (by decide) ((AttributeTable.faithful table).mono (by decide)) <|
    Fields.faithful_nil

/-- **A frame survives its JSON form.** Every frame is read back as it was, detections and values
in their order, if its numbers are finite and the text of each of them, alone, is read back. -/
theorem frame_ofJson_toJson (f : Frame) (finite : ∀ x ∈ f.numbers, x.isFinite)
    (legible : ∀ x ∈ f.numbers, x.isFinite → x.ReadsBack) : Frame.ofJson f.toJson = .ok f :=
  (Frame.faithful fun x hx => ⟨finite x hx, legible x hx (finite x hx)⟩).parse_render (by decide)

/-- Two detections under one identifier, one of them followed, with data of every kind. -/
def Frame.crowded : Frame :=
  let third : Single := .ofRatio false 1 3
  let box : Box := .rotated third (.ofInt 3) (.ofInt 640) (.ofInt 480) (.ofRatio true 45 2)
  let readings : List Reading :=
    [⟨none, .none⟩, ⟨some third, .boolean true⟩, ⟨none, .integer (-3)⟩,
      ⟨none, .float (.ofRatio true 1 3)⟩, ⟨some .zero, .vector [.ofInt 2, .ofInt (Int.pow 10 22)]⟩,
      ⟨none, .text "\"é\n"⟩]
  let entry : Attribute := ⟨"model", "found", readings, some "", false⟩
  let first : Detection :=
    ⟨7, "model", "ship", some "Ship", some third, box, some ⟨box, 1⟩, .ofList [entry]⟩
  ⟨"camera", 40, 1280, 720, [first, .plain 7 "model" "ship" box], .ofList [entry]⟩

theorem frame_ofJson_toJson_crowded :
    ((∀ x ∈ Frame.crowded.numbers, x.isFinite) ∧
      ∀ x ∈ Frame.crowded.numbers, x.isFinite → x.ReadsBack) ∧
    Frame.ofJson Frame.crowded.toJson = .ok Frame.crowded :=
  have finite : ∀ x ∈ Frame.crowded.numbers, x.isFinite := by decide +kernel
  have legible : ∀ x ∈ Frame.crowded.numbers, x.isFinite → x.ReadsBack := by decide +kernel
  ⟨⟨finite, legible⟩, frame_ofJson_toJson Frame.crowded finite legible⟩

end FrameFlow
