/-
# An update survives its JSON form

A command is written with its name as a tag among its fields, and which fields there are is
known only when the tag is: they are read whole, and the command takes them from values that
have no type yet. The formats of all parts of a frame are faithful on that way too, so each of
the eleven commands is read back, and so is a list of them. What is then staged and committed
is the update that was written.

Key definitions: `Command.numbers`, `Update.numbers`.
Key theorem: `update_ofJson_toJson`.
-/
import FrameFlow.Pipeline.Staging
import FrameFlow.Proofs.Json.Frames

namespace FrameFlow

open Json

/-! ### The numbers in an update -/

def Command.numbers : Command → List Number
  | setConfidence _ confidence => confidence.toList.map .single
  | setBox _ box => box.numbers
  | setTrack _ track => track.toList.flatMap Track.numbers
  | addDetection d _ => d.numbers
  | setAttribute _ a _ => a.numbers
  | setFrameAttribute a _ => a.numbers
  | setLabel .. | setDrawLabel .. | removeDetection _ => []
  | removeAttribute .. | removeFrameAttribute .. => []

/-- All floating point numbers of an update. -/
def Update.numbers (u : Update) : List Number := u.commands.flatMap Command.numbers

/-! ### Policies -/

theorem DetectionPolicy.faithful (p : DetectionPolicy) {levels : Nat} :
    DetectionPolicy.format.Faithful levels p := by
  cases p with
  | renumber => exact Format.faithful_choice (i := 0) (by decide) rfl
  | refuse => exact Format.faithful_choice (i := 1) (by decide) rfl
  | replace => exact Format.faithful_choice (i := 2) (by decide) rfl

theorem AttributePolicy.faithful (p : AttributePolicy) {levels : Nat} :
    AttributePolicy.format.Faithful levels p := by
  cases p with
  | replace => exact Format.faithful_choice (i := 0) (by decide) rfl
  | keep => exact Format.faithful_choice (i := 1) (by decide) rfl
  | refuse => exact Format.faithful_choice (i := 2) (by decide) rfl

/-! ### Commands -/

namespace Command

/-- A command is faithful where its fields are. -/
theorem faithful_fields {σ β : Type} {c : Command} {name label : String} {fields : Fields σ β}
    {make : β → Command} {b : β} {i : Nat} (h : fields.Faithful 7 b)
    (written : c.written = (name, fields.writeMembers b))
    (place : (variants.map Variant.name).idxOf? name = some i)
    (there : variants[i]? = some (.record name label fields make)) (made : make b = c)
    (apart : "op" ∉ fields.names) : Command.format.Faithful 8 c :=
  Format.faithful_tagged written place there made apart h

/-- The fields of a command on one part of a detection. -/
theorem faithful_fieldsOf {α : Type} {name : String} {missing : Missing α} {f : Format α}
    {levels : Nat} {a : α} (apart : "object_id" ≠ name) (id : Int64) (h : f.Faithful levels a) :
    (fieldsOf name missing f).Faithful levels (id, a, ()) :=
  .cons (by simpa [Fields.cons, Fields.nil] using apart) (Format.faithful_int64 id) <|
    .cons List.not_mem_nil h <|
    Fields.faithful_nil

theorem faithful_frameAttributeFields {a : Attribute} (policy : AttributePolicy)
    (h : ∀ x ∈ a.numbers, x.Survives) : frameAttributeFields.Faithful 7 (a, policy, ()) :=
  .cons (by decide) ((Attribute.faithful h).mono (by decide)) <|
    .cons (by decide) policy.faithful <|
    Fields.faithful_nil

theorem faithful_frameKeyFields (scope name : String) :
    frameKeyFields.Faithful 7 (scope, name, ()) :=
  .cons (by decide) (Format.faithful_text scope) <|
    .cons (by decide) (Format.faithful_text name) <|
    Fields.faithful_nil

theorem faithful {c : Command} (h : ∀ x ∈ c.numbers, x.Survives) : Command.format.Faithful 8 c := by
  cases c with
  | setConfidence id confidence =>
    have number : ∀ x ∈ confidence, (Number.single x).Survives := fun x hx =>
      h _ (by simp [numbers, Option.mem_def.mp hx])
    have fields : confidenceFields.Faithful 7 (id, confidence, ()) :=
      faithful_fieldsOf (by decide) id (Number.Survives.option number)
    exact faithful_fields (i := 0) fields rfl (by decide) rfl rfl (by decide)
  | setBox id box =>
    have fields : boxFields.Faithful 7 (id, box, ()) :=
      faithful_fieldsOf (by decide) id ((Box.faithful h).mono (by decide))
    exact faithful_fields (i := 1) fields rfl (by decide) rfl rfl (by decide)
  | setTrack id track =>
    have followed : (Format.option Track.format).Faithful 2 track :=
      Track.faithful_option fun t ht x hx => h x (by simp [numbers, Option.mem_def.mp ht, hx])
    have fields : trackFields.Faithful 7 (id, track, ()) :=
      faithful_fieldsOf (by decide) id (followed.mono (by decide))
    exact faithful_fields (i := 2) fields rfl (by decide) rfl rfl (by decide)
  | setLabel id label =>
    have fields : labelFields.Faithful 7 (id, label, ()) :=
      faithful_fieldsOf (by decide) id (Format.faithful_text label)
    exact faithful_fields (i := 3) fields rfl (by decide) rfl rfl (by decide)
  | setDrawLabel id label =>
    have fields : drawLabelFields.Faithful 7 (id, label, ()) :=
      faithful_fieldsOf (by decide) id (Format.faithful_optionText label)
    exact faithful_fields (i := 4) fields rfl (by decide) rfl rfl (by decide)
  | addDetection d policy =>
    have fields : detectionFields.Faithful 7 (d, policy, ()) :=
      .cons (by decide) (Detection.faithful h) <|
      .cons (by decide) policy.faithful <|
      Fields.faithful_nil
    exact faithful_fields (i := 5) fields rfl (by decide) rfl rfl (by decide)
  | removeDetection id =>
    have fields : idFields.Faithful 7 (id, ()) :=
      .cons (by decide) (Format.faithful_int64 id) <|
      Fields.faithful_nil
    exact faithful_fields (i := 6) fields rfl (by decide) rfl rfl (by decide)
  | setAttribute id a policy =>
    have fields : attributeFields.Faithful 7 (id, a, policy, ()) :=
      .cons (by decide) (Format.faithful_int64 id) <|
      faithful_frameAttributeFields policy h
    exact faithful_fields (i := 7) fields rfl (by decide) rfl rfl (by decide)
  | removeAttribute id scope name =>
    have fields : keyFields.Faithful 7 (id, scope, name, ()) :=
      .cons (by decide) (Format.faithful_int64 id) <|
      faithful_frameKeyFields scope name
    exact faithful_fields (i := 8) fields rfl (by decide) rfl rfl (by decide)
  | setFrameAttribute a policy =>
    exact faithful_fields (i := 9) (faithful_frameAttributeFields policy h)
      rfl (by decide) rfl rfl (by decide)
  | removeFrameAttribute scope name =>
    exact faithful_fields (i := 10) (faithful_frameKeyFields scope name)
      rfl (by decide) rfl rfl (by decide)

end Command

/-! ### Updates -/

theorem Update.faithful {u : Update} (h : ∀ x ∈ u.numbers, x.Survives) :
    Update.format.Faithful 10 u := by
  have each : ∀ c ∈ u.commands, Command.format.Faithful 8 c := fun c hc =>
    Command.faithful fun x hx => h x (List.mem_flatMap_of_mem hc hx)
  refine Format.faithful_wrapped ?_ rfl
  exact .cons (by decide) (Format.faithful_list each) <|
    Fields.faithful_nil

/-- **An update survives its JSON form.** Every update is read back as it was if its numbers are
finite and the text of each of them, alone, is read back. To run what was read on a frame, or to
stage it and to commit, comes then to the same as with the update itself. -/
theorem update_ofJson_toJson (u : Update) (finite : ∀ x ∈ u.numbers, x.isFinite)
    (legible : ∀ x ∈ u.numbers, x.isFinite → x.ReadsBack) :
    Update.ofJson u.toJson = .ok u ∧ ∀ v, Update.ofJson u.toJson = .ok v →
      (∀ id f, v.run id f = u.run id f) ∧
      ∀ (p : Pipeline) (id : Int),
        (p.enqueue id v).next.commit id = (p.enqueue id u).next.commit id ∧
        ∀ batch, (p.enqueueBatched batch id v).next.commit batch =
          (p.enqueueBatched batch id u).next.commit batch := by
  have read : Update.ofJson u.toJson = .ok u :=
    (Update.faithful fun x hx => ⟨finite x hx, legible x hx (finite x hx)⟩).parse_render (by decide)
  refine ⟨read, fun v again => ?_⟩
  have same : v = u := Except.ok.inj (again.symm.trans read)
  rw [same]
  exact ⟨fun _ _ => rfl, fun _ _ => ⟨rfl, fun _ => rfl⟩⟩

/-- Commands of all kinds, the optional fields there and not. -/
def Update.thorough : Update :=
  let third : Single := .ofRatio false 1 3
  let box : Box := .rotated third (.ofInt 3) (.ofInt 640) (.ofInt 480) (.ofRatio true 45 2)
  let entry : Attribute :=
    ⟨"model", "found", [⟨none, .none⟩, ⟨some third, .vector [.ofInt 2, .ofRatio true 1 3]⟩],
      none, true⟩
  ⟨[.setConfidence 1 (some third), .setConfidence 2 none, .setBox 1 box,
    .setTrack 1 (some ⟨box, 4⟩), .setTrack 2 none, .setLabel 1 "ship \"é\"",
    .setDrawLabel 1 (some "Ship"), .setDrawLabel 2 none,
    .addDetection ⟨7, "model", "ship", none, some third, box, none, .ofList [entry]⟩ .replace,
    .removeDetection (-7), .setAttribute 1 entry .keep, .removeAttribute 1 "model" "found",
    .setFrameAttribute entry .refuse, .removeFrameAttribute "model" ""]⟩

theorem update_ofJson_toJson_thorough :
    ((∀ x ∈ Update.thorough.numbers, x.isFinite) ∧
      ∀ x ∈ Update.thorough.numbers, x.isFinite → x.ReadsBack) ∧
    Update.ofJson Update.thorough.toJson = .ok Update.thorough :=
  have finite : ∀ x ∈ Update.thorough.numbers, x.isFinite := by decide +kernel
  have legible : ∀ x ∈ Update.thorough.numbers, x.isFinite → x.ReadsBack := by decide +kernel
  ⟨⟨finite, legible⟩, (update_ofJson_toJson Update.thorough finite legible).1⟩

end FrameFlow
