/-
# Writing again what was read

A 32-bit number that is too great for its format is read as infinite, and what is infinite is
written as a missing value. For a confidence a missing value means that there is none, so the
frame comes back without that confidence (`Frame.settled`); for a number of a box it means
nothing, and the text is refused. These are the only ways in which a frame that was read can be
changed or refused when it is written and read again: all its other numbers are finite
(`Frame.readable_of_ofJson`), and the settled frame has one written form with the frame itself.

Key definitions: `Frame.settled`, `Frame.boxNumbers`, `Frame.Bounded`, `Frame.Rewrites`.
Key theorems: `Frame.toJson_settled`, `Frame.tells`, `Frame.rewrites`.
-/
import FrameFlow.Host.Ingest
import FrameFlow.Proofs.Frame.Likeness
import FrameFlow.Proofs.Json.Image
import FrameFlow.Proofs.Json.Refusals

namespace FrameFlow

open Json

/-! ### What is left of a frame -/

/-- Without a confidence that is not finite. -/
def Reading.settled (r : Reading) : Reading :=
  { r with confidence := r.confidence.filter Binary.isFinite }

def Attribute.settled (a : Attribute) : Attribute :=
  { a with values := a.values.map Reading.settled }

/-- The keys stay as they are, and so does their order. -/
def AttributeTable.settled (t : AttributeTable) : AttributeTable :=
  ⟨t.toList.map Attribute.settled, List.pairwise_map.mpr t.sorted⟩

def Detection.settled (d : Detection) : Detection :=
  { d with
    confidence := d.confidence.filter Binary.isFinite
    attributes := d.attributes.settled }

/-- The frame without the confidences that are not finite. -/
def Frame.settled (f : Frame) : Frame :=
  { f with
    detections := f.detections.map Detection.settled
    attributes := f.attributes.settled }

def Detection.boxNumbers (d : Detection) : List Number :=
  d.box.numbers ++ d.track.toList.flatMap Track.numbers

/-- The numbers of all boxes, those of tracks included. -/
def Frame.boxNumbers (f : Frame) : List Number := f.detections.flatMap Detection.boxNumbers

/-! ### One written form -/

namespace Json

variable {α β σ : Type}

theorem Fields.write_cons {name : String} {missing : Missing β} {f : Format β}
    {fields : Fields σ α} {a a' : α} {b b' : β} (here : f.write b = f.write b')
    (others : fields.write a = fields.write a') :
    (cons name missing f fields).write (b, a) = (cons name missing f fields).write (b', a') :=
  congrArg₂ List.cons here others

theorem Format.write_wrapped {title : String} {fields : Fields σ α} {wrap : α → β}
    {unwrap : β → α} {b b' : β} (same : fields.write (unwrap b) = fields.write (unwrap b')) :
    ((record title fields).map wrap unwrap).write b =
      ((record title fields).map wrap unwrap).write b' :=
  congrArg (fun ps => writeObject (fields.names.zipWith Fields.writeMember ps)) same

theorem Format.write_list {f : Format α} {g : α → α} {l : List α}
    (same : ∀ a ∈ l, f.write (g a) = f.write a) : (list f).write (l.map g) = (list f).write l := by
  have pieces : (l.map g).map f.write = l.map f.write := by
    rw [List.map_map]
    exact List.map_congr_left same
  exact congrArg (fun ps => '[' :: (commaSeparated ps ++ [']'])) pieces

end Json

theorem filter_infinite {x : Single} (infinite : ¬x.isFinite) :
    Option.filter Binary.isFinite (some x) = none :=
  Option.filter_some_neg (Bool.eq_false_iff.mpr infinite)

theorem write_confidence (c : Option Single) :
    (Format.option .single).write (c.filter Binary.isFinite) = (Format.option .single).write c := by
  rcases c with _ | x
  · rfl
  by_cases finite : x.isFinite
  · rw [Option.filter_some_pos finite]
  · rw [filter_infinite finite]
    exact (if_neg finite).symm

theorem Reading.write_settled (r : Reading) : format.write r.settled = format.write r :=
  Format.write_wrapped <| Fields.write_cons (write_confidence r.confidence) rfl

theorem Attribute.write_settled (a : Attribute) : format.write a.settled = format.write a :=
  Format.write_wrapped <| Fields.write_cons rfl <| Fields.write_cons rfl <|
    Fields.write_cons (Format.write_list fun r _ => r.write_settled) rfl

theorem AttributeTable.write_settled (t : AttributeTable) :
    format.write t.settled = format.write t :=
  Format.write_list fun a _ => a.write_settled

theorem Detection.write_settled (d : Detection) : format.write d.settled = format.write d :=
  Format.write_wrapped <| Fields.write_cons rfl <| Fields.write_cons rfl <| Fields.write_cons rfl <|
    Fields.write_cons rfl <| Fields.write_cons (write_confidence d.confidence) <|
    Fields.write_cons rfl <| Fields.write_cons rfl <|
    Fields.write_cons d.attributes.write_settled rfl

/-- A frame is written as the frame without the confidences that are not finite. -/
theorem Frame.toJson_settled (f : Frame) : f.settled.toJson = f.toJson := by
  have same : format.write f.settled = format.write f :=
    Format.write_wrapped <| Fields.write_cons rfl <| Fields.write_cons rfl <|
      Fields.write_cons rfl <| Fields.write_cons rfl <|
      Fields.write_cons (Format.write_list fun d _ => d.write_settled) <|
      Fields.write_cons f.attributes.write_settled rfl
  exact congrArg String.ofList same

/-! ### What is settled survives -/

/-- The numbers of something can be read, and those that are finite are read back. -/
def Fit (numbers : List Number) : Prop :=
  ∀ x ∈ numbers, x.Readable ∧ (x.isFinite → x.ReadsBack)

theorem Fit.append_iff {xs ys : List Number} : Fit (xs ++ ys) ↔ Fit xs ∧ Fit ys :=
  List.forall_mem_append

theorem Fit.each {α : Type} {numbers : α → List Number} {l : List α}
    (h : Fit (l.flatMap numbers)) {a : α} (ha : a ∈ l) : Fit (numbers a) :=
  fun x hx => h x (List.mem_flatMap_of_mem ha hx)

theorem Fit.confidence {c : Option Single} (h : Fit (c.toList.map .single)) :
    ∀ x ∈ (c.filter Binary.isFinite).toList.map Number.single, x.Survives := by
  intro x hx
  obtain ⟨y, hy, rfl⟩ := List.mem_map.mp hx
  obtain ⟨there, finite⟩ := Option.filter_eq_some_iff.mp (Option.mem_toList.mp hy)
  have listed : Number.single y ∈ c.toList.map .single :=
    List.mem_map_of_mem (Option.mem_toList.mpr there)
  exact ⟨finite, (h _ listed).2 finite⟩

theorem Fit.datum {d : Datum} (h : Fit d.numbers) : ∀ x ∈ d.numbers, x.Survives := by
  intro x hx
  obtain ⟨readable, legible⟩ := h x hx
  have double : ∃ y, x = .double y := by
    cases d with
    | float y => exact ⟨y, List.mem_singleton.mp hx⟩
    | vector ys =>
      obtain ⟨y, -, rfl⟩ := List.mem_map.mp hx
      exact ⟨y, rfl⟩
    | _ => cases hx
  obtain ⟨y, rfl⟩ := double
  exact ⟨readable, legible readable⟩

theorem Reading.survives {r : Reading} (h : Fit r.numbers) :
    ∀ x ∈ r.settled.numbers, x.Survives := by
  obtain ⟨confidence, datum⟩ := Fit.append_iff.mp h
  exact List.forall_mem_append.mpr ⟨confidence.confidence, datum.datum⟩

theorem survives_map {α : Type} {numbers : α → List Number} {g : α → α} {l : List α}
    (each : ∀ a, Fit (numbers a) → ∀ x ∈ numbers (g a), x.Survives)
    (h : Fit (l.flatMap numbers)) :
    ∀ x ∈ (l.map g).flatMap numbers, x.Survives := by
  intro x hx
  obtain ⟨_, hb, hx⟩ := List.mem_flatMap.mp hx
  obtain ⟨a, ha, rfl⟩ := List.mem_map.mp hb
  exact each a (h.each ha) x hx

theorem Attribute.survives {a : Attribute} (h : Fit a.numbers) :
    ∀ x ∈ a.settled.numbers, x.Survives :=
  survives_map (fun _ => Reading.survives) h

theorem AttributeTable.survives {t : AttributeTable} (h : Fit t.numbers) :
    ∀ x ∈ t.settled.numbers, x.Survives :=
  survives_map (fun _ => Attribute.survives) h

/-! ### Boxes are told apart -/

theorem Box.tells {b : Box} (h : Fit b.numbers) :
    Box.format.Tells 1 (∀ x ∈ b.numbers, x.isFinite) b := by
  have each (x : Single) (hx : .single x ∈ b.numbers) : Format.single.Tells 0 x.isFinite x :=
    Format.tells_single fun finite => (h (.single x) hx).2 finite
  have record : Box.format.Tells 1 _ b := Format.tells_wrapped
    (.cons (by decide) (each b.xc (by simp [numbers])) <|
      .cons (by decide) (each b.yc (by simp [numbers])) <|
      .cons (by decide) (each b.width (by simp [numbers])) <|
      .cons (by decide) (each b.height (by simp [numbers])) <|
      .cons (by decide) (each b.angle (by simp [numbers])) <|
      .cons (by decide) (Format.faithful_bool _).tells Fields.tells_nil) rfl
  exact record.congr (by simp [numbers, Number.isFinite])

theorem Track.tells {t : Track} (h : Fit t.numbers) :
    Track.format.Tells 2 (∀ x ∈ t.numbers, x.isFinite) t := by
  have record : Track.format.Tells 2 _ t := Format.tells_wrapped
    (.cons (by decide) (Box.tells h) <|
      .cons (by decide) (Format.faithful_int64 _).tells Fields.tells_nil) rfl
  exact record.congr (by simp [numbers])

theorem Detection.tells {d : Detection} (h : Fit d.numbers) :
    Detection.format.Tells 7 (∀ x ∈ d.boxNumbers, x.isFinite) d.settled := by
  obtain ⟨⟨⟨confidence, box⟩, track⟩, table⟩ : ((Fit _ ∧ Fit _) ∧ Fit _) ∧ Fit _ := by
    simpa only [numbers, Fit.append_iff] using h
  have sure : (Format.option .single).Faithful 6 d.settled.confidence :=
    Number.Survives.option fun x hx =>
      confidence.confidence _ (List.mem_map_of_mem (Option.mem_toList.mpr hx))
  have apart (t : Track) : (Track.format.write t).head? ≠ some 'n' := by
    intro same
    cases same
  have followed : (Format.option Track.format).Tells 2 _ d.track := Format.Tells.option fun t ht =>
    ⟨Track.tells (track.each (Option.mem_toList.mpr ht)), apart t⟩
  have record : Detection.format.Tells 7 _ d.settled := Format.tells_wrapped
    (.cons (by decide) (Format.faithful_int64 _).tells <|
      .cons (by decide) (Format.faithful_text _).tells <|
      .cons (by decide) (Format.faithful_text _).tells <|
      .cons (by decide) (Format.faithful_optionText _).tells <|
      .cons (by decide) sure.tells <|
      .cons (by decide) ((Box.tells box).mono (by decide)) <|
      .cons (by decide) (followed.mono (by decide)) <|
      .cons (by decide) (AttributeTable.faithful (AttributeTable.survives table)).tells <|
      Fields.tells_nil) rfl
  refine record.congr ?_
  rw [boxNumbers, List.forall_mem_append, List.forall_mem_flatMap]
  simp

/-- What is written for a frame is read as the frame without the confidences that are not finite
if all numbers of boxes are finite, and refused if one is not. -/
theorem Frame.tells {f : Frame} (h : Fit f.numbers) :
    Frame.format.Tells 9 (∀ x ∈ f.boxNumbers, x.isFinite) f.settled := by
  obtain ⟨detections, table⟩ := Fit.append_iff.mp h
  -- settling a detection leaves its boxes as they are
  have each : ∀ d ∈ f.detections.map Detection.settled,
      Detection.format.Tells 7 (∀ x ∈ d.boxNumbers, x.isFinite) d :=
    List.forall_mem_map.mpr fun d hd => Detection.tells (detections.each hd)
  have listed : (Format.list Detection.format).Tells 8
      (∀ d ∈ f.detections, ∀ x ∈ d.boxNumbers, x.isFinite) (f.detections.map Detection.settled) :=
    (Format.Tells.list each).congr List.forall_mem_map
  have record : Frame.format.Tells 9 _ f.settled := Format.tells_wrapped
    (.cons (by decide) (Format.faithful_text _).tells <|
      .cons (by decide) (Format.faithful_int64 _).tells <|
      .cons (by decide) (Format.faithful_int64 _).tells <|
      .cons (by decide) (Format.faithful_int64 _).tells <|
      .cons (by decide) listed <|
      .cons (by decide) ((AttributeTable.faithful (AttributeTable.survives table)).mono
        (by decide)).tells <|
      Fields.tells_nil) rfl
  refine record.congr ?_
  rw [boxNumbers, List.forall_mem_flatMap]
  simp

/-! ### What is lost -/

/-- No 32-bit number is infinite or a NaN. -/
def Bounded (numbers : List Number) : Prop := ∀ x, Number.single x ∈ numbers → x.isFinite

theorem bounded_append {xs ys : List Number} : Bounded (xs ++ ys) ↔ Bounded xs ∧ Bounded ys := by
  simp [Bounded, or_imp, forall_and]

theorem bounded_flatMap {α : Type} {numbers : α → List Number} {l : List α}
    (each : ∀ a ∈ l, Bounded (numbers a)) : Bounded (l.flatMap numbers) := by
  intro x hx
  obtain ⟨a, ha, hx⟩ := List.mem_flatMap.mp hx
  exact each a ha x hx

theorem Datum.bounded (d : Datum) : Bounded d.numbers := by
  intro x hx
  cases d <;> simp [numbers] at hx

theorem bounded_confidence {c : Option Single} (h : alike (c.filter Binary.isFinite) c = true) :
    Bounded (c.toList.map .single) := by
  rcases c with _ | x
  · exact fun _ => nofun
  intro y hy
  cases List.mem_singleton.mp hy
  by_contra infinite
  rw [filter_infinite infinite] at h
  cases h

theorem Reading.bounded_of_alike {r : Reading} (h : alike r.settled r = true) : Bounded r.numbers :=
  bounded_append.mpr ⟨bounded_confidence (alike_iff.mp h).1, r.datum.bounded⟩

theorem Attribute.bounded_of_alike {a : Attribute} (h : alike a.settled a = true) :
    Bounded a.numbers := by
  obtain ⟨-, -, values, -, -⟩ := alike_iff.mp h
  exact bounded_flatMap fun r hr => Reading.bounded_of_alike (alike_map.mp values r hr)

theorem AttributeTable.bounded_of_alike {t : AttributeTable} (h : alike t.settled t = true) :
    Bounded t.numbers :=
  bounded_flatMap fun a ha => Attribute.bounded_of_alike (alike_map.mp h a ha)

theorem Detection.bounded_of_alike {d : Detection} (boxes : Bounded d.boxNumbers)
    (h : alike d.settled d = true) : Bounded d.numbers := by
  obtain ⟨-, -, -, -, confidence, -, -, table⟩ := alike_iff.mp h
  obtain ⟨box, track⟩ := bounded_append.mp boxes
  simp only [numbers, bounded_append]
  exact ⟨⟨⟨bounded_confidence confidence, box⟩, track⟩, AttributeTable.bounded_of_alike table⟩

/-- A frame is unlike what it is without the confidences that are not finite if it has any. -/
theorem Frame.bounded_of_alike {f : Frame} (boxes : ∀ x ∈ f.boxNumbers, x.isFinite)
    (h : alike f.settled f = true) : Bounded f.numbers := by
  obtain ⟨-, -, -, -, detections, table⟩ := alike_iff.mp h
  have each := List.forall_mem_flatMap.mp boxes
  refine bounded_append.mpr ⟨bounded_flatMap fun d hd => ?_, AttributeTable.bounded_of_alike table⟩
  exact Detection.bounded_of_alike (fun x hx => each d hd _ hx) (alike_map.mp detections d hd)

/-! ### Written and read again -/

theorem Number.Readable.isNumber {x : Number} (h : x.Readable) : x.IsNumber := by
  cases x with
  | single x => exact h
  | double x => exact Binary.isNaN_of_isFinite h

/-- A frame that was read is finite unless a 32-bit number is not. -/
theorem Bounded.finite {numbers : List Number} (h : Bounded numbers)
    (readable : ∀ x ∈ numbers, x.Readable) : ∀ x ∈ numbers, x.isFinite := by
  intro x hx
  cases x with
  | single x => exact h x hx
  | double x => exact readable _ hx

/-- What is written for a frame that was read is read as the frame without the confidences that are
not finite, or refused for a number of a box that is not. -/
theorem Frame.ofJson_toJson_settled {text : String} {f : Frame} (read : Frame.ofJson text = .ok f)
    (legible : ∀ x ∈ f.numbers, x.isFinite → x.ReadsBack) :
    ((∀ x ∈ f.boxNumbers, x.isFinite) → Frame.ofJson f.toJson = .ok f.settled) ∧
      ((¬∀ x ∈ f.boxNumbers, x.isFinite) → ∃ e, Frame.ofJson f.toJson = .error e) := by
  have fit : Fit f.numbers := fun x hx => ⟨readable_of_ofJson read x hx, legible x hx⟩
  rw [← f.toJson_settled]
  exact (tells fit).parse_render (by decide)

/-- What comes of a frame that was read when it is written and read again. -/
structure Frame.Rewrites (text : String) (f : Frame) : Prop where
  /-- None of its numbers is a NaN, and those of 64 bits are finite. -/
  readable : ∀ x ∈ f.numbers, x.Readable
  /-- It comes back as it was, and like itself, if its 32-bit numbers are finite. -/
  same : Bounded f.numbers → Frame.ofJson f.toJson = .ok f ∧ alike f f = true
  /-- Wherever its text could be put in, the text that is written for it can. -/
  door : Bounded f.numbers → ∀ (h : Host) (k : Handle) (stage : String),
    h.addFrame k stage f.toJson = h.addFrame k stage text
  /-- No frame that is alike comes back otherwise. -/
  only : (∃ g, Frame.ofJson f.toJson = .ok g ∧ alike g f = true) → Bounded f.numbers
  /-- Confidences that are not finite are lost, -/
  settled : (∀ x ∈ f.boxNumbers, x.isFinite) → Frame.ofJson f.toJson = .ok f.settled
  /-- and numbers of boxes that are not are refused. -/
  refused : (¬∀ x ∈ f.boxNumbers, x.isFinite) → ∃ e, Frame.ofJson f.toJson = .error e

/-- **A frame that was read can be written and read again** if its 32-bit numbers are finite, and
it comes back as it was; only then, since a number that is too great for 32 bits is read as
infinite and written as a missing value. The finite numbers are assumed to be read back, each of
them alone. -/
theorem Frame.rewrites {text : String} {f : Frame} (read : Frame.ofJson text = .ok f)
    (legible : ∀ x ∈ f.numbers, x.isFinite → x.ReadsBack) : f.Rewrites text := by
  have readable := readable_of_ofJson read
  have again (bounded : Bounded f.numbers) : Frame.ofJson f.toJson = .ok f :=
    frame_ofJson_toJson f (bounded.finite readable) legible
  obtain ⟨settled, refused⟩ := ofJson_toJson_settled read legible
  -- what comes back is the settled frame, which is unlike a frame with an infinite confidence
  refine ⟨readable, fun bounded => ⟨again bounded, alike_self fun x hx => (readable x hx).isNumber⟩,
    fun bounded h k stage => ?_, ?_, settled, refused⟩
  · have admitted : Frame.admissible f.toJson = Frame.admissible text := by
      unfold admissible
      rw [again bounded, read]
    rw [Host.addFrame, admitted, ← Host.addFrame]
  · rintro ⟨g, came, like⟩
    by_cases boxes : ∀ x ∈ f.boxNumbers, x.isFinite
    · rw [settled boxes] at came
      cases came
      exact bounded_of_alike boxes like
    · obtain ⟨e, refused⟩ := refused boxes
      rw [refused] at came
      cases came

/-- A text with a key that is passed over, lists for records, defaults, a number that is narrowed,
two attributes of one key and a payload before its tag. -/
def Frame.looseText : String :=
  "\x7b\"seen\":[\x7b\x7d],\"source_id\":\"camera\"," ++
    "\"objects\":[\x7b\"id\":1,\"namespace\":\"a\"," ++
    "\"label\":\"car\",\"confidence\":0.1,\"detection_box\":[1,2.5,1e-3,16777217]\x7d]," ++
    "\"attributes\":[[\"m\",\"n\",[]],[\"m\",\"n\",[\x7b\"value\":\x7b\"data\":[1e22,3]," ++
    "\"kind\":\"float_vector\"\x7d\x7d]]]\x7d"

/-- What is read of it. -/
def Frame.loose : Frame :=
  let box : Box :=
    .upright (.ofInt 1) (.ofRatio false 5 2) (.ofRatio false 1 1000) (.ofInt 16777216)
  let car : Detection := ⟨1, "a", "car", none, some (.ofRatio false 1 10), box, none, .empty⟩
  let found : Attribute :=
    ⟨"m", "n", [⟨none, .vector [.ofInt (Int.pow 10 22), .ofInt 3]⟩], none, true⟩
  ⟨"camera", 0, 0, 0, [car], .ofList [found]⟩

theorem Frame.rewrites_loose :
    (Frame.ofJson looseText = .ok loose ∧ (∀ x ∈ loose.numbers, x.isFinite → x.ReadsBack)) ∧
      Bounded loose.numbers ∧ Frame.ofJson loose.toJson = .ok loose ∧ alike loose loose = true := by
  have read : Frame.ofJson looseText = .ok loose := by decide +kernel
  have legible : ∀ x ∈ loose.numbers, x.isFinite → x.ReadsBack := by decide +kernel
  have finite : ∀ x ∈ loose.numbers, x.isFinite := by decide +kernel
  have bounded : Bounded loose.numbers := fun x hx => finite _ hx
  exact ⟨⟨read, legible⟩, bounded, (rewrites read legible).same bounded⟩

/-- A car with a confidence and a place. -/
def Frame.carText (confidence xc : String) : String :=
  "\x7b\"source_id\":\"camera\",\"objects\":[\x7b\"id\":1,\"namespace\":\"a\",\"label\":\"car\"," ++
    "\"confidence\":" ++ confidence ++ ",\"detection_box\":\x7b\"xc\":" ++ xc ++
    ",\"yc\":1,\"width\":2,\"height\":2\x7d\x7d]\x7d"

def Frame.car (confidence : Option Single) (xc : Single) : Frame :=
  let box : Box := .upright xc (.ofInt 1) (.ofInt 2) (.ofInt 2)
  ⟨"camera", 0, 0, 0, [⟨1, "a", "car", none, confidence, box, none, .empty⟩], .empty⟩

/-- A number beyond 32 bits is read as infinite. As a confidence it is lost when the frame is
written and read again, and as a number of a box it makes the text be refused. -/
theorem Frame.great_numbers_lost :
    let infinite : Single := .clamp false Layout.single.infinity
    (Frame.ofJson (carText "1e39" "1") = .ok (car (some infinite) (.ofInt 1)) ∧
      (∀ x ∈ (car (some infinite) (.ofInt 1)).numbers, x.isFinite → x.ReadsBack) ∧
      Frame.ofJson (car (some infinite) (.ofInt 1)).toJson = .ok (car none (.ofInt 1)) ∧
      alike (car none (.ofInt 1)) (car (some infinite) (.ofInt 1)) = false) ∧
    Frame.ofJson (carText "null" "1e39") = .ok (car none infinite) ∧
      (∀ x ∈ (car none infinite).numbers, x.isFinite → x.ReadsBack) ∧
      ∃ e, Frame.ofJson (car none infinite).toJson = .error e := by
  intro infinite
  have sure : Frame.ofJson (carText "1e39" "1") = .ok (car (some infinite) (.ofInt 1)) := by
    decide +kernel
  have away : Frame.ofJson (carText "null" "1e39") = .ok (car none infinite) := by decide +kernel
  have legible : ∀ x ∈ (car (some infinite) (.ofInt 1)).numbers, x.isFinite → x.ReadsBack := by
    decide +kernel
  have legible' : ∀ x ∈ (car none infinite).numbers, x.isFinite → x.ReadsBack := by decide +kernel
  refine ⟨⟨sure, legible, ?_, by decide +kernel⟩, away, legible', ?_⟩
  · have settled : (car (some infinite) (.ofInt 1)).settled = car none (.ofInt 1) := by
      decide +kernel
    rw [(ofJson_toJson_settled sure legible).1 (by decide +kernel), settled]
  · exact (ofJson_toJson_settled away legible').2 (by decide +kernel)

end FrameFlow
