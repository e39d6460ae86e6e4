/-
# Texts on their way in and out

Whatever a process is asked for, as long as nothing is brought in past the door,
all texts of detections in its pipelines are free of NULs, and so are the texts
that wait to be written. Handed out through a buffer, such a text ends at the
first NUL in it, and its size is never zero: zero stands for something that does
not exist.

Key definitions: `Foreign.HandsOut`, `Host.HandsOutTexts`.
Key theorems: `Operation.clean_of_checked`, `Host.clean_after`, `Foreign.getText_eq`,
`Host.texts_handed_out`.
-/
import FrameFlow.Proofs.Host.Shifts
import FrameFlow.Proofs.Pipeline.Texts

namespace FrameFlow

/-! ### The door -/

theorem nulFree_of_check {id : Int64} {text : String} (h : checkText id text = .ok ()) :
    NulFree text := by
  unfold checkText at h
  split at h
  · cases h
  · next none => simpa [NulFree] using none

theorem Detection.clean_of_check {d : Detection} (h : d.checkTexts = .ok ()) : d.Clean := by
  unfold Detection.checkTexts at h
  rcases scope : checkText d.id d.scope with _ | ⟨⟩
  · rw [scope] at h; cases h
  rcases label : checkText d.id d.label with _ | ⟨⟩
  · rw [scope, label] at h; cases h
  rw [scope, label] at h
  refine ⟨nulFree_of_check scope, nulFree_of_check label, fun shown there => ?_⟩
  rw [there] at h
  exact nulFree_of_check h

theorem Command.clean_of_check {c : Command} (h : c.checkTexts = .ok ()) : c.Clean := by
  cases c with
  | addDetection d policy => exact Detection.clean_of_check h
  | setLabel id label => exact nulFree_of_check h
  | setDrawLabel id label =>
    rintro text rfl
    exact nulFree_of_check h
  | _ => exact trivial

/-- What is gone through without a refusal has passed in all its items. -/
theorem checkEach_ok {α : Type} {check : α → Except Error Unit} :
    ∀ {as : List α}, checkEach check as = .ok () → ∀ a ∈ as, check a = .ok ()
  | [], _, _, ha => by cases ha
  | b :: bs, h, a, ha => by
    unfold checkEach at h
    split at h
    · cases h
    · next passed =>
      rcases List.mem_cons.mp ha with rfl | ha
      · exact passed
      · exact checkEach_ok h a ha

theorem Frame.clean_of_admissible {text : String} {f : Frame} (h : Frame.admissible text = .ok f) :
    f.Clean := by
  unfold Frame.admissible at h
  split at h
  · cases h
  · next g _ =>
    rcases passed : checkEach Detection.checkTexts g.detections with e | ⟨⟩
    · rw [passed] at h; cases h
    · rw [passed] at h
      cases h
      exact fun d hd => Detection.clean_of_check (checkEach_ok passed d hd)

theorem Update.clean_of_admissible {text : String} {u : Update}
    (h : Update.admissible text = .ok u) : u.Clean := by
  unfold Update.admissible at h
  split at h
  · cases h
  · next v _ =>
    rcases passed : checkEach Command.checkTexts v.commands with e | ⟨⟩
    · rw [passed] at h; cases h
    · rw [passed] at h
      cases h
      exact fun c hc => Command.clean_of_check (checkEach_ok passed c hc)

/-- What comes in through the door is free of NULs. -/
theorem Operation.clean_of_checked {op : Operation} (h : op.Checked) : op.Clean := by
  cases op with
  | addFrame stage f =>
    obtain ⟨text, read⟩ := h
    exact Frame.clean_of_admissible read
  | enqueue id u =>
    obtain ⟨text, read⟩ := h
    exact Update.clean_of_admissible read
  | enqueueBatched k id u =>
    obtain ⟨text, read⟩ := h
    exact Update.clean_of_admissible read
  | _ => exact trivial

/-- Texts stay free of NULs in a run whose requests bring nothing in past the door. -/
theorem Host.clean_after (surroundings : Surroundings) {requests : List Request}
    (checked : ∀ request ∈ requests, request.Within Operation.Checked) :
    ((Script.Session.fresh surroundings).after requests).host.pipelines.Keeps
      fun p => p.Reachable ∧ p.Clean := by
  refine keeps_after (fun c passed => ?new) (fun p op good old => ?step) (fun _ good => good)
    requests _ checked .empty
  case new =>
    exact ⟨⟨c, _, _, [], Pipeline.create_of_check passed, rfl⟩, Pipeline.clean_ofConfig c⟩
  case step =>
    obtain ⟨reachable, clean⟩ := old
    refine ⟨reachable.after [op], ?_⟩
    exact Pipeline.clean_run reachable.consistent reachable.addressed clean op
      (Operation.clean_of_checked good)

/-! ### Buffers -/

namespace Foreign

/-- What a text leaves in a buffer, with the size that is answered: the text and a NUL, which is
the first one in the buffer, or nothing where there is not enough room. -/
structure HandsOut (text : String) (buffer : TextCell) (r : Nat × TextCell × Host) : Prop where
  size : r.1 = text.utf8ByteSize + 1
  fits : ∀ octets, buffer = some octets → r.1 ≤ octets.length → ∃ filled, r.2.1 = some filled ∧
    filled = utf8 text ++ 0 :: octets.drop r.1 ∧
    (filled.takeWhile (· != 0)).length + 1 = r.1 ∧ textOf? (some filled) = some text
  /-- Missing memory has no room. -/
  small : (buffer.getD []).length < r.1 → r.2.1 = buffer

variable {h : Host} {k : Handle} {frame : Int} {id : Int64} {field : TextField}

theorem getText_eq (buffer : TextCell) : getText h k frame id field buffer =
    match (h.pipelines.get? k).bind (·.text? frame id field) with
    | none => (0, buffer, (h.lookUp k (·.text? frame id field)).2)
    | some text => ((utf8 text).length + 1, buffer.map fun octets => (fillText text octets).2,
        (h.lookUp k (·.text? frame id field)).2) := by
  unfold getText withBuffer
  simp only [Host.readText_eq, Host.lookUp_fst]
  rcases (h.pipelines.get? k).bind (·.text? frame id field) with _ | text
  · rcases buffer with _ | octets
    · rfl
    · rfl
  · have size : (fillText text (buffer.getD [])).1.size = (utf8 text).length + 1 := by
      unfold fillText
      rw [fill_size, List.length_append]
      rfl
    simp only [Option.map_some, Option.getD_some, size]
    rcases buffer with _ | octets
    · rfl
    · rfl

/-- A text without NULs is handed out as it is. -/
theorem handsOut {text : String} (free : NulFree text)
    (found : (h.pipelines.get? k).bind (·.text? frame id field) = some text) (buffer : TextCell) :
    HandsOut text buffer (getText h k frame id field buffer) := by
  have length : (utf8 text ++ [0]).length = (utf8 text).length + 1 := by simp
  rw [getText_eq, found]
  refine ⟨congrArg (· + 1) (length_utf8 text), fun octets memory room => ?_, fun small => ?_⟩
  · refine ⟨utf8 text ++ 0 :: octets.drop ((utf8 text).length + 1), ?_, rfl, ?_, ?_⟩
    · have enough : (utf8 text ++ [0]).length ≤ octets.length := by
        rw [length]
        exact room
      subst memory
      simp only [Option.map_some, fillText, fill_of_le enough, length, List.append_assoc,
        List.singleton_append]
    · rw [takeWhile_closed free]
    · exact textOf?_closed free _
  · rcases buffer with _ | octets
    · rfl
    · have short : octets.length < (utf8 text ++ [0]).length := by
        rw [length]
        exact small
      simp only [Option.map_some, fillText, fill_of_lt short]

end Foreign

namespace Host

/-- The texts of detections are read through buffers as they are. -/
structure HandsOutTexts (h : Host) : Prop where
  clean : ∀ k p, h.pipelines.get? k = some p → p.Clean
  handsOut : ∀ k p frame f id d, h.pipelines.get? k = some p → p.frame? frame = some f →
    f.find? id = some d → ∀ field buffer,
      Foreign.HandsOut (field.read d) buffer (Foreign.getText h k frame id field buffer)
  /-- A size of zero stands for an unknown handle, frame or detection. -/
  absent : ∀ k frame id field buffer, (Foreign.getText h k frame id field buffer).1 = 0 ↔
    ∀ p, h.pipelines.get? k = some p → ∀ f, p.frame? frame = some f → f.find? id = none

/-- **Texts are handed out whole.** In every run that brings nothing in past the door, no text of a
detection has a NUL, in a frame or in an update that waits. So all of them are read back as they
are, through any buffer with enough room for the text and a NUL behind it. -/
theorem texts_handed_out (surroundings : Surroundings) {requests : List Request}
    (checked : ∀ request ∈ requests, request.Within Operation.Checked) :
    ((Script.Session.fresh surroundings).after requests).host.HandsOutTexts := by
  have keeps := clean_after surroundings checked
  generalize ((Script.Session.fresh surroundings).after requests).host = h at keeps
  refine ⟨fun k p live => (keeps.each live).2, ?handsOut, ?absent⟩
  case handsOut =>
    intro k p frame f id d live there found field buffer
    have clean : d.Clean :=
      (keeps.each live).2.frame there d (List.mem_of_find?_eq_some found)
    refine Foreign.handsOut (clean.read field) ?_ buffer
    have there : p.frames.get? frame = some f := there
    rw [live, Option.bind_some]
    simp only [Pipeline.text?, Pipeline.detection?, there, Option.bind_eq_bind, Option.bind_some,
      found, Option.map_some]
  case absent =>
    intro k frame id field buffer
    rw [Foreign.getText_eq]
    rcases live : h.pipelines.get? k with _ | p
    · simp
    rcases there : p.frames.get? frame with _ | f
    · simp [Pipeline.text?, Pipeline.detection?, Pipeline.frame?, there]
    rcases found : f.find? id with _ | d
    · simp [Pipeline.text?, Pipeline.detection?, Pipeline.frame?, there, found]
    · simp [Pipeline.text?, Pipeline.detection?, Pipeline.frame?, there, found]

/-- The label of the car is read into a buffer of five octets. -/
theorem texts_handed_out_sample :
    (∀ request ∈ sampleRequests, request.Within Operation.Checked) ∧ sample.HandsOutTexts ∧
      (Foreign.getText sample ⟨1, 0⟩ 1 7 .label (some [9, 9, 9, 9, 9])).2.1 =
        some [99, 97, 114, 0, 9] := by
  have checked : ∀ request ∈ sampleRequests, request.Within Operation.Checked := by
    simp [sampleRequests, Request.Within]
  exact ⟨checked, texts_handed_out _ checked, by decide +kernel⟩

end Host
end FrameFlow
