/-
# Reading a vector

A foreign caller gets the numbers of a vector in memory of its own. The room that there
is for numbers and the count of them are told by one and the same piece of memory, which
is read before it is written. What the caller promises of its memory (`VectorCells.Usable`)
makes the room that it tells the room that there is, so the numbers are copied just when
they fit (`getVector_copies`), their count alone is written when they do not
(`getVector_tells`), and nothing is where there is no vector (`getVector_leaves`). No
pipeline changes, so the vector is still there for a second call with the room that the
first one told. A script gets the same numbers and confidence of the same vector.

Key definitions: `Pipeline.HasVector`, `Host.HasVector`, `VectorCells.room`,
`VectorCells.Usable`, `VectorCells.filled`, `Script.AnswersVector`, `FollowsProtocol`.
Key theorems: `Pipeline.hasVector_iff`, `getVector_copies`, `getVector_tells`,
`getVector_leaves`, `Script.answersVector`, `vector_negotiated`.
-/
import FrameFlow.Proofs.Host.Steps

namespace FrameFlow

/-! ### Vectors that are there -/

/-- A detection of a pipeline has, under a key and at an index, a vector with its confidence. -/
inductive Pipeline.HasVector (p : Pipeline) (frame : Int) (id : Int64) (scope name : String)
    (index : Nat) : List Double → Option Single → Prop where
  | intro {f : Frame} {d : Detection} {a : Attribute} {xs : List Double}
    {confidence : Option Single} (held : p.frames.get? frame = some f) (there : f.find? id = some d)
    (under : d.attributes.get? scope name = some a)
    (value : a.values[index]? = some ⟨confidence, .vector xs⟩) :
    p.HasVector frame id scope name index xs confidence

/-- The pipeline behind a handle has a vector. -/
def Host.HasVector (h : Host) (k : Handle) (frame : Int) (id : Int64) (scope name : String)
    (index : Nat) (xs : List Double) (confidence : Option Single) : Prop :=
  ∃ p, h.pipelines.get? k = some p ∧ p.HasVector frame id scope name index xs confidence

section Vector

variable {p : Pipeline} {h h' : Host} {k : Handle} {frame : Int} {id : Int64} {scope name : String}
  {index : Nat} {xs : List Double} {confidence : Option Single}

theorem Pipeline.hasVector_iff : p.HasVector frame id scope name index xs confidence ↔
    p.reading? frame id scope name index = some ⟨confidence, .vector xs⟩ := by
  unfold reading? detection? AttributeTable.reading?
  simp only [Option.bind_eq_bind, Option.bind_eq_some_iff]
  constructor
  · rintro ⟨held, there, under, value⟩
    exact ⟨_, ⟨_, held, there⟩, _, under, value⟩
  · rintro ⟨d, ⟨f, held, there⟩, a, under, value⟩
    exact ⟨held, there, under, value⟩

theorem Reading.vector?_eq_some_iff {r : Reading} :
    r.vector? = some xs ↔ r = ⟨r.confidence, .vector xs⟩ := by
  obtain ⟨c, d⟩ := r
  cases d <;> simp [Reading.vector?]

/-- A host finds what its pipeline has. -/
theorem Host.hasVector_iff : h.HasVector k frame id scope name index xs confidence ↔
    ((h.pipelines.get? k).bind (·.reading? frame id scope name index)).bind
      (fun r => r.vector?.map fun numbers => (numbers, r.confidence)) = some (xs, confidence) := by
  unfold HasVector
  simp only [Pipeline.hasVector_iff, Option.bind_eq_some_iff, Option.map_eq_some_iff,
    Reading.vector?_eq_some_iff]
  constructor
  · rintro ⟨p, live, read⟩
    exact ⟨_, ⟨p, live, read⟩, xs, rfl, rfl⟩
  · rintro ⟨r, ⟨p, live, read⟩, xs', vector, same⟩
    obtain ⟨rfl, rfl⟩ := Prod.mk.inj same
    rw [vector] at read
    exact ⟨p, live, read⟩

theorem Host.HasVector.of_pipelines
    (there : h.HasVector k frame id scope name index xs confidence)
    (same : h'.pipelines = h.pipelines) :
    h'.HasVector k frame id scope name index xs confidence := by
  unfold HasVector at there ⊢
  rwa [same]

end Vector

namespace Foreign

/-! ### Memory -/

namespace VectorCells

/-- How many numbers there is room for: what is told, or none where the memory is missing. -/
def room (out : VectorCells) : Nat := if out.numbers.isSome then out.count.getD 0 else 0

/-- What a caller promises: there is memory for all but the numbers, and if there is for these then
for as many as are told. -/
structure Usable (out : VectorCells) : Prop where
  counted : out.count.isSome
  confidence : out.confidence.isSome
  confident : out.confident.isSome
  promised : ∀ slots ∈ out.numbers, out.count.getD 0 ≤ slots.length

/-- Memory that a vector has been copied to: the front holds its numbers, and a confidence is
written if there is one. -/
def filled (out : VectorCells) (xs : List Double) (confidence : Option Single) : VectorCells where
  numbers := out.numbers.map fun slots => xs ++ slots.drop xs.length
  count := some xs.length
  confidence := confidence.or out.confidence
  confident := some confidence.isSome

/-- What is answered, and what memory is left, when a vector is found or none is. -/
def answered (out : VectorCells) : Option (List Double × Option Single) → Bool × VectorCells
  | none => (false, out)
  | some (xs, confidence) =>
    if out.room < xs.length then (false, { out with count := some xs.length })
    else (true, out.filled xs confidence)

/-- As much of the memory is given as is told. -/
theorem Usable.length_take {out : VectorCells} (usable : out.Usable) {told : Nat}
    (count : out.count = some told) : ((out.numbers.getD []).take told).length = out.room := by
  unfold room
  rcases memory : out.numbers with _ | slots
  · simp
  · have enough := usable.promised slots memory
    rw [count] at enough ⊢
    simpa using enough

end VectorCells

theorem drop_take_append_drop {α : Type} (l : List α) {n m : Nat} (le : n ≤ m) :
    (l.take m).drop n ++ l.drop m = l.drop n := by
  calc (l.take m).drop n ++ l.drop m
      = (l.drop n).take (m - n) ++ (l.drop n).drop (m - n) := by
        rw [List.drop_take, List.drop_drop, Nat.add_sub_cancel' le]
    _ = l.drop n := List.take_append_drop _ _

/-! ### A call -/

section Call

variable {h : Host} {k : Handle} {frame : Int} {id : Int64} {scope name : TextCell} {index : Nat}
  {out : VectorCells} {s n : String} {xs : List Double} {confidence : Option Single}

/-- With memory and texts in order, all depends on the vector that is found. -/
theorem getVector_answered (usable : out.Usable) (read : textOf? scope = some s)
    (read' : textOf? name = some n) {found : Option (List Double × Option Single)}
    (look : ((h.pipelines.get? k).bind (·.reading? frame id s n index)).bind
      (fun r => r.vector?.map fun numbers => (numbers, r.confidence)) = found) :
    (getVector h k frame id scope name index out).1 = (out.answered found).1 ∧
      (getVector h k frame id scope name index out).2.1 = (out.answered found).2 := by
  obtain ⟨numbers, count, old, set⟩ := out
  obtain ⟨told, rfl⟩ : ∃ told, count = some told := Option.isSome_iff_exists.mp usable.counted
  obtain ⟨old, rfl⟩ : ∃ c, old = some c := Option.isSome_iff_exists.mp usable.confidence
  obtain ⟨set, rfl⟩ : ∃ b, set = some b := Option.isSome_iff_exists.mp usable.confident
  have given : ((numbers.getD []).take told).length = _ := usable.length_take rfl
  unfold getVector
  simp only [read, read', Host.readVector_eq, Host.lookUp_fst, look, given]
  rcases found with _ | ⟨xs, confidence⟩
  · exact ⟨rfl, rfl⟩
  · simp only [VectorCells.answered]
    by_cases small : VectorCells.room ⟨numbers, some told, some old, some set⟩ < xs.length
    · simp only [if_pos small]
      exact ⟨trivial, trivial⟩
    · simp only [if_neg small]
      refine ⟨trivial, ?_⟩
      rcases numbers with _ | slots
      · rfl
      · have fits : xs.length ≤ told := Nat.not_lt.mp small
        have kept := drop_take_append_drop slots fits
        simp only [VectorCells.filled, Option.map_some, Option.getD_some, List.append_assoc, kept]

/-- Nothing is looked up without a key. -/
theorem getVector_unread (unread : textOf? scope = none ∨ textOf? name = none) :
    (getVector h k frame id scope name index out).1 = false ∧
      (getVector h k frame id scope name index out).2.1 = out := by
  unfold getVector
  split
  · next read read' =>
    rw [read, read'] at unread
    rcases unread with missing | missing <;> cases missing
  · exact ⟨rfl, rfl⟩

section Found

variable (usable : out.Usable) (read : textOf? scope = some s) (read' : textOf? name = some n)
include usable read read'

/-- A vector that there is room for is copied. -/
theorem getVector_copies (there : h.HasVector k frame id s n index xs confidence)
    (fits : xs.length ≤ out.room) :
    (getVector h k frame id scope name index out).1 = true ∧
      (getVector h k frame id scope name index out).2.1 = out.filled xs confidence := by
  have answer := getVector_answered usable read read' (Host.hasVector_iff.mp there)
  simp only [VectorCells.answered, if_neg (Nat.not_lt.mpr fits)] at answer
  exact answer

/-- Of a vector that there is no room for only the count is written. -/
theorem getVector_tells (there : h.HasVector k frame id s n index xs confidence)
    (small : out.room < xs.length) :
    (getVector h k frame id scope name index out).1 = false ∧
      (getVector h k frame id scope name index out).2.1 = { out with count := some xs.length } := by
  have answer := getVector_answered usable read read' (Host.hasVector_iff.mp there)
  simp only [VectorCells.answered, if_pos small] at answer
  exact answer

end Found

/-- Where there is no vector, or no key to find it by, nothing is written. -/
theorem getVector_leaves (usable : out.Usable)
    (absent : ∀ s n xs confidence, textOf? scope = some s → textOf? name = some n →
      ¬h.HasVector k frame id s n index xs confidence) :
    (getVector h k frame id scope name index out).1 = false ∧
      (getVector h k frame id scope name index out).2.1 = out := by
  rcases read : textOf? scope with _ | s
  · exact getVector_unread (.inl read)
  rcases read' : textOf? name with _ | n
  · exact getVector_unread (.inr read')
  have nothing : ((h.pipelines.get? k).bind (·.reading? frame id s n index)).bind
      (fun r => r.vector?.map fun numbers => (numbers, r.confidence)) = none := by
    refine Option.eq_none_iff_forall_ne_some.mpr fun found look => ?_
    exact absent s n found.1 found.2 read read' (Host.hasVector_iff.mpr look)
  exact getVector_answered usable read read' nothing

end Call
end Foreign

/-! ### A script -/

namespace Script

open Signature Value

/-- What says which vector a script asks for. -/
def vectorSignature :=
  ofDetection (needed "namespace" asText (needed "name" asText (needed "index" asIndex nil)))

/-- A script is answered what the pipeline behind the object has. -/
theorem callMethod_vector {session : Session} {slot : Int} {k : Handle} {arguments : Arguments}
    {frame : Int} {id : Int64} {s n : String} {index : Nat}
    (object : session.slots.get? slot = some k)
    (bound : vectorSignature.bind arguments = .ok (frame, id, s, n, index, ())) :
    (session.callMethod slot "get_float_vec_attribute_value" arguments).1 =
      ((session.host.view k (·.reading? frame id s n index)).1.mapError .refused).map
        (ofOption ofVector) := by
  have held : session.object slot = .ok k := by
    unfold Session.object
    rw [object]
  have method : (methods.find? fun m => m.name == "get_float_vec_attribute_value") =
      some vectorMethod := rfl
  unfold vectorSignature at bound
  unfold Session.callMethod
  rw [held, method]
  simp only [vectorMethod, Method.look, Method.of]
  rw [if_neg (by decide), bound]
  dsimp only
  rcases session.host.view k (·.reading? frame id s n index) with ⟨e | found, h⟩
  · rfl
  · rfl

/-- What a script is answered of a vector: its numbers, and its confidence widened. -/
def vectorAnswer (xs : List Double) (confidence : Option Single) : Value :=
  .tuple [.list (xs.map .float), ofOption ofSingle confidence]

/-- A script is answered none where there is no vector. -/
theorem ofVector_of_absent {p : Pipeline} {frame : Int} {id : Int64} {s n : String} {index : Nat}
    (absent : ∀ xs confidence, ¬p.HasVector frame id s n index xs confidence) :
    ofOption ofVector (p.reading? frame id s n index) = .none := by
  rcases found : p.reading? frame id s n index with _ | r
  · rfl
  · rcases vector : r.vector? with _ | xs
    · simp only [ofOption, ofVector, vector]
    · rw [Reading.vector?_eq_some_iff.mp vector] at found
      exact absurd (Pipeline.hasVector_iff.mpr found) (absent xs r.confidence)

/-- What a script is answered that asks for a vector. -/
structure AnswersVector (h : Host) (k : Handle) (frame : Int) (id : Int64) (s n : String)
    (index : Nat) (answer : Except Failure Value) : Prop where
  /-- It gets the numbers of a vector, and its confidence. -/
  there : ∀ {xs confidence}, h.HasVector k frame id s n index xs confidence →
    answer = .ok (vectorAnswer xs confidence)
  /-- It gets none where there is no vector. -/
  absent : ∀ {p}, h.pipelines.get? k = some p →
    (∀ xs confidence, ¬p.HasVector frame id s n index xs confidence) → answer = .ok .none
  /-- It is refused where there is no pipeline. -/
  dead : h.pipelines.get? k = Option.none → answer = .error (.refused (.unknownHandle k.number))

theorem answersVector {session : Session} {slot : Int} {k : Handle} {arguments : Arguments}
    {frame : Int} {id : Int64} {s n : String} {index : Nat}
    (object : session.slots.get? slot = some k)
    (bound : vectorSignature.bind arguments = .ok (frame, id, s, n, index, ())) :
    AnswersVector session.host k frame id s n index
      (session.callMethod slot "get_float_vec_attribute_value" arguments).1 where
  there := by
    rintro xs confidence ⟨p, live, there⟩
    rw [callMethod_vector object bound, Host.view_known live, Pipeline.hasVector_iff.mp there]
    rfl
  absent live missing := by
    rw [callMethod_vector object bound, Host.view_known live]
    exact congrArg Except.ok (ofVector_of_absent missing)
  dead unknown := by
    rw [callMethod_vector object bound, Host.view, (Host.change_unknown unknown _).1]
    rfl

end Script

namespace Foreign

/-! ### The protocol -/

/-- How a vector is handed out to a foreign caller and to a script. -/
structure FollowsProtocol (h : Host) (k : Handle) (frame : Int) (id : Int64) (scope name : TextCell)
    (index : Nat) (out : VectorCells) : Prop where
  /-- A vector that there is room for is copied, with its confidence. -/
  copied : ∀ {s n xs confidence}, textOf? scope = some s → textOf? name = some n →
    h.HasVector k frame id s n index xs confidence → xs.length ≤ out.room →
    (getVector h k frame id scope name index out).1 = true ∧
      (getVector h k frame id scope name index out).2.1 = out.filled xs confidence
  /-- Of a vector that there is no room for only the count is written. -/
  counted : ∀ {s n xs confidence}, textOf? scope = some s → textOf? name = some n →
    h.HasVector k frame id s n index xs confidence → out.room < xs.length →
    (getVector h k frame id scope name index out).1 = false ∧
      (getVector h k frame id scope name index out).2.1 = { out with count := some xs.length }
  /-- Where there is no vector, or no key to find it by, nothing is written. -/
  untouched : (∀ s n xs confidence, textOf? scope = some s → textOf? name = some n →
      ¬h.HasVector k frame id s n index xs confidence) →
    (getVector h k frame id scope name index out).1 = false ∧
      (getVector h k frame id scope name index out).2.1 = out
  /-- No pipeline changes. -/
  kept : (getVector h k frame id scope name index out).2.2.pipelines = h.pipelines
  /-- A second call, with room for as many numbers as the first one told, copies the vector. -/
  again : ∀ {s n xs confidence}, textOf? scope = some s → textOf? name = some n →
    h.HasVector k frame id s n index xs confidence → out.room < xs.length →
    ∀ second : VectorCells, second.Usable → second.numbers.isSome →
    second.count = (getVector h k frame id scope name index out).2.1.count →
    (getVector (getVector h k frame id scope name index out).2.2 k frame id scope name index
        second).1 = true ∧
      (getVector (getVector h k frame id scope name index out).2.2 k frame id scope name index
        second).2.1 = second.filled xs confidence
  /-- A script that asks for the same is answered the same vector. -/
  scripted : ∀ {s n} {session : Script.Session} {slot arguments},
    textOf? scope = some s → textOf? name = some n → session.host = h →
    session.slots.get? slot = some k →
    Script.vectorSignature.bind arguments = .ok (frame, id, s, n, index, ()) →
    Script.AnswersVector h k frame id s n index
      (session.callMethod slot "get_float_vec_attribute_value" arguments).1

/-- **A vector is handed out in two calls at most.** Whatever the host, and whatever is asked for, a
call with usable memory copies a vector that fits, tells the size of one that does not, for which a
second call has it, and writes nothing otherwise. A script is answered the same vector. -/
theorem vector_negotiated (h : Host) (k : Handle) (frame : Int) (id : Int64) (scope name : TextCell)
    (index : Nat) {out : VectorCells} (usable : out.Usable) :
    FollowsProtocol h k frame id scope name index out where
  copied read read' there fits := getVector_copies usable read read' there fits
  counted read read' there small := getVector_tells usable read read' there small
  untouched absent := getVector_leaves usable absent
  kept := pipelines_getVector frame id scope name index out
  again {s n xs confidence} read read' there small second promised memory told := by
    have same : (getVector h k frame id scope name index out).2.2.pipelines = h.pipelines :=
      pipelines_getVector frame id scope name index out
    have still := there.of_pipelines same
    rw [(getVector_tells usable read read' there small).2] at told
    have room : second.room = xs.length := by
      unfold VectorCells.room
      rw [if_pos memory, told]
      rfl
    exact getVector_copies promised read read' still (Nat.le_of_eq room.symm)
  scripted := by
    rintro s n session slot arguments - - rfl object bound
    exact Script.answersVector object bound

/-- A car has a vector of two numbers. With room for one of them their count is written, and with
room for two the vector, in front of what is in a third slot. -/
theorem vector_negotiated_sample :
    let embedding : Attribute :=
      ⟨"model", "embedding", [⟨none, .vector [.ofInt 1, .ofInt 2]⟩], none, true⟩
    let car : Detection :=
      { Detection.plain 7 "model" "car" default with attributes := .ofList [embedding] }
    let f : Frame := { Frame.blank "camera" 0 with detections := [car] }
    let requests : List Request :=
      [.build Pipeline.sampleConfig, .operate ⟨1, 0⟩ (.addFrame "in" f)]
    let h := ((Script.Session.fresh ⟨false, fun _ => none⟩).after requests).host
    let out : VectorCells := ⟨some [.zero], some 1, some .zero, some true⟩
    let second : VectorCells := ⟨some [.zero, .zero, .zero], some 2, some .zero, some true⟩
    out.Usable ∧ FollowsProtocol h ⟨1, 0⟩ 1 7 (closed "model") (closed "embedding") 0 out ∧
      (getVector h ⟨1, 0⟩ 1 7 (closed "model") (closed "embedding") 0 out).1 = false ∧
      (getVector h ⟨1, 0⟩ 1 7 (closed "model") (closed "embedding") 0 out).2.1.count = some 2 ∧
      (getVector h ⟨1, 0⟩ 1 7 (closed "model") (closed "embedding") 0 second).2.1 =
        ⟨some [.ofInt 1, .ofInt 2, .zero], some 2, some .zero, some false⟩ := by
  intro embedding car f requests h out second
  have usable : out.Usable :=
    ⟨rfl, rfl, rfl, fun slots memory => by cases memory; exact Nat.le_refl 1⟩
  exact ⟨usable, vector_negotiated h _ _ _ _ _ _ usable, by decide +kernel, by decide +kernel,
    by decide +kernel⟩

end Foreign
end FrameFlow
