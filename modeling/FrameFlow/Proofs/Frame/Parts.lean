/-
# The parts of a frame that commands rewrite

A command that neither adds nor takes out a detection is about one part of the
frame: a field of a detection, an entry in the table of a detection, or an entry in
the frame's own table. It reads what stands in that part, and refuses it or writes
something else there; of the rest of the frame it sees only whether the detection is
there. Parts are independent of one another: what is written to one is not read from
another, and what is written to two of them may be written in either order.

Key definitions: `Entry`, `Aspect`, `Part`, `Frame.read?`, `Frame.write`,
`Command.footprint?`, `Command.rewrite?`.
Key theorems: `Frame.read?_write_ne`, `Frame.write_comm`, `Command.apply_ok_iff_rewrite`.
-/
import FrameFlow.Proofs.Frame.Locality

namespace FrameFlow

/-! ### Entries of a table -/

/-- What may stand under a key: nothing, or an attribute that has the key. -/
structure Entry (key : String × String) where
  attribute? : Option Attribute
  keyed : ∀ a ∈ attribute?, a.key = key

namespace Entry

variable {key : String × String}

/-- Nothing stands under the key. -/
def vacant : Entry key := ⟨none, nofun⟩

/-- An attribute stands under its key. -/
def taken (a : Attribute) : Entry a.key := ⟨some a, fun _ h => by cases h; rfl⟩

/-- What a policy makes of an entry into which an attribute is written. -/
def merge (a : Attribute) (policy : AttributePolicy) (e : Entry a.key) :
    Except Error (Entry a.key) :=
  if e.attribute?.isSome then
    match policy with
    | .replace => .ok (taken a)
    | .keep => .ok e
    | .refuse => .error (.attributeTaken a.scope a.name)
  else .ok (taken a)

end Entry

namespace AttributeTable

variable {key k : String × String}

/-- What stands under a key. -/
def entry (t : AttributeTable) (key : String × String) : Entry key :=
  ⟨t.find? key, fun _ found => (SortedBy.find?_eq_some found).2⟩

/-- Writes what stands under a key. -/
def write (t : AttributeTable) (key : String × String) (e : Entry key) : AttributeTable :=
  match e.attribute? with
  | none => t.erase key
  | some a => t.insert a

theorem find?_write (t : AttributeTable) (e : Entry key) :
    t.DiffersAt key e.attribute? (t.write key e) := by
  obtain ⟨_ | a, keyed⟩ := e
  · exact t.differsAt_erase key
  · have same : a.key = key := keyed a rfl
    subst same
    exact t.differsAt_insert a

theorem entry_write_ne (t : AttributeTable) (e : Entry key) (ne : key ≠ k) :
    (t.write key e).entry k = t.entry k := by
  unfold entry
  simp only [t.find?_write e k, if_neg ne]

/-- What stands under a key may be written again. -/
theorem write_entry (t : AttributeTable) (key : String × String) :
    t.write key (t.entry key) = t := by
  refine SortedBy.ext_find? fun k => (t.find?_write (t.entry key) k).trans ?_
  split
  · next same => rw [← same]; rfl
  · rfl

/-- What is written under two keys may be written in either order. -/
theorem write_comm (t : AttributeTable) (e : Entry key) (e' : Entry k) (ne : key ≠ k) :
    (t.write key e).write k e' = (t.write k e').write key e := by
  refine SortedBy.ext_find? fun i => ?_
  rw [find?_write _ e' i, find?_write _ e i, find?_write _ e i, find?_write _ e' i]
  by_cases first : key = i
  · have other : k ≠ i := fun second => ne (first.trans second.symm)
    rw [if_pos first, if_neg other, if_pos first]
  · rw [if_neg first, if_neg first]

/-- To merge an attribute into a table is to merge it into the entry under its key. -/
theorem merge_eq (t : AttributeTable) (a : Attribute) (policy : AttributePolicy) :
    t.merge a policy = (Entry.merge a policy (t.entry a.key)).map (t.write a.key) := by
  have taken : (t.entry a.key).attribute?.isSome = t.has a.scope a.name := rfl
  unfold merge Entry.merge
  rw [taken]
  split
  · cases policy with
    | replace => rfl
    | keep => exact congrArg Except.ok (t.write_entry a.key).symm
    | refuse => rfl
  · rfl

end AttributeTable

/-! ### Parts of a detection -/

/-- A part of a detection: one of the fields that commands set, or an entry of its table. -/
inductive Aspect where
  | confidence
  | box
  | track
  | label
  | drawLabel
  | entry (key : String × String)
deriving DecidableEq

/-- What can stand in a part of a detection. -/
@[reducible] def Aspect.Content : Aspect → Type
  | confidence => Option Single
  | box => Box
  | track => Option Track
  | label => String
  | drawLabel => Option String
  | entry key => Entry key

namespace Detection

variable {s s' : Aspect}

/-- What stands in a part of a detection. -/
def read (d : Detection) : (s : Aspect) → s.Content
  | .confidence => d.confidence
  | .box => d.box
  | .track => d.track
  | .label => d.label
  | .drawLabel => d.drawLabel
  | .entry key => d.attributes.entry key

/-- Writes a part of a detection. -/
def write (d : Detection) : (s : Aspect) → s.Content → Detection
  | .confidence, confidence => { d with confidence := confidence }
  | .box, box => { d with box := box }
  | .track, track => { d with track := track }
  | .label, label => { d with label := label }
  | .drawLabel, label => { d with drawLabel := label }
  | .entry key, e => { d with attributes := d.attributes.write key e }

/-- No part of a detection is its identifier. -/
@[simp] theorem id_write (d : Detection) (s : Aspect) (v : s.Content) :
    (d.write s v).id = d.id := by
  cases s <;> rfl

theorem read_write_ne (d : Detection) (v : s.Content) (ne : s ≠ s') :
    (d.write s v).read s' = d.read s' := by
  cases s with
  | entry key =>
    cases s' with
    | entry key' =>
      have keys : key ≠ key' := fun same => ne (congrArg Aspect.entry same)
      exact d.attributes.entry_write_ne v keys
    | _ => rfl
  -- different fields are different components of the record
  | _ => cases s' <;> first | rfl | contradiction

theorem write_comm (d : Detection) (v : s.Content) (w : s'.Content) (ne : s ≠ s') :
    (d.write s v).write s' w = (d.write s' w).write s v := by
  cases s with
  | entry key =>
    cases s' with
    | entry key' =>
      have keys : key ≠ key' := fun same => ne (congrArg Aspect.entry same)
      have tables := d.attributes.write_comm v w keys
      exact congrArg (fun t => { d with attributes := t }) tables
    | _ => rfl
  | _ => cases s' <;> first | rfl | contradiction

end Detection

/-! ### Changes of detections -/

namespace Frame

variable {id id' : Int64} {change change' : Detection → Detection}

theorem find?_modify (f : Frame) (keeps : ∀ d, (change d).id = d.id) (k : Int64) :
    (f.modify id change).find? k = if id = k then (f.find? k).map change else f.find? k := by
  unfold find? modify
  induction f.detections with
  | nil => simp [modifyFirst]
  | cons d ds ih =>
    rw [modifyFirst]
    by_cases here : d.id = id
    · rw [if_pos (beq_iff_eq.mpr here)]
      by_cases asked : d.id = k
      · have same : id = k := here.symm.trans asked
        simp [keeps, asked, same]
      · have other : id ≠ k := fun same => asked (here.trans same)
        simp [keeps, asked, other]
    · rw [if_neg (by simpa using here)]
      by_cases asked : d.id = k
      · have other : id ≠ k := fun same => here (asked.trans same.symm)
        simp [asked, other]
      · simpa [asked] using ih

/-- Changes of different detections may be made in either order. -/
theorem modify_comm (f : Frame) (keeps : ∀ d, (change d).id = d.id)
    (keeps' : ∀ d, (change' d).id = d.id) (ne : id ≠ id') :
    (f.modify id change).modify id' change' = (f.modify id' change').modify id change := by
  have lists : ∀ ds : List Detection, modifyFirst id' change' (modifyFirst id change ds) =
      modifyFirst id change (modifyFirst id' change' ds) := by
    intro ds
    induction ds with
    | nil => rfl
    | cons d ds ih =>
      by_cases here : d.id = id
      · have other : d.id ≠ id' := fun same => ne (here.symm.trans same)
        simp [modifyFirst, keeps, here, ne]
      · by_cases there : d.id = id'
        · simp [modifyFirst, keeps', there, Ne.symm ne]
        · simp [modifyFirst, here, there, ih]
  exact congrArg (fun ds => { f with detections := ds }) (lists f.detections)

/-- Two changes of one detection are one change. -/
theorem modify_modify (f : Frame) (keeps : ∀ d, (change d).id = d.id) :
    (f.modify id change).modify id change' = f.modify id fun d => change' (change d) := by
  have lists : ∀ ds : List Detection, modifyFirst id change' (modifyFirst id change ds) =
      modifyFirst id (fun d => change' (change d)) ds := by
    intro ds
    induction ds with
    | nil => rfl
    | cons d ds ih =>
      by_cases here : d.id = id
      · simp [modifyFirst, keeps, here]
      · simp [modifyFirst, here, ih]
  exact congrArg (fun ds => { f with detections := ds }) (lists f.detections)

end Frame

/-! ### Parts of a frame -/

/-- A part of a frame: a part of the detection that an identifier addresses, or an entry of the
frame's own table. -/
inductive Part where
  | detection (id : Int64) (aspect : Aspect)
  | entry (key : String × String)
deriving DecidableEq

/-- What can stand in a part of a frame. -/
@[reducible] def Part.Content : Part → Type
  | detection _ aspect => aspect.Content
  | entry key => Entry key

namespace Frame

variable {p q : Part}

/-- What stands in a part of a frame, if the part is there. -/
def read? (f : Frame) : (p : Part) → Option p.Content
  | .detection id aspect => (f.find? id).map fun d => d.read aspect
  | .entry key => some (f.attributes.entry key)

/-- Writes a part of a frame, if it is there. -/
def write (f : Frame) : (p : Part) → p.Content → Frame
  | .detection id aspect, v => f.modify id fun d => d.write aspect v
  | .entry key, e => { f with attributes := f.attributes.write key e }

/-- What is written to one part is not read from another. -/
theorem read?_write_ne (f : Frame) (v : p.Content) (ne : p ≠ q) :
    (f.write p v).read? q = f.read? q := by
  cases p with
  | detection id s =>
    cases q with
    | detection id' s' =>
      show ((f.modify id fun d => d.write s v).find? id').map (fun d => d.read s') =
        (f.find? id').map fun d => d.read s'
      rw [f.find?_modify fun d => d.id_write s v]
      split
      · next same =>
        have aspects : s ≠ s' := fun e => ne (by rw [same, e])
        rcases f.find? id' with _ | d
        · rfl
        · exact congrArg some (d.read_write_ne v aspects)
      · rfl
    | entry key => rfl
  | entry key =>
    cases q with
    | detection id s => rfl
    | entry key' =>
      have keys : key ≠ key' := fun e => ne (congrArg Part.entry e)
      exact congrArg some (f.attributes.entry_write_ne v keys)

/-- What is written to two parts may be written in either order. -/
theorem write_comm (f : Frame) (v : p.Content) (w : q.Content) (ne : p ≠ q) :
    (f.write p v).write q w = (f.write q w).write p v := by
  cases p with
  | detection id s =>
    cases q with
    | detection id' s' =>
      have keeps : ∀ d : Detection, (d.write s v).id = d.id := fun d => d.id_write s v
      have keeps' : ∀ d : Detection, (d.write s' w).id = d.id := fun d => d.id_write s' w
      by_cases same : id = id'
      · subst same
        have aspects : s ≠ s' := fun e => ne (by rw [e])
        calc (f.modify id fun d => d.write s v).modify id (fun d => d.write s' w)
            = f.modify id fun d => (d.write s v).write s' w := f.modify_modify keeps
          _ = f.modify id fun d => (d.write s' w).write s v := by
            simp only [Detection.write_comm _ v w aspects]
          _ = (f.modify id fun d => d.write s' w).modify id (fun d => d.write s v) := by
            rw [f.modify_modify keeps']
      · exact f.modify_comm keeps keeps' same
    | entry key => rfl
  | entry key =>
    cases q with
    | detection id s => rfl
    | entry key' =>
      have keys : key ≠ key' := fun e => ne (congrArg Part.entry e)
      have tables := f.attributes.write_comm v w keys
      exact congrArg (fun t => { f with attributes := t }) tables

end Frame

/-! ### Commands -/

/-- A change of one part of a frame: what it makes of that which stands there, unless it refuses. -/
structure Rewrite where
  part : Part
  change : part.Content → Except Error part.Content

namespace Command

/-- The part of a frame that a command rewrites, unless it adds or takes out a detection. -/
def footprint? : Command → Option Part
  | setConfidence id _ => some (.detection id .confidence)
  | setBox id _ => some (.detection id .box)
  | setTrack id _ => some (.detection id .track)
  | setLabel id _ => some (.detection id .label)
  | setDrawLabel id _ => some (.detection id .drawLabel)
  | addDetection .. | removeDetection _ => none
  | setAttribute id a _ => some (.detection id (.entry a.key))
  | removeAttribute id scope name => some (.detection id (.entry (scope, name)))
  | setFrameAttribute a _ => some (.entry a.key)
  | removeFrameAttribute scope name => some (.entry (scope, name))

/-- What a command makes of the part that it rewrites. -/
def rewrite? : Command → Option Rewrite
  | setConfidence id confidence => some ⟨.detection id .confidence, fun _ => .ok confidence⟩
  | setBox id box => some ⟨.detection id .box, fun _ => .ok box⟩
  | setTrack id track => some ⟨.detection id .track, fun _ => .ok track⟩
  | setLabel id label => some ⟨.detection id .label, fun _ => .ok label⟩
  | setDrawLabel id label => some ⟨.detection id .drawLabel, fun _ => .ok label⟩
  | addDetection .. | removeDetection _ => none
  | setAttribute id a policy => some ⟨.detection id (.entry a.key), Entry.merge a policy⟩
  | removeAttribute id scope name =>
    some ⟨.detection id (.entry (scope, name)), fun _ => .ok .vacant⟩
  | setFrameAttribute a policy => some ⟨.entry a.key, Entry.merge a policy⟩
  | removeFrameAttribute scope name => some ⟨.entry (scope, name), fun _ => .ok .vacant⟩

theorem footprint?_eq (c : Command) : c.footprint? = c.rewrite?.map Rewrite.part := by
  cases c <;> rfl

variable {f g : Frame} {x : Int} {c : Command} {r : Rewrite}

/-- An edit that writes one part of a detection rewrites that part of the frame. -/
theorem toOption_edit (id : Int64) (aspect : Aspect) (w : aspect.Content) :
    (f.edit x id fun d => d.write aspect w).toOption =
      (f.read? (.detection id aspect)).bind fun _ => some (f.write (.detection id aspect) w) := by
  unfold Frame.edit Frame.has
  simp only [Frame.read?]
  rcases f.find? id with _ | d
  · rfl
  · rfl

theorem toOption_setAttribute (id : Int64) (a : Attribute) (policy : AttributePolicy) :
    ((setAttribute id a policy).apply x f).toOption =
      (f.read? (.detection id (.entry a.key))).bind fun v =>
        (Entry.merge a policy v).toOption.map (f.write (.detection id (.entry a.key))) := by
  simp only [Frame.read?]
  rcases found : f.find? id with _ | d
  · rw [apply_setAttribute_of_absent found]
    rfl
  · rw [apply_setAttribute_of_found found, AttributeTable.merge_eq]
    simp only [Option.map_some, Option.bind_some, Detection.read]
    rcases Entry.merge a policy (d.attributes.entry a.key) with e | w
    · rfl
    · exact congrArg some (Frame.modify_congr found rfl)

/-- A command is accepted when its part is there and it accepts what stands in it, and then it
writes that part and nothing else. -/
theorem toOption_apply (known : c.rewrite? = some r) : (c.apply x f).toOption =
    (f.read? r.part).bind fun v => (r.change v).toOption.map (f.write r.part) := by
  cases c with
  | setConfidence id confidence =>
    cases known
    exact toOption_edit id .confidence confidence
  | setBox id box =>
    cases known
    exact toOption_edit id .box box
  | setTrack id track =>
    cases known
    exact toOption_edit id .track track
  | setLabel id label =>
    cases known
    exact toOption_edit id .label label
  | setDrawLabel id label =>
    cases known
    exact toOption_edit id .drawLabel label
  | addDetection d policy => cases known
  | removeDetection id => cases known
  | setAttribute id a policy =>
    cases known
    exact toOption_setAttribute id a policy
  | removeAttribute id scope name =>
    cases known
    exact toOption_edit id (.entry (scope, name)) .vacant
  | setFrameAttribute a policy =>
    cases known
    rw [apply_setFrameAttribute, AttributeTable.merge_eq]
    simp only [Frame.read?, Option.bind_some]
    rcases Entry.merge a policy (f.attributes.entry a.key) with e | w
    · rfl
    · rfl
  | removeFrameAttribute scope name =>
    cases known
    rfl

theorem apply_ok_iff_rewrite (known : c.rewrite? = some r) : c.apply x f = .ok g ↔
    ∃ v w, f.read? r.part = some v ∧ r.change v = .ok w ∧ f.write r.part w = g := by
  have ok : ∀ {α : Type} {y : Except Error α} {a : α}, y = .ok a ↔ y.toOption = some a := by
    intro α y a
    rcases y with e | b <;> simp [Except.toOption]
  rw [ok, toOption_apply known]
  simp only [Option.bind_eq_some_iff, Option.map_eq_some_iff, ← ok, exists_and_left]

end Command
end FrameFlow
