/-
# What a command changes

A command is accepted or refused as a whole, and it changes only what it is
about: one field of one detection, one entry of one table, or the list of
detections by one of them. Each command has its own relation between the frame
before and the frame after (`Command.Changes`), and its own reasons to be refused
(`Command.Refusal`); together they say what it does in every frame, and the
programs that change a frame in place keep to them too. An update that stops at a
command leaves what the commands in front of it leave.

Key definitions: `AttributeTable.Merged`, `Frame.Admitted`, `Frame.Removed`,
`Command.Changes`, `Command.Refusal`, `Command.ActsLocally`, `Update.StopsWhole`.
Key theorems: `Command.apply_ok_iff`, `Command.apply_error_iff`,
`Update.run_error_iff`, `Frame.changed_locally`.
-/
import FrameFlow.Proofs.Frame.InPlace

namespace FrameFlow

/-! ### Tables -/

namespace AttributeTable

/-- A table has a given entry under a key, or none, and under every other key what another has. -/
def DiffersAt (t : AttributeTable) (key : String × String) (entry : Option Attribute)
    (t' : AttributeTable) : Prop :=
  ∀ k, t'.find? k = if key = k then entry else t.find? k

/-- What a policy makes of a table into which an attribute is written. -/
inductive Merged (t : AttributeTable) (a : Attribute) :
    AttributePolicy → AttributeTable → Prop where
  | free {policy : AttributePolicy} {t' : AttributeTable} (free : t.find? a.key = none)
      (written : t.DiffersAt a.key (some a) t') : Merged t a policy t'
  | replaced {t' : AttributeTable} (taken : (t.find? a.key).isSome)
      (written : t.DiffersAt a.key (some a) t') : Merged t a .replace t'
  | kept (taken : (t.find? a.key).isSome) : Merged t a .keep t

variable {t t' : AttributeTable} {a : Attribute}

theorem has_eq (t : AttributeTable) (a : Attribute) :
    t.has a.scope a.name = (t.find? a.key).isSome := rfl

/-- There is one table only that differs in this way. -/
theorem DiffersAt.unique {u : AttributeTable} {key : String × String} {entry : Option Attribute}
    (one : t.DiffersAt key entry u) (other : t.DiffersAt key entry t') : t' = u :=
  SortedBy.ext_find? fun k => (other k).trans (one k).symm

theorem differsAt_insert (t : AttributeTable) (a : Attribute) :
    t.DiffersAt a.key (some a) (t.insert a) :=
  SortedBy.find?_insert t a

theorem differsAt_erase (t : AttributeTable) (key : String × String) :
    t.DiffersAt key none (t.erase key) :=
  SortedBy.find?_erase t key

/-- A merge is accepted with what the policy makes of the table. -/
theorem merge_ok_iff {policy : AttributePolicy} :
    t.merge a policy = .ok t' ↔ t.Merged a policy t' := by
  constructor
  · intro merged
    unfold merge at merged
    rw [has_eq] at merged
    by_cases taken : (t.find? a.key).isSome
    · rw [if_pos taken] at merged
      cases policy with
      | replace =>
        cases merged
        exact .replaced taken (t.differsAt_insert a)
      | keep =>
        cases merged
        exact .kept taken
      | refuse => cases merged
    · rw [if_neg taken] at merged
      cases merged
      exact .free (by simpa using taken) (t.differsAt_insert a)
  · intro merged
    unfold merge
    rw [has_eq]
    cases merged with
    | free free written =>
      rw [free, (t.differsAt_insert a).unique written]
      rfl
    | replaced taken written => rw [if_pos taken, (t.differsAt_insert a).unique written]
    | kept taken => rw [if_pos taken]

theorem merge_error_iff {policy : AttributePolicy} {e : Error} : t.merge a policy = .error e ↔
    (t.find? a.key).isSome ∧ policy = .refuse ∧ e = .attributeTaken a.scope a.name := by
  unfold merge
  rw [has_eq]
  by_cases taken : (t.find? a.key).isSome
  · cases policy <;> simp [taken, eq_comm]
  · simp [taken]

end AttributeTable

/-! ### Detections -/

namespace Frame

/-- The first detection with an identifier is taken out of a frame, and nothing else. -/
def Removed (f : Frame) (id : Int64) (g : Frame) : Prop :=
  ∃ before d later, f.detections = before ++ d :: later ∧ d.id = id ∧ (∀ e ∈ before, e.id ≠ id) ∧
    g = { f with detections := before ++ later }

/-- What a policy makes of a frame to which a detection is added. -/
inductive Admitted (f : Frame) (d : Detection) : DetectionPolicy → Frame → Prop where
  | free {policy : DetectionPolicy} (free : f.find? d.id = none) :
      Admitted f d policy { f with detections := f.detections ++ [d] }
  | renumbered {id : Int64} (taken : f.has d.id) (next : f.nextId? = some id) :
      Admitted f d .renumber { f with detections := f.detections ++ [{ d with id := id }] }
  | replaced {g : Frame} (rewritten : f.Rewritten d.id (fun _ => d) g) : Admitted f d .replace g

/-- The attributes of the first detection with an identifier are changed in a frame, and nothing
else. -/
def Retabled (f : Frame) (id : Int64) (change : AttributeTable → AttributeTable → Prop)
    (g : Frame) : Prop :=
  ∃ d t, f.find? id = some d ∧ change d.attributes t ∧
    f.Rewritten id (fun d => { d with attributes := t }) g

variable {f g : Frame} {x : Int} {id : Int64} {e : Error}

theorem removed_iff : f.Removed id g ↔ f.has id ∧ g = f.remove id := by
  constructor
  · intro removed
    obtain ⟨before, d, later, split, here, others, e⟩ := removed
    refine ⟨has_of_find? (find?_split split here others), ?_⟩
    rw [e, remove_split split here others]
  · intro there
    obtain ⟨has, rfl⟩ := there
    obtain ⟨d, found⟩ := Option.isSome_iff_exists.mp has
    obtain ⟨before, later, split, here, others⟩ := split_of_find? found
    exact ⟨before, d, later, split, here, others, remove_split split here others⟩

/-- An edit is accepted with the change of the first detection. -/
theorem edit_ok_iff {change : Detection → Detection} :
    f.edit x id change = .ok g ↔ f.Rewritten id change g := by
  rw [edit, rewritten_iff]
  by_cases there : f.has id
  · simp [there, eq_comm]
  · simp [there]

theorem edit_error_iff {change : Detection → Detection} : f.edit x id change = .error e ↔
    f.find? id = none ∧ e = .detectionNotFound x id := by
  rw [edit, ← has_eq_false_iff]
  by_cases there : f.has id
  · simp [there]
  · simp [there, eq_comm]

theorem admit_ok_iff {d : Detection} {policy : DetectionPolicy} :
    f.admit x d policy = .ok g ↔ f.Admitted d policy g := by
  constructor
  · intro admitted
    unfold Frame.admit at admitted
    by_cases taken : f.has d.id
    · rw [if_pos taken] at admitted
      cases policy with
      | renumber =>
        rcases next : f.nextId? with _ | n
        · simp only [next] at admitted
          cases admitted
        · simp only [next] at admitted
          cases admitted
          exact .renumbered taken next
      | refuse => cases admitted
      | replace =>
        cases admitted
        exact .replaced (rewritten_modify taken fun _ => d)
    · rw [if_neg taken] at admitted
      cases admitted
      exact .free (has_eq_false_iff.mp (by simpa using taken))
  · intro admitted
    unfold Frame.admit
    cases admitted with
    | free free =>
      rw [has_eq_false_iff.mpr free]
      rfl
    | renumbered taken next =>
      rw [if_pos taken]
      simp only [next]
      rfl
    | replaced rewritten =>
      obtain ⟨taken, rfl⟩ := rewritten_iff.mp rewritten
      rw [if_pos taken]

theorem admit_error_iff {d : Detection} {policy : DetectionPolicy} :
    f.admit x d policy = .error e ↔ f.has d.id ∧
      (policy = .refuse ∧ e = .detectionTaken x d.id ∨
        policy = .renumber ∧ f.nextId? = none ∧ e = .idsExhausted x) := by
  unfold Frame.admit
  by_cases taken : f.has d.id
  · cases policy with
    | renumber => rcases f.nextId? with _ | n <;> simp [taken, eq_comm]
    | refuse => simp [taken, eq_comm]
    | replace => simp [taken]
  · simp [taken]

end Frame

/-! ### Commands -/

namespace Command

/-- The detection that has to be there for a command. -/
def target? : Command → Option Int64
  | setConfidence id _ | setBox id _ | setTrack id _ | setLabel id _ | setDrawLabel id _ => some id
  | removeDetection id | setAttribute id .. | removeAttribute id .. => some id
  | addDetection .. | setFrameAttribute .. | removeFrameAttribute .. => none

/-- What a command that is accepted makes of a frame. -/
def Changes (f g : Frame) : Command → Prop
  | setConfidence id confidence => f.Rewritten id (fun d => { d with confidence := confidence }) g
  | setBox id box => f.Rewritten id (fun d => { d with box := box }) g
  | setTrack id track => f.Rewritten id (fun d => { d with track := track }) g
  | setLabel id label => f.Rewritten id (fun d => { d with label := label }) g
  | setDrawLabel id label => f.Rewritten id (fun d => { d with drawLabel := label }) g
  | addDetection d policy => f.Admitted d policy g
  | removeDetection id => f.Removed id g
  | setAttribute id a policy => f.Retabled id (fun t t' => t.Merged a policy t') g
  | removeAttribute id scope name =>
    f.Retabled id (fun t t' => t.DiffersAt (scope, name) none t') g
  | setFrameAttribute a policy =>
    ∃ t, f.attributes.Merged a policy t ∧ g = { f with attributes := t }
  | removeFrameAttribute scope name =>
    ∃ t, f.attributes.DiffersAt (scope, name) none t ∧ g = { f with attributes := t }

/-- Why a command is refused. -/
inductive Refusal (x : Int) (f : Frame) : Command → Error → Prop where
  | absent {c : Command} {id : Int64} (about : c.target? = some id) (absent : f.find? id = none) :
      Refusal x f c (.detectionNotFound x id)
  | taken {d : Detection} (taken : f.has d.id) :
      Refusal x f (addDetection d .refuse) (.detectionTaken x d.id)
  | exhausted {d : Detection} (taken : f.has d.id) (exhausted : f.nextId? = none) :
      Refusal x f (addDetection d .renumber) (.idsExhausted x)
  | attributeTaken {id : Int64} {a : Attribute} {d : Detection} (found : f.find? id = some d)
      (taken : (d.attributes.find? a.key).isSome) :
      Refusal x f (setAttribute id a .refuse) (.attributeTaken a.scope a.name)
  | frameAttributeTaken {a : Attribute} (taken : (f.attributes.find? a.key).isSome) :
      Refusal x f (setFrameAttribute a .refuse) (.attributeTaken a.scope a.name)

variable {f g : Frame} {x : Int} {e : Error} {c : Command}

theorem apply_removeDetection_ok_iff {id : Int64} :
    (removeDetection id).apply x f = .ok g ↔ f.Removed id g := by
  rw [Frame.removed_iff, apply]
  by_cases there : f.has id
  · simp [there, eq_comm]
  · simp [there]

theorem apply_setAttribute_ok_iff {id : Int64} {a : Attribute} {policy : AttributePolicy} :
    (setAttribute id a policy).apply x f = .ok g ↔ (setAttribute id a policy).Changes f g := by
  constructor
  · intro accepted
    rcases found : f.find? id with _ | d
    · rw [apply_setAttribute_of_absent found] at accepted
      cases accepted
    · rw [apply_setAttribute_of_found found] at accepted
      rcases merged : d.attributes.merge a policy with e | t
      · rw [merged] at accepted
        cases accepted
      · rw [merged] at accepted
        cases accepted
        exact ⟨d, t, found, AttributeTable.merge_ok_iff.mp merged,
          Frame.rewritten_modify (Frame.has_of_find? found) _⟩
  · intro changes
    obtain ⟨d, t, found, merged, rewritten⟩ := changes
    obtain ⟨-, rfl⟩ := Frame.rewritten_iff.mp rewritten
    rw [apply_setAttribute_of_found found, AttributeTable.merge_ok_iff.mpr merged]
    rfl

theorem apply_removeAttribute_ok_iff {id : Int64} {scope name : String} :
    (removeAttribute id scope name).apply x f = .ok g ↔
      (removeAttribute id scope name).Changes f g := by
  refine Frame.edit_ok_iff.trans ⟨fun rewritten => ?_, fun changes => ?_⟩
  · obtain ⟨d, found⟩ := Option.isSome_iff_exists.mp (Frame.rewritten_iff.mp rewritten).1
    refine ⟨d, _, found, d.attributes.differsAt_erase (scope, name), ?_⟩
    refine (Frame.rewritten_congr found ?_).mp rewritten
    rfl
  · obtain ⟨d, t, found, erased, rewritten⟩ := changes
    have same : t = d.attributes.erase (scope, name) :=
      (d.attributes.differsAt_erase (scope, name)).unique erased
    exact (Frame.rewritten_congr found (by rw [same])).mpr rewritten

theorem apply_setFrameAttribute_ok_iff {a : Attribute} {policy : AttributePolicy} :
    (setFrameAttribute a policy).apply x f = .ok g ↔ (setFrameAttribute a policy).Changes f g := by
  rw [apply_setFrameAttribute]
  constructor
  · intro accepted
    rcases merged : f.attributes.merge a policy with e | t
    · rw [merged] at accepted
      cases accepted
    · rw [merged] at accepted
      cases accepted
      exact ⟨t, AttributeTable.merge_ok_iff.mp merged, rfl⟩
  · intro changes
    obtain ⟨t, merged, rfl⟩ := changes
    rw [AttributeTable.merge_ok_iff.mpr merged]
    rfl

theorem apply_removeFrameAttribute_ok_iff {scope name : String} :
    (removeFrameAttribute scope name).apply x f = .ok g ↔
      (removeFrameAttribute scope name).Changes f g := by
  constructor
  · intro accepted
    cases accepted
    exact ⟨_, f.attributes.differsAt_erase (scope, name), rfl⟩
  · intro changes
    obtain ⟨t, erased, rfl⟩ := changes
    rw [(f.attributes.differsAt_erase (scope, name)).unique erased]
    rfl

/-- A command is accepted with its change to the frame. -/
theorem apply_ok_iff : c.apply x f = .ok g ↔ c.Changes f g := by
  cases c with
  | setConfidence id confidence => exact Frame.edit_ok_iff
  | setBox id box => exact Frame.edit_ok_iff
  | setTrack id track => exact Frame.edit_ok_iff
  | setLabel id label => exact Frame.edit_ok_iff
  | setDrawLabel id label => exact Frame.edit_ok_iff
  | addDetection d policy => exact Frame.admit_ok_iff
  | removeDetection id => exact apply_removeDetection_ok_iff
  | setAttribute id a policy => exact apply_setAttribute_ok_iff
  | removeAttribute id scope name => exact apply_removeAttribute_ok_iff
  | setFrameAttribute a policy => exact apply_setFrameAttribute_ok_iff
  | removeFrameAttribute scope name => exact apply_removeFrameAttribute_ok_iff

/-- A command that asks for a detection is refused where there is none. -/
theorem apply_of_absent {id : Int64} (about : c.target? = some id) (absent : f.find? id = none) :
    c.apply x f = .error (.detectionNotFound x id) := by
  have edited : ∀ change, f.edit x id change = .error (.detectionNotFound x id) := fun change =>
    Frame.edit_error_iff.mpr ⟨absent, rfl⟩
  cases c with
  | addDetection d policy => cases about
  | setFrameAttribute a policy => cases about
  | removeFrameAttribute scope name => cases about
  | removeDetection i =>
    cases about
    simp [apply, Frame.has_eq_false_iff.mpr absent]
  | setAttribute i a policy =>
    cases about
    exact apply_setAttribute_of_absent absent
  | _ =>
    cases about
    exact edited _

/-- There is a reason for every refusal. -/
theorem refusal_of_apply (refused : c.apply x f = .error e) : c.Refusal x f e := by
  have edited : ∀ id change, c.target? = some id → f.edit x id change = .error e →
      c.Refusal x f e := by
    intro id change about refused
    obtain ⟨absent, rfl⟩ := Frame.edit_error_iff.mp refused
    exact .absent about absent
  cases c with
  | setConfidence id confidence => exact edited id _ rfl refused
  | setBox id box => exact edited id _ rfl refused
  | setTrack id track => exact edited id _ rfl refused
  | setLabel id label => exact edited id _ rfl refused
  | setDrawLabel id label => exact edited id _ rfl refused
  | addDetection d policy =>
    obtain ⟨taken, why⟩ := Frame.admit_error_iff.mp refused
    rcases why with ⟨rfl, rfl⟩ | ⟨rfl, exhausted, rfl⟩
    · exact .taken taken
    · exact .exhausted taken exhausted
  | removeDetection id =>
    by_cases there : f.has id
    · simp [apply, there] at refused
    · simp [apply, there] at refused
      rw [← refused]
      exact .absent rfl (Frame.has_eq_false_iff.mp (by simpa using there))
  | setAttribute id a policy =>
    rcases found : f.find? id with _ | d
    · rw [apply_setAttribute_of_absent found] at refused
      cases refused
      exact .absent rfl found
    · rw [apply_setAttribute_of_found found] at refused
      rcases merged : d.attributes.merge a policy with e' | t
      · rw [merged] at refused
        cases refused
        obtain ⟨taken, rfl, rfl⟩ := AttributeTable.merge_error_iff.mp merged
        exact .attributeTaken found taken
      · rw [merged] at refused
        cases refused
  | removeAttribute id scope name => exact edited id _ rfl refused
  | setFrameAttribute a policy =>
    rw [apply_setFrameAttribute] at refused
    rcases merged : f.attributes.merge a policy with e' | t
    · rw [merged] at refused
      cases refused
      obtain ⟨taken, rfl, rfl⟩ := AttributeTable.merge_error_iff.mp merged
      exact .frameAttributeTaken taken
    · rw [merged] at refused
      cases refused
  | removeFrameAttribute scope name => cases refused

/-- A command is refused for its reasons. -/
theorem apply_error_iff : c.apply x f = .error e ↔ c.Refusal x f e := by
  refine ⟨refusal_of_apply, fun refusal => ?_⟩
  cases refusal with
  | absent about absent => exact apply_of_absent about absent
  | taken taken => exact Frame.admit_error_iff.mpr ⟨taken, .inl ⟨rfl, rfl⟩⟩
  | exhausted taken exhausted =>
    exact Frame.admit_error_iff.mpr ⟨taken, .inr ⟨rfl, exhausted, rfl⟩⟩
  | attributeTaken found taken =>
    rw [apply_setAttribute_of_found found, AttributeTable.merge_error_iff.mpr ⟨taken, rfl, rfl⟩]
    rfl
  | frameAttributeTaken taken =>
    rw [apply_setFrameAttribute, AttributeTable.merge_error_iff.mpr ⟨taken, rfl, rfl⟩]
    rfl

end Command

/-! ### Updates -/

namespace Update

variable {x : Int} {f f' g : Frame} {c : Command} {e : Error}

theorem runList_of_ok (accepted : c.apply x f = .ok f') (cs : List Command) :
    runList x f (c :: cs) = runList x f' cs := by
  rw [runList, accepted]

theorem runList_of_error (refused : c.apply x f = .error e) (cs : List Command) :
    runList x f (c :: cs) = (f, .error e) := by
  rw [runList, refused]

/-- What every command keeps that is accepted, a run keeps, wherever it stops. -/
theorem runList_keeps {P : Frame → Prop} {cs : List Command}
    (step : ∀ c ∈ cs, ∀ {f g}, P f → c.apply x f = .ok g → P g) (h : P f) :
    P (runList x f cs).1 := by
  induction cs generalizing f with
  | nil => exact h
  | cons c cs ih =>
    have rest : ∀ c' ∈ cs, ∀ {f g}, P f → c'.apply x f = .ok g → P g := fun c' hc =>
      step c' (List.mem_cons_of_mem c hc)
    rcases applied : c.apply x f with e | f'
    · rw [runList_of_error applied]
      exact h
    · rw [runList_of_ok applied]
      exact ih rest (step c List.mem_cons_self h applied)

theorem runList_append {before : List Command} (ran : runList x f before = (g, .ok ()))
    (later : List Command) : runList x f (before ++ later) = runList x g later := by
  induction before generalizing f with
  | nil =>
    cases ran
    rfl
  | cons c cs ih =>
    rcases applied : c.apply x f with e | f'
    · rw [runList_of_error applied] at ran
      cases ran
    · rw [runList_of_ok applied] at ran
      rw [List.cons_append, runList_of_ok applied, ih ran]

/-- Where a run is refused, it stops at a command, and leaves what those in front of it leave. -/
theorem stops_of_runList : ∀ {cs : List Command} {f : Frame}, runList x f cs = (g, .error e) →
    ∃ before c later, cs = before ++ c :: later ∧ runList x f before = (g, .ok ()) ∧
      c.apply x g = .error e
  | [], _, stopped => by cases stopped
  | c :: cs, f, stopped => by
    rcases applied : c.apply x f with e' | f'
    · rw [runList_of_error applied] at stopped
      cases stopped
      exact ⟨[], c, cs, rfl, rfl, applied⟩
    · rw [runList_of_ok applied] at stopped
      obtain ⟨before, c', later, rfl, ran, refused⟩ := stops_of_runList stopped
      exact ⟨c :: before, c', later, rfl, (runList_of_ok applied before).trans ran, refused⟩

/-- An update is refused at the first command that is, with what those in front of it leave. -/
theorem run_error_iff {u : Update} : u.run x f = (g, .error e) ↔
    ∃ before c later, u.commands = before ++ c :: later ∧ Update.run x f ⟨before⟩ = (g, .ok ()) ∧
      c.apply x g = .error e := by
  constructor
  · intro stopped
    exact stops_of_runList stopped
  · intro stops
    obtain ⟨before, c, later, split, ran, refused⟩ := stops
    calc u.run x f = runList x f (before ++ c :: later) := by rw [run, split]
      _ = runList x g (c :: later) := runList_append ran _
      _ = (g, .error e) := runList_of_error refused later

end Update

/-! ### Every frame -/

/-- What a command does to a frame that it changes in place. -/
structure Command.ActsLocally (c : Command) (x : Int) (f : Frame) : Prop where
  /-- It does what the command does, or nothing. -/
  attempt : c.inPlace x f = InPlace.attempt f (c.apply x f)
  /-- It is accepted with its change to the frame. -/
  accepted : ∀ {g}, c.inPlace x f = .ok () g ↔ c.Changes f g
  /-- It is refused for its reasons. -/
  refused : ∀ {e}, (∃ g, c.inPlace x f = .error e g) ↔ c.Refusal x f e
  /-- Then the frame is as it was. -/
  atomic : ∀ {e g}, c.inPlace x f = .error e g → g = f

/-- What an update leaves of a frame. -/
structure Update.StopsWhole (u : Update) (x : Int) (f : Frame) : Prop where
  /-- It is the same in place. -/
  inPlace : InPlace.left (u.inPlace x f) = u.run x f
  /-- Where it is refused, it stops at a command that is, with all that those in front of it did,
  and nothing else. -/
  stops : ∀ {e g}, u.run x f = (g, .error e) ↔ ∃ before c later,
    u.commands = before ++ c :: later ∧ Update.run x f ⟨before⟩ = (g, .ok ()) ∧ c.Refusal x g e

/-- **Commands are atomic and local.** In every frame, a command that is refused leaves the frame as
it was, and one that is accepted changes nothing but what it addresses; and an update that is
refused leaves what the commands in front of the refused one have made of the frame. -/
theorem Frame.changed_locally (x : Int) (f : Frame) :
    (∀ c : Command, c.ActsLocally x f) ∧ ∀ u : Update, u.StopsWhole x f := by
  refine ⟨fun c => ?command, fun u => ?update⟩
  case command =>
    have attempt := c.inPlace_eq x f
    refine ⟨attempt, ?_, ?_, ?_⟩
    · intro g
      rw [attempt, InPlace.attempt_ok_iff]
      exact Command.apply_ok_iff
    · intro e
      rw [attempt, ← Command.apply_error_iff]
      simp [InPlace.attempt_error_iff]
    · intro e g refused
      rw [attempt] at refused
      exact (InPlace.attempt_error_iff.mp refused).2
  case update =>
    refine ⟨u.inPlace_eq x f, fun {e g} => ?_⟩
    rw [Update.run_error_iff]
    simp only [Command.apply_error_iff]

/-- Of two detections with one identifier the first gets a new label, and this stays when there is
no detection to be taken out. -/
example :
    let car : Detection := .plain 7 "model" "car" default
    let f : Frame := { Frame.blank "camera" 0 with detections := [car, car] }
    InPlace.left (Update.inPlace 1 ⟨[.setLabel 7 "bus", .removeDetection 8]⟩ f) =
      ({ f with detections := [{ car with label := "bus" }, car] },
        .error (.detectionNotFound 1 8)) := by
  rfl

end FrameFlow
