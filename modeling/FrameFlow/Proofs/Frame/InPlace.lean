/-
# Commands that change a frame in place

A command can be run on a frame that it changes as it goes: it looks a detection
up, works on what it has found, takes out before it asks whether there was
anything, and what it has written by the time that it is refused stays written.
Run like this, every command comes to its answer and to the frame of
`Command.apply`, or to the frame as it was: nothing is written before the last
reason to refuse is out of the way. An update in place leaves the frame of
`Update.run`.

Key definitions: `InPlace`, `Command.inPlace`, `Update.inPlace`, `InPlace.attempt`.
Key theorems: `Command.inPlace_eq`, `Update.inPlace_eq`.
-/
import FrameFlow.Command
import FrameFlow.Proofs.Frame.Detections

namespace FrameFlow

/-- A program on a cell. What it has written stays, also when it is refused. -/
abbrev InPlace (σ : Type) := EStateM Error σ

/-! ### Programs -/

namespace InPlace

/-- Works on a part of a cell. -/
def within {σ τ : Type} (part : σ → τ) (put : σ → τ → σ) (body : InPlace τ Unit) :
    InPlace σ Unit := fun s =>
  match body (part s) with
  | .ok () t => .ok () (put s t)
  | .error e t => .error e (put s t)

/-- Works on the attributes of a detection. -/
def onAttributes (body : InPlace AttributeTable Unit) : InPlace Detection Unit :=
  within Detection.attributes (fun d t => { d with attributes := t }) body

/-- Works on the attributes of a frame. -/
def onFrameAttributes (body : InPlace AttributeTable Unit) : InPlace Frame Unit :=
  within Frame.attributes (fun f t => { f with attributes := t }) body

/-- Works on the first detection with an identifier. -/
def onFirst (x : Int) (id : Int64) (body : InPlace Detection Unit) : InPlace Frame Unit := fun f =>
  match f.find? id with
  | none => .error (.detectionNotFound x id) f
  | some d => within (fun _ => d) (fun f d' => f.modify id fun _ => d') body f

/-- Writes an attribute into a table as a policy says. -/
def merge (a : Attribute) (policy : AttributePolicy) : InPlace AttributeTable Unit := do
  if (← get).has a.scope a.name then
    match policy with
    | .replace => modify (SortedBy.insert · a)
    | .keep => pure ()
    | .refuse => throw (.attributeTaken a.scope a.name)
  else modify (SortedBy.insert · a)

/-- Adds a detection as a policy says. -/
def addAs (x : Int) (d : Detection) (policy : DetectionPolicy) : InPlace Frame Unit := do
  if (← get).has d.id then
    match policy with
    | .renumber =>
      match (← get).nextId? with
      | some id => modify (Frame.add · { d with id := id })
      | none => throw (.idsExhausted x)
    | .refuse => throw (.detectionTaken x d.id)
    | .replace => modify (Frame.modify · d.id fun _ => d)
  else modify (Frame.add · d)

/-- Takes out the first detection with an identifier, and then asks whether there was one. -/
def remove (x : Int) (id : Int64) : InPlace Frame Unit := do
  let removed ← modifyGet fun f => (f.find? id, f.remove id)
  if removed.isNone then throw (.detectionNotFound x id)

end InPlace

open InPlace in
/-- A command in place. -/
def Command.inPlace (x : Int) : Command → InPlace Frame Unit
  | setConfidence id confidence => onFirst x id (modify ({ · with confidence := confidence }))
  | setBox id box => onFirst x id (modify ({ · with box := box }))
  | setTrack id track => onFirst x id (modify ({ · with track := track }))
  | setLabel id label => onFirst x id (modify ({ · with label := label }))
  | setDrawLabel id label => onFirst x id (modify ({ · with drawLabel := label }))
  | addDetection d policy => addAs x d policy
  | removeDetection id => remove x id
  | setAttribute id a policy => onFirst x id (onAttributes (merge a policy))
  | removeAttribute id scope name =>
    onFirst x id (onAttributes (modify (SortedBy.erase · (scope, name))))
  | setFrameAttribute a policy => onFrameAttributes (merge a policy)
  | removeFrameAttribute scope name =>
    onFrameAttributes (modify (SortedBy.erase · (scope, name)))

/-- An update in place: one command after another. -/
def Update.inPlace (x : Int) (u : Update) : InPlace Frame Unit :=
  u.commands.forM (Command.inPlace x)

/-! ### Commands on attributes -/

namespace Command

variable {x : Int} {f : Frame} {id : Int64} {a : Attribute} {policy : AttributePolicy}

theorem apply_setAttribute_of_absent (absent : f.find? id = none) :
    (setAttribute id a policy).apply x f = .error (.detectionNotFound x id) := by
  simp only [apply, absent]

theorem apply_setAttribute_of_found {d : Detection} (found : f.find? id = some d) :
    (setAttribute id a policy).apply x f = (d.attributes.merge a policy).map fun t =>
      f.modify id fun d => { d with attributes := t } := by
  simp only [apply, found]
  rcases d.attributes.merge a policy with e | t
  · rfl
  · rfl

theorem apply_setFrameAttribute : (setFrameAttribute a policy).apply x f =
    (f.attributes.merge a policy).map fun t => { f with attributes := t } := by
  simp only [apply]
  rcases f.attributes.merge a policy with e | t
  · rfl
  · rfl

end Command

/-! ### Attempts -/

namespace InPlace

/-- The cell after an attempt: the new one, or the old one where there is none. -/
def attempt {σ : Type} (s : σ) : Except Error σ → EStateM.Result Error σ Unit
  | .ok s' => .ok () s'
  | .error e => .error e s

/-- The cell that a program leaves, and whether it was refused. -/
def left {σ : Type} : EStateM.Result Error σ Unit → σ × Except Error Unit
  | .ok () s => (s, .ok ())
  | .error e s => (s, .error e)

theorem attempt_ok_iff {σ : Type} {s s' : σ} {r : Except Error σ} :
    attempt s r = .ok () s' ↔ r = .ok s' := by
  cases r with
  | ok t => simp [attempt]
  | error e => simp [attempt]

theorem attempt_error_iff {σ : Type} {s s' : σ} {e : Error} {r : Except Error σ} :
    attempt s r = .error e s' ↔ r = .error e ∧ s' = s := by
  cases r with
  | ok t => simp [attempt]
  | error e' => simp [attempt, eq_comm]

/-- An attempt at a part is an attempt at the whole, when nothing is seen of a part that is written
back as it was. -/
theorem within_eq {σ τ : Type} {part : σ → τ} {put : σ → τ → σ} {body : InPlace τ Unit} {s : σ}
    {r : Except Error τ} (inside : body (part s) = attempt (part s) r) (back : put s (part s) = s) :
    within part put body s = attempt s (r.map (put s)) := by
  unfold within
  rw [inside]
  cases r with
  | ok t => rfl
  | error e => exact congrArg (EStateM.Result.error e) back

/-- A program that looks at the cell goes on with what is there. -/
theorem get_bind {σ : Type} (next : σ → InPlace σ Unit) (s : σ) : (get >>= next) s = next s s := rfl

theorem bind_of_ok {σ : Type} {first next : InPlace σ Unit} {s t : σ} (h : first s = .ok () t) :
    (first >>= fun _ => next) s = next t := by
  simp only [bind, EStateM.bind, h]

/-- What is written before a refusal stays, and what comes after it is not run. -/
theorem bind_of_error {σ : Type} {first next : InPlace σ Unit} {s t : σ} {e : Error}
    (h : first s = .error e t) : (first >>= fun _ => next) s = .error e t := by
  simp only [bind, EStateM.bind, h]

/-- A merge writes nothing where it is refused. -/
theorem merge_eq (a : Attribute) (policy : AttributePolicy) (t : AttributeTable) :
    merge a policy t = attempt t (t.merge a policy) := by
  unfold merge
  rw [get_bind]
  by_cases taken : t.has a.scope a.name
  · cases policy with
    | replace => simp only [AttributeTable.merge, taken, if_true]; rfl
    | keep => simp only [AttributeTable.merge, taken, if_true]; rfl
    | refuse => simp only [AttributeTable.merge, taken, if_true]; rfl
  · simp only [AttributeTable.merge, taken, if_false, Bool.false_eq_true]; rfl

theorem addAs_eq (x : Int) (d : Detection) (policy : DetectionPolicy) (f : Frame) :
    addAs x d policy f = attempt f ((Command.addDetection d policy).apply x f) := by
  unfold addAs Command.apply Frame.admit
  rw [get_bind]
  by_cases taken : f.has d.id
  · cases policy with
    | renumber =>
      simp only [taken, if_true, get_bind]
      rcases f.nextId? with _ | id
      · rfl
      · rfl
    | refuse => simp only [taken, if_true]; rfl
    | replace => simp only [taken, if_true]; rfl
  · simp only [taken, if_false, Bool.false_eq_true]; rfl

/-- Where there is nothing to take out, nothing has been taken out. -/
theorem remove_eq (x : Int) (id : Int64) (f : Frame) : remove x id f =
    attempt f (if f.has id then .ok (f.remove id) else .error (.detectionNotFound x id)) := by
  -- by the time of the question the detection is out of the frame
  have asked : remove x id f = (if (f.find? id).isNone then throw (.detectionNotFound x id)
      else pure () : InPlace Frame Unit) (f.remove id) := rfl
  rw [asked]
  rcases found : f.find? id with _ | d
  · rw [Frame.remove_of_absent found]
    simp only [Frame.has, found, Option.isNone_none, Option.isSome_none, if_true, if_false,
      Bool.false_eq_true]
    rfl
  · simp only [Frame.has, found, Option.isNone_some, Option.isSome_some, if_true, if_false,
      Bool.false_eq_true]
    rfl

section First

variable {x : Int} {id : Int64} {f : Frame}

theorem onFirst_of_absent (absent : f.find? id = none) (body : InPlace Detection Unit) :
    onFirst x id body f = .error (.detectionNotFound x id) f := by
  unfold onFirst
  rw [absent]

/-- An attempt at the detection that is found is an attempt at the frame. -/
theorem onFirst_of_found {d : Detection} (found : f.find? id = some d)
    {body : InPlace Detection Unit} {r : Except Error Detection} (inside : body d = attempt d r) :
    onFirst x id body f = attempt f (r.map fun d' => f.modify id fun _ => d') := by
  unfold onFirst
  rw [found]
  exact within_eq inside (Frame.modify_self found)

/-- A program that always changes the detection edits the frame. -/
theorem onFirst_change {body : InPlace Detection Unit} {change : Detection → Detection}
    (inside : ∀ d, body d = .ok () (change d)) :
    onFirst x id body f = attempt f (f.edit x id change) := by
  rcases found : f.find? id with _ | d
  · have absent : f.has id = false := Frame.has_eq_false_iff.mpr found
    rw [onFirst_of_absent found, Frame.edit, absent]
    rfl
  · have there : f.has id = true := Frame.has_of_find? found
    have tried : body d = attempt d (.ok (change d)) := inside d
    calc onFirst x id body f
        = .ok () (f.modify id fun _ => change d) := onFirst_of_found found tried
      _ = .ok () (f.modify id change) :=
        congrArg (EStateM.Result.ok ()) (Frame.modify_congr found rfl)
      _ = attempt f (f.edit x id change) := by rw [Frame.edit, there]; rfl

theorem onFirst_merge (a : Attribute) (policy : AttributePolicy) :
    onFirst x id (onAttributes (merge a policy)) f =
      attempt f ((Command.setAttribute id a policy).apply x f) := by
  rcases found : f.find? id with _ | d
  · rw [Command.apply_setAttribute_of_absent found]
    exact onFirst_of_absent found _
  · have tried : onAttributes (merge a policy) d = attempt d
        ((d.attributes.merge a policy).map fun t => { d with attributes := t }) :=
      within_eq (merge_eq a policy d.attributes) rfl
    rw [Command.apply_setAttribute_of_found found, onFirst_of_found found tried]
    rcases d.attributes.merge a policy with e | t
    · rfl
    · exact congrArg (EStateM.Result.ok ()) (Frame.modify_congr found rfl)

end First

end InPlace

open InPlace in
/-- **A command in place is the command.** Where it is refused, it has written nothing. -/
theorem Command.inPlace_eq (x : Int) (c : Command) (f : Frame) :
    c.inPlace x f = attempt f (c.apply x f) := by
  cases c with
  | setConfidence id confidence => exact onFirst_change fun _ => rfl
  | setBox id box => exact onFirst_change fun _ => rfl
  | setTrack id track => exact onFirst_change fun _ => rfl
  | setLabel id label => exact onFirst_change fun _ => rfl
  | setDrawLabel id label => exact onFirst_change fun _ => rfl
  | addDetection d policy => exact addAs_eq x d policy f
  | removeDetection id => exact remove_eq x id f
  | setAttribute id a policy => exact onFirst_merge a policy
  | removeAttribute id scope name => exact onFirst_change fun _ => rfl
  | setFrameAttribute a policy =>
    have tried : onFrameAttributes (merge a policy) f = attempt f
        ((f.attributes.merge a policy).map fun t => { f with attributes := t }) :=
      within_eq (merge_eq a policy f.attributes) rfl
    rw [apply_setFrameAttribute]
    exact tried
  | removeFrameAttribute scope name => rfl

open InPlace in
/-- An update in place leaves what the update leaves, and answers the same. -/
theorem Update.inPlace_eq (x : Int) (u : Update) (f : Frame) :
    left (u.inPlace x f) = u.run x f := by
  have list : ∀ (cs : List Command) (f : Frame),
      left (cs.forM (Command.inPlace x) f) = runList x f cs := by
    intro cs
    induction cs with
    | nil =>
      intro f
      rfl
    | cons c cs ih =>
      intro f
      have step := c.inPlace_eq x f
      show left ((c.inPlace x >>= fun _ => cs.forM (Command.inPlace x)) f) = _
      rw [runList]
      rcases applied : c.apply x f with e | f'
      · rw [applied] at step
        rw [bind_of_error step]
        rfl
      · rw [applied] at step
        rw [bind_of_ok step]
        exact ih f'
  exact list u.commands f

end FrameFlow
