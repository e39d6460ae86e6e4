/-
# Independent updates commute

Two commands with different footprints do not see each other: neither writes what the
other reads, so each is accepted in front of the other or behind it alike, and what
both of them write comes to the same (`Command.swap`). So a command may be moved past
a run of commands that rewrite other parts (`Update.swap_runList`), and one update past
another (`Update.swap_runs`).

Key definitions: `Update.Apart`, `Update.Commute`.
Key theorems: `Command.read?_of_apply`, `Command.swap`, `Update.apart_commute`.
-/
import FrameFlow.Proofs.Frame.Parts

namespace FrameFlow

variable {x : Int} {f g h : Frame}

namespace Command

variable {c c' : Command} {r r' : Rewrite}

/-- A command leaves all parts of a frame alone but the one that it rewrites. -/
theorem read?_of_apply (known : c.rewrite? = some r) (accepted : c.apply x f = .ok g) {q : Part}
    (ne : r.part ≠ q) : g.read? q = f.read? q := by
  obtain ⟨v, w, -, -, rfl⟩ := (apply_ok_iff_rewrite known).mp accepted
  exact f.read?_write_ne w ne

/-- Two commands that rewrite different parts may be run in either order. -/
theorem swap (known : c.rewrite? = some r) (known' : c'.rewrite? = some r')
    (ne : r.part ≠ r'.part) (first : c.apply x f = .ok g) (second : c'.apply x g = .ok h) :
    ∃ g', c'.apply x f = .ok g' ∧ c.apply x g' = .ok h := by
  have unseen : g.read? r'.part = f.read? r'.part := read?_of_apply known first ne
  obtain ⟨v, w, read, changed, rfl⟩ := (apply_ok_iff_rewrite known).mp first
  obtain ⟨v', w', read', changed', rfl⟩ := (apply_ok_iff_rewrite known').mp second
  rw [unseen] at read'
  have moved : c'.apply x f = .ok (f.write r'.part w') :=
    (apply_ok_iff_rewrite known').mpr ⟨v', w', read', changed', rfl⟩
  have still : (f.write r'.part w').read? r.part = some v := by
    rw [read?_of_apply known' moved ne.symm, read]
  refine ⟨_, moved, (apply_ok_iff_rewrite known).mpr ⟨v, w, still, changed, ?_⟩⟩
  exact (f.write_comm w w' ne).symm

end Command

namespace Update

/-- Two commands rewrite different parts of a frame. -/
def Independent (c c' : Command) : Prop :=
  ∃ p q, c.footprint? = some p ∧ c'.footprint? = some q ∧ p ≠ q

theorem runList_cons_ok {c : Command} {cs : List Command} :
    runList x f (c :: cs) = (h, .ok ()) ↔
      ∃ g, c.apply x f = .ok g ∧ runList x g cs = (h, .ok ()) := by
  rcases applied : c.apply x f with e | g
  · rw [runList_of_error applied]
    simp
  · rw [runList_of_ok applied]
    simp

theorem apply_ok_iff {u : Update} : u.apply x f = .ok g ↔ runList x f u.commands = (g, .ok ()) := by
  unfold apply run
  rcases runList x f u.commands with ⟨g', e | ⟨⟩⟩
  · simp
  · simp

/-- A command may be moved behind a run of commands that are all independent of it. -/
theorem swap_runList {c : Command} {cs : List Command} (apart : ∀ c' ∈ cs, Independent c c')
    (first : c.apply x f = .ok g) (ran : runList x g cs = (h, .ok ())) :
    ∃ g', runList x f cs = (g', .ok ()) ∧ c.apply x g' = .ok h := by
  induction cs generalizing f g with
  | nil =>
    cases ran
    exact ⟨f, rfl, first⟩
  | cons c' cs ih =>
    obtain ⟨mid, second, rest⟩ := runList_cons_ok.mp ran
    obtain ⟨p, q, print, print', ne⟩ := apart c' List.mem_cons_self
    rw [Command.footprint?_eq] at print print'
    obtain ⟨r, known, rfl⟩ := Option.map_eq_some_iff.mp print
    obtain ⟨r', known', rfl⟩ := Option.map_eq_some_iff.mp print'
    obtain ⟨f', moved, later⟩ := Command.swap known known' ne first second
    obtain ⟨g', ran', last⟩ := ih (fun d hd => apart d (List.mem_cons_of_mem c' hd)) later rest
    exact ⟨g', runList_cons_ok.mpr ⟨f', moved, ran'⟩, last⟩

/-- A run may be moved behind another one all of whose commands are independent of its own. -/
theorem swap_runs {cs ds : List Command} (apart : ∀ c ∈ cs, ∀ d ∈ ds, Independent c d)
    (first : runList x f cs = (g, .ok ())) (second : runList x g ds = (h, .ok ())) :
    ∃ g', runList x f ds = (g', .ok ()) ∧ runList x g' cs = (h, .ok ()) := by
  induction cs generalizing f with
  | nil =>
    cases first
    exact ⟨h, second, rfl⟩
  | cons c cs ih =>
    obtain ⟨mid, accepted, rest⟩ := runList_cons_ok.mp first
    obtain ⟨mid', ran, last⟩ := ih (fun c' hc => apart c' (List.mem_cons_of_mem c hc)) rest
    obtain ⟨f', ran', behind⟩ := swap_runList (apart c List.mem_cons_self) accepted ran
    exact ⟨f', ran', runList_cons_ok.mpr ⟨mid', behind, last⟩⟩

/-- The commands of two updates neither add nor take out detections, and none of the one rewrites
what one of the other does. -/
structure Apart (u v : Update) : Prop where
  rewrites : ∀ c ∈ u.commands, c.footprint?.isSome
  rewrites' : ∀ c ∈ v.commands, c.footprint?.isSome
  apart : ∀ c ∈ u.commands, ∀ d ∈ v.commands, c.footprint? ≠ d.footprint?

instance (u v : Update) : Decidable (u.Apart v) :=
  decidable_of_iff
    ((∀ c ∈ u.commands, c.footprint?.isSome) ∧ (∀ c ∈ v.commands, c.footprint?.isSome) ∧
      ∀ c ∈ u.commands, ∀ d ∈ v.commands, c.footprint? ≠ d.footprint?)
    ⟨fun all => ⟨all.1, all.2.1, all.2.2⟩, fun all => ⟨all.1, all.2, all.3⟩⟩

variable {u v : Update}

theorem Apart.symm (apart : u.Apart v) : v.Apart u :=
  ⟨apart.rewrites', apart.rewrites, fun d hd c hc => (apart.apart c hc d hd).symm⟩

theorem Apart.independent (apart : u.Apart v) {c d : Command} (hc : c ∈ u.commands)
    (hd : d ∈ v.commands) : Independent c d := by
  obtain ⟨p, print⟩ := Option.isSome_iff_exists.mp (apart.rewrites c hc)
  obtain ⟨q, print'⟩ := Option.isSome_iff_exists.mp (apart.rewrites' d hd)
  have ne := apart.apart c hc d hd
  rw [print, print'] at ne
  exact ⟨p, q, print, print', fun same => ne (congrArg some same)⟩

/-- One update behind another one. -/
theorem bind_apply_ok_iff : (u.apply x f >>= v.apply x) = .ok h ↔
    ∃ g, runList x f u.commands = (g, .ok ()) ∧ runList x g v.commands = (h, .ok ()) := by
  simp only [← apply_ok_iff]
  rcases u.apply x f with e | g
  · simp [bind, Except.bind]
  · simp [bind, Except.bind]

/-- What comes of two updates one behind the other comes of them in the other order. -/
theorem bind_apply_comm (apart : u.Apart v) (done : (u.apply x f >>= v.apply x) = .ok h) :
    (v.apply x f >>= u.apply x) = .ok h := by
  obtain ⟨g, first, second⟩ := bind_apply_ok_iff.mp done
  exact bind_apply_ok_iff.mpr (swap_runs (fun _ hc _ hd => apart.independent hc hd) first second)

/-- Two updates of a frame come to the same in both orders. -/
structure Commute (x : Int) (f : Frame) (u v : Update) : Prop where
  accepted : (∃ g, (u.apply x f >>= v.apply x) = .ok g) ↔ ∃ g, (v.apply x f >>= u.apply x) = .ok g
  same : ∀ g g', (u.apply x f >>= v.apply x) = .ok g → (v.apply x f >>= u.apply x) = .ok g' → g = g'

/-- **Independent updates commute.** Where no part of a frame is rewritten by both of two updates,
and neither adds or takes out detections, they are accepted in one order just when they are in the
other, and then they come to the same frame. -/
theorem apart_commute (x : Int) (f : Frame) {u v : Update} (apart : u.Apart v) :
    Commute x f u v where
  accepted := by
    constructor
    · rintro ⟨g, done⟩
      exact ⟨g, bind_apply_comm apart done⟩
    · rintro ⟨g, done⟩
      exact ⟨g, bind_apply_comm apart.symm done⟩
  same g g' one other := by
    have one' := bind_apply_comm apart one
    rw [one'] at other
    exact Except.ok.inj other

/-- Two updates are about the label and one attribute of a car, and about its confidence, another
attribute, and one of the frame. Both attributes must be new, and are. -/
theorem apart_commute_mixed :
    let car : Detection := .plain 7 "model" "car" default
    let f : Frame := { Frame.blank "camera" 0 with detections := [car, car] }
    let note (name : String) : Attribute := ⟨"model", name, [], none, true⟩
    let u : Update := ⟨[.setLabel 7 "bus", .setAttribute 7 (note "colour") .refuse]⟩
    let v : Update := ⟨[.setAttribute 7 (note "size") .refuse, .setConfidence 7 (some .zero),
      .setFrameAttribute (note "colour") .refuse]⟩
    u.Apart v ∧ Commute 1 f u v ∧ (u.apply 1 f >>= v.apply 1).isOk := by
  intro car f note u v
  have apart : u.Apart v := by decide
  exact ⟨apart, apart_commute 1 f apart, by decide⟩

/-- Updates that write one attribute do not commute: the one that must find it new is refused behind
the other. -/
example :
    let note : Attribute := ⟨"model", "colour", [], none, true⟩
    let f : Frame := .blank "camera" 0
    let u : Update := ⟨[.setFrameAttribute note .refuse]⟩
    let v : Update := ⟨[.setFrameAttribute note .replace]⟩
    (u.apply 1 f >>= v.apply 1).isOk ∧ ¬(v.apply 1 f >>= u.apply 1).isOk := by
  decide

end Update
end FrameFlow
