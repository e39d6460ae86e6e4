/-
# Pipelines stay apart

A process has many pipelines, and the slot of one that was let go is used again for
another one. Still whoever holds the handle of one pipeline sees nothing of the
others: what is told by the handle is what would be told if nothing had been asked
but what concerns this handle. Once the pipeline was let go, everything by its
handle fails, whatever comes into its slot, and that holds for the objects of a
script, too.

The run with the others and the one without go side by side. At each step what is
asked is by the handle, and then the same is done in both; or it is about something
else, and the run without the others stands still; or it brings in the pipeline, as
the only one of the run without the others (`Host.Shadow.step`).

Key definitions: `Host.Step`, `Host.Shadow`, `Host.Gone`, `Host.Apart`.
Key theorems: `Host.ask_cases`, `Host.Shadow.step`, `Host.Shadow.run`,
`Host.Gone.run`, `Host.pipelines_apart`.
-/
import FrameFlow.Proofs.Host.Addressing
import FrameFlow.Proofs.Host.Sessions

namespace FrameFlow
namespace Host

variable {h g : Host} {k : Handle} {ks : List Handle}

/-! ### One step -/

/-- What is asked is by a handle, or does nothing to any pipeline, or issues a handle that was not
issued before. -/
inductive Step (h : Host) (ks : List Handle) (a : Ask) : Prop where
  | addressed (j : Handle) (about : a.handle? = some j) (quiet : (a.run h).1.issued? = none)
  | idle (unaddressed : a.handle? = none) (quiet : (a.run h).1.issued? = none)
      (same : (a.run h).2.pipelines = h.pipelines)
  | issued (p : Pipeline) (form : Handle → Told) (unaddressed : a.handle? = none)
      (brings : a.Issues p form) (fresh : (h.pipelines.insert p).1 ∉ ks)
      (tells : (a.run h).1.issued? = some (h.pipelines.insert p).1)

/-- The handles that are issued after one more step. -/
def issuedBy (h : Host) (ks : List Handle) (a : Ask) : List Handle :=
  ks ++ (a.run h).1.issued?.toList

/-- What is asked by a handle does behind others nothing at all. -/
theorem get?_of_other {a : Ask} {j : Handle} (about : a.handle? = some j) (other : j ≠ k) :
    (a.run h).2.pipelines.get? k = h.pipelines.get? k := by
  obtain ⟨s, done⟩ := Ask.run_behind h about
  exact done.get?_ne other

section

variable (issues : h.pipelines.Issues ks) (room : ks.length + 1 < Handle.span) (a : Ask)
include issues room

theorem ask_cases : Step h ks a := by
  rcases about : a.handle? with _ | j
  · rcases Ask.run_unaddressed about with idle | ⟨p, form, brings⟩
    · obtain ⟨same, quiet⟩ := idle h
      exact .idle about quiet same
    · obtain ⟨fresh, positive, named, -⟩ := issues.insert p room
      refine .issued p form about brings fresh ?_
      rw [brings.told]
      exact brings.issued _ named positive
  · exact .addressed j about (Ask.not_issued about)

/-- The handles of a host are told, one step more. -/
theorem issues_step : (a.run h).2.pipelines.Issues (issuedBy h ks a) := by
  unfold issuedBy
  cases ask_cases issues room a with
  | addressed j about quiet =>
    obtain ⟨s, done⟩ := Ask.run_behind h about
    rw [quiet, Option.toList_none, List.append_nil]
    exact done.issues issues room
  | idle unaddressed quiet same =>
    rw [quiet, Option.toList_none, List.append_nil, same]
    exact issues
  | issued p form unaddressed brings fresh tells =>
    obtain ⟨-, -, -, more⟩ := issues.insert p room
    rw [tells, brings.done]
    exact more

end

theorem issued_cons (a : Ask) (as : List Ask) : issued (h.history (a :: as)) =
    (a.run h).1.issued?.toList ++ issued ((a.run h).2.history as) := by
  show List.filterMap _ ((a, (a.run h).1) :: (a.run h).2.history as) = _
  rw [List.filterMap_cons]
  rcases (a.run h).1.issued? with _ | j
  · rfl
  · rfl

/-- There is room for the next handle, and for the rest. -/
theorem room_cons {a : Ask} {as : List Ask}
    (room : ks.length + (issued (h.history (a :: as))).length + 1 < Handle.span) :
    ks.length + 1 < Handle.span ∧
      (issuedBy h ks a).length + (issued ((a.run h).2.history as)).length + 1 < Handle.span := by
  unfold issuedBy
  rw [issued_cons, List.length_append] at room
  rw [List.length_append]
  omega

/-! ### The run without the others -/

/-- The same is asked by another handle, and the same is told. -/
def Entry.Alike (k k' : Handle) (e e' : Entry) : Prop :=
  e'.1 = e.1.aim k' ∧ e.2.Alike k k' e'.2

/-- What of a history concerns a handle. -/
def concerning (k : Handle) (es : List Entry) : List Entry := es.filter (Entry.concerns k)

/-- What is told by a handle is told by the first one, too, when nothing else is asked. -/
def ToldAlone (k : Handle) (h g : Host) (asks : List Ask) : Prop :=
  List.Forall₂ (Entry.Alike k .first) (concerning k (h.history asks))
    (g.history ((concerning k (h.history asks)).map fun e => e.1.aim .first))

theorem ToldAlone.skip {a : Ask} {asks : List Ask}
    (other : Entry.concerns k (a, (a.run h).1) = false) (rest : ToldAlone k (a.run h).2 g asks) :
    ToldAlone k h g (a :: asks) := by
  have left : concerning k (h.history (a :: asks)) = concerning k ((a.run h).2.history asks) :=
    List.filter_cons_of_neg (by simp [other])
  unfold ToldAlone
  rw [left]
  exact rest

theorem ToldAlone.keep {a : Ask} {asks : List Ask}
    (own : Entry.concerns k (a, (a.run h).1) = true)
    (alike : Told.Alike k .first (a.run h).1 ((a.aim .first).run g).1)
    (rest : ToldAlone k (a.run h).2 ((a.aim .first).run g).2 asks) :
    ToldAlone k h g (a :: asks) := by
  have left : concerning k (h.history (a :: asks)) =
      (a, (a.run h).1) :: concerning k ((a.run h).2.history asks) :=
    List.filter_cons_of_pos own
  unfold ToldAlone
  rw [left]
  exact .cons ⟨rfl, alike⟩ rest

/-- A host has of one pipeline what another one has of its first, and this one has no pipeline
before the handle is issued. -/
structure Shadow (k : Handle) (h g : Host) (ks : List Handle) : Prop where
  issues : h.pipelines.Issues ks
  same : h.pipelines.get? k = g.pipelines.get? .first
  start : k ∉ ks → g.pipelines = .empty

theorem Shadow.step (s : Shadow k h g ks) (room : ks.length + 1 < Handle.span) (a : Ask) :
    (Entry.concerns k (a, (a.run h).1) = false ∧ Shadow k (a.run h).2 g (issuedBy h ks a)) ∨
      (Entry.concerns k (a, (a.run h).1) = true ∧
        Told.Alike k .first (a.run h).1 ((a.aim .first).run g).1 ∧
        Shadow k (a.run h).2 ((a.aim .first).run g).2 (issuedBy h ks a)) := by
  have issues := issues_step s.issues room a
  -- What was not issued by now was not issued before.
  have older : k ∉ issuedBy h ks a → k ∉ ks := mt (List.mem_append_left _)
  cases ask_cases s.issues room a with
  | addressed j about quiet =>
    by_cases own : j = k
    · subst own
      obtain ⟨alike, done⟩ := Ask.run_agrees s.same about
      refine .inr ⟨by simp [Entry.concerns, about], alike, issues, done.get? s.same, fun new => ?_⟩
      have empty := s.start (older new)
      have dead : g.pipelines.get? .first = none := by
        rw [empty]
        rfl
      rw [done.symm.eq_of_dead dead, empty]
    · refine .inl ⟨by simp [Entry.concerns, about, quiet, own], issues, ?_, s.start ∘ older⟩
      exact (get?_of_other about own).trans s.same
  | idle unaddressed quiet stays =>
    refine .inl ⟨by simp [Entry.concerns, unaddressed, quiet], issues, ?_, s.start ∘ older⟩
    rw [stays]
    exact s.same
  | issued p form unaddressed brings fresh tells =>
    have get := Registry.get?_insert s.issues.sound p k
    rw [← brings.done] at get
    by_cases own : (h.pipelines.insert p).1 = k
    · rw [if_pos own] at get
      have empty := s.start (own ▸ fresh)
      have known : k ∈ issuedBy h ks a := by
        unfold issuedBy
        rw [tells, own]
        exact List.mem_append_right _ (List.mem_singleton_self k)
      refine .inr ⟨by simp [Entry.concerns, tells, own], ?_, issues, ?_, absurd known⟩
      · rw [Ask.aim_of_unaddressed unaddressed, brings.told, brings.told, own, empty]
        exact brings.alike _ _
      · rw [get, Ask.aim_of_unaddressed unaddressed, brings.done, empty]
        rfl
    · rw [if_neg own] at get
      refine .inl ⟨by simp [Entry.concerns, unaddressed, tells, own], issues, ?_, s.start ∘ older⟩
      exact get.trans s.same

/-- What is told of one pipeline among others is told of it alone, too. -/
theorem Shadow.run (asks : List Ask) : ∀ {h g : Host} {ks : List Handle}, Shadow k h g ks →
    ks.length + (issued (h.history asks)).length + 1 < Handle.span → ToldAlone k h g asks := by
  -- The hosts are general in the induction, as both of them go on.
  induction asks with
  | nil => exact fun _ _ => .nil
  | cons a asks ih =>
    intro h g ks s room
    obtain ⟨next, rest⟩ := room_cons room
    rcases s.step next a with ⟨other, s'⟩ | ⟨own, alike, s'⟩
    · exact .skip other (ih s' rest)
    · exact .keep own alike (ih s' rest)

/-! ### After letting go -/

/-- A handle was issued, and has nothing behind it. -/
structure Gone (k : Handle) (h : Host) (ks : List Handle) : Prop where
  issues : h.pipelines.Issues ks
  known : k ∈ ks
  dead : h.pipelines.get? k = none

theorem Gone.step (gone : Gone k h ks) (room : ks.length + 1 < Handle.span) (a : Ask) :
    Gone k (a.run h).2 (issuedBy h ks a) := by
  refine ⟨issues_step gone.issues room a, List.mem_append_left _ gone.known, ?_⟩
  cases ask_cases gone.issues room a with
  | addressed j about quiet =>
    by_cases own : j = k
    · subst own
      rw [(Ask.run_failed gone.dead about).2]
      exact gone.dead
    · exact (get?_of_other about own).trans gone.dead
  | idle unaddressed quiet same =>
    rw [same]
    exact gone.dead
  | issued p form unaddressed brings fresh tells =>
    have other : (h.pipelines.insert p).1 ≠ k := fun same => fresh (same ▸ gone.known)
    rw [brings.done, Registry.get?_insert gone.issues.sound, if_neg other]
    exact gone.dead

/-- A handle with nothing behind it has nothing behind it ever after. -/
theorem Gone.run (asks : List Ask) : ∀ {h : Host} {ks : List Handle}, Gone k h ks →
    ks.length + (issued (h.history asks)).length + 1 < Handle.span →
    (h.after asks).pipelines.get? k = none := by
  induction asks with
  | nil => exact fun gone _ => gone.dead
  | cons a asks ih =>
    intro h ks gone room
    obtain ⟨next, rest⟩ := room_cons room
    exact ih (gone.step next a) rest

/-- Who lets a pipeline go finds it and takes it out. -/
theorem Entry.Releases.done {a : Ask} (releases : Entry.Releases k (a, (a.run h).1)) :
    (h.pipelines.get? k).isSome ∧ (a.run h).2.pipelines = (h.pipelines.remove k).2 := by
  have released : (h.release k).1 = true →
      (h.pipelines.get? k).isSome ∧ (h.release k).2.pipelines = (h.pipelines.remove k).2 := by
    intro yes
    obtain ⟨answer, next⟩ := h.release_eq k
    exact ⟨answer.symm.trans yes, next⟩
  cases a with
  | release j =>
    obtain ⟨rfl, told⟩ := releases
    exact released (Told.flag.inj told)
  | foreign call =>
    cases call with
    | release j =>
      obtain ⟨rfl, told⟩ := releases
      exact released (Foreign.Answer.flag.inj (Told.foreign.inj told).1)
    | _ => exact releases.elim
  | method j name arguments =>
    obtain ⟨rfl, rfl, told⟩ := releases
    have told : (Script.releaseMethod.call j arguments h).1 = .ok (.bool true) :=
      Told.script.inj told
    show (h.pipelines.get? j).isSome ∧
      (Script.releaseMethod.call j arguments h).2.pipelines = (h.pipelines.remove j).2
    unfold Script.releaseMethod at told ⊢
    simp only at told ⊢
    rcases bound : Script.Signature.nil.bind arguments with e | ⟨⟩
    · rw [bound] at told
      cases told
    · simp only [bound, Except.ok.injEq, Script.Value.bool.injEq] at told
      exact released told
  | _ => exact releases.elim

/-- From the step on in which it is let go there is nothing behind a handle. -/
theorem dead_after_release (asks : List Ask) : ∀ {h : Host} {ks : List Handle},
    h.pipelines.Issues ks → ks.length + (issued (h.history asks)).length + 1 < Handle.span →
    (∃ e ∈ h.history asks, Entry.Releases k e) → (h.after asks).pipelines.get? k = none := by
  induction asks with
  | nil =>
    intro h ks _ _ released
    obtain ⟨e, none, -⟩ := released
    cases none
  | cons a asks ih =>
    intro h ks issues room released
    obtain ⟨next, rest⟩ := room_cons room
    have issues' := issues_step issues next a
    obtain ⟨e, here, releases⟩ := released
    rcases List.mem_cons.mp here with rfl | later
    · obtain ⟨there, done⟩ := releases.done
      obtain ⟨p, live⟩ := Option.isSome_iff_exists.mp there
      have known : k ∈ ks := issues.mem_of_get? live (Nat.lt_of_succ_lt next)
      have dead : (a.run h).2.pipelines.get? k = none := by
        rw [done, Registry.get?_remove, if_pos rfl]
      exact Gone.run asks ⟨issues', List.mem_append_left _ known, dead⟩ rest
    · exact ih issues' rest ⟨e, later, releases⟩

/-! ### Whole runs -/

/-- When the object of a handle is in no slot any more, no pipeline changes: it may be dropped from
its slot, or pushed out by another object. -/
structure GoesQuietly (s : Script.Session) (object : Handle) : Prop where
  drop : ∀ slot, s.slots.get? slot = some object →
    (s.drop slot).1 = .ok () ∧ (s.drop slot).2.host.pipelines = s.host.pipelines
  pushed : ∀ slots,
    (Script.Session.settle { s with slots := slots } (some object)).host.pipelines =
      s.host.pipelines

theorem goesQuietly_of_dead {s : Script.Session} (dead : s.host.pipelines.get? k = none) :
    GoesQuietly s k := by
  have pushed : ∀ slots, (Script.Session.settle { s with slots := slots } (some k)).host.pipelines =
      s.host.pipelines := by
    intro slots
    unfold Script.Session.settle
    simp only
    split
    · rfl
    · exact (Ask.run_failed (a := .release k) dead rfl).2
  refine ⟨fun slot there => ?_, pushed⟩
  unfold Script.Session.drop Script.Session.object
  simp only [there]
  exact ⟨trivial, pushed (s.slots.erase slot)⟩

/-- The pipelines of a process that was asked for something do not influence each other. -/
structure Apart (surroundings : Surroundings) (asks : List Ask) : Prop where
  /-- Whatever is told by a handle is told by the first handle of a process that is asked for
  nothing else. -/
  alone : ∀ k, ToldAlone k (fresh surroundings) (fresh surroundings) asks
  /-- What was let go is gone: whatever is asked by its handle fails and changes nothing. -/
  released : ∀ k, (∃ e ∈ (fresh surroundings).history asks, Entry.Releases k e) →
    ∀ a : Ask, a.handle? = some k →
      Entry.Failed (a, (a.run ((fresh surroundings).after asks)).1) ∧
        (a.run ((fresh surroundings).after asks)).2.pipelines =
          ((fresh surroundings).after asks).pipelines
  /-- When requests of a script asked for it, the object of what was let go may go, too. -/
  objects : ∀ requests, (Script.Session.fresh surroundings).asks requests = asks →
    ∀ k, (∃ e ∈ (fresh surroundings).history asks, Entry.Releases k e) →
      GoesQuietly ((Script.Session.fresh surroundings).after requests) k

/-- **Pipelines do not influence each other.** Whatever a new process is asked for, as long as it
issues fewer than `2 ^ 32 - 1` handles: what is told by one handle would be told without the others,
and there is nothing ever after behind the handle of a pipeline that was let go, also when its slot
is used again. -/
theorem pipelines_apart (surroundings : Surroundings) (asks : List Ask)
    (few : (issued ((fresh surroundings).history asks)).length < 2 ^ 32 - 1) :
    Apart surroundings asks := by
  have span : Handle.span = 2 ^ 32 := rfl
  have issues : (fresh surroundings).pipelines.Issues [] := Registry.issues_empty
  have room : ([] : List Handle).length + (issued ((fresh surroundings).history asks)).length + 1 <
      Handle.span := by
    rw [List.length_nil]
    omega
  have gone : ∀ k, (∃ e ∈ (fresh surroundings).history asks, Entry.Releases k e) →
      ((fresh surroundings).after asks).pipelines.get? k = none :=
    fun k => dead_after_release asks issues room
  refine ⟨fun k => ?alone, fun k released a about => ?released,
    fun requests asked k released => ?objects⟩
  case alone => exact Shadow.run asks ⟨issues, rfl, fun _ => rfl⟩ room
  case released => exact Ask.run_failed (gone k released) about
  case objects =>
    have host : ((Script.Session.fresh surroundings).after requests).host =
        (fresh surroundings).after asks := by
      rw [Script.Session.host_after, asked]
      rfl
    have dead := gone k released
    rw [← host] at dead
    exact goesQuietly_of_dead dead

/-! ### A slot is used again -/

def recycledConfig : Script.Arguments :=
  ⟨[.text "\x7b\"stages\":[\x7b\"name\":\"in\",\"payload\":\"frame\"\x7d]\x7d"], []⟩

/-- A script lets a pipeline go, and the next one comes into its slot. -/
def recycling : List Request :=
  [.new 0 recycledConfig, .method 0 "release" ⟨[], []⟩, .new 1 recycledConfig]

/-- What the script asks of its host. -/
def recyclingAsks : List Ask := (Script.Session.fresh ⟨false, fun _ => none⟩).asks recycling

/-- The second handle is another one, though both stand for the same slot. -/
theorem pipelines_apart_recycling :
    (issued ((fresh ⟨false, fun _ => none⟩).history recyclingAsks)).length < 2 ^ 32 - 1 ∧
      Apart ⟨false, fun _ => none⟩ recyclingAsks ∧
      issued ((fresh ⟨false, fun _ => none⟩).history recyclingAsks) = [⟨1, 0⟩, ⟨2, 0⟩] :=
  ⟨by decide +kernel, pipelines_apart _ _ (by decide +kernel), by decide +kernel⟩

end Host
end FrameFlow
