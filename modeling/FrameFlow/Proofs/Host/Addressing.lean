/-
# Asking about one pipeline

What is asked by a handle is about the pipeline behind it: two hosts with the same
pipeline behind two handles tell the same of them, and the same becomes of both.
With nothing behind the handle it fails. What is not asked by a handle leaves all
pipelines alone, or brings in a new one and issues its handle.

Key definitions: `Host.Reaches`, `Script.Method.Reaches`, `Script.Method.Form`.
Key theorems: `Script.methods_form`, `Script.methods_reach`, `Host.Ask.run_agrees`,
`Host.Ask.run_failed`, `Host.Ask.run_unaddressed`.
-/
import FrameFlow.Proofs.Host.Locality

namespace FrameFlow

/-! ### Methods of a script -/

namespace Host

variable {α β : Type}

/-- What a body does with a handle is about the pipeline behind it, and is refused without one. -/
structure Reaches (body : Handle → Host → Except Error α × Host) : Prop where
  agrees : ∀ {h h' : Host} {k k' : Handle}, h.pipelines.get? k = h'.pipelines.get? k' →
    AgreesUp k k' h h' (body k h) (body k' h')
  fails : ∀ {h : Host} {k : Handle}, h.pipelines.get? k = none → ∃ e, (body k h).1 = .error e

theorem reaches_whenRead (read : Except Error α) (operation : α → Pipeline → Outcome β) :
    Reaches fun k h => h.whenRead read fun a => h.run k (operation a) where
  agrees same := agrees_whenRead same read operation
  fails := by
    intro h k dead
    rcases read with e | a
    · exact ⟨e, rfl⟩
    · exact ⟨_, (run_unknown dead (operation a)).1⟩

end Host

namespace Script

open Host

/-- Two results of a script, up to the number of an unknown handle. -/
abbrev Answered {α : Type} (k k' : Handle) (x y : Except Failure α) : Prop :=
  Host.Answered k k' (fun n => Failure.refused (.unknownHandle n)) x y

/-- What a method does with a handle is about the pipeline behind it, and fails without one. -/
structure Method.Reaches (m : Method) : Prop where
  agrees : ∀ {h h' : Host} {k k' : Handle} (arguments : Arguments),
    h.pipelines.get? k = h'.pipelines.get? k' →
    Agrees k k' h h' (Answered k k') (m.call k arguments h) (m.call k' arguments h')
  fails : ∀ {h : Host} {k : Handle} (arguments : Arguments), h.pipelines.get? k = none →
    ∃ failure, (m.call k arguments h).1 = .error failure

theorem Method.Reaches.of {α β : Type} {name : String} {signature : Signature α}
    {answer : β → Value} {body : α → Handle → Host → Except Error β × Host}
    (reaches : ∀ a, Host.Reaches (body a)) :
    (Method.of name signature body answer).Reaches where
  agrees := by
    intro h h' k k' arguments same
    unfold Method.of
    simp only
    rcases signature.bind arguments with e | a
    · exact ⟨.same _, .stay⟩
    · have agrees := (reaches a).agrees same
      simp only
      generalize body a k h = x at agrees ⊢
      generalize body a k' h' = y at agrees ⊢
      obtain ⟨x, g⟩ := x
      obtain ⟨y, g'⟩ := y
      obtain ⟨told, done⟩ := agrees
      cases told with
      | same =>
        rcases x with e | b
        · exact ⟨.same _, done⟩
        · exact ⟨.same _, done⟩
      | unknown => exact ⟨.unknown, done⟩
  fails := by
    intro h k arguments dead
    unfold Method.of
    simp only
    rcases signature.bind arguments with e | a
    · exact ⟨e, rfl⟩
    · obtain ⟨e, refused⟩ := (reaches a).fails dead
      simp only
      generalize body a k h = x at refused ⊢
      obtain ⟨x, g⟩ := x
      cases refused
      exact ⟨_, rfl⟩

/-- What methods come down to: the pipeline is let go, or something may have to be read, and then an
operation is carried out behind the handle. -/
inductive Method.Form : Method → Prop where
  | release : Form releaseMethod
  | run {α β γ : Type} (name : String) (signature : Signature α) (read : α → Except Error β)
      (operation : α → β → Pipeline → Outcome γ) (answer : γ → Value) :
      Form (.of name signature
        (fun a k h => h.whenRead (read a) fun b => h.run k (operation a b)) answer)

namespace Method.Form

variable {α β γ : Type} {name : String} {signature : Signature α} {answer : β → Value}

/-- An operation for which nothing has to be read. -/
theorem operation {operation : α → Pipeline → Outcome β} :
    (Method.operation name signature operation answer).Form :=
  .run name signature (fun _ => .ok ()) (fun a _ => operation a) answer

theorem look {look : α → Pipeline → β} : (Method.look name signature look answer).Form :=
  .operation

theorem change {change : α → Pipeline → Bool × Pipeline} :
    (Method.change name signature change).Form :=
  .operation

end Method.Form

theorem stageMethods_form : ∀ m ∈ stageMethods, m.Form := by
  simp only [stageMethods, List.forall_mem_cons]
  exact ⟨.look, .look, .look, List.forall_mem_nil _⟩

theorem frameMethods_form : ∀ m ∈ frameMethods, m.Form := by
  simp only [frameMethods, List.forall_mem_cons]
  exact ⟨.run .., .look, .operation, List.forall_mem_nil _⟩

theorem movementMethods_form : ∀ m ∈ movementMethods, m.Form := by
  simp only [movementMethods, List.forall_mem_cons]
  exact ⟨.operation, .operation, .operation, List.forall_mem_nil _⟩

theorem updateMethods_form : ∀ m ∈ updateMethods, m.Form := by
  simp only [updateMethods, List.forall_mem_cons]
  exact ⟨.run .., .run .., .operation, .change, List.forall_mem_nil _⟩

theorem fieldMethods_form : ∀ m ∈ fieldMethods, m.Form := by
  simp only [fieldMethods, textMethod, List.forall_mem_cons]
  exact ⟨.look, .change, .change, .look, .look, .look, .look, .change, .look, .change, .change,
    List.forall_mem_nil _⟩

/-- All methods have one of the two forms. -/
theorem methods_form : ∀ m ∈ methods, m.Form := by
  simp only [methods, List.forall_mem_cons, List.forall_mem_append]
  exact ⟨.release, .look, ⟨⟨⟨stageMethods_form, frameMethods_form⟩, movementMethods_form⟩,
    updateMethods_form⟩, fieldMethods_form⟩

/-- Every method is about the pipeline behind the handle, but the one that lets it go can do
without. -/
theorem methods_reach : ∀ m ∈ methods, m = releaseMethod ∨ m.Reaches := by
  intro m known
  cases methods_form m known with
  | release => exact .inl rfl
  | run name signature read operation answer =>
    exact .inr (.of fun a => reaches_whenRead (read a) (operation a))

theorem releaseMethod_agrees {h h' : Host} {k k' : Handle} (arguments : Arguments)
    (same : h.pipelines.get? k = h'.pipelines.get? k') :
    Agrees k k' h h' (Answered k k') (releaseMethod.call k arguments h)
      (releaseMethod.call k' arguments h') := by
  obtain ⟨told, done⟩ := agrees_release same
  unfold releaseMethod
  simp only
  rcases Signature.nil.bind arguments with e | ⟨⟩
  · exact ⟨.same _, .stay⟩
  · refine ⟨?_, done⟩
    simp only [told]
    exact .same _

/-- Nothing is let go twice. -/
theorem releaseMethod_failed {h : Host} {k : Handle} (arguments : Arguments)
    (dead : h.pipelines.get? k = none) :
    (∃ failure, (releaseMethod.call k arguments h).1 = .error failure) ∨
      (releaseMethod.call k arguments h).1 = .ok (.bool false) := by
  have no : (h.release k).1 = false := release_unknown dead
  unfold releaseMethod
  simp only
  rcases Signature.nil.bind arguments with e | ⟨⟩
  · exact .inl ⟨e, rfl⟩
  · refine .inr ?_
    simp only [no]

end Script

/-! ### Asking -/

namespace Host
namespace Ask

variable {h h' : Host} {k k' : Handle} {a : Ask}

/-- **What is asked by a handle is about the pipeline behind it**, and about nothing else of its
host. -/
theorem run_agrees (same : h.pipelines.get? k = h'.pipelines.get? k') (about : a.handle? = some k) :
    Agrees k k' h h' (Told.Alike k k') (a.run h) ((a.aim k').run h') := by
  cases a with
  | build | buildFrom | setUp => cases about
  | release =>
    cases about
    obtain ⟨told, done⟩ := agrees_release same
    refine ⟨?_, done⟩
    show Told.Alike k k' (.flag (h.release k).1) (.flag (h'.release k').1)
    rw [told]
    exact .flag _
  | operate _ op =>
    cases about
    obtain ⟨told, done⟩ := agrees_run same op.outcome
    exact ⟨.replied told, done⟩
  | look =>
    cases about
    obtain ⟨told, done⟩ := agrees_view same id
    exact ⟨.shown told, done⟩
  | foreign call =>
    have aimed := Foreign.Call.run_agrees same about
    refine ⟨?_, aimed.done⟩
    show Told.Alike k k' (.foreign (call.run h).answer (call.run h).call)
      (.foreign ((call.aim k').run h').answer ((call.aim k').run h').call)
    rw [aimed.answer, aimed.call]
    exact .foreign _ ((call.handle?_run h).trans about)
  | method _ name arguments =>
    cases about
    simp only [run, aim]
    rcases found : Script.method? name with _ | m
    · exact ⟨.script (.same _), .stay⟩
    · have known := List.mem_of_find?_eq_some found
      rcases Script.methods_reach m known with rfl | reaches
      · obtain ⟨told, done⟩ := Script.releaseMethod_agrees arguments same
        exact ⟨.script told, done⟩
      · obtain ⟨told, done⟩ := reaches.agrees arguments same
        exact ⟨.script told, done⟩

/-- On one host, what is asked by a handle is done behind this handle. -/
theorem run_behind (h : Host) (about : a.handle? = some k) :
    ∃ s, Registry.Together k k h.pipelines h.pipelines (a.run h).2.pipelines s :=
  have same : h.pipelines.get? k = h.pipelines.get? k := rfl
  ⟨_, (run_agrees same about).done⟩

/-- With nothing behind the handle, what is asked by it fails and does nothing. -/
theorem run_failed (dead : h.pipelines.get? k = none) (about : a.handle? = some k) :
    Entry.Failed (a, (a.run h).1) ∧ (a.run h).2.pipelines = h.pipelines := by
  obtain ⟨s, done⟩ := run_behind h about
  refine ⟨?_, done.eq_of_dead dead⟩
  cases a with
  | build | buildFrom | setUp => cases about
  | release =>
    cases about
    exact congrArg Told.flag (release_unknown dead)
  | operate _ op =>
    cases about
    exact congrArg Told.replied (run_unknown dead op.outcome).1
  | look =>
    cases about
    exact congrArg Told.shown (change_unknown dead _).1
  | foreign call =>
    obtain ⟨answer, memory⟩ := Foreign.Call.run_failed dead about
    exact congrArg₂ Told.foreign answer memory
  | method _ name arguments =>
    cases about
    simp only [run]
    rcases found : Script.method? name with _ | m
    · exact .inl ⟨_, rfl⟩
    · have known := List.mem_of_find?_eq_some found
      rcases Script.methods_reach m known with rfl | reaches
      · have named : Script.releaseMethod.name = name := by simpa using List.find?_some found
        rcases Script.releaseMethod_failed arguments dead with ⟨failure, told⟩ | told
        · exact .inl ⟨failure, congrArg Told.script told⟩
        · exact .inr ⟨named.symm, congrArg Told.script told⟩
      · obtain ⟨failure, told⟩ := reaches.fails arguments dead
        exact .inl ⟨failure, congrArg Told.script told⟩

/-- Nothing is issued to what is asked by a handle. -/
theorem not_issued (about : a.handle? = some k) : (a.run h).1.issued? = none := by
  cases a with
  | build | buildFrom | setUp => cases about
  | release | operate | look => rfl
  | foreign call =>
    have by' : (call.run h).call.handle? = some k := (call.handle?_run h).trans about
    show (Told.foreign (call.run h).answer (call.run h).call).issued? = none
    generalize (call.run h).call = left at by' ⊢
    cases left with
    | create => cases by'
    | _ => rfl
  | method _ name arguments =>
    simp only [run]
    rcases Script.method? name with _ | m
    · rfl
    · rfl

/-! ### New pipelines -/

/-- On every host a pipeline is refused, or the same one is brought in and answered by its
handle. -/
def Makes (make : Host → Except Error Handle × Host) : Prop :=
  (∀ h, (∃ e, (make h).1 = .error e) ∧ (make h).2.pipelines = h.pipelines) ∨
    ∃ p, ∀ h, (make h).1 = .ok (h.pipelines.insert p).1 ∧
      (make h).2.pipelines = (h.pipelines.insert p).2

theorem makes_create (c : Config) : Makes fun h => h.create c := by
  by_cases checked : c.check = .ok ()
  · refine .inr ⟨.ofConfig c, fun h => ?_⟩
    rcases h.create_cases c with ⟨e, refused, -⟩ | ⟨-, made⟩
    · cases (Pipeline.create_of_check checked).symm.trans refused
    · exact made
  · refine .inl fun h => ?_
    rcases h.create_cases c with ⟨e, -, answer, same⟩ | ⟨passed, -⟩
    · exact ⟨⟨e, answer⟩, same⟩
    · exact absurd passed checked

theorem makes_createFromJson (text : String) : Makes fun h => h.createFromJson text := by
  unfold createFromJson
  rcases Config.ofJson text with e | c
  · exact .inl fun h => ⟨⟨e, rfl⟩, rfl⟩
  · exact makes_create c

/-- On every host, what is asked brings in the same pipeline, and tells its handle. -/
structure Issues (a : Ask) (p : Pipeline) (form : Handle → Told) : Prop where
  told : ∀ h : Host, (a.run h).1 = form (h.pipelines.insert p).1
  done : ∀ h : Host, (a.run h).2.pipelines = (h.pipelines.insert p).2
  issued : ∀ k : Handle, Handle.ofNumber k.number = k → k.number ≠ 0 → (form k).issued? = some k
  alike : ∀ k k', Told.Alike k k' (form k) (form k')

/-- What is told of a pipeline that is made for the library's own callers. -/
theorem issues_made {make : Host → Except Error Handle × Host} (makes : Makes make)
    (same : ∀ h, a.run h = (.made (make h).1, (make h).2)) :
    (∀ h, (a.run h).2.pipelines = h.pipelines ∧ (a.run h).1.issued? = none) ∨
      ∃ p form, a.Issues p form := by
  rcases makes with refused | ⟨p, made⟩
  · refine .inl fun h => ?_
    obtain ⟨⟨e, answer⟩, next⟩ := refused h
    rw [same, answer]
    exact ⟨next, rfl⟩
  · refine .inr ⟨p, fun k => .made (.ok k), fun h => ?_, fun h => ?_, fun _ _ _ => rfl,
      fun _ _ => .built⟩
    · rw [same, (made h).1]
    · rw [same, (made h).2]

/-- What is not asked by a handle leaves all pipelines alone, or issues a new handle. -/
theorem run_unaddressed (unaddressed : a.handle? = none) :
    (∀ h, (a.run h).2.pipelines = h.pipelines ∧ (a.run h).1.issued? = none) ∨
      ∃ p form, a.Issues p form := by
  cases a with
  | build c => exact issues_made (makes_create c) fun _ => rfl
  | buildFrom text => exact issues_made (makes_createFromJson text) fun _ => rfl
  | setUp threshold file => exact .inl fun h => ⟨rfl, rfl⟩
  | release | operate | look | method => cases unaddressed
  | foreign call =>
    cases call with
    | checkVersion expected => exact .inl fun h => ⟨rfl, rfl⟩
    | setUpLogging level file => exact .inl fun h => ⟨rfl, rfl⟩
    | create config =>
      have run_create : ∀ h : Host, (Ask.foreign (.create config)).run h =
          (.foreign (.natural (Foreign.create h config).1) (.create config),
            (Foreign.create h config).2) := fun _ => rfl
      rcases read : Foreign.textOf? config with _ | text
      · refine .inl fun h => ?_
        rw [run_create, Foreign.create, read]
        exact ⟨rfl, rfl⟩
      · have create_eq : ∀ h : Host, Foreign.create h config =
            (((h.createFromJson text).1.toOption.map Handle.number).getD 0,
              (Foreign.report "pipeline_create" (h.createFromJson text)).2) := by
          intro h
          rw [← Foreign.report_fst "pipeline_create", Foreign.create, read]
        rcases makes_createFromJson text with refused | ⟨p, made⟩
        · refine .inl fun h => ?_
          obtain ⟨⟨e, answer⟩, next⟩ := refused h
          rw [run_create, create_eq, Foreign.pipelines_report, answer]
          exact ⟨next, rfl⟩
        · refine .inr ⟨p, fun k => .foreign (.natural k.number) (.create config), fun h => ?_,
            fun h => ?_, fun k named positive => ?_, fun _ _ => .created config⟩
          · rw [run_create, create_eq, (made h).1]
            rfl
          · rw [run_create, create_eq, Foreign.pipelines_report, (made h).2]
          · show (if k.number = 0 then none else some (Handle.ofNumber k.number)) = some k
            rw [if_neg positive, named]
    | _ => cases unaddressed

/-- What is not asked by a handle is not asked by another one either. -/
theorem aim_of_unaddressed (unaddressed : a.handle? = none) : a.aim k = a := by
  cases a with
  | build | buildFrom | setUp => rfl
  | release | operate | look | method => cases unaddressed
  | foreign call =>
    cases call with
    | checkVersion | setUpLogging | create => rfl
    | _ => cases unaddressed

end Ask
end Host
end FrameFlow
