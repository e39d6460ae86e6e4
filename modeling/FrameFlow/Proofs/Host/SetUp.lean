/-
# Who sets the log up

The log of a host is set up once, by the first who wishes for it: a call that does nothing else, or
a configuration that names a level. Whatever else is asked of a host leaves its log as it is set up
(`Host.Ask.outlet_run`), so a run of asking comes down to its first wish (`Host.outlet_after`).

A configuration that comes in as text is checked before anything is done, so one that is refused
leaves the host as it was, and later wishes may still be granted. One that is built is checked after
its wish has been granted. If it is refused, no pipeline comes in, but its level decides, though it
may be the name of no level (`Host.loud_decides`).

Key definitions: `Wish`, `Surroundings.sink`, `Outlet`, `Host.Ask.wish?`, `Host.SetsUpOnce`.
Key theorems: `Host.Ask.outlet_run`, `Host.outlet_after`, `Host.create_refused`,
`Host.sets_up_once`.
-/
import FrameFlow.Proofs.Host.Addressing

namespace FrameFlow

/-! ### Wishes -/

/-- How a log is to be set up: up to which level it lets lines through, and the file that is named
for them. -/
structure Wish where
  threshold : Threshold
  file : Option String

/-- Where lines go when the log is set up as wished. -/
def Surroundings.sink (env : Surroundings) (w : Wish) : Sink :=
  match w.file with
  | none => ⟨w.threshold, env.colours, !env.colours, .console⟩
  | some name =>
    if (env.obstacle name).isSome then ⟨w.threshold, false, !env.colours, .console⟩
    else ⟨w.threshold, false, true, .file name⟩

theorem Surroundings.threshold_sink (env : Surroundings) (w : Wish) :
    (env.sink w).threshold = w.threshold := by
  unfold sink
  split
  · rfl
  · split
    · rfl
    · rfl

/-- The wish of a configuration that names a level. -/
def Config.wish? (c : Config) : Option Wish :=
  c.logLevel.map fun name => ⟨.parse (some name), none⟩

/-- The configuration whose text is in memory, if it is accepted. -/
def Foreign.config? (config : TextCell) : Option Config := do
  let text ← textOf? config
  (Config.ofJson text).toOption

/-- The wish of a foreign call. -/
def Foreign.Call.wish? : Call → Option Wish
  | setUpLogging level file => some ⟨.parse (textOf? level), textOf? file⟩
  | create config => (config? config).bind Config.wish?
  | _ => none

/-- What is wished for by what is asked. A configuration that is built has its wish, whether it is
accepted or not; one that is read has it only if it is accepted. -/
def Host.Ask.wish? : Ask → Option Wish
  | build c => c.wish?
  | buildFrom text => (Config.ofJson text).toOption.bind Config.wish?
  | setUp threshold file => some ⟨threshold, file⟩
  | foreign call => call.wish?
  | _ => none

/-! ### Outlets -/

/-- What decides where the lines of a log go: what it depends on, and how it is set up. -/
structure Outlet where
  surroundings : Surroundings
  sink : Option Sink

namespace Outlet

/-- The log is set up as wished, unless it has been. -/
def granting (o : Outlet) (w : Option Wish) : Outlet :=
  { o with sink := o.sink.or (w.map o.surroundings.sink) }

@[simp] theorem granting_none (o : Outlet) : o.granting none = o := by
  simp [granting]

/-- Of two wishes the first is granted. -/
theorem granting_granting (o : Outlet) (w v : Option Wish) :
    (o.granting w).granting v = o.granting (w.or v) := by
  simp only [granting, Option.or_assoc, Option.map_or]

end Outlet

theorem Logging.sink_write (l : Logging) (e : Event) : (l.write e).sink = l.sink := by
  unfold write
  split
  · rfl
  · split
    · split
      · rfl
      · rfl
    · rfl

theorem Logging.sink_setUp (env : Surroundings) (l : Logging) (w : Wish) :
    (l.setUp env w.threshold w.file).sink = l.sink.or (some (env.sink w)) := by
  unfold setUp Surroundings.sink
  rcases set : l.sink with _ | s
  · rcases w.file with _ | name
    · rfl
    · rcases stopped : env.obstacle name with _ | obstacle
      · simp [stopped]
      · simp [stopped]
  · simp [set]

namespace Host

variable {α β : Type} {h : Host} {k : Handle}

/-- The outlet of the log of a host. -/
def outlet (h : Host) : Outlet := ⟨h.surroundings, h.logging.sink⟩

@[simp] theorem outlet_tell (e : Event) : (h.tell e).outlet = h.outlet :=
  congrArg (Outlet.mk h.surroundings) (h.logging.sink_write e)

@[simp] theorem outlet_tellAll (es : List Event) : (h.tellAll es).outlet = h.outlet := by
  unfold tellAll
  induction es generalizing h with
  | nil => rfl
  | cons e es ih => rw [List.foldl_cons, ih, outlet_tell]

@[simp] theorem outlet_openRegistry : h.openRegistry.outlet = h.outlet := by
  unfold openRegistry
  split
  · rfl
  · exact outlet_tell (h := { h with opened := true }) _

theorem outlet_setUpLogging (w : Wish) :
    (h.setUpLogging w.threshold w.file).outlet = h.outlet.granting (some w) :=
  congrArg (Outlet.mk h.surroundings) (Logging.sink_setUp h.surroundings h.logging w)

theorem outlet_setUpFor (c : Config) : (h.setUpFor c).outlet = h.outlet.granting c.wish? := by
  unfold setUpFor Config.wish?
  split
  · next silent => rw [silent, Option.map_none, Outlet.granting_none]
  · next name named =>
    rw [named]
    exact outlet_setUpLogging ⟨.parse (some name), none⟩

/-! ### New pipelines -/

theorem outlet_create (c : Config) : (h.create c).2.outlet = h.outlet.granting c.wish? := by
  rw [← outlet_setUpFor]
  unfold create
  split
  · rfl
  · next p created _ =>
    have opened : ((h.setUpFor c).tell created).openRegistry.outlet = (h.setUpFor c).outlet := by
      rw [outlet_openRegistry, outlet_tell]
    rw [← opened]
    exact outlet_tell (h := { ((h.setUpFor c).tell created).openRegistry with pipelines := _ }) _

theorem outlet_createFromJson (text : String) : (h.createFromJson text).2.outlet =
    h.outlet.granting (Ask.buildFrom text).wish? := by
  show _ = h.outlet.granting ((Config.ofJson text).toOption.bind Config.wish?)
  unfold createFromJson
  rcases Config.ofJson text with e | c
  · exact h.outlet.granting_none.symm
  · exact outlet_create c

/-! ### Reaching a pipeline -/

@[simp] theorem outlet_release : (h.release k).2.outlet = h.outlet :=
  (outlet_openRegistry : h.openRegistry.outlet = h.outlet)

@[simp] theorem outlet_run (operation : Pipeline → Outcome α) :
    (h.run k operation).2.outlet = h.outlet := by
  rw [← outlet_openRegistry (h := h)]
  unfold run
  simp only
  split
  · rfl
  · exact outlet_tellAll _

theorem outlet_whenRead (read : Except Error α) {next : α → Except Error β × Host}
    (kept : ∀ a, (next a).2.outlet = h.outlet) : (h.whenRead read next).2.outlet = h.outlet := by
  unfold whenRead
  split
  · rfl
  · exact kept _

@[simp] theorem outlet_lookUp (look : Pipeline → Option α) :
    (h.lookUp k look).2.outlet = h.outlet := by
  rw [lookUp_eq]
  exact outlet_run _

@[simp] theorem outlet_readText (frame : Int) (id : Int64) (field : TextField)
    (buffer : List UInt8) : (h.readText k frame id field buffer).2.2.outlet = h.outlet := by
  rw [readText_eq]
  split
  · exact outlet_lookUp _
  · exact outlet_lookUp _

@[simp] theorem outlet_readVector (frame : Int) (id : Int64) (scope name : String) (index : Nat)
    (buffer : List Double) :
    (h.readVector k frame id scope name index buffer).2.2.outlet = h.outlet := by
  rw [readVector_eq]
  split
  · exact outlet_lookUp _
  · split
    · exact outlet_lookUp _
    · exact outlet_lookUp _

theorem outlet_unpackInto (stage : String) (batch : Int) (buffer : List Int) :
    (h.unpackInto k stage batch buffer).2.2.outlet = h.outlet := by
  have kept : (h.run k (·.unpackIf stage batch fun n => n ≤ buffer.length)).2.outlet = h.outlet :=
    outlet_run _
  unfold unpackInto
  rcases answer : h.run k (·.unpackIf stage batch fun n => n ≤ buffer.length) with ⟨e | ids | n, h'⟩
  · rw [answer] at kept
    exact kept
  · rw [answer] at kept
    exact kept
  · rw [answer] at kept
    exact kept

end Host

/-! ### Foreign calls -/

namespace Foreign

variable {α β : Type} {h : Host} {k : Handle}

@[simp] theorem outlet_report (call : String) (r : Except Error α × Host) :
    (report call r).2.outlet = r.2.outlet := by
  rcases r with ⟨e | a, h'⟩
  · exact Host.outlet_tell _
  · rfl

theorem outlet_create (config : TextCell) :
    (create h config).2.outlet = h.outlet.granting (Call.create config).wish? := by
  show _ = h.outlet.granting (((textOf? config).bind fun text =>
    (Config.ofJson text).toOption).bind Config.wish?)
  unfold create
  rcases textOf? config with _ | text
  · rw [Option.bind_none, Option.bind_none, Outlet.granting_none]
    exact Host.outlet_tell _
  · exact (outlet_report _ _).trans (Host.outlet_createFromJson text)

@[simp] theorem outlet_perform (call : String) (arguments : Option α)
    (operation : α → Pipeline → Outcome β) :
    (perform call h k arguments operation).2.outlet = h.outlet := by
  rw [perform_eq]
  split
  · rw [outlet_report, Host.outlet_run, Host.outlet_lookUp]
  · exact Host.outlet_lookUp _

@[simp] theorem outlet_changed (operation : Pipeline → Bool × Pipeline) :
    (changed h k operation).2.outlet = h.outlet := by
  rw [changed_eq]
  exact Host.outlet_run _

@[simp] theorem outlet_fetch (out : Cell α) (look : Pipeline → Option α) :
    (fetch h k out look).2.2.outlet = h.outlet := by
  have kept : (h.lookUp k look).2.outlet = h.outlet := Host.outlet_lookUp look
  unfold fetch
  split
  · rfl
  · split
    · next looked => rw [looked] at kept; exact kept
    · next looked => rw [looked] at kept; exact kept

theorem outlet_getTrack (frame : Int) (id : Int64) (box : Cell Box) (track : Cell Int64) :
    (getTrack h k frame id box track).2.2.2.outlet = h.outlet := by
  have kept : (h.lookUp k (·.track? frame id)).2.outlet = h.outlet := Host.outlet_lookUp _
  unfold getTrack
  split
  · split
    · next looked => rw [looked] at kept; exact kept
    · next looked => rw [looked] at kept; exact kept
  · rfl

theorem outlet_getVector (frame : Int) (id : Int64) (scope name : TextCell) (index : Nat)
    (out : VectorCells) : (getVector h k frame id scope name index out).2.2.outlet = h.outlet := by
  unfold getVector
  split
  · next room _ _ scope name _ _ _ _ _ =>
    have kept := Host.outlet_readVector (h := h) (k := k) frame id scope name index
      ((out.numbers.getD []).take room)
    simp only
    split
    · next answer => rw [answer] at kept; exact kept
    · next answer => rw [answer] at kept; exact kept
    · next answer => rw [answer] at kept; exact kept
  · rfl

/-- A call by a handle leaves the log as it is set up. -/
theorem Call.outlet_run_of_handle (c : Call) (about : c.handle? = some k) :
    (c.run h).host.outlet = h.outlet := by
  cases c with
  | checkVersion | setUpLogging | create => cases about
  | release handle => exact Host.outlet_release
  | addFrame handle stage frame =>
    change (Foreign.addFrame h handle stage frame).2.outlet = h.outlet
    unfold Foreign.addFrame
    split
    · exact (outlet_report _ _).trans (Host.outlet_whenRead _ fun _ => Host.outlet_run _)
    · rfl
  | enqueue handle id update =>
    change (Foreign.enqueue h handle id update).2.outlet = h.outlet
    unfold Foreign.enqueue
    split
    · rfl
    · exact (outlet_report _ _).trans (Host.outlet_whenRead _ fun _ => Host.outlet_run _)
  | enqueueBatched handle batch id update =>
    change (Foreign.enqueueBatched h handle batch id update).2.outlet = h.outlet
    unfold Foreign.enqueueBatched
    split
    · rfl
    · exact (outlet_report _ _).trans (Host.outlet_whenRead _ fun _ => Host.outlet_run _)
  | stageSize handle stage => exact Host.outlet_lookUp _
  | delete handle id =>
    exact outlet_perform "pipeline_delete" (some id) fun id p => p.delete id
  | move handle stage ids => exact outlet_perform _ _ _
  | pack handle stage ids => exact outlet_perform _ _ _
  | unpack handle stage batch buffer =>
    change (Foreign.unpack h handle stage batch buffer).2.2.outlet = h.outlet
    unfold Foreign.unpack withBuffer
    split
    · rfl
    · exact (outlet_report _ _).trans (Host.outlet_unpackInto _ batch _)
  | commit handle id =>
    exact outlet_perform "pipeline_apply_updates" (some id) fun id p => p.commit id
  | discard handle id => exact outlet_changed _
  | getConfidence handle frame id out => exact outlet_fetch out _
  | setConfidence handle frame id confidence => exact outlet_changed _
  | getText handle frame id field buffer => exact Host.outlet_readText frame id field _
  | getBox handle frame id out => exact outlet_fetch out _
  | setBox handle frame id box =>
    change (Foreign.setBox h handle frame id box).2.outlet = h.outlet
    unfold Foreign.setBox
    split
    · rfl
    · exact outlet_changed _
  | getTrack handle frame id box track => exact outlet_getTrack frame id box track
  | setTrack handle frame id box track =>
    change (Foreign.setTrack h handle frame id box track).2.outlet = h.outlet
    unfold Foreign.setTrack
    split
    · rfl
    · exact outlet_changed _
  | clearTrack handle frame id => exact outlet_changed _
  | getVector handle frame id scope name index out =>
    exact outlet_getVector frame id scope name index out

/-- A foreign call has its wish granted, and leaves the log as it is set up otherwise. -/
theorem Call.outlet_run (c : Call) : (c.run h).host.outlet = h.outlet.granting c.wish? := by
  rcases about : c.handle? with _ | k
  · cases c with
    | checkVersion expected => exact h.outlet.granting_none.symm
    | setUpLogging level file =>
      exact Host.outlet_setUpLogging ⟨.parse (textOf? level), textOf? file⟩
    | create config => exact outlet_create config
    | _ => cases about
  · have silent : c.wish? = none := by
      cases c with
      | setUpLogging | create => cases about
      | _ => rfl
    rw [silent, Outlet.granting_none]
    exact c.outlet_run_of_handle about

end Foreign

/-! ### Asking -/

/-- A method leaves the log as it is set up. -/
theorem Script.Method.Form.outlet {m : Method} (form : m.Form) (k : Handle)
    (arguments : Arguments) (h : Host) : (m.call k arguments h).2.outlet = h.outlet := by
  cases form with
  | release =>
    unfold releaseMethod
    simp only
    split
    · rfl
    · exact Host.outlet_release
  | run name signature read operation answer =>
    unfold Method.of
    simp only
    split
    · rfl
    · next a _ =>
      have kept : (h.whenRead (read a) fun b => h.run k (operation a b)).2.outlet = h.outlet :=
        Host.outlet_whenRead _ fun _ => Host.outlet_run _
      split
      · next result => rw [result] at kept; exact kept
      · next result => rw [result] at kept; exact kept

namespace Host

variable {h : Host}

/-- **What is asked has its wish granted**, unless the log is set up already, and leaves the log as
it is set up otherwise. -/
theorem Ask.outlet_run (a : Ask) : (a.run h).2.outlet = h.outlet.granting a.wish? := by
  cases a with
  | build c => exact outlet_create c
  | buildFrom text => exact outlet_createFromJson text
  | setUp threshold file => exact outlet_setUpLogging ⟨threshold, file⟩
  | release k => exact outlet_release.trans h.outlet.granting_none.symm
  | operate k op => exact (Host.outlet_run _).trans h.outlet.granting_none.symm
  | look k => exact (Host.outlet_run _).trans h.outlet.granting_none.symm
  | foreign call => exact call.outlet_run
  | method k name arguments =>
    refine Eq.trans ?_ h.outlet.granting_none.symm
    simp only [run]
    rcases found : Script.method? name with _ | m
    · rfl
    · exact (Script.methods_form m (List.mem_of_find?_eq_some found)).outlet k arguments h

/-- What is asked one after another has its first wish granted. -/
theorem outlet_after (as : List Ask) :
    (h.after as).outlet = h.outlet.granting (as.findSome? Ask.wish?) := by
  induction as generalizing h with
  | nil => exact h.outlet.granting_none.symm
  | cons a as ih =>
    rw [List.findSome?_cons]
    refine ih.trans ?_
    rw [a.outlet_run, Outlet.granting_granting]
    cases a.wish? with
    | none => rfl
    | some w => rfl

/-! ### Refusals -/

variable {c : Config} {e : Error}

/-- What is read has passed the check. -/
theorem check_of_ofJson {text : String} (read : Config.ofJson text = .ok c) : c.check = .ok () := by
  unfold Config.ofJson at read
  split at read
  · cases read
  · next d _ =>
    rcases checked : d.check with e | ⟨⟩
    · rw [checked] at read
      cases read
    · rw [checked] at read
      cases read
      exact checked

/-- A configuration that is built has its wish granted before it is refused, and nothing else is
done. -/
theorem create_refused (refused : c.check = .error e) :
    h.create c = (.error e, h.setUpFor c) := by
  have unmade : Pipeline.create c = .error e := by
    unfold Pipeline.create
    rw [refused]
    rfl
  unfold create
  simp only [unmade]

theorem create_eq_error_iff : (h.create c).1 = .error e ↔ c.check = .error e := by
  constructor
  · intro refused
    rcases h.create_cases c with ⟨e', unmade, answer, -⟩ | ⟨-, answer, -⟩
    · rcases checked : c.check with e₀ | ⟨⟩
      · rw [create_refused checked] at refused
        cases refused
        rfl
      · rw [Pipeline.create_of_check checked] at unmade
        cases unmade
    · rw [answer] at refused
      cases refused
  · intro refused
    rw [create_refused refused]

/-- A text that is refused leaves everything as it was. -/
theorem createFromJson_refused {text : String} (refused : (h.createFromJson text).1 = .error e) :
    Config.ofJson text = .error e ∧ (h.createFromJson text).2 = h := by
  unfold createFromJson at refused ⊢
  rcases read : Config.ofJson text with e' | c
  · rw [read] at refused
    cases refused
    exact ⟨rfl, rfl⟩
  · rw [read] at refused
    have unchecked := create_eq_error_iff.mp refused
    rw [check_of_ofJson read] at unchecked
    cases unchecked

/-- A script whose text is refused goes on as it was. -/
theorem build_refused {s : Script.Session} {arguments : Script.Arguments} {failure : Script.Failure}
    (refused : (s.build arguments).1 = .error failure) : (s.build arguments).2 = s := by
  unfold Script.Session.build at refused ⊢
  rcases given : (Script.Signature.needed "config_json" Script.Value.asText .nil).bind arguments
    with e | ⟨config, ⟨⟩⟩
  · rfl
  · rw [given] at refused
    simp only at refused ⊢
    rcases made : s.host.createFromJson config with ⟨e | object, h⟩
    · have left := (createFromJson_refused (congrArg Prod.fst made)).2
      rw [made] at left
      exact congrArg (Script.Session.mk · s.slots) left
    · rw [made] at refused
      cases refused

theorem new_refused {s : Script.Session} {slot : Int} {arguments : Script.Arguments}
    {failure : Script.Failure} (refused : (s.new slot arguments).1 = .error failure) :
    (s.new slot arguments).2 = s := by
  unfold Script.Session.new at refused ⊢
  rcases built : s.build arguments with ⟨e | object, s'⟩
  · have left := build_refused (congrArg Prod.fst built)
    rw [built] at left
    exact left
  · rw [built] at refused
    cases refused

theorem setUpFor_eq (h : Host) (c : Config) :
    h.setUpFor c = { h with logging := (h.setUpFor c).logging } := by
  unfold setUpFor
  split
  · rfl
  · rfl

/-- A wish does nothing where the log is set up already, and no wish never does. -/
theorem setUpFor_eq_self_iff :
    h.setUpFor c = h ↔ h.logging.sink.isSome ∨ c.logLevel = none := by
  constructor
  · intro same
    have granted := outlet_setUpFor (h := h) c
    rw [same] at granted
    have sink : h.logging.sink = h.logging.sink.or (c.wish?.map h.surroundings.sink) :=
      congrArg Outlet.sink granted
    rcases set : h.logging.sink with _ | s
    · rw [set, Option.none_or, Config.wish?, eq_comm, Option.map_eq_none_iff,
        Option.map_eq_none_iff] at sink
      exact .inr sink
    · exact .inl rfl
  · unfold setUpFor
    rintro (set | silent)
    · obtain ⟨s, set⟩ := Option.isSome_iff_exists.mp set
      split
      · rfl
      · unfold setUpLogging Logging.setUp
        simp only [set]
    · rw [silent]

/-- What a host does about its log, and what is left by the configurations that it refuses. -/
structure SetsUpOnce (h : Host) : Prop where
  /-- The log stays as it is set up. If it is not yet, the first wish decides. -/
  first : ∀ as : List Ask, (h.after as).logging.sink =
    h.logging.sink.or ((as.findSome? Ask.wish?).map h.surroundings.sink)
  level : ∀ (as : List Ask) (w : Wish), h.logging.sink = none → as.findSome? Ask.wish? = some w →
    (h.after as).logging.sink.map Sink.threshold = some w.threshold
  /-- A text that is refused leaves the host as it was, and wishes for nothing. -/
  text : ∀ text e, (h.createFromJson text).1 = .error e →
    (h.createFromJson text).2 = h ∧ (Ask.buildFrom text).wish? = none
  foreign : ∀ config, Foreign.config? config = none →
    (∃ event, Foreign.create h config = (0, h.tell event)) ∧
      (Foreign.Call.create config).wish? = none
  script : ∀ slots slot arguments failure,
    (Script.Session.new ⟨h, slots⟩ slot arguments).1 = .error failure →
      (Script.Session.new ⟨h, slots⟩ slot arguments).2 = ⟨h, slots⟩
  /-- A configuration that is built and refused brings in nothing, but its wish is granted: it
  leaves the host as it was if it has none, or if it comes too late. -/
  built : ∀ c e, (h.create c).1 = .error e →
    c.check = .error e ∧ (h.create c).2 = { h with logging := (h.setUpFor c).logging } ∧
      ((h.create c).2 = h ↔ h.logging.sink.isSome ∨ c.logLevel = none)

/-- **The first wish decides.** A refusal takes no later wish away, unless the configuration was
built and names a level: then this is the one that decides. -/
theorem sets_up_once (h : Host) : h.SetsUpOnce where
  first as := congrArg Outlet.sink (outlet_after as)
  level as w unset wished := by
    have sink : (h.after as).logging.sink = _ := congrArg Outlet.sink (outlet_after as)
    rw [sink, wished]
    show ((h.logging.sink.or _).map Sink.threshold) = _
    rw [unset]
    exact congrArg some (h.surroundings.threshold_sink w)
  text text e refused := by
    obtain ⟨unread, left⟩ := createFromJson_refused refused
    refine ⟨left, ?_⟩
    show (Config.ofJson text).toOption.bind Config.wish? = none
    rw [unread]
    rfl
  foreign config refused := by
    refine ⟨?_, congrArg (Option.bind · Config.wish?) refused⟩
    unfold Foreign.create
    unfold Foreign.config? at refused
    rcases there : Foreign.textOf? config with _ | text
    · exact ⟨_, rfl⟩
    · rcases read : Config.ofJson text with e | c
      · simp only [createFromJson, read]
        exact ⟨_, rfl⟩
      · rw [there] at refused
        simp only [Option.bind_eq_bind, Option.bind_some, read] at refused
        cases refused
  script _ _ _ _ refused := new_refused refused
  built c e refused := by
    have unchecked := create_eq_error_iff.mp refused
    rw [create_refused unchecked]
    exact ⟨unchecked, h.setUpFor_eq c, setUpFor_eq_self_iff⟩

/-- No level has this name. -/
def loud : Config := { Pipeline.sampleConfig with logLevel := some "loud" }

def talkative : Config := { Pipeline.sampleConfig with logLevel := some "debug" }

/-- A new process with a console. -/
def idle : Host := fresh ⟨false, fun _ => none⟩

/-- A refused configuration takes the chance of the next one: had it not been built, all lines of
the next one would be let through. -/
theorem loud_decides :
    (idle.create loud).1 = .error (.invalidConfig (.unknownLevel "loud")) ∧
    idle.logging.sink = none ∧
    (idle.create loud).2.logging.sink = some ⟨.upTo .info, false, true, .console⟩ ∧
    (idle.create talkative).1 = .ok ⟨1, 0⟩ ∧
    (idle.create talkative).2.logging.sink = some ⟨.upTo .debug, false, true, .console⟩ ∧
    ((idle.create loud).2.create talkative).1 = .ok ⟨1, 0⟩ ∧
    ((idle.create loud).2.create talkative).2.logging.sink =
      some ⟨.upTo .info, false, true, .console⟩ :=
  ⟨rfl, rfl, rfl, rfl, rfl, rfl, rfl⟩

end Host
end FrameFlow
