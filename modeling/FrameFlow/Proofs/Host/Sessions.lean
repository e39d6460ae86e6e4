/-
# What a session asks of its host

Objects of a script reach their pipelines by handle, as everybody does. So what a
session is requested to do comes down to asking its host: building a pipeline,
calling methods, and letting a pipeline go when its object is in no slot any more.

Key definitions: `Request.asks`, `Script.Session.asks`.
Key theorem: `Script.Session.host_after`.
-/
import FrameFlow.Proofs.Host.Asks

namespace FrameFlow
namespace Script.Session

open Host

variable (s : Session)

/-- A pipeline that was in a slot is let go when its object is in none now. -/
def settleAsks : Option Handle → List Ask
  | Option.none => []
  | some object => if s.holds object then [] else [.release object]

/-- An object is put into a slot, and another one may be pushed out. -/
def putAsks (slot : Int) (object : Handle) : List Ask :=
  settleAsks { s with slots := s.slots.set slot object } (s.slots.get? slot)

def buildAsks (arguments : Arguments) : List Ask :=
  match (Signature.needed "config_json" Value.asText .nil).bind arguments with
  | .error _ => []
  | .ok (config, ()) => [.buildFrom config]

/-- What is asked after an object was built. -/
def thenAsks (arguments : Arguments) (next : Session → Handle → List Ask) : List Ask :=
  buildAsks arguments ++
    match s.build arguments with
    | (.error _, _) => []
    | (.ok object, s) => next s object

/-- The number of an object's handle is no method of its pipeline. -/
def methodAsks (slot : Int) (name : String) (arguments : Arguments) : List Ask :=
  match s.object slot with
  | .error _ => []
  | .ok object => if name = "handle" then [] else [.method object name arguments]

def functionAsks (name : String) (arguments : Arguments) : List Ask :=
  if name = "enable_verbose_logging" then
    match (Signature.optional "log_file" Value.asText
      (.optional "level" Value.asText .nil)).bind arguments with
    | .error _ => []
    | .ok (file, level, ()) => [.setUp (.parse level) file]
  else if name = className then s.thenAsks arguments fun s object => s.settleAsks (some object)
  else []

theorem host_settle (object : Option Handle) :
    (s.settle object).host = s.host.after (s.settleAsks object) := by
  rcases object with _ | object
  · rfl
  · unfold settle settleAsks
    by_cases held : s.holds object
    · simp only [if_pos held]
      rfl
    · simp only [if_neg held]
      rfl

theorem host_put (slot : Int) (object : Handle) :
    (s.put slot object).host = s.host.after (s.putAsks slot object) :=
  host_settle { s with slots := s.slots.set slot object } _

theorem host_build (arguments : Arguments) :
    (s.build arguments).2.host = s.host.after (buildAsks arguments) := by
  unfold build buildAsks
  rcases (Signature.needed "config_json" Value.asText .nil).bind arguments with e | ⟨config, ⟨⟩⟩
  · rfl
  · simp only [Host.after, Ask.run]
    rcases s.host.createFromJson config with ⟨e | object, h⟩
    · rfl
    · rfl

/-- What is asked after an object was built is asked of the host that this leaves. -/
theorem host_then (arguments : Arguments) (next : Session → Handle → List Ask)
    {done : Session → Handle → Session}
    (host : ∀ s object, (done s object).host = s.host.after (next s object)) :
    s.host.after (s.thenAsks arguments next) =
      match s.build arguments with
      | (.error _, s) => s.host
      | (.ok object, s) => (done s object).host := by
  have built := s.host_build arguments
  unfold thenAsks
  rw [Host.after_append, ← built]
  rcases s.build arguments with ⟨e | object, s'⟩
  · rfl
  · exact (host s' object).symm

end Script.Session

open Host Script

/-- What a request asks of the host of a session. -/
def Request.asks (s : Session) : Request → List Ask
  | build c => [.build c]
  | operate handle op => [.operate handle op]
  | foreign call => [.foreign call]
  | new slot arguments => s.thenAsks arguments fun s object => s.putAsks slot object
  | drop slot =>
    match s.object slot with
    | .error _ => []
    | .ok object => Session.settleAsks { s with slots := s.slots.erase slot } (some object)
  | share slot target =>
    match s.object slot with
    | .error _ => []
    | .ok object => s.putAsks target object
  | method slot name arguments => s.methodAsks slot name arguments
  | function name arguments => s.functionAsks name arguments

namespace Script.Session

variable (s : Session)

theorem host_new (slot : Int) (arguments : Arguments) :
    (s.new slot arguments).2.host = s.host.after ((Request.new slot arguments).asks s) := by
  have asked := s.host_then arguments _ fun s object => s.host_put slot object
  refine Eq.trans ?_ asked.symm
  unfold new
  rcases s.build arguments with ⟨e | object, s'⟩
  · rfl
  · rfl

theorem host_callClass (arguments : Arguments) : (s.callClass arguments).2.host =
    s.host.after (s.thenAsks arguments fun s object => s.settleAsks (some object)) := by
  have asked := s.host_then arguments _ fun s object => s.host_settle (some object)
  refine Eq.trans ?_ asked.symm
  unfold callClass
  rcases s.build arguments with ⟨e | object, s'⟩
  · rfl
  · rfl

theorem host_callMethod (slot : Int) (name : String) (arguments : Arguments) :
    (s.callMethod slot name arguments).2.host =
      s.host.after (s.methodAsks slot name arguments) := by
  unfold callMethod methodAsks
  rcases s.object slot with e | object
  · rfl
  · by_cases hidden : name = "handle"
    · simp only [if_pos hidden]
      rfl
    · simp only [if_neg hidden, Host.after, Ask.run]
      rcases found : method? name with _ | m
      · unfold method? at found
        simp only [found]
      · unfold method? at found
        simp only [found]

theorem host_callFunction (name : String) (arguments : Arguments) :
    (s.callFunction name arguments).2.host = s.host.after (s.functionAsks name arguments) := by
  unfold callFunction functionAsks
  split
  · rw [if_neg (by decide), if_neg (by decide)]
    split
    · rfl
    · rfl
  · rw [if_pos rfl]
    rcases (Signature.optional "log_file" Value.asText (.optional "level" Value.asText .nil)).bind
      arguments with e | ⟨file, level, ⟨⟩⟩
    · rfl
    · rfl
  · next other =>
    rw [if_neg other]
    split
    · exact s.host_callClass arguments
    · split
      · rfl
      · rfl

/-- A request does to the host what is asked of it. -/
theorem host_request (request : Request) :
    (request.run s).host = s.host.after (request.asks s) := by
  cases request with
  | build c => rfl
  | operate handle op => rfl
  | foreign call => rfl
  | new slot arguments => exact s.host_new slot arguments
  | drop slot =>
    simp only [Request.run, Request.asks, drop]
    rcases s.object slot with e | object
    · rfl
    · exact host_settle { s with slots := s.slots.erase slot } (some object)
  | share slot target =>
    simp only [Request.run, Request.asks, share]
    rcases s.object slot with e | object
    · rfl
    · exact s.host_put target object
  | method slot name arguments => exact s.host_callMethod slot name arguments
  | function name arguments => exact s.host_callFunction name arguments

/-- What some requests ask of the host, one after another. -/
def asks (s : Session) : List Request → List Ask
  | [] => []
  | request :: requests => request.asks s ++ (request.run s).asks requests

/-- The host of a session is left by what was asked of it. -/
theorem host_after (requests : List Request) :
    ∀ s : Session, (s.after requests).host = s.host.after (s.asks requests) := by
  induction requests with
  | nil => exact fun _ => rfl
  | cons request requests ih =>
    intro s
    show ((request.run s).after requests).host = s.host.after (request.asks s ++ _)
    rw [ih, Host.after_append, host_request]

end Script.Session
end FrameFlow
