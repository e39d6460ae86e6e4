/-
# A script's session

A session has slots for pipeline objects. An object lets its pipeline go when no
slot holds it any more. As no two objects ever have the same handle, a slot is
described by the handle of the object in it.

Key definitions:
* `Session`, `Session.new`, `Session.drop`, `Session.share`, `Session.callMethod`.
* `Session.callFunction`, `publicNames`.
-/
import FrameFlow.Script.Methods

namespace FrameFlow.Script

open Signature Value

/-! ### The module -/

/-- What the module for scripts is called. -/
def moduleName : String := "stagepipe"

/-- What the objects are called. -/
def className : String := "Pipeline"

/-- What a script finds in the module, in order. -/
def publicNames : List String :=
  [className, "StagepipeError", "check_version", "enable_verbose_logging"]

/-- What else the module has, none of which can be called. -/
def hiddenNames : List String :=
  ["__all__", "__doc__", "__file__", "__loader__", "__name__", "__package__", "__spec__",
    "__version__"]

/-- The kind of failure that the module's own error stands for. -/
def errorKind : FailureKind := (Failure.refused .emptyBatch).kind

/-! ### Slots -/

/-- A process that runs a script, with the objects in its slots. -/
structure Session where
  host : Host
  slots : Table Int Handle

namespace Session

/-- Nothing has been called yet. -/
def fresh (surroundings : Surroundings) : Session := ⟨.fresh surroundings, .empty⟩

/-- Whether an object is in some slot. -/
def holds (s : Session) (object : Handle) : Bool := s.slots.toList.any fun e => e.2 == object

/-- Lets the pipeline of an object go that was in a slot and is in none now. -/
def settle (s : Session) : Option Handle → Session
  | Option.none => s
  | some object =>
    if s.holds object then s else { s with host := (s.host.release object).2 }

/-- Puts an object into a slot. -/
def put (s : Session) (slot : Int) (object : Handle) : Session :=
  { s with slots := s.slots.set slot object }.settle (s.slots.get? slot)

/-- Builds a pipeline, whose object is in no slot yet. -/
def build (s : Session) (arguments : Arguments) : Except Failure Handle × Session :=
  match (needed "config_json" asText nil).bind arguments with
  | .error e => (.error e, s)
  | .ok (config, ()) =>
    match s.host.createFromJson config with
    | (.error e, h) => (.error (.refused e), { s with host := h })
    | (.ok object, h) => (.ok object, { s with host := h })

/-- Builds a pipeline and puts it into a slot. What was there stays until this has succeeded. -/
def new (s : Session) (slot : Int) (arguments : Arguments) : Except Failure Unit × Session :=
  match s.build arguments with
  | (.error e, s) => (.error e, s)
  | (.ok object, s) => (.ok (), s.put slot object)

/-- The object in a slot. -/
def object (s : Session) (slot : Int) : Except Failure Handle :=
  match s.slots.get? slot with
  | Option.none => .error .emptySlot
  | some object => .ok object

/-- Empties a slot. -/
def drop (s : Session) (slot : Int) : Except Failure Unit × Session :=
  match s.object slot with
  | .error e => (.error e, s)
  | .ok object => (.ok (), { s with slots := s.slots.erase slot }.settle (some object))

/-- Puts the object of a slot into another slot too. -/
def share (s : Session) (slot target : Int) : Except Failure Unit × Session :=
  match s.object slot with
  | .error e => (.error e, s)
  | .ok object => (.ok (), s.put target object)

/-! ### Calls -/

/-- Calls a method of the object in a slot. The number of an object's handle is an attribute, and
cannot be called. -/
def callMethod (s : Session) (slot : Int) (name : String) (arguments : Arguments) :
    Except Failure Value × Session :=
  match s.object slot with
  | .error e => (.error e, s)
  | .ok object =>
    if name = "handle" then (.error .wrongType, s)
    else match methods.find? fun m => m.name == name with
      | Option.none => (.error .noSuchName, s)
      | some m =>
        let (answer, h) := m.call object arguments s.host
        (answer, { s with host := h })

/-- Calls the class as if it were a function. The new object is in no slot, so it goes at once, and
it is no value that could be the answer. -/
def callClass (s : Session) (arguments : Arguments) : Except Failure Value × Session :=
  match s.build arguments with
  | (.error e, s) => (.error e, s)
  | (.ok object, s) => (.error .wrongType, s.settle (some object))

/-- Calls a function of the module. What else is in the module cannot be called for a value. -/
def callFunction (s : Session) (name : String) (arguments : Arguments) :
    Except Failure Value × Session :=
  match name with
  | "check_version" =>
    match (needed "expected" asText nil).bind arguments with
    | .error e => (.error e, s)
    | .ok (expected, ()) => (.ok (.bool (expected == version)), s)
  | "enable_verbose_logging" =>
    match (optional "log_file" asText (optional "level" asText nil)).bind arguments with
    | .error e => (.error e, s)
    | .ok (file, level, ()) =>
      (.ok .none, { s with host := s.host.setUpLogging (.parse level) file })
  | _ =>
    if name = className then s.callClass arguments
    else if (publicNames ++ hiddenNames).contains name then (.error .wrongType, s)
    else (.error .noSuchName, s)

end Session
end FrameFlow.Script
