/-
# Configurations

A configuration fixes the name of a pipeline, its stages in graph order, what a
move does about unknown identifiers, and the log level.

Key definitions:
* `Config`, `Config.check`, `Config.ofJson`.
-/
import FrameFlow.Error
import FrameFlow.Level
import FrameFlow.Json.Record

namespace FrameFlow

open Json

/-- What a move does about identifiers that are not in the pipeline. -/
inductive MissingIds where
  | skip
  | abort
deriving DecidableEq, Repr, Inhabited

namespace MissingIds

def name : MissingIds → String
  | skip => "skip"
  | abort => "abort"

def format : Format MissingIds := .choice [skip, abort] name

end MissingIds

/-- The name and the payload of a stage to be. -/
structure StageSpec where
  name : String
  payload : Payload
deriving DecidableEq, Repr

namespace StageSpec

def format : Format StageSpec :=
  (Format.record "struct StageConfig" <|
    .cons "name" .refused .text <|
    .cons "payload" .refused Payload.format .nil).map
    (fun (name, payload, ()) => ⟨name, payload⟩)
    (fun s => (s.name, s.payload, ()))

end StageSpec

/-- The description of a pipeline. -/
structure Config where
  name : String
  stages : List StageSpec
  missingIds : MissingIds
  logLevel : Option String
deriving DecidableEq, Repr

namespace Config

/-- The name of a pipeline that is given none. -/
def defaultName : String := "pipeline"

def format : Format Config :=
  (Format.record "struct PipelineConfig" <|
    .cons "name" (.default defaultName) .text <|
    .cons "stages" (.default []) (.list StageSpec.format) <|
    .cons "missing_id_policy" (.default .skip) MissingIds.format <|
    .cons "log_level" (.default none) (.option .text) .nil).map
    (fun (name, stages, missingIds, logLevel, ()) => ⟨name, stages, missingIds, logLevel⟩)
    (fun c => (c.name, c.stages, c.missingIds, c.logLevel, ()))

/-- Goes through stage names: none is empty, and none was seen before. -/
def checkNames : List String → List String → Except Error Unit
  | _, [] => .ok ()
  | seen, n :: ns =>
    if n = "" then .error (.invalidConfig .emptyStageName)
    else if seen.contains n then .error (.duplicateStage n)
    else checkNames (n :: seen) ns

/-- A log level, if there is one, has to be the name of a threshold. -/
def checkLevel : Option String → Except Error Unit
  | none => .ok ()
  | some name =>
    if (Threshold.ofName? name).isSome then .ok ()
    else .error (.invalidConfig (.unknownLevel name))

/-- What a pipeline asks of its description: first of the names, then of the level. -/
def check (c : Config) : Except Error Unit := do
  checkNames [] (c.stages.map StageSpec.name)
  checkLevel c.logLevel

/-- Reads a configuration and checks it. -/
def ofJson (text : String) : Except Error Config :=
  match format.parse text with
  | .error e => .error (.json e)
  | .ok c => do
    c.check
    return c

end Config
end FrameFlow
