/-
# Logging

A log is set up once. Its lines go to the console, or to a file that was named
and could be opened. A console that shows colours gets them as they are; all
other lines are plain text. The names of the levels are painted only on a
console that shows colours, and only where no file was named.

Key definitions:
* `Sink`, `Logging`.
* `Logging.setUp`, `Logging.write`, `Logging.lines`.
-/
import FrameFlow.Event
import FrameFlow.Text.Plain

namespace FrameFlow

/-- What the log depends on: whether the console shows colours, and why a file cannot be opened
for appending, if it cannot. -/
structure Surroundings where
  colours : Bool
  obstacle : String → Option String

/-- Where the lines of a log go. -/
inductive Destination where
  | console
  | file (name : String)
deriving DecidableEq, Repr

/-- A log that has been set up: whether the names of its levels are painted, and whether its
lines are made plain. -/
structure Sink where
  threshold : Threshold
  painted : Bool
  plain : Bool
  destination : Destination
deriving DecidableEq, Repr

/-- The log, and what has been written to the console and to the file. -/
structure Logging where
  sink : Option Sink
  console : String
  file : String
deriving DecidableEq, Repr

namespace Logging

/-- Before the log is set up. -/
def unset : Logging := ⟨none, "", ""⟩

/-- What is said about a file that cannot be opened. -/
def fallback (name obstacle : String) : String :=
  s!"stagepipe: could not open log file '{name}' ({obstacle}), logging to stderr\n"

/-- Sets the log up, unless it has been. A file that cannot be opened gives way to the console. -/
def setUp (env : Surroundings) (l : Logging) (threshold : Threshold) (file : Option String) :
    Logging :=
  match l.sink, file with
  | some _, _ => l
  | none, none => { l with sink := some ⟨threshold, env.colours, !env.colours, .console⟩ }
  | none, some name =>
    match env.obstacle name with
    | none => { l with sink := some ⟨threshold, false, true, .file name⟩ }
    | some obstacle =>
      { l with
        sink := some ⟨threshold, false, !env.colours, .console⟩
        console := l.console ++ fallback name obstacle }

/-- The terminal's code for the look of a level. -/
def look : Level → String
  | .error => "1;31"
  | .warn => "33"
  | .info => "32"
  | .debug => "34"
  | .trace => "2"

/-- The name of a level in its colour. -/
def paint (level : Level) : String := s!"\x1b[{look level}m{level.name}\x1b[0m"

/-- A line of the log. -/
def line (painted : Bool) (level : Level) (text : String) : String :=
  let name := if painted then paint level else level.name
  s!"[{name}] {text}\n"

/-- What a sink makes of an event. -/
def record (s : Sink) (e : Event) : String :=
  let text := line s.painted e.level e.message
  if s.plain then plainText text else text

/-- Writes an event to the log, if it is set up and lets the event's level through. -/
def write (l : Logging) (e : Event) : Logging :=
  match l.sink with
  | none => l
  | some s =>
    if s.threshold.lets e.level then
      match s.destination with
      | .console => { l with console := l.console ++ record s e }
      | .file _ => { l with file := l.file ++ record s e }
    else l

/-- What stands in a file, if the log goes there. -/
def contents? (l : Logging) (name : String) : Option String :=
  match l.sink with
  | some ⟨_, _, _, .file name'⟩ => if name' = name then some l.file else none
  | _ => none

/-- A piece of text without the carriage return that it ends with. -/
def dropReturn (s : String) : String :=
  match s.toList.getLast? with
  | some '\r' => String.ofList s.toList.dropLast
  | _ => s

/-- The lines of a text. A line ends with a line feed, which may have a carriage return before
it; the last line may be without one. -/
def lines (text : String) : List String :=
  let pieces := text.splitOn "\n"
  let last := pieces.getLast?.filter fun s => s ≠ ""
  pieces.dropLast.map dropReturn ++ last.toList

end Logging
end FrameFlow
