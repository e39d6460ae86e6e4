/-
# Log levels

A line of the log has a level, and a log lets through the lines up to a
threshold. Thresholds are named without regard to the case of ASCII letters.

Key definitions:
* `Level`, `Threshold`, `Threshold.ofName?`, `Threshold.parse`, `Threshold.lets`.
-/

namespace FrameFlow

/-- How urgent a line of the log is. -/
inductive Level where
  | error
  | warn
  | info
  | debug
  | trace
deriving DecidableEq, Repr

namespace Level

/-- The name that stands in a line of the log. -/
def name : Level → String
  | error => "ERROR"
  | warn => "WARN"
  | info => "INFO"
  | debug => "DEBUG"
  | trace => "TRACE"

/-- The place among the levels, the most urgent one first. -/
def rank : Level → Nat
  | error => 1
  | warn => 2
  | info => 3
  | debug => 4
  | trace => 5

end Level

/-- Up to which level a log lets lines through. -/
inductive Threshold where
  | off
  | upTo (level : Level)
deriving DecidableEq, Repr

namespace Threshold

def name : Threshold → String
  | off => "OFF"
  | upTo level => level.name

/-- All thresholds. -/
def all : List Threshold :=
  [off, upTo .error, upTo .warn, upTo .info, upTo .debug, upTo .trace]

/-- An ASCII letter as a capital. -/
def capital (c : Char) : Char :=
  if 0x61 ≤ c.toNat ∧ c.toNat ≤ 0x7A then Char.ofNat (c.toNat - 0x20) else c

/-- The threshold with a name, in any case of letters. -/
def ofName? (s : String) : Option Threshold :=
  all.find? fun t => t.name.toList == s.toList.map capital

/-- The threshold with a name, and the middle one for no name or another text. -/
def parse (name : Option String) : Threshold := (name.bind ofName?).getD (upTo .info)

/-- Whether lines of a level pass. -/
def lets : Threshold → Level → Bool
  | off, _ => false
  | upTo top, level => level.rank ≤ top.rank

end Threshold
end FrameFlow
