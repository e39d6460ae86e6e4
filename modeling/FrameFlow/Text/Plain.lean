/-
# Plain text

What is left of a text where terminal controls have no meaning: escape sequences
and control characters are left out, and the controls that lay out a text (tab,
line feed, form feed, carriage return) stay. A layout control inside a sequence
interrupts it: the text is shown from there on up to the next control character,
behind which the sequence goes on, unless a character beyond ASCII has ended it.
Inside a device, private or system string a layout control is lost like all
else. A string that is never closed takes all that follows with it.

Key definitions:
* `SequencePart`, `Scanner`, `Scanner.step`: where in a sequence a text is, character by
  character.
* `plainText`.
-/

namespace FrameFlow

/-- Where a text is: outside all sequences, or in a part of one. -/
inductive SequencePart where
  /-- Outside. -/
  | text
  /-- Behind the escape character. -/
  | escape
  /-- Behind an escape that goes on. -/
  | selector
  /-- In a control sequence. -/
  | control
  /-- At the head of a device sequence. -/
  | device
  /-- Behind the first parameter of a device sequence. -/
  | parameters
  /-- Behind the parameters of a device sequence. -/
  | intermediate
  /-- In the string of a device sequence, or in a private one. -/
  | string
  /-- In the string of a system command. -/
  | command
deriving DecidableEq, Repr

/-- The controls that lay out a text. -/
def isLayout (c : Char) : Bool := c == '\t' || c == '\n' || c == '\x0c' || c == '\r'

/-- Whether a character is shown outside all sequences. -/
def isShown (c : Char) : Bool := isLayout c || (0x20 ≤ c.toNat && c.toNat ≠ 0x7f)

/-- Whether a code point lies in a range. -/
def inRange (c : Char) (first last : Nat) : Bool := first ≤ c.toNat && c.toNat ≤ last

/-- Whether one of the octets of a character is the one that ends a string. -/
def endsString (c : Char) : Bool := (String.utf8EncodeChar c).contains 0x9c

namespace SequencePart

/-- What an escape character and the character behind it begin. -/
def opened (c : Char) : SequencePart :=
  if c = '[' then control
  else if c = ']' then command
  else if c = 'P' then device
  else if c = 'X' ∨ c = '^' ∨ c = '_' then string
  else if inRange c 0x20 0x2f then selector
  else if inRange c 0x30 0x7e then text
  else escape

/-- Where a character of a sequence leads that is no control over the sequence itself. -/
def next (c : Char) : SequencePart → SequencePart
  | text => text
  | escape => opened c
  | selector => if inRange c 0x30 0x7e then text else selector
  | control => if inRange c 0x40 0x7e then text else control
  | device =>
    if inRange c 0x20 0x2f then intermediate
    else if inRange c 0x30 0x3f then parameters
    else if inRange c 0x40 0x7e then string
    else device
  | parameters =>
    if inRange c 0x20 0x2f then intermediate
    else if inRange c 0x3c 0x7e then string
    else parameters
  | intermediate => if inRange c 0x30 0x7e then string else intermediate
  | string => if endsString c then text else string
  | command => if c = '\x07' then text else command

/-- Whether layout controls have their meaning here. -/
def laysOut : SequencePart → Bool
  | text | escape | selector | control => true
  | device | parameters | intermediate | string | command => false

end SequencePart

/-- Where a text is, and whether a layout control has interrupted the sequence there. -/
structure Scanner where
  part : SequencePart
  interrupted : Bool
deriving DecidableEq, Repr

namespace Scanner

/-- Where a text begins. -/
def start : Scanner := ⟨.text, false⟩

/-- Whether a character is shown: outside all sequences, where a sequence is interrupted, and as
the layout control that interrupts one. -/
def shows (s : Scanner) (c : Char) : Bool :=
  if s.part = .text ∨ s.interrupted then isShown c else s.part.laysOut && isLayout c

/-- Where the text is behind a character. Escape begins a sequence anywhere, and cancel and
substitute end one. What is shown leaves a sequence as it was, if it is ASCII. -/
def step (s : Scanner) (c : Char) : Scanner :=
  if c = '\x1b' then ⟨.escape, false⟩
  else if c = '\x18' ∨ c = '\x1a' then ⟨.text, false⟩
  else if !s.shows c then ⟨s.part.next c, false⟩
  else if c.toNat < 0x80 then ⟨s.part, s.part ≠ .text⟩
  else start

end Scanner

/-- The characters of a text that are shown, from a place on. -/
def plainFrom : Scanner → List Char → List Char
  | _, [] => []
  | s, c :: r => if s.shows c then c :: plainFrom (s.step c) r else plainFrom (s.step c) r

/-- A text without escape sequences and control characters. -/
def plainText (s : String) : String := String.ofList (plainFrom .start s.toList)

end FrameFlow
