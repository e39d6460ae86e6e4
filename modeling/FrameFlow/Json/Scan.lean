/-
# Scanning scalars

The lexical level of JSON over lists of characters: blanks, keywords, quoted
texts with their escapes, and numbers. A `Reader` takes what it reads off the
front of a text, or stops at the first fault.

Key definitions:
* `Reader`, `token`: the scalar or the opening bracket that a value begins with.
* `textBody`: a quoted text, from behind the opening quote.
* `number`: an integer, or a 64-bit number.
-/
import FrameFlow.Binary.Reading
import FrameFlow.Json.Fault

namespace FrameFlow.Json

/-- Takes something off the front of a text. -/
def Reader (α : Type) := List Char → Except Fault (α × List Char)

namespace Reader

instance : Monad Reader where
  pure a s := .ok (a, s)
  bind m f s := match m s with
    | .ok (a, rest) => f a rest
    | .error e => .error e

/-- Stops with a fault. -/
def fail {α : Type} (e : Fault) : Reader α := fun _ => .error e

/-- Reads nothing, and goes on with a result or stops with its fault. -/
def lift {α : Type} : Except Fault α → Reader α
  | .ok a => pure a
  | .error e => fail e

end Reader

/-! ### Blanks and keywords -/

/-- The four characters that may stand between tokens. -/
def isBlank (c : Char) : Bool := c == ' ' || c == '\n' || c == '\t' || c == '\r'

/-- A text without the blanks it begins with. -/
def skipBlanks : List Char → List Char
  | [] => []
  | c :: r => if isBlank c then skipBlanks r else c :: r

/-- The rest of a keyword, character by character. -/
def keyword {α : Type} (a : α) : List Char → Reader α
  | [], s => .ok (a, s)
  | _ :: _, [] => .error (.endOf .value)
  | w :: ws, c :: r => if c = w then keyword a ws r else .error .badKeyword

/-! ### Quoted texts -/

/-- The value of a hexadecimal digit. -/
def hexDigit? (c : Char) : Option Nat :=
  let n := c.toNat
  if 0x30 ≤ n ∧ n ≤ 0x39 then some (n - 0x30)
  else if 0x61 ≤ n ∧ n ≤ 0x66 then some (n - 0x61 + 10)
  else if 0x41 ≤ n ∧ n ≤ 0x46 then some (n - 0x41 + 10)
  else none

/-- The value of four hexadecimal digits. -/
def hexFour? (a b c d : Char) : Option Nat := do
  let a ← hexDigit? a
  let b ← hexDigit? b
  let c ← hexDigit? c
  let d ← hexDigit? d
  return ((a * 16 + b) * 16 + c) * 16 + d

/-- Why four hexadecimal digits are not there: the text ends before four more octets, or
there is something else. -/
def hexFault (s : List Char) : Fault :=
  if (s.take 4).foldl (fun n c => n + c.utf8Size) 0 < 4 then .endOf .text else .invalidEscape

/-- What the escapes of one letter stand for. -/
def plainEscape? (c : Char) : Option Char :=
  if c = '"' then some '"'
  else if c = '\\' then some '\\'
  else if c = '/' then some '/'
  else if c = 'b' then some '\x08'
  else if c = 'f' then some '\x0c'
  else if c = 'n' then some '\n'
  else if c = 'r' then some '\r'
  else if c = 't' then some '\t'
  else none

/-- Whether a code unit is the first half of a pair. -/
def isHighSurrogate (n : Nat) : Bool := 0xD800 ≤ n && n ≤ 0xDBFF

/-- Whether a code unit is the second half of a pair. -/
def isLowSurrogate (n : Nat) : Bool := 0xDC00 ≤ n && n ≤ 0xDFFF

/-- The character that a pair of code units stands for. -/
def pairedChar (high low : Nat) : Char :=
  Char.ofNat ((high - 0xD800) * 0x400 + (low - 0xDC00) + 0x10000)

/-- Puts a character before what is read. -/
def prepend (c : Char) : Except Fault (List Char × List Char) → Except Fault (List Char × List Char)
  | .ok (cs, rest) => .ok (c :: cs, rest)
  | .error e => .error e

/-- A quoted text from behind its opening quote, up to and with the closing one. -/
def textBody : List Char → Except Fault (List Char × List Char)
  | [] => .error (.endOf .text)
  | c :: r =>
    if c = '"' then .ok ([], r)
    else if c = '\\' then
      match r with
      | [] => .error (.endOf .text)
      | e :: r =>
        match plainEscape? e with
        | some x => prepend x (textBody r)
        | none =>
          if e ≠ 'u' then .error .invalidEscape
          else match r with
          | a :: b :: c :: d :: r =>
            match hexFour? a b c d with
            | none => .error (hexFault [a, b, c, d])
            | some n =>
              if isLowSurrogate n then .error .loneSurrogate
              else if !isHighSurrogate n then prepend (Char.ofNat n) (textBody r)
              else match r with
              | [] => .error (.endOf .text)
              | [b] => .error (if b = '\\' then .endOf .text else .unpairedSurrogate)
              | b :: u :: r =>
                if b ≠ '\\' ∨ u ≠ 'u' then .error .unpairedSurrogate
                else match r with
                | a :: b :: c :: d :: r =>
                  match hexFour? a b c d with
                  | none => .error (hexFault [a, b, c, d])
                  | some m =>
                    if isLowSurrogate m then prepend (pairedChar n m) (textBody r)
                    else .error .loneSurrogate
                | s => .error (hexFault s)
          | s => .error (hexFault s)
    else if c.toNat < 0x20 then .error .controlCharacter
    else prepend c (textBody r)

/-! ### Numbers -/

/-- The digits that a text begins with, and the rest. -/
def spanDigits : List Char → List Char × List Char
  | [] => ([], [])
  | c :: r =>
    if c.isDigit then
      let (ds, rest) := spanDigits r
      (c :: ds, rest)
    else ([], c :: r)

/-- The number that digits stand for. -/
def digitsValue (ds : List Char) : Nat :=
  ds.foldl (fun n d => n * 10 + digitValue d) 0

/-- A number that is no integer; it has to be finite. -/
def realToken (negative : Bool) (whole fraction : List Char) (exponent : Int) :
    Except Fault Token :=
  match Double.ofDigits? negative whole fraction exponent with
  | some x => .ok (.number x)
  | none => .error .numberOutOfRange

/-- A whole number: kept as it is where it fits 64 bits, else a 64-bit number. Minus zero is no
integer. -/
def wholeToken (negative : Bool) (digits : List Char) : Except Fault Token :=
  let n := digitsValue digits
  if negative then
    if n ≠ 0 ∧ n ≤ 0x8000000000000000 then .ok (.integer (-n)) else realToken true digits [] 0
  else if n < 0x10000000000000000 then .ok (.integer n)
  else realToken false digits [] 0

/-- Digits, of which there has to be one. -/
def someDigits : Reader (List Char) := fun s =>
  let (ds, rest) := spanDigits s
  if ds = [] then .error (if rest = [] then .endOf .value else .invalidNumber) else .ok (ds, rest)

/-- An exponent from behind its letter. -/
def exponent : Reader Int
  | '-' :: r => do
    let (ds, rest) ← someDigits r
    return (-(digitsValue ds : Int), rest)
  | '+' :: r => do
    let (ds, rest) ← someDigits r
    return ((digitsValue ds : Int), rest)
  | s => do
    let (ds, rest) ← someDigits s
    return ((digitsValue ds : Int), rest)

/-- Whether a text begins with an exponent. -/
def hasExponent : List Char → Bool
  | c :: _ => c == 'e' || c == 'E'
  | [] => false

/-- All digits have been read: the exponent and the value. -/
def scaled (negative : Bool) (whole fraction : List Char) : Reader Token := fun s =>
  if hasExponent s then do
    let (e, rest) ← exponent (s.drop 1)
    let t ← realToken negative whole fraction e
    return (t, rest)
  else do
    let t ← realToken negative whole fraction 0
    return (t, s)

/-- The whole digits have been read: what follows them. -/
def behindWhole (negative : Bool) (whole : List Char) : Reader Token := fun s =>
  match s with
  | '.' :: r => do
    let (fraction, rest) ← someDigits r
    scaled negative whole fraction rest
  | s =>
    if hasExponent s then scaled negative whole [] s
    else do
      let t ← wholeToken negative whole
      return (t, s)

/-- A number from behind its sign. A leading zero stands alone. -/
def number (negative : Bool) : Reader Token := fun s =>
  match s with
  | [] => .error (.endOf .value)
  | c :: r =>
    if c = '0' then
      match r with
      | [] => behindWhole negative [c] r
      | d :: _ => if d.isDigit then .error .invalidNumber else behindWhole negative [c] r
    else if c.isDigit then
      let (ds, rest) := spanDigits s
      behindWhole negative ds rest
    else .error .invalidNumber

/-! ### Tokens -/

/-- The scalar that a value is, or the bracket that it begins with, which stays in the text. -/
def token : Reader Token := fun s =>
  match skipBlanks s with
  | [] => .error (.endOf .value)
  | c :: r =>
    if c = 'n' then keyword .null ['u', 'l', 'l'] r
    else if c = 't' then keyword (.boolean true) ['r', 'u', 'e'] r
    else if c = 'f' then keyword (.boolean false) ['a', 'l', 's', 'e'] r
    else if c = '"' then do
      let (cs, rest) ← textBody r
      return (.text (String.ofList cs), rest)
    else if c = '[' then .ok (.list, c :: r)
    else if c = '{' then .ok (.object, c :: r)
    else if c = '-' then number true r
    else if c.isDigit then number false (c :: r)
    else .error .expectedValue

/-- A scalar that a type accepts. -/
def scalar {α : Type} (accept : Token → Except Fault α) : Reader α := do
  let t ← token
  .lift (accept t)

/-- The end of the whole text. -/
def endOfText : Reader Unit := fun s =>
  match skipBlanks s with
  | [] => .ok ((), [])
  | _ :: _ => .error .trailingCharacters

end FrameFlow.Json
