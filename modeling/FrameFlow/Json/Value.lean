/-
# Lists, objects and whole values

How the items of a list and the members of an object follow one another, a value
read whole without a type (`value`, which is held to a nesting limit), and a
value passed over without looking into it (`skip`, which is not).

Key definitions:
* `listGoesOn`, `closeList`, `objectGoesOn`, `closeObject`, `memberKey`, `colon`.
* `Value`, `value`, `skip`.
-/
import FrameFlow.Json.Scan

namespace FrameFlow.Json

/-! ### Brackets and commas -/

/-- Whether a list goes on, before the first item or after one. A closing bracket stays in
the text. -/
def listGoesOn (first : Bool) : Reader Bool := fun s =>
  match skipBlanks s with
  | [] => .error (.endOf .list)
  | c :: r =>
    if c = ']' then .ok (false, c :: r)
    else if first then .ok (true, c :: r)
    else if c = ',' then
      match skipBlanks r with
      | [] => .error (.endOf .value)
      | d :: r => if d = ']' then .error .trailingComma else .ok (true, d :: r)
    else .error .expectedCommaOrBracket

/-- The closing bracket of a list whose wanted items have all been read. -/
def closeList : Reader Unit := fun s =>
  match skipBlanks s with
  | [] => .error (.endOf .list)
  | c :: r =>
    if c = ']' then .ok ((), r)
    else if c = ',' then
      .error (if (skipBlanks r).head? = some ']' then .trailingComma else .trailingCharacters)
    else .error .trailingCharacters

/-- Whether an object goes on, before the first member or after one. A closing brace and the
opening quote of a key stay in the text. -/
def objectGoesOn (first : Bool) : Reader Bool := fun s =>
  match skipBlanks s with
  | [] => .error (.endOf .object)
  | c :: r =>
    if c = '}' then .ok (false, c :: r)
    else if first then
      if c = '"' then .ok (true, c :: r) else .error .keyNotText
    else if c = ',' then
      match skipBlanks r with
      | [] => .error (.endOf .value)
      | d :: r =>
        if d = '"' then .ok (true, d :: r)
        else if d = '}' then .error .trailingComma
        else .error .keyNotText
    else .error .expectedCommaOrBrace

/-- The closing brace of an object. -/
def closeObject : Reader Unit := fun s =>
  match skipBlanks s with
  | [] => .error (.endOf .object)
  | c :: r =>
    if c = '}' then .ok ((), r)
    else .error (if c = ',' then .trailingComma else .trailingCharacters)

/-- A key, from its opening quote. -/
def memberKey : Reader String := fun s => do
  let (cs, rest) ← textBody (s.drop 1)
  return (String.ofList cs, rest)

/-- The colon between a key and its value. -/
def colon : Reader Unit := fun s =>
  match skipBlanks s with
  | [] => .error (.endOf .object)
  | c :: r => if c = ':' then .ok ((), r) else .error .expectedColon

/-! ### Values without a type -/

/-- A value read whole. -/
inductive Value where
  | null
  | boolean (b : Bool)
  | integer (i : Int)
  | number (x : Double)
  | text (s : String)
  | list (items : List Value)
  | object (members : List (String × Value))

namespace Value

/-- The beginning of a value, as a message names it. -/
def token : Value → Token
  | null => .null
  | boolean b => .boolean b
  | integer i => .integer i
  | number x => .number x
  | text s => .text s
  | list _ => .list
  | object _ => .object

end Value

/-- The items of a list up to its closing bracket, of which there are fewer than the fuel. -/
def items {α : Type} (item : Reader α) : Nat → Bool → Reader (List α)
  | 0, _ => .fail .tooDeep
  | fuel + 1, first => do
    if ← listGoesOn first then
      let a ← item
      let rest ← items item fuel false
      return a :: rest
    else return []

/-- The members of an object up to its closing brace. -/
def members {α : Type} (item : Reader α) : Nat → Bool → Reader (List (String × α))
  | 0, _ => .fail .tooDeep
  | fuel + 1, first => do
    if ← objectGoesOn first then
      let key ← memberKey
      colon
      let a ← item
      let rest ← members item fuel false
      return (key, a) :: rest
    else return []

/-- As much fuel as any loop over a text can use up: every round takes a character off it. -/
def withFuel {α : Type} (loop : Nat → Reader α) : Reader α := fun s => loop (s.length + 1) s

/-- How deep lists and objects may be nested in a value that is looked into. -/
def depthLimit : Nat := 127

/-- What a token stands for, the items of a list or an object read by `inner`. -/
def valueOf (inner : Option (Reader Value)) : Token → Reader Value
  | .null => pure .null
  | .boolean b => pure (.boolean b)
  | .integer i => pure (.integer i)
  | .number x => pure (.number x)
  | .text s => pure (.text s)
  | .list => match inner with
    | none => .fail .tooDeep
    | some item => fun s => do
      let (vs, s) ← withFuel (items item · true) (s.drop 1)
      let (_, s) ← closeList s
      return (.list vs, s)
  | .object => match inner with
    | none => .fail .tooDeep
    | some item => fun s => do
      let (ms, s) ← withFuel (members item · true) (s.drop 1)
      let (_, s) ← closeObject s
      return (.object ms, s)

/-- A value read whole, nested at most as deep as it is told. -/
def value : Nat → Reader Value
  | 0 => do valueOf none (← token)
  | depth + 1 => do valueOf (some (value depth)) (← token)

/-! ### Passing over a value -/

/-- Passes over a quoted text from behind its opening quote. The digits of an escape are looked
at, what they stand for is not. -/
def skipText : List Char → Except Fault (List Char)
  | [] => .error (.endOf .text)
  | c :: r =>
    if c = '"' then .ok r
    else if c = '\\' then
      match r with
      | [] => .error (.endOf .text)
      | e :: r =>
        if (plainEscape? e).isSome then skipText r
        else if e ≠ 'u' then .error .invalidEscape
        else match r with
        | a :: b :: c :: d :: r =>
          if (hexFour? a b c d).isSome then skipText r else .error (hexFault [a, b, c, d])
        | s => .error (hexFault s)
    else if c.toNat < 0x20 then .error .controlCharacter
    else skipText r

/-- Passes over digits, of which there has to be one. -/
def skipDigits (s : List Char) : Except Fault (List Char) :=
  let (ds, rest) := spanDigits s
  if ds = [] then .error .invalidNumber else .ok rest

/-- Passes over an exponent, if there is one. -/
def skipExponent (s : List Char) : Except Fault (List Char) :=
  if hasExponent s then
    match s.drop 1 with
    | '-' :: r => skipDigits r
    | '+' :: r => skipDigits r
    | r => skipDigits r
  else .ok s

/-- Passes over a number from behind its sign, looking only at its form. -/
def skipNumber (s : List Char) : Except Fault (List Char) := do
  let rest ← match s with
    | '0' :: d :: r => if d.isDigit then .error .invalidNumber else .ok (d :: r)
    | s => skipDigits s
  match rest with
  | '.' :: r => skipExponent (← skipDigits r)
  | rest => skipExponent rest

/-- Passes over the items of a list, from the first one on. -/
def skipItems (item : List Char → Except Fault (List Char)) :
    Nat → List Char → Except Fault (List Char)
  | 0, _ => .error .tooDeep
  | fuel + 1, s => do
    match skipBlanks (← item s) with
    | [] => .error (.endOf .list)
    | c :: r =>
      if c = ',' then skipItems item fuel r
      else if c = ']' then .ok r
      else .error .expectedCommaOrBracket

/-- Passes over a key and its colon. -/
def skipKey (s : List Char) : Except Fault (List Char) :=
  match skipBlanks s with
  | [] => .error (.endOf .object)
  | c :: r =>
    if c ≠ '"' then .error .keyNotText
    else do
      let ((), rest) ← colon (← skipText r)
      return rest

/-- Passes over the members of an object, from the first one on. -/
def skipMembers (item : List Char → Except Fault (List Char)) :
    Nat → List Char → Except Fault (List Char)
  | 0, _ => .error .tooDeep
  | fuel + 1, s => do
    match skipBlanks (← item (← skipKey s)) with
    | [] => .error (.endOf .object)
    | c :: r =>
      if c = ',' then skipMembers item fuel r
      else if c = '}' then .ok r
      else .error .expectedCommaOrBrace

/-- Passes over a value. The fuel bounds the nesting, which has no other limit. -/
def skipValue : Nat → List Char → Except Fault (List Char)
  | 0, _ => .error .tooDeep
  | fuel + 1, s =>
    match skipBlanks s with
    | [] => .error (.endOf .value)
    | c :: r =>
      if c = 'n' then (keyword () ['u', 'l', 'l'] r).map Prod.snd
      else if c = 't' then (keyword () ['r', 'u', 'e'] r).map Prod.snd
      else if c = 'f' then (keyword () ['a', 'l', 's', 'e'] r).map Prod.snd
      else if c = '"' then skipText r
      else if c = '-' then skipNumber r
      else if c.isDigit then skipNumber (c :: r)
      else if c = '[' then
        match skipBlanks r with
        | [] => .error (.endOf .list)
        | d :: r' => if d = ']' then .ok r' else skipItems (skipValue fuel) r.length (d :: r')
      else if c = '{' then
        match skipBlanks r with
        | [] => .error (.endOf .object)
        | d :: r' => if d = '}' then .ok r' else skipMembers (skipValue fuel) r.length (d :: r')
      else .error .expectedValue

/-- Passes over a value. -/
def skip : Reader Unit := fun s => do
  let rest ← skipValue (s.length + 1) s
  return ((), rest)

end FrameFlow.Json
