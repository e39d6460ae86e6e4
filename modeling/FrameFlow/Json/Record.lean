/-
# Records and tagged variants

A record is written as an object with all its fields in order. It is read from
an object with the fields in any order, unknown keys being passed over, or from a
list of the fields in order. `Fields σ α` describes the fields one after another:
`α` is the type of all their values together, and `σ` holds the values read so
far. Variants are told apart by a tag, which stands beside the payload
(`Format.adjacent`) or among the fields of the payload (`Format.tagged`).

Key definitions:
* `Fields`, `Fields.cons`, `Format.record`.
* `Case`, `Format.adjacent`; `Variant`, `Format.tagged`.
-/
import FrameFlow.Json.Format

namespace FrameFlow.Json

/-! ### Fields -/

/-- The fields of a record. A field is addressed by its place. -/
structure Fields (σ α : Type) where
  names : List String
  /-- Nothing read yet. -/
  nothing : σ
  /-- Whether the field at a place has been read. -/
  has : Nat → σ → Bool
  /-- Reads the field at a place. -/
  readAt : Nat → Nat → σ → Reader σ
  /-- Takes the field at a place from a value. -/
  valueAt : Nat → Value → σ → Except Fault σ
  /-- The record, when its members have been read: the first missing field is reported. -/
  finish : σ → Except Fault α
  /-- Reads the fields as items of a list, of which `seen` have been read; what is expected is
  named when the list is too short. -/
  readItems : String → Nat → Nat → Reader α
  /-- Takes the fields from the items of a list, and what items are left. -/
  ofItems : String → Nat → List Value → Except Fault (α × List Value)
  /-- The written values, in order. -/
  write : α → List (List Char)

/-- What is used where a field is missing: from an object, and from a list that is too short. -/
structure Missing (α : Type) where
  inObject : Option α
  inList : Option α

namespace Missing

variable {α : Type}

/-- The field has to be there. -/
def refused : Missing α := ⟨none, none⟩

/-- A missing field has a default. -/
def default (a : α) : Missing α := ⟨some a, some a⟩

/-- A field that may be left out of an object, but not of a list. -/
def optional : Missing (Option α) := ⟨some none, none⟩

end Missing

namespace Fields

/-- No fields. -/
def nil : Fields Unit Unit where
  names := []
  nothing := ()
  has _ _ := false
  readAt _ _ s := pure s
  valueAt _ _ s := pure s
  finish _ := pure ()
  readItems _ _ _ := pure ()
  ofItems _ _ vs := pure ((), vs)
  write _ := []

/-- One more field, before the others. -/
def cons {σ α β : Type} (name : String) (missing : Missing α) (f : Format α) (rest : Fields σ β) :
    Fields (Option α × σ) (α × β) where
  names := name :: rest.names
  nothing := (none, rest.nothing)
  has
    | 0, (a, _) => a.isSome
    | i + 1, (_, s) => rest.has i s
  readAt
    | 0, depth, (_, s) => do
      let a ← f.read depth
      return (some a, s)
    | i + 1, depth, (a, s) => do
      let s ← rest.readAt i depth s
      return (a, s)
  valueAt
    | 0, v, (_, s) => do
      let a ← f.ofValue v
      return (some a, s)
    | i + 1, v, (a, s) => do
      let s ← rest.valueAt i v s
      return (a, s)
  finish := fun (a, s) => do
    let a ← match a.or missing.inObject with
      | some a => pure a
      | none => .error (.missingField name)
    let b ← rest.finish s
    return (a, b)
  readItems expected depth seen := do
    let a ← if ← listGoesOn (decide (seen = 0)) then f.read depth
      else match missing.inList with
      | some a => pure a
      | none => .fail (.wrongLength seen expected)
    let b ← rest.readItems expected depth (seen + 1)
    return (a, b)
  ofItems expected seen vs := do
    let (a, vs) ← match vs, missing.inList with
      | v :: vs, _ => do
        let a ← f.ofValue v
        pure (a, vs)
      | [], some a => pure (a, [])
      | [], none => .error (.wrongLength seen expected)
    let (b, vs) ← rest.ofItems expected (seen + 1) vs
    return ((a, b), vs)
  write := fun (a, b) => f.write a :: rest.write b

variable {σ α : Type}

/-- How many elements a record has, as a message says it. -/
def countText (n : Nat) : String := s!"{n} element" ++ if n = 1 then "" else "s"

/-- What is expected of a list. -/
def expectedItems (fields : Fields σ α) (title : String) : String :=
  s!"{title} with {countText fields.names.length}"

/-- Reads the members of an object into the fields. A repeated field is a fault at once. -/
def readMembers (fields : Fields σ α) (depth : Nat) : Nat → Bool → σ → Reader σ
  | 0, _, _ => .fail .tooDeep
  | fuel + 1, first, read => do
    if ← objectGoesOn first then
      let key ← memberKey
      match fields.names.idxOf? key with
      | some i =>
        if fields.has i read then .fail (.duplicateField key)
        else do
          colon
          let read ← fields.readAt i depth read
          fields.readMembers depth fuel false read
      | none => do
        colon
        skip
        fields.readMembers depth fuel false read
    else return read

/-- The fields as members of an object, from its opening brace. -/
def readObject (fields : Fields σ α) (depth : Nat) : Reader α := do
  let read ← withFuel (fields.readMembers depth · true fields.nothing)
  let a ← Reader.lift (fields.finish read)
  closeObject
  return a

/-- The fields as items of a list, from its opening bracket. -/
def readList (fields : Fields σ α) (title : String) (depth : Nat) : Reader α := do
  let a ← fields.readItems (fields.expectedItems title) depth 0
  closeList
  return a

/-- Takes the members of an object into the fields. -/
def takeMembers (fields : Fields σ α) : List (String × Value) → σ → Except Fault σ
  | [], read => .ok read
  | (key, v) :: ms, read =>
    match fields.names.idxOf? key with
    | some i =>
      if fields.has i read then .error (.duplicateField key)
      else do fields.takeMembers ms (← fields.valueAt i v read)
    | none => fields.takeMembers ms read

/-- The fields from a value, which has to have no more items than there are fields. -/
def ofValue (fields : Fields σ α) (title : String) : Value → Except Fault α
  | .object ms => do fields.finish (← fields.takeMembers ms fields.nothing)
  | .list vs => do
    let (a, left) ← fields.ofItems (fields.expectedItems title) 0 vs
    if left.isEmpty then return a
    else .error (.wrongLength vs.length s!"{countText fields.names.length} in sequence")
  | v => .error (.wrongType v.token title)

/-- A written member. -/
def writeMember (name : String) (value : List Char) : List Char := quoteText name ++ ':' :: value

/-- The written members, in order. -/
def writeMembers (fields : Fields σ α) (a : α) : List (List Char) :=
  fields.names.zipWith writeMember (fields.write a)

end Fields

/-- An object of written members. -/
def writeObject (members : List (List Char)) : List Char :=
  '{' :: (Format.commaSeparated members ++ ['}'])

/-- The format of a record with a title for messages. -/
def Format.record {σ α : Type} (title : String) (fields : Fields σ α) : Format α where
  write a := writeObject (fields.writeMembers a)
  read depth s :=
    match skipBlanks s with
    | '[' :: r => nested depth (fields.readList title) r
    | '{' :: r => nested depth fields.readObject r
    | s => refuse title s
  ofValue := fields.ofValue title

/-! ### Tag and payload side by side -/

/-- One of the variants that a tag tells apart. -/
structure Case (α : Type) where
  name : String
  read : Nat → Reader α
  ofValue : Value → Except Fault α
  /-- The variant where there is no payload. -/
  bare : Option α

namespace Case

variable {α β : Type}

/-- A variant with a payload, which has to be there. -/
def payload (name : String) (f : Format β) (make : β → α) : Case α where
  name := name
  read depth := make <$> f.read depth
  ofValue v := make <$> f.ofValue v
  bare := none

/-- A variant without a payload, or with a missing value for one. -/
def plain (name title : String) (a : α) : Case α :=
  let accept : Token → Except Fault α
    | .null => .ok a
    | t => .error (.wrongType t s!"unit variant {title}")
  { name := name
    read := fun _ => scalar accept
    ofValue := fun v => accept v.token
    bare := some a }

end Case

/-- The keys of a tag and of its payload. -/
structure TagKeys where
  tag : String
  payload : String

namespace TagKeys

/-- The two keys that matter. -/
inductive Key where
  | tag
  | payload
deriving DecidableEq

/-- Which of the two a key is. -/
def key? (keys : TagKeys) (name : String) : Option Key :=
  if name = keys.tag then some .tag
  else if name = keys.payload then some .payload
  else none

/-- The name of a key. -/
def nameOf (keys : TagKeys) : Key → String
  | .tag => keys.tag
  | .payload => keys.payload

/-- Reads on to the next key that matters, passing over other members. -/
def next (keys : TagKeys) : Nat → Bool → Reader (Option Key)
  | 0, _ => .fail .tooDeep
  | fuel + 1, first => do
    if ← objectGoesOn first then
      let name ← memberKey
      match keys.key? name with
      | some k => return some k
      | none => do
        colon
        skip
        keys.next fuel false
    else return none

/-- No key that matters may be left. -/
def noMore (keys : TagKeys) : Reader Unit := do
  match ← withFuel (keys.next · false) with
  | none => return ()
  | some k => .fail (.duplicateField (keys.nameOf k))

/-- The next of some members whose key matters, and the members behind it. -/
def nextOf (keys : TagKeys) : List (String × Value) → Option (Key × Value × List (String × Value))
  | [] => none
  | (name, v) :: ms =>
    match keys.key? name with
    | some k => some (k, v, ms)
    | none => keys.nextOf ms

end TagKeys

section Adjacent

variable {α : Type}

/-- The case at a place. -/
def caseAt (cases : List (Case α)) (i : Nat) : Except Fault (Case α) :=
  match cases[i]? with
  | some c => .ok c
  | none => .error .expectedValue

/-- A tag read straight from the text. -/
def readCase (cases : List (Case α)) (depth : Nat) : Reader (Case α) := do
  let i ← readName (cases.map Case.name) depth
  .lift (caseAt cases i)

/-- A tag that is an item of a list, read straight from the text. -/
def readCaseItem (cases : List (Case α)) : Reader (Case α) := do
  let i ← Json.scalar (acceptVariant (cases.map Case.name))
  .lift (caseAt cases i)

/-- A tag taken from a value. -/
def caseOfValue (cases : List (Case α)) (v : Value) : Except Fault (Case α) := do
  caseAt cases (← nameOfValue (cases.map Case.name) v)

/-- A tag that is an item of a list, taken from a value: its name or its place. -/
def caseOfItem (cases : List (Case α)) (v : Value) : Except Fault (Case α) := do
  caseAt cases (← variantOfValue (cases.map Case.name) v)

/-- A variant without a payload. -/
def bareCase (keys : TagKeys) (c : Case α) : Except Fault α :=
  match c.bare with
  | some a => .ok a
  | none => .error (.missingField keys.payload)

/-- Tag and payload as the two items of a list, from its opening bracket. -/
def readPair (title : String) (cases : List (Case α)) (depth : Nat) : Reader α := do
  if ← listGoesOn true then
    let c ← readCaseItem cases
    if ← listGoesOn false then
      let a ← c.read depth
      closeList
      return a
    else .fail (.wrongLength 1 title)
  else .fail (.wrongLength 0 title)

/-- Tag and payload as members of an object, in either order, from its opening brace. A payload
that comes first is read whole before its type is known. -/
def readTagged (keys : TagKeys) (cases : List (Case α)) (depth : Nat) : Reader α := do
  let a ← match ← withFuel (keys.next · true) with
    | none => .fail (.missingField keys.tag)
    | some .tag => do
      colon
      let c ← readCase cases depth
      match ← withFuel (keys.next · false) with
      | none => .lift (bareCase keys c)
      | some .tag => .fail (.duplicateField keys.tag)
      | some .payload => do
        colon
        let a ← c.read depth
        keys.noMore
        pure a
    | some .payload => do
      colon
      let v ← value depth
      match ← withFuel (keys.next · false) with
      | none => .fail (.missingField keys.tag)
      | some .payload => .fail (.duplicateField keys.payload)
      | some .tag => do
        colon
        let c ← readCase cases depth
        let a ← Reader.lift (c.ofValue v)
        keys.noMore
        pure a
  closeObject
  return a

/-- No member whose key matters may be left. -/
def noMoreOf (keys : TagKeys) (ms : List (String × Value)) : Except Fault Unit :=
  match keys.nextOf ms with
  | none => .ok ()
  | some (k, _) => .error (.duplicateField (keys.nameOf k))

/-- Tag and payload from the members of an object. -/
def takeTagged (keys : TagKeys) (cases : List (Case α)) (ms : List (String × Value)) :
    Except Fault α :=
  match keys.nextOf ms with
  | none => .error (.missingField keys.tag)
  | some (.tag, v, ms) => do
    let c ← caseOfValue cases v
    match keys.nextOf ms with
    | none => bareCase keys c
    | some (.tag, _) => .error (.duplicateField keys.tag)
    | some (.payload, v, ms) => do
      let a ← c.ofValue v
      noMoreOf keys ms
      return a
  | some (.payload, v, ms) =>
    match keys.nextOf ms with
    | none => .error (.missingField keys.tag)
    | some (.payload, _) => .error (.duplicateField keys.payload)
    | some (.tag, t, ms) => do
      let c ← caseOfValue cases t
      let a ← c.ofValue v
      noMoreOf keys ms
      return a

/-- Tag and payload from the items of a list. -/
def takePair (title : String) (cases : List (Case α)) : List Value → Except Fault α
  | [] => .error (.wrongLength 0 title)
  | [t] => do
    let _ ← caseOfItem cases t
    .error (.wrongLength 1 title)
  | t :: v :: left => do
    let a ← (← caseOfItem cases t).ofValue v
    if left.isEmpty then return a
    else .error (.wrongLength (left.length + 2) s!"{Fields.countText 2} in sequence")

/-- The format of variants that are written as a tag and a payload side by side. -/
def Format.adjacent (title : String) (keys : TagKeys) (cases : List (Case α))
    (write : α → String × Option (List Char)) : Format α where
  write a :=
    let (name, payload) := write a
    writeObject (Fields.writeMember keys.tag (quoteText name) ::
      (payload.map (Fields.writeMember keys.payload)).toList)
  read depth s :=
    match skipBlanks s with
    | '[' :: r => nested depth (readPair title cases) r
    | '{' :: r => nested depth (readTagged keys cases) r
    | s => refuse title s
  ofValue
    | .object ms => takeTagged keys cases ms
    | .list vs => takePair title cases vs
    | v => .error (.wrongType v.token title)

end Adjacent

/-! ### Tag among the fields -/

/-- One of the variants whose tag stands among its fields. -/
structure Variant (α : Type) where
  name : String
  ofValue : Value → Except Fault α

/-- A variant with fields. -/
def Variant.record {σ α β : Type} (name title : String) (fields : Fields σ β) (make : β → α) :
    Variant α where
  name := name
  ofValue v := make <$> fields.ofValue s!"struct variant {title}" v

section Tagged

variable {α : Type}

/-- The place of a tag read straight from the text. -/
def readTag (variants : List (Variant α)) : Reader Nat :=
  scalar (acceptVariant (variants.map Variant.name))

/-- Reads the members of an object: the tag, once it has been met, and the others whole. -/
def readWithTag (tag : String) (variants : List (Variant α)) (depth : Nat) :
    Nat → Bool → Option Nat → Reader (Option Nat × List (String × Value))
  | 0, _, _ => .fail .tooDeep
  | fuel + 1, first, met => do
    if ← objectGoesOn first then
      let key ← memberKey
      if key = tag then
        if met.isSome then .fail (.duplicateField tag)
        else do
          colon
          let i ← readTag variants
          readWithTag tag variants depth fuel false (some i)
      else do
        colon
        let v ← value depth
        let (met, ms) ← readWithTag tag variants depth fuel false met
        return (met, (key, v) :: ms)
    else return (met, [])

/-- The variant at a place, from the value of its fields. -/
def variantAt (variants : List (Variant α)) (i : Nat) (v : Value) : Except Fault α :=
  match variants[i]? with
  | some w => w.ofValue v
  | none => .error .expectedValue

/-- A tagged object, from its opening brace. -/
def readTaggedObject (tag : String) (variants : List (Variant α)) (depth : Nat) : Reader α := do
  let (met, ms) ← withFuel (readWithTag tag variants depth · true none)
  match met with
  | none => .fail (.missingField tag)
  | some i => do
    closeObject
    .lift (variantAt variants i (.object ms))

/-- A tag followed by the fields as items of a list, from its opening bracket. -/
def readTaggedList (tag : String) (variants : List (Variant α)) (depth : Nat) : Reader α := do
  if ← listGoesOn true then
    let i ← readTag variants
    let vs ← withFuel (items (value depth) · false)
    closeList
    .lift (variantAt variants i (.list vs))
  else .fail (.missingField tag)

/-- The place of a tag taken from a value: of its name, or the place itself. -/
def tagOfValue (variants : List (Variant α)) (v : Value) : Except Fault Nat :=
  variantOfValue (variants.map Variant.name) v

/-- Takes the tag out of the members of an object. -/
def takeTag (tag : String) (variants : List (Variant α)) :
    List (String × Value) → Option Nat → Except Fault (Option Nat × List (String × Value))
  | [], met => .ok (met, [])
  | (key, v) :: ms, met =>
    if key = tag then
      if met.isSome then .error (.duplicateField tag)
      else do takeTag tag variants ms (some (← tagOfValue variants v))
    else do
      let (met, ms) ← takeTag tag variants ms met
      return (met, (key, v) :: ms)

/-- The format of variants whose tag stands among their fields. The fields are read whole before
the variant is known. -/
def Format.tagged (title tag : String) (variants : List (Variant α))
    (write : α → String × List (List Char)) : Format α where
  write a :=
    let (name, members) := write a
    writeObject (Fields.writeMember tag (quoteText name) :: members)
  read depth s :=
    match skipBlanks s with
    | '[' :: r => nested depth (readTaggedList tag variants) r
    | '{' :: r => nested depth (readTaggedObject tag variants) r
    | s => refuse title s
  ofValue
    | .object ms => do
      match ← takeTag tag variants ms none with
      | (none, _) => .error (.missingField tag)
      | (some i, ms) => variantAt variants i (.object ms)
    | .list [] => .error (.missingField tag)
    | .list (t :: vs) => do variantAt variants (← tagOfValue variants t) (.list vs)
    | v => .error (.wrongType v.token title)

end Tagged
end FrameFlow.Json
