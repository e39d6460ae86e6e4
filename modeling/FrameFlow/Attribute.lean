/-
# Attributes

An attribute has a scope and a name, which together are its key, and a list of
values in the order in which they were produced. A value is a datum with the
confidence of whoever produced it. Attributes that are not persistent are
working state.

Key definitions:
* `Datum`, `Reading`, `Attribute`, `Attribute.key`.
-/
import FrameFlow.Alike
import FrameFlow.Json.Record

namespace FrameFlow

open Json

/-- The payload of an attribute value. -/
inductive Datum where
  | none
  | boolean (b : Bool)
  | integer (i : Int64)
  | float (x : Double)
  | vector (xs : List Double)
  | text (s : String)
deriving DecidableEq, Inhabited

namespace Datum

instance : Alike Datum where
  alike
    | none, none => true
    | boolean a, boolean b => a == b
    | integer a, integer b => a == b
    | float x, float y => alike x y
    | vector xs, vector ys => alike xs ys
    | text s, text t => s == t
    | _, _ => false

/-- The kind of a datum as it is written, and the written payload if there is one. -/
def written : Datum → String × Option (List Char)
  | none => ("none", .none)
  | boolean b => ("boolean", some (Format.bool.write b))
  | integer i => ("integer", some (Format.int64.write i))
  | float x => ("float", some (Format.double.write x))
  | vector xs => ("float_vector", some ((Format.list .double).write xs))
  | text s => ("string", some (Format.text.write s))

/-- The kinds a datum can be read as. -/
def cases : List (Case Datum) :=
  [.plain "none" "AttributeValueKind::None" none,
    .payload "boolean" .bool boolean,
    .payload "integer" .int64 integer,
    .payload "float" .double float,
    .payload "float_vector" (.list .double) vector,
    .payload "string" .text text]

def format : Format Datum :=
  .adjacent "adjacently tagged enum AttributeValueKind" ⟨"kind", "data"⟩ cases written

end Datum

/-- A datum and how sure its producer was. -/
structure Reading where
  confidence : Option Single
  datum : Datum
deriving DecidableEq, Inhabited

namespace Reading

instance : Alike Reading where
  alike a b := alike a.confidence b.confidence && alike a.datum b.datum

/-- The numbers of a vector. -/
def vector? (r : Reading) : Option (List Double) :=
  match r.datum with
  | .vector xs => some xs
  | _ => none

def format : Format Reading :=
  (Format.record "struct AttributeValue" <|
    .cons "confidence" (.default none) (.option .single) <|
    .cons "value" .refused Datum.format .nil).map
    (fun (confidence, datum, ()) => ⟨confidence, datum⟩)
    (fun r => (r.confidence, r.datum, ()))

end Reading

/-- Values under a scope and a name. -/
structure Attribute where
  scope : String
  name : String
  values : List Reading
  hint : Option String
  persistent : Bool
deriving DecidableEq, Inhabited

namespace Attribute

/-- What an attribute is found by. -/
def key (a : Attribute) : String × String := (a.scope, a.name)

instance : Alike Attribute where
  alike a b := a.scope == b.scope && a.name == b.name && alike a.values b.values &&
    a.hint == b.hint && a.persistent == b.persistent

def format : Format Attribute :=
  (Format.record "struct Attribute" <|
    .cons "namespace" .refused .text <|
    .cons "name" .refused .text <|
    .cons "values" (.default []) (.list Reading.format) <|
    .cons "hint" (.default none) (.option .text) <|
    .cons "persistent" (.default true) .bool .nil).map
    (fun (scope, name, values, hint, persistent, ()) => ⟨scope, name, values, hint, persistent⟩)
    (fun a => (a.scope, a.name, a.values, a.hint, a.persistent, ()))

end Attribute
end FrameFlow
