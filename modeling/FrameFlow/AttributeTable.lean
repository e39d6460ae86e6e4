/-
# Attribute tables

The attributes of a detection or of a frame, one under each key, in the order of
their keys. A table is written as the list of its attributes; of repeated keys
in a list that is read the last one stays.

Key definitions:
* `AttributeTable.get?`, `AttributeTable.reading?`, `AttributeTable.put`, `AttributeTable.take`.
* `AttributeTable.keysIn`, `AttributeTable.dropTemporary`, `AttributeTable.format`.
-/
import FrameFlow.Attribute
import FrameFlow.Sorted

namespace FrameFlow

open Json

/-- Attributes in the order of their keys. -/
abbrev AttributeTable := SortedBy Attribute.key

namespace AttributeTable

instance : Alike AttributeTable where
  alike a b := alike a.toList b.toList

/-- The attribute under a key. -/
def get? (t : AttributeTable) (scope name : String) : Option Attribute := t.find? (scope, name)

/-- Whether there is an attribute under a key. -/
def has (t : AttributeTable) (scope name : String) : Bool := (t.get? scope name).isSome

/-- The value at a place under a key. -/
def reading? (t : AttributeTable) (scope name : String) (index : Nat) : Option Reading := do
  let a ← t.get? scope name
  a.values[index]?

/-- Writes an attribute: the one it replaces, and the table afterwards. -/
def put (t : AttributeTable) (a : Attribute) : Option Attribute × AttributeTable :=
  (t.find? a.key, t.insert a)

/-- Takes an attribute out: the attribute, and the table afterwards. -/
def take (t : AttributeTable) (scope name : String) : Option Attribute × AttributeTable :=
  (t.get? scope name, t.erase (scope, name))

/-- All keys in order. -/
def keys (t : AttributeTable) : List (String × String) := t.toList.map Attribute.key

/-- The keys of a scope in order, of the names that are listed or of all if none is. -/
def keysIn (t : AttributeTable) (scope : String) (names : List String) : List (String × String) :=
  t.keys.filter fun k => k.1 == scope && (names.isEmpty || names.contains k.2)

/-- Only what is persistent. -/
def dropTemporary (t : AttributeTable) : AttributeTable := t.filter Attribute.persistent

def format : Format AttributeTable :=
  (Format.list Attribute.format).map SortedBy.ofList SortedBy.toList

end AttributeTable
end FrameFlow
