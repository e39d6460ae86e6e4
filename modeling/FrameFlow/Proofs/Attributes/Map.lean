/-
# A table is a map from keys to attributes

Every attribute of a table is found under its own scope and name. Putting and taking
answer what was found before and change what is found under one key; dropping what is
temporary changes it under the keys of temporary attributes. Nothing that is found under
another key changes, nor any value in it (`AttributeTable.get?_ask`). The keys are listed
in the order of their octets, each once, and just those under which something is found.
So it stays whatever is asked, and whatever is read (`AttributeTable.keptAsMap`).

Key definitions: `AttributeTable.Call.Touches`, `AttributeTable.IsMap`,
`AttributeTable.KeptAsMap`.
Key theorems: `AttributeTable.get?_ask`, `AttributeTable.isMap`, `AttributeTable.keptAsMap`.
-/
import FrameFlow.Proofs.Attributes.Store

namespace FrameFlow

open Json

namespace AttributeTable

/-- Whether a call may change what is found under a key. -/
def Call.Touches (t : AttributeTable) (k : String × String) : Call → Prop
  | put a => a.key = k
  | take scope name => (scope, name) = k
  | clear => True
  | dropTemporary => ∃ a, t.find? k = some a ∧ a.persistent = false
  | read src => ∃ u, src.read format = .ok u

/-- What is found after a call under a key that it does not touch. -/
theorem get?_ask {t : AttributeTable} {c : Call} {scope name : String}
    (other : ¬c.Touches t (scope, name)) : (t.ask c).2.get? scope name = t.get? scope name := by
  cases c with
  | put a => exact (SortedBy.find?_insert t a _).trans (if_neg other)
  | take scope' name' => exact (SortedBy.find?_erase t _ _).trans (if_neg other)
  | clear => exact absurd trivial other
  | dropTemporary =>
    have found :
        t.dropTemporary.get? scope name = (t.get? scope name).filter Attribute.persistent :=
      SortedBy.find?_filter t _ _
    refine found.trans ?_
    rcases there : t.get? scope name with _ | a
    · rfl
    · have persistent : a.persistent = true := by
        by_contra temporary
        exact other ⟨a, there, Bool.not_eq_true _ ▸ temporary⟩
      exact Option.filter_some_pos persistent
  | read src =>
    simp only [ask]
    rcases read : src.read format with e | u
    · rfl
    · exact absurd ⟨u, read⟩ other

/-- What holds of a table as a map from keys to attributes. -/
structure IsMap (t : AttributeTable) : Prop where
  /-- An attribute is found under its own key. -/
  own : ∀ {scope name a}, t.get? scope name = some a → a.key = (scope, name)
  /-- Putting an attribute answers the one that was found under its key. -/
  replaced : ∀ a, (t.put a).1 = t.get? a.scope a.name
  /-- An attribute is found once it was put. -/
  put : ∀ a, (t.put a).2.get? a.scope a.name = some a
  /-- Taking an attribute out answers the one that was found. -/
  taken : ∀ scope name, (t.take scope name).1 = t.get? scope name
  /-- Nothing is found under a key that was taken out. -/
  take : ∀ scope name, (t.take scope name).2.get? scope name = none
  /-- Dropping what is temporary leaves what is persistent. -/
  dropped : ∀ scope name, t.dropTemporary.get? scope name =
    (t.get? scope name).filter Attribute.persistent
  /-- Nothing is found in an empty table. -/
  cleared : ∀ scope name, (t.ask .clear).2.get? scope name = none
  /-- A call changes neither an attribute under a key that it does not touch, nor a value of it. -/
  elsewhere : ∀ {c scope name}, ¬c.Touches t (scope, name) →
    (t.ask c).2.get? scope name = t.get? scope name ∧
      ∀ index, (t.ask c).2.reading? scope name index = t.reading? scope name index
  /-- The keys stand in the order of their octets. -/
  increasing : t.keys.Pairwise OctetsBefore
  /-- The keys are those under which something is found. -/
  listed : ∀ scope name, (scope, name) ∈ t.keys ↔ ∃ a, t.get? scope name = some a
  /-- There are as many attributes as keys. -/
  size : t.size = t.keys.length
  /-- Each attribute is there once. -/
  once : t.toList.Nodup ∧ ∀ a, a ∈ t.toList ↔ t.get? a.scope a.name = some a
  /-- The keys of a scope with listed names are those among all keys, without repetitions. -/
  chosen : ∀ scope names, (t.keysIn scope names).Sublist t.keys ∧ (t.keysIn scope names).Nodup ∧
    ∀ k, k ∈ t.keysIn scope names ↔ k ∈ t.keys ∧ k.1 = scope ∧ (names = [] ∨ k.2 ∈ names)

theorem mem_keys {t : AttributeTable} {scope name : String} :
    (scope, name) ∈ t.keys ↔ ∃ a, t.get? scope name = some a := by
  unfold keys get?
  simp only [List.mem_map, SortedBy.find?_eq_some_iff]

theorem mem_keysIn {t : AttributeTable} {scope : String} {names : List String}
    {k : String × String} :
    k ∈ t.keysIn scope names ↔ k ∈ t.keys ∧ k.1 = scope ∧ (names = [] ∨ k.2 ∈ names) := by
  unfold keysIn
  rw [List.mem_filter]
  simp

theorem isMap (t : AttributeTable) : t.IsMap where
  own found := (SortedBy.find?_eq_some found).2
  replaced _ := rfl
  put a := (SortedBy.find?_insert t a a.key).trans (if_pos rfl)
  taken _ _ := rfl
  take scope name := (SortedBy.find?_erase t _ _).trans (if_pos rfl)
  dropped scope name := SortedBy.find?_filter t _ _
  cleared _ _ := rfl
  elsewhere other := by
    have same := get?_ask other
    refine ⟨same, fun index => ?_⟩
    unfold reading?
    rw [same]
  increasing := t.keys_increasing
  listed _ _ := mem_keys
  size := (List.length_map Attribute.key).symm
  once := by
    refine ⟨t.nodup_keys.of_map Attribute.key, fun a => ?_⟩
    exact SortedBy.mem_iff_find?
  chosen scope names :=
    ⟨List.filter_sublist, t.nodup_keys.filter _, fun _ => mem_keysIn⟩

/-- What some calls come to, in a table and in a store, both empty at first. -/
structure KeptAsMap (calls : List Call) (t : AttributeTable) (m : Store) : Prop where
  /-- The calls were answered alike. -/
  replies : Calls.replies Store.ask .empty calls = Calls.replies ask .empty calls
  /-- Every attribute of the store is kept under its own key. -/
  own : ∀ k a, (k, a) ∈ m.entries → k = a.key
  /-- No two attributes of the store are kept under one key. -/
  distinct : m.keys.Nodup
  /-- The store and the table have the same attributes. -/
  same : (m.entries.map Prod.snd).Perm t.toList
  /-- Every question is answered alike, in whatever order the store has its entries. -/
  answers : ∀ m' : Store, m'.entries.Perm m.entries → ∀ q, m'.answer q = t.answer q
  /-- The table is a map. -/
  isMap : t.IsMap

/-- **Attributes are kept as a map from their own keys**, whatever is put, taken out, dropped or
read. -/
theorem keptAsMap (calls : List Call) :
    KeptAsMap calls (Calls.after ask .empty calls) (Calls.after Store.ask .empty calls) := by
  have stands := Store.simulates.after_rel Store.empty_standsFor calls
  refine ⟨?replies, ?own, stands.nodup, stands.values_perm, ?answers, isMap _⟩
  case replies => exact Store.simulates.replies_eq Store.empty_standsFor calls
  case own =>
    intro k a kept
    exact (SortedBy.find?_eq_some (stands.mem_entries.mp kept)).2.symm
  case answers =>
    intro m' reordered q
    have stands' : m'.StandsFor _ := reordered.trans stands
    exact stands'.answer_eq q

end AttributeTable
end FrameFlow
