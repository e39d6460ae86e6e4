/-
# Attributes in a map

Attributes may be kept in a map that has the key beside the attribute and no order of
its own (`Store`): an attribute is found by the key that is kept, and listings are put
in order when they are asked for. A table keeps no keys and is in order at all times.
Calls and questions are kept as data here and asked of both. A store stands for a table
if it has each attribute of the table once, under the attribute's own key
(`Store.StandsFor`). Every call answers alike and keeps this (`Store.simulates`), and
with it every question is answered alike (`Store.StandsFor.answer_eq`).

Key definitions: `Json.Source`, `AttributeTable.Call`, `AttributeTable.Question`, `Store`,
`Store.StandsFor`.
Key theorems: `Store.StandsFor.get?_eq`, `Store.simulates`, `Store.StandsFor.answer_eq`.
-/
import FrameFlow.AttributeTable
import FrameFlow.Proofs.Calls
import FrameFlow.Proofs.OctetOrder
import FrameFlow.Proofs.Sorted

namespace FrameFlow

open Json

/-! ### What is read -/

namespace Json

/-- What a value is read from: a whole text, the front of one in which some levels may still be
opened, or a value that was read before its type was known. -/
inductive Source where
  | text (s : String)
  | front (depth : Nat) (cs : List Char)
  | value (v : Value)

namespace Source

variable {α β : Type}

/-- The value that is read. -/
def read (f : Format α) : Source → Except Fault α
  | text s => f.parse s
  | front depth cs => Prod.fst <$> f.read depth cs
  | value v => f.ofValue v

/-- A type that is another one in disguise is read as the other one. -/
theorem read_map (f : Format α) (wrap : α → β) (unwrap : β → α) (src : Source) :
    src.read (f.map wrap unwrap) = wrap <$> src.read f := by
  have mapped (depth : Nat) (cs : List Char) : (f.map wrap unwrap).read depth cs =
      (fun r => (wrap r.1, r.2)) <$> f.read depth cs := by
    change (wrap <$> f.read depth) cs = _
    simp only [Functor.map]
    rcases f.read depth cs with e | ⟨a, rest⟩ <;> rfl
  cases src with
  | text s =>
    simp only [read, Format.parse, mapped]
    rcases f.read depthLimit s.toList with e | ⟨a, rest⟩
    · rfl
    · rcases ended : endOfText rest with e | u
      · simp [ended, bind, Except.bind, Functor.map, Except.map]
      · simp [ended, bind, Except.bind, Functor.map, Except.map, pure, Except.pure]
  | front depth cs =>
    simp only [read, mapped]
    rcases f.read depth cs with e | ⟨a, rest⟩ <;> rfl
  | value v => rfl

end Source
end Json

/-! ### Calls and questions -/

namespace AttributeTable

/-- A call that may change what is kept. -/
inductive Call where
  | put (a : Attribute)
  | take (scope name : String)
  | clear
  | dropTemporary
  | read (src : Source)

/-- What a call answers. -/
inductive Reply where
  | done
  | former (a : Option Attribute)
  | read (outcome : Except Fault Unit)

/-- A question about what is kept. -/
inductive Question where
  | get (scope name : String)
  | reading (scope name : String) (index : Nat)
  | has (scope name : String)
  | size
  | keys
  | keysIn (scope : String) (names : List String)

/-- The answer to a question. -/
inductive Answer where
  | attribute (a : Option Attribute)
  | reading (r : Option Reading)
  | told (b : Bool)
  | count (n : Nat)
  | listing (ks : List (String × String))

/-- What a table answers a call, and the table afterwards. -/
def ask (t : AttributeTable) : Call → Reply × AttributeTable
  | .put a => (.former (t.put a).1, (t.put a).2)
  | .take scope name => (.former (t.take scope name).1, (t.take scope name).2)
  | .clear => (.done, .empty)
  | .dropTemporary => (.done, t.dropTemporary)
  | .read src =>
    match src.read format with
    | .ok u => (.read (.ok ()), u)
    | .error e => (.read (.error e), t)

/-- What a table answers a question. -/
def answer (t : AttributeTable) : Question → Answer
  | .get scope name => .attribute (t.get? scope name)
  | .reading scope name index => .reading (t.reading? scope name index)
  | .has scope name => .told (t.has scope name)
  | .size => .count t.size
  | .keys => .listing t.keys
  | .keysIn scope names => .listing (t.keysIn scope names)

theorem keys_increasing (t : AttributeTable) : t.keys.Pairwise OctetsBefore :=
  List.pairwise_map.mpr (t.sorted.imp before_iff_octets.mp)

end AttributeTable

/-! ### Stores -/

/-- Attributes with the keys they are kept under. -/
structure Store where
  entries : List ((String × String) × Attribute)

/-- Keys in the order of their octets. -/
def inOrder (ks : List (String × String)) : List (String × String) :=
  ks.mergeSort fun k l => decide (k = l ∨ OctetsBefore k l)

/-- Keys come to the same listing however they are ordered before. -/
theorem inOrder_eq {ks ls : List (String × String)} (perm : ks.Perm ls)
    (sorted : ls.Pairwise OctetsBefore) : inOrder ks = ls := by
  have listed : (inOrder ks).Pairwise fun k l => decide (k = l ∨ OctetsBefore k l) = true := by
    refine List.pairwise_mergeSort (fun k l m => ?_) (fun k l => ?_) ks
    · simp only [decide_eq_true_eq]
      exact OctetsBefore.eq_or_trans
    · simp only [Bool.or_eq_true, decide_eq_true_eq]
      exact OctetsBefore.eq_or_total k l
  have listed' : ls.Pairwise fun k l => decide (k = l ∨ OctetsBefore k l) = true :=
    sorted.imp fun before => decide_eq_true (.inr before)
  refine List.Perm.eq_of_pairwise (fun k l _ _ => ?_) listed listed'
    ((List.mergeSort_perm ks _).trans perm)
  simp only [decide_eq_true_eq]
  exact OctetsBefore.eq_or_antisymm

namespace Store

open AttributeTable (Call Reply Question Answer)

def empty : Store := ⟨[]⟩

/-- The attribute that is kept under a key. -/
def get? (m : Store) (k : String × String) : Option Attribute :=
  (m.entries.find? fun e => decide (e.1 = k)).map Prod.snd

/-- Drops what is kept under a key. -/
def erase (m : Store) (k : String × String) : Store := ⟨m.entries.filter fun e => decide (e.1 ≠ k)⟩

/-- Keeps an attribute under its key, and nothing else. -/
def write (m : Store) (a : Attribute) : Store := ⟨(a.key, a) :: (m.erase a.key).entries⟩

def keys (m : Store) : List (String × String) := m.entries.map Prod.fst

/-- What a store answers a call, and the store afterwards. -/
def ask (m : Store) : Call → Reply × Store
  | .put a => (.former (m.get? a.key), m.write a)
  | .take scope name => (.former (m.get? (scope, name)), m.erase (scope, name))
  | .clear => (.done, empty)
  | .dropTemporary => (.done, ⟨m.entries.filter fun e => e.2.persistent⟩)
  | .read src =>
    match src.read (Format.list Attribute.format) with
    | .ok l => (.read (.ok ()), l.foldl write empty)
    | .error e => (.read (.error e), m)

/-- What a store answers a question. -/
def answer (m : Store) : Question → Answer
  | .get scope name => .attribute (m.get? (scope, name))
  | .reading scope name index => .reading ((m.get? (scope, name)).bind fun a => a.values[index]?)
  | .has scope name => .told (m.get? (scope, name)).isSome
  | .size => .count m.entries.length
  | .keys => .listing (inOrder m.keys)
  | .keysIn scope names => .listing <| inOrder <|
      m.keys.filter fun k => k.1 == scope && (names.isEmpty || names.contains k.2)

/-- A store has each attribute of a table once, under the attribute's own key. -/
def StandsFor (m : Store) (t : AttributeTable) : Prop :=
  m.entries.Perm (t.toList.map fun a => (a.key, a))

variable {m : Store} {t : AttributeTable}

namespace StandsFor

theorem keys_perm (h : m.StandsFor t) : m.keys.Perm t.keys := by
  have perm := h.map Prod.fst
  rw [List.map_map] at perm
  exact perm

theorem values_perm (h : m.StandsFor t) : (m.entries.map Prod.snd).Perm t.toList := by
  have perm := h.map Prod.snd
  have undone : (Prod.snd ∘ fun a : Attribute => (a.key, a)) = fun a => a := rfl
  rw [List.map_map, undone, List.map_id'] at perm
  exact perm

theorem nodup (h : m.StandsFor t) : m.keys.Nodup :=
  h.keys_perm.nodup_iff.mpr t.nodup_keys

theorem mem_entries (h : m.StandsFor t) {k : String × String} {a : Attribute} :
    (k, a) ∈ m.entries ↔ t.find? k = some a := by
  rw [h.mem_iff, List.mem_map]
  constructor
  · rintro ⟨b, there, same⟩
    cases same
    exact SortedBy.find?_key there
  · intro found
    obtain ⟨there, rfl⟩ := SortedBy.find?_eq_some found
    exact ⟨a, there, rfl⟩

/-- A store finds the attribute that the table has under the key. -/
theorem get?_eq (h : m.StandsFor t) (k : String × String) : m.get? k = t.find? k := by
  rcases found : m.get? k with _ | a
  · have absent := List.find?_eq_none.mp (Option.map_eq_none_iff.mp found)
    rcases there : t.find? k with _ | a
    · rfl
    · have kept := absent (k, a) (h.mem_entries.mpr there)
      simp at kept
  · obtain ⟨⟨k', b⟩, entry, rfl⟩ := Option.map_eq_some_iff.mp found
    have same : k' = k := by simpa using List.find?_some entry
    rw [← same]
    exact (h.mem_entries.mp (List.mem_of_find?_eq_some entry)).symm

theorem filter (h : m.StandsFor t) {keep : (String × String) × Attribute → Bool}
    {p : Attribute → Bool} (agree : ∀ a, keep (a.key, a) = p a) :
    StandsFor ⟨m.entries.filter keep⟩ (t.filter p) := by
  have kept := List.Perm.filter keep h
  have tests : (keep ∘ fun a : Attribute => (a.key, a)) = p := funext agree
  rw [List.filter_map, tests] at kept
  exact kept

theorem erase (h : m.StandsFor t) (k : String × String) : (m.erase k).StandsFor (t.erase k) :=
  h.filter fun _ => rfl

theorem write (h : m.StandsFor t) (a : Attribute) : (m.write a).StandsFor (t.insert a) := by
  have rest := (h.erase a.key).cons (a.key, a)
  have placed := (t.toList_insert_perm a).symm.map fun b : Attribute => (b.key, b)
  exact rest.trans placed

/-- Attributes that are kept one after another stand for those that are inserted in this order. -/
theorem foldl (h : m.StandsFor t) (l : List Attribute) :
    (l.foldl Store.write m).StandsFor (l.foldl SortedBy.insert t) := by
  induction l generalizing m t with
  | nil => exact h
  | cons a l ih => exact ih (h.write a)

theorem listing (h : m.StandsFor t) (p : String × String → Bool) :
    inOrder (m.keys.filter p) = t.keys.filter p :=
  inOrder_eq (h.keys_perm.filter p) (t.keys_increasing.filter p)

/-- A store answers every question as the table that it stands for. -/
theorem answer_eq (h : m.StandsFor t) (q : Question) : m.answer q = t.answer q := by
  cases q with
  | get scope name => exact congrArg Answer.attribute (h.get?_eq (scope, name))
  | has scope name => exact congrArg (fun a => Answer.told a.isSome) (h.get?_eq (scope, name))
  | size =>
    have length := h.length_eq
    rw [List.length_map] at length
    exact congrArg Answer.count length
  | reading scope name index =>
    simp only [Store.answer, AttributeTable.answer]
    rw [h.get?_eq]
    rfl
  | keys =>
    have all := h.listing fun _ => true
    rw [List.filter_true, List.filter_true] at all
    exact congrArg Answer.listing all
  | keysIn scope names => exact congrArg Answer.listing (h.listing _)

end StandsFor

theorem empty_standsFor : empty.StandsFor .empty := List.Perm.nil

/-- What is read of a table is the table of the attributes that are read. -/
theorem read_format (src : Source) :
    src.read AttributeTable.format = SortedBy.ofList <$> src.read (Format.list Attribute.format) :=
  src.read_map _ _ _

/-- **No call tells a store from the table that it stands for.** -/
theorem simulates : Calls.Simulates ask AttributeTable.ask StandsFor where
  reply := by
    intro m t h c
    cases c with
    | put a => exact congrArg Reply.former (h.get?_eq a.key)
    | take scope name => exact congrArg Reply.former (h.get?_eq (scope, name))
    | clear | dropTemporary => rfl
    | read src =>
      simp only [ask, AttributeTable.ask]
      rw [read_format]
      rcases src.read (Format.list Attribute.format) with e | l <;> rfl
  next := by
    intro m t h c
    cases c with
    | put a => exact h.write a
    | take scope name => exact h.erase (scope, name)
    | clear => exact empty_standsFor
    | dropTemporary => exact h.filter fun _ => rfl
    | read src =>
      simp only [ask, AttributeTable.ask]
      rw [read_format]
      rcases src.read (Format.list Attribute.format) with e | l
      · exact h
      · exact empty_standsFor.foldl l

end Store
end FrameFlow
