/-
# Attributes have one written form

A store has its attributes in no order of its own. They are put in the order of their keys'
octets before they are written (`Store.attributes`), so the text depends on what is kept and not
on how it came to be kept. Read back, a list of attributes may have several under one key: they
are kept one after another, and the last of them stays (`SortedBy.find?_ofList`). What a store
stands for is carried through: a store that stands for a table is written as the table is
(`Store.StandsFor.toJson_eq`), and what is read of its text stands for the table again.

Key definitions: `Store.attributes`, `Store.toJson`, `Store.read`, `Store.WrittenInOrder`,
`Store.KeepsLast`.
Key theorems: `Store.StandsFor.attributes_eq`, `Store.written_canonically`.
-/
import FrameFlow.Proofs.Attributes.Store
import FrameFlow.Proofs.Json.Frames

namespace FrameFlow

open Json

theorem AttributeTable.attributes_increasing (t : AttributeTable) :
    t.toList.Pairwise fun a b => OctetsBefore a.key b.key :=
  List.pairwise_map.mp t.keys_increasing

namespace Store

/-! ### Writing and reading -/

/-- The attributes, in whatever order the store has them. -/
def values (m : Store) : List Attribute := m.entries.map Prod.snd

/-- The attributes in the order of their keys' octets. -/
def attributes (m : Store) : List Attribute :=
  m.values.mergeSort fun a b => decide (a.key = b.key ∨ OctetsBefore a.key b.key)

/-- A store is written as the list of its attributes in order. -/
def toJson (m : Store) : String := (Format.list Attribute.format).render m.attributes

/-- Keeps the attributes of a list, one after another. -/
def ofList (l : List Attribute) : Store := l.foldl write empty

/-- A store is read from a list of attributes. -/
def read (src : Source) : Except Fault Store := ofList <$> src.read (Format.list Attribute.format)

variable {m n : Store} {t : AttributeTable}

/-- A store that is asked to read keeps nothing of what it had. -/
theorem ask_read {src : Source} (accepted : read src = .ok n) :
    m.ask (.read src) = (.read (.ok ()), n) := by
  unfold read at accepted
  simp only [ask]
  rcases listed : src.read (Format.list Attribute.format) with e | l
  · rw [listed] at accepted
    cases accepted
  · rw [listed] at accepted
    cases accepted
    rfl

theorem ofList_standsFor (l : List Attribute) : (ofList l).StandsFor (SortedBy.ofList l) :=
  empty_standsFor.foldl l

namespace StandsFor

/-- Put in order, the attributes of a store are those of the table that it stands for. -/
theorem attributes_eq (h : m.StandsFor t) : m.attributes = t.toList := by
  have sorted : m.attributes.Pairwise fun a b =>
      decide (a.key = b.key ∨ OctetsBefore a.key b.key) = true := by
    refine List.pairwise_mergeSort (fun a b c => ?_) (fun a b => ?_) m.values
    · simp only [decide_eq_true_eq]
      exact OctetsBefore.eq_or_trans
    · simp only [Bool.or_eq_true, decide_eq_true_eq]
      exact OctetsBefore.eq_or_total a.key b.key
  have sorted' : t.toList.Pairwise fun a b =>
      decide (a.key = b.key ∨ OctetsBefore a.key b.key) = true :=
    t.attributes_increasing.imp fun before => decide_eq_true (.inr before)
  have perm : m.attributes.Perm t.toList := (List.mergeSort_perm m.values _).trans h.values_perm
  refine List.Perm.eq_of_pairwise (fun a b ha hb one two => ?_) sorted sorted' perm
  -- attributes of a table are told apart by their keys
  have same : a.key = b.key := by
    simp only [decide_eq_true_eq] at one two
    exact OctetsBefore.eq_or_antisymm one two
  have found := SortedBy.find?_key (perm.mem_iff.mp ha)
  rw [same, SortedBy.find?_key hb] at found
  exact (Option.some.inj found).symm

/-- A store is written as the table that it stands for. -/
theorem toJson_eq (h : m.StandsFor t) : m.toJson = AttributeTable.format.render t := by
  unfold toJson
  rw [h.attributes_eq]
  rfl

/-- Stores with the same attributes stand for the same table. -/
theorem unique {u : AttributeTable} (h : m.StandsFor t) (k : n.StandsFor u)
    (same : ∀ a, a ∈ m.values ↔ a ∈ n.values) : t = u := by
  refine SortedBy.ext (SortedBy.eq_of_mem_iff t.sorted u.sorted fun a => ?_)
  rw [← h.values_perm.mem_iff, ← k.values_perm.mem_iff]
  exact same a

/-- What is written of a table whose numbers survive is read into a store that stands for it. -/
theorem read_toJson (h : m.StandsFor t) (survives : ∀ x ∈ t.numbers, x.Survives) :
    ∃ n, read (.text m.toJson) = .ok n ∧ n.StandsFor t := by
  have each : ∀ a ∈ t.toList, Attribute.format.Faithful 5 a := fun a ha =>
    Attribute.faithful fun x hx => survives x (List.mem_flatMap_of_mem ha hx)
  have listed : (Format.list Attribute.format).parse m.toJson = .ok t.toList := by
    unfold toJson
    rw [h.attributes_eq]
    exact (Format.faithful_list each).parse_render (by decide)
  refine ⟨ofList t.toList, ?_, ?_⟩
  · show ofList <$> (Format.list Attribute.format).parse m.toJson = _
    rw [listed]
    rfl
  · have stands := ofList_standsFor t.toList
    rw [SortedBy.ofList_toList] at stands
    exact stands

end StandsFor

/-! ### One text for what is kept -/

/-- The attributes of a store are written each once, in the order of their keys' octets. -/
structure WrittenInOrder (m : Store) : Prop where
  increasing : m.attributes.Pairwise fun a b => OctetsBefore a.key b.key
  all : m.attributes.Perm m.values

/-- What becomes of a list of attributes that is read: the store `m` and the table `t`. -/
structure KeepsLast (src : Source) (l : List Attribute) (m : Store) (t : AttributeTable) :
    Prop where
  /-- Both are read, and nothing is left of what a store had before. -/
  read : Store.read src = .ok m ∧ (∀ n : Store, n.ask (.read src) = (.read (.ok ()), m)) ∧
    src.read AttributeTable.format = .ok t
  /-- Under each key there is the last attribute that is listed with it. -/
  last : ∀ k, m.get? k = (l.filter fun a => decide (a.key = k)).getLast? ∧
    t.get? k.1 k.2 = (l.filter fun a => decide (a.key = k)).getLast?
  /-- They are what comes of putting the listed attributes one by one. -/
  put : m = Calls.after ask .empty (l.map .put) ∧
    t = Calls.after AttributeTable.ask .empty (l.map .put)
  /-- They are written alike, in whatever order the store has its attributes. -/
  written : ∀ n : Store, n.entries.Perm m.entries → n.toJson = AttributeTable.format.render t
  /-- What is written is read again, and then the same is written. -/
  again : (∀ x ∈ t.numbers, x.isFinite) → (∀ x ∈ t.numbers, x.isFinite → x.ReadsBack) →
    AttributeTable.format.parse (AttributeTable.format.render t) = .ok t ∧
    ∃ n, Store.read (.text m.toJson) = .ok n ∧ n.entries.Perm m.entries ∧ n.toJson = m.toJson

theorem writtenInOrder (h : m.StandsFor t) : m.WrittenInOrder where
  increasing := by
    rw [h.attributes_eq]
    exact t.attributes_increasing
  all := List.mergeSort_perm m.values _

theorem keepsLast {src : Source} {l : List Attribute}
    (accepted : src.read (Format.list Attribute.format) = .ok l) :
    KeepsLast src l (ofList l) (SortedBy.ofList l) := by
  have stands := ofList_standsFor l
  have found : ∀ k, (SortedBy.ofList l : AttributeTable).find? k = _ := SortedBy.find?_ofList l
  have read : Store.read src = .ok (ofList l) := by
    unfold Store.read
    rw [accepted]
    rfl
  refine ⟨⟨read, fun _ => ask_read read, ?table⟩, fun k => ⟨?_, found k⟩,
    ⟨?_, ?_⟩, fun n same => ?written, fun finite legible => ?again⟩
  case table =>
    rw [read_format, accepted]
    rfl
  · rw [stands.get?_eq]
    exact found k
  · show l.foldl write empty = _
    refine Calls.foldl_eq_after (fun _ _ => ?_) l empty
    rfl
  · show l.foldl SortedBy.insert SortedBy.empty = _
    refine Calls.foldl_eq_after (fun _ _ => ?_) l SortedBy.empty
    rfl
  case written =>
    have stands' : n.StandsFor _ := same.trans stands
    exact stands'.toJson_eq
  case again =>
    have survives : ∀ x ∈ AttributeTable.numbers (SortedBy.ofList l), x.Survives :=
      fun x hx => ⟨finite x hx, legible x hx (finite x hx)⟩
    obtain ⟨n, reads, stands'⟩ := stands.read_toJson survives
    refine ⟨(AttributeTable.faithful survives).parse_render (by decide), n, reads, ?_, ?_⟩
    · exact stands'.trans stands.symm
    · rw [stands'.toJson_eq, stands.toJson_eq]

/-- **Attributes have one written form.** Whatever calls have led to two stores, and in whatever
order these have their attributes: each is written in the order of the keys, and if they have the
same attributes, the texts are the same. Of a list that is read the last attribute stays under each
key, as if all had been put one by one; and if the numbers that are kept are finite and the text of
each of them, alone, is read back, then what is written is read again as it was. -/
theorem written_canonically :
    (∀ (calls calls' : List AttributeTable.Call) (m m' : Store),
      m.entries.Perm (Calls.after ask .empty calls).entries →
      m'.entries.Perm (Calls.after ask .empty calls').entries →
      m.WrittenInOrder ∧
      m.toJson = AttributeTable.format.render (Calls.after AttributeTable.ask .empty calls) ∧
      ((∀ a, a ∈ m.values ↔ a ∈ m'.values) → m.toJson = m'.toJson)) ∧
    ∀ (src : Source) (l : List Attribute), src.read (Format.list Attribute.format) = .ok l →
      ∃ m t, KeepsLast src l m t := by
  constructor
  · intro calls calls' m m' reordered reordered'
    have stands : m.StandsFor _ :=
      reordered.trans (simulates.after_rel empty_standsFor calls)
    have stands' : m'.StandsFor _ :=
      reordered'.trans (simulates.after_rel empty_standsFor calls')
    refine ⟨writtenInOrder stands, stands.toJson_eq, fun same => ?_⟩
    rw [stands.toJson_eq, stands'.toJson_eq, stands.unique stands' same]
  · intro src l accepted
    exact ⟨_, _, keepsLast accepted⟩

/-- Three attributes, the first and the last of them under one key. -/
def repeated : Source := .value <| .list
  [.object [("namespace", .text "b"), ("name", .text "x")],
    .object [("namespace", .text "a"), ("name", .text "x")],
    .object [("namespace", .text "b"), ("name", .text "x"), ("hint", .text "é")]]

/-- Of the three the last two stay, in the order of their keys. -/
theorem written_canonically_repeated : ∃ l m t,
    repeated.read (Format.list Attribute.format) = .ok l ∧ l.length = 3 ∧ KeepsLast repeated l m t ∧
      t.toList.map (fun a => (a.scope, a.hint)) = [("a", none), ("b", some "é")] := by
  have accepted : repeated.read (Format.list Attribute.format) =
      .ok [⟨"b", "x", [], none, true⟩, ⟨"a", "x", [], none, true⟩,
        ⟨"b", "x", [], some "é", true⟩] := by
    decide +kernel
  obtain ⟨m, t, keeps⟩ := written_canonically.2 _ _ accepted
  refine ⟨_, m, t, accepted, rfl, keeps, ?_⟩
  rw [keeps.put.2]
  decide +kernel

end Store
end FrameFlow
