/-
# Sorted collections through their members

A sorted collection is known by what it finds, and so by its members. A set of
identifiers is known by membership, a table by its values: what an insertion or
an erasure does to either is one equation. Without its order, a collection into which an
item is inserted is the item beside all items with other keys.

Key theorems: `SortedBy.find?_filter`, `SortedBy.toList_insert_perm`, `Ids.mem_insert`,
`Ids.mem_erase`, `Ids.ext_mem`, `Table.mem_toList`, `Table.mem_keys`, `Table.size_eq`.
-/
import FrameFlow.Sorted
import Mathlib.Data.List.Induction
import Mathlib.Data.List.Nodup

namespace FrameFlow

namespace SortedBy

variable {κ α : Type} [KeyOrder κ] {key : α → κ}

theorem mem_iff_find? [DecidableEq κ] {s : SortedBy key} {a : α} :
    a ∈ s.toList ↔ s.find? (key a) = some a :=
  ⟨find?_key, fun h => (find?_eq_some h).1⟩

/-- No key stands twice. -/
theorem nodup_keys (s : SortedBy key) : (s.toList.map key).Nodup :=
  List.pairwise_map.mpr (s.sorted.imp before_ne)

section Members

variable [DecidableEq κ]

theorem find?_eq_some_iff {s : SortedBy key} {k : κ} {a : α} :
    s.find? k = some a ↔ a ∈ s.toList ∧ key a = k := by
  refine ⟨find?_eq_some, ?_⟩
  rintro ⟨there, rfl⟩
  exact find?_key there

/-- What passes a test is found as before. -/
theorem find?_filter (s : SortedBy key) (p : α → Bool) (k : κ) :
    (s.filter p).find? k = (s.find? k).filter p := by
  refine Option.ext fun a => ?_
  have kept : (s.filter p).toList = s.toList.filter p := rfl
  rw [find?_eq_some_iff, Option.filter_eq_some_iff, find?_eq_some_iff, kept, List.mem_filter]
  exact and_right_comm

theorem mem_erase {s : SortedBy key} {k : κ} {x : α} :
    x ∈ (s.erase k).toList ↔ x ∈ s.toList ∧ key x ≠ k := by
  have kept : (s.erase k).toList = s.toList.filter fun a => decide (key a ≠ k) := rfl
  rw [kept, List.mem_filter, decide_eq_true_eq]

theorem mem_insert {s : SortedBy key} {a x : α} :
    x ∈ (s.insert a).toList ↔ x = a ∨ x ∈ s.toList ∧ key x ≠ key a := by
  rw [mem_iff_find?, find?_insert, mem_iff_find?]
  by_cases same : key a = key x
  · simp [same, eq_comm]
  · have other : x ≠ a := fun e => same (congrArg key e).symm
    simp [same, other, Ne.symm same]

/-- Inserting an item comes to having it beside all items with other keys. -/
theorem toList_insert_perm (s : SortedBy key) (a : α) :
    (s.insert a).toList.Perm (a :: (s.erase (key a)).toList) := by
  have nodup (t : SortedBy key) : t.toList.Nodup := t.nodup_keys.of_map key
  have fresh : a ∉ (s.erase (key a)).toList := fun there => (mem_erase.mp there).2 rfl
  refine (List.perm_ext_iff_of_nodup (nodup _)
    (List.nodup_cons.mpr ⟨fresh, nodup _⟩)).mpr fun x => ?_
  rw [mem_insert, List.mem_cons, mem_erase]

/-- Of several items with one key the last is found. -/
theorem find?_ofList (l : List α) (k : κ) :
    (ofList l : SortedBy key).find? k = (l.filter fun a => decide (key a = k)).getLast? := by
  induction l using List.reverseRecOn with
  | nil => rfl
  | append_singleton l a ih =>
    have last : (ofList (l ++ [a]) : SortedBy key) = (ofList l).insert a := by
      unfold ofList
      rw [List.foldl_append]
      rfl
    rw [last, find?_insert, ih, List.filter_append]
    by_cases same : key a = k <;> simp [same]

/-- Nothing is in a collection but what it was put together from. -/
theorem mem_of_mem_ofList {l : List α} {a : α} (h : a ∈ (ofList l : SortedBy key).toList) :
    a ∈ l := by
  have found := find?_key h
  rw [find?_ofList] at found
  exact (List.mem_filter.mp (List.mem_of_getLast? found)).1

end Members

end SortedBy

/-! ### Sets of identifiers -/

namespace Ids

@[simp] theorem mem_empty (x : Int) : x ∉ (SortedBy.empty : Ids).toList := by
  simp [SortedBy.empty]

theorem mem_insert {s : Ids} {a x : Int} : x ∈ (s.insert a).toList ↔ x = a ∨ x ∈ s.toList := by
  rw [SortedBy.mem_iff_find?, SortedBy.mem_iff_find?, SortedBy.find?_insert]
  by_cases h : a = x
  · simp [h]
  · simp [h, Ne.symm h]

theorem mem_erase {s : Ids} {a x : Int} : x ∈ (s.erase a).toList ↔ x ≠ a ∧ x ∈ s.toList := by
  rw [SortedBy.mem_iff_find?, SortedBy.mem_iff_find?, SortedBy.find?_erase]
  by_cases h : a = x
  · simp [h]
  · simp [h, Ne.symm h]

theorem nodup (s : Ids) : s.toList.Nodup := by
  simpa using s.nodup_keys

/-- Sets with the same members are equal. -/
theorem ext_mem {s t : Ids} (h : ∀ x, x ∈ s.toList ↔ x ∈ t.toList) : s = t :=
  SortedBy.ext (SortedBy.eq_of_mem_iff s.sorted t.sorted h)

/-- Identifiers stand in increasing order. -/
theorem increasing (s : Ids) : s.toList.Pairwise (· < ·) :=
  s.sorted.imp fun h => by simpa [KeyOrder.before] using h

end Ids

/-! ### Tables -/

namespace Table

variable {κ α : Type} [KeyOrder κ] [DecidableEq κ]

theorem contains_eq (t : Table κ α) (k : κ) : t.contains k = (t.get? k).isSome := by
  simp [SortedBy.contains, get?]

@[simp] theorem get?_set_self (t : Table κ α) (k : κ) (v : α) : get? (t.set k v) k = some v := by
  rw [get?_set, if_pos rfl]

theorem get?_set_ne (t : Table κ α) {k k' : κ} (v : α) (h : k ≠ k') :
    get? (t.set k v) k' = get? t k' := by
  rw [get?_set, if_neg h]

@[simp] theorem get?_erase_self (t : Table κ α) (k : κ) : get? (t.erase k) k = none := by
  rw [get?_erase, if_pos rfl]

theorem get?_erase_ne (t : Table κ α) {k k' : κ} (h : k ≠ k') :
    get? (t.erase k) k' = get? t k' := by
  rw [get?_erase, if_neg h]

theorem mem_toList {t : Table κ α} {k : κ} {v : α} : (k, v) ∈ t.toList ↔ t.get? k = some v := by
  rw [SortedBy.mem_iff_find?, find?_eq_get?]
  simp

theorem mem_keys {t : Table κ α} {k : κ} : k ∈ t.keys ↔ (t.get? k).isSome := by
  rw [Option.isSome_iff_exists, keys, List.mem_map]
  constructor
  · rintro ⟨⟨k', v⟩, h, rfl⟩
    exact ⟨v, mem_toList.mp h⟩
  · rintro ⟨v, h⟩
    exact ⟨(k, v), mem_toList.mpr h, rfl⟩

omit [DecidableEq κ] in
theorem nodup_keys (t : Table κ α) : t.keys.Nodup := SortedBy.nodup_keys t

/-- A table has as many values as a list of its keys without repetition is long. -/
theorem size_eq {t : Table κ α} {ks : List κ} (nodup : ks.Nodup)
    (same : ∀ k, k ∈ ks ↔ (t.get? k).isSome) : t.size = ks.length := by
  have perm : t.keys.Perm ks :=
    (List.perm_ext_iff_of_nodup t.nodup_keys nodup).mpr fun k => mem_keys.trans (same k).symm
  rw [← perm.length_eq, keys, List.length_map]
  rfl

/-- What was erased may be written back. -/
theorem set_erase {t : Table κ α} {k : κ} {v : α} (h : t.get? k = some v) :
    set (t.erase k) k v = t := by
  refine ext_get? fun k' => ?_
  by_cases e : k = k'
  · rw [← e, get?_set_self, h]
  · rw [get?_set_ne _ _ e, get?_erase_ne _ e]

/-- What is written where something was erased stands as if it had been written over it. -/
theorem set_erased (t : Table κ α) (k : κ) (v : α) : set (t.erase k) k v = t.set k v := by
  refine ext_get? fun k' => ?_
  by_cases e : k = k'
  · rw [← e, get?_set_self, get?_set_self]
  · rw [get?_set_ne _ _ e, get?_set_ne _ _ e, get?_erase_ne _ e]

/-- What is there may be written again. -/
theorem set_self {t : Table κ α} {k : κ} {v : α} (h : t.get? k = some v) : t.set k v = t := by
  refine ext_get? fun k' => ?_
  by_cases e : k = k'
  · rw [← e, get?_set_self, h]
  · rw [get?_set_ne _ _ e]

/-- The last of two values written for a key counts. -/
theorem set_set (t : Table κ α) (k : κ) (v w : α) : set (t.set k v) k w = t.set k w := by
  refine ext_get? fun k' => ?_
  by_cases e : k = k'
  · rw [← e, get?_set_self, get?_set_self]
  · rw [get?_set_ne _ _ e, get?_set_ne _ _ e, get?_set_ne _ _ e]

end Table
end FrameFlow
