/-
# Sorted collections

A `SortedBy key` holds items in strictly increasing order of their keys, so an
item is found by its key and two collections with the same items are equal.
`Table κ α` is the case of key and value pairs, and `Ids` the case of integers
that are their own keys.

Key definitions:
* `SortedBy.find?`, `SortedBy.insert`, `SortedBy.erase`, `SortedBy.filter`.
* `Table.get?`, `Table.set`, `Table.erase`.

Main statement: `SortedBy.ext_find?`, collections that find the same items are equal.
-/
import FrameFlow.Text.Order

namespace FrameFlow

/-- Items in strictly increasing order of their keys. -/
structure SortedBy {κ α : Type} [KeyOrder κ] (key : α → κ) where
  toList : List α
  sorted : toList.Pairwise fun a b => KeyOrder.before (key a) (key b) = true

namespace SortedBy

variable {κ α : Type} [KeyOrder κ] {key : α → κ}

theorem ext {s t : SortedBy key} (h : s.toList = t.toList) : s = t := by
  cases s; cases t; cases h; rfl

instance [DecidableEq α] : DecidableEq (SortedBy key) := fun s t =>
  if h : s.toList = t.toList then .isTrue (ext h) else .isFalse fun e => h (e ▸ rfl)

/-- No items. -/
def empty : SortedBy key := ⟨[], .nil⟩

instance : Inhabited (SortedBy key) := ⟨empty⟩

/-- How many items there are. -/
def size (s : SortedBy key) : Nat := s.toList.length

/-- The items that a test accepts. -/
def filter (p : α → Bool) (s : SortedBy key) : SortedBy key :=
  ⟨s.toList.filter p, s.sorted.filter p⟩

/-- The item with a key. -/
def find? [DecidableEq κ] (s : SortedBy key) (k : κ) : Option α :=
  s.toList.find? fun a => decide (key a = k)

/-- Whether there is an item with a key. -/
def contains [DecidableEq κ] (s : SortedBy key) (k : κ) : Bool := (s.find? k).isSome

/-- Takes out the item with a key. -/
def erase [DecidableEq κ] (s : SortedBy key) (k : κ) : SortedBy key :=
  s.filter fun a => decide (key a ≠ k)

/-! ### Insertion -/

/-- Puts an item in its place, over an item with the same key. -/
def insertList (key : α → κ) (a : α) : List α → List α
  | [] => [a]
  | b :: bs =>
    if KeyOrder.before (key a) (key b) then a :: b :: bs
    else if KeyOrder.before (key b) (key a) then b :: insertList key a bs
    else a :: bs

theorem mem_insertList {a x : α} : ∀ {l : List α}, x ∈ insertList key a l → x = a ∨ x ∈ l
  | [], h => by simpa [insertList] using h
  | b :: bs, h => by
    unfold insertList at h
    split at h
    · simpa using h
    · split at h
      · rcases List.mem_cons.mp h with rfl | h
        · simp
        · rcases mem_insertList h with rfl | h <;> simp_all
      · rcases List.mem_cons.mp h with rfl | h <;> simp_all

theorem insertList_sorted (a : α) : ∀ {l : List α},
    l.Pairwise (fun a b => KeyOrder.before (key a) (key b) = true) →
    (insertList key a l).Pairwise fun a b => KeyOrder.before (key a) (key b) = true
  | [], _ => by simp [insertList]
  | b :: bs, h => by
    obtain ⟨hb, hbs⟩ := List.pairwise_cons.mp h
    unfold insertList
    split
    · rename_i hab
      refine List.pairwise_cons.mpr ⟨fun x hx => ?_, h⟩
      rcases List.mem_cons.mp hx with rfl | hx
      · exact hab
      · exact KeyOrder.trans hab (hb x hx)
    · split
      · rename_i hba
        refine List.pairwise_cons.mpr ⟨fun x hx => ?_, insertList_sorted a hbs⟩
        rcases mem_insertList hx with rfl | hx
        · exact hba
        · exact hb x hx
      · rename_i hab hba
        have same : key a = key b := KeyOrder.connected (by simpa using hab) (by simpa using hba)
        exact List.pairwise_cons.mpr ⟨fun x hx => same ▸ hb x hx, hbs⟩

/-- Puts an item in its place, over an item with the same key. -/
def insert (s : SortedBy key) (a : α) : SortedBy key :=
  ⟨insertList key a s.toList, insertList_sorted a s.sorted⟩

/-- The items of a list, a later one over an earlier one with the same key. -/
def ofList (l : List α) : SortedBy key := l.foldl insert empty

theorem before_ne {a b : κ} (h : KeyOrder.before a b = true) : a ≠ b := by
  rintro rfl; simp [KeyOrder.irrefl] at h

/-- Two sorted lists with the same items are equal. -/
theorem eq_of_mem_iff : ∀ {l m : List α},
    l.Pairwise (fun a b => KeyOrder.before (key a) (key b) = true) →
    m.Pairwise (fun a b => KeyOrder.before (key a) (key b) = true) →
    (∀ a, a ∈ l ↔ a ∈ m) → l = m
  | [], [], _, _, _ => rfl
  | [], b :: _, _, _, h => absurd ((h b).mpr (by simp)) (by simp)
  | a :: _, [], _, _, h => absurd ((h a).mp (by simp)) (by simp)
  | a :: as, b :: bs, hl, hm, h => by
    obtain ⟨ha, has⟩ := List.pairwise_cons.mp hl
    obtain ⟨hb, hbs⟩ := List.pairwise_cons.mp hm
    have hab : a = b := by
      rcases List.mem_cons.mp ((h a).mp (by simp)) with e | hin
      · exact e
      · rcases List.mem_cons.mp ((h b).mpr (by simp)) with e | hin'
        · exact e.symm
        · exact absurd (KeyOrder.trans (ha b hin') (hb a hin)) (by simp [KeyOrder.irrefl])
    subst hab
    have tails : as = bs := eq_of_mem_iff has hbs fun x => by
      constructor <;> intro hx
      · rcases List.mem_cons.mp ((h x).mp (List.mem_cons_of_mem _ hx)) with rfl | hx'
        · exact absurd (ha x hx) (by simp [KeyOrder.irrefl])
        · exact hx'
      · rcases List.mem_cons.mp ((h x).mpr (List.mem_cons_of_mem _ hx)) with rfl | hx'
        · exact absurd (hb x hx) (by simp [KeyOrder.irrefl])
        · exact hx'
    rw [tails]

/-! ### Insertion in order -/

/-- An item behind all others is put at the end. -/
theorem insertList_last {a : α} : ∀ {l : List α},
    (∀ b ∈ l, KeyOrder.before (key b) (key a) = true) → insertList key a l = l ++ [a]
  | [], _ => rfl
  | b :: bs, behind => by
    have here := behind b List.mem_cons_self
    have later := insertList_last fun c hc => behind c (List.mem_cons_of_mem _ hc)
    have not : KeyOrder.before (key a) (key b) = false := by
      rw [Bool.eq_false_iff]
      intro before
      exact before_ne (KeyOrder.trans here before) rfl
    simp [insertList, not, here, later]

theorem toList_foldl_insert : ∀ {l : List α} {s : SortedBy key},
    (s.toList ++ l).Pairwise (fun a b => KeyOrder.before (key a) (key b) = true) →
    (l.foldl insert s).toList = s.toList ++ l
  | [], s, _ => (List.append_nil _).symm
  | a :: l, s, sorted => by
    have behind : ∀ b ∈ s.toList, KeyOrder.before (key b) (key a) = true := fun b hb =>
      (List.pairwise_append.mp sorted).2.2 b hb a List.mem_cons_self
    have last : (s.insert a).toList = s.toList ++ [a] := insertList_last behind
    have more : ((s.insert a).toList ++ l).Pairwise fun a b =>
        KeyOrder.before (key a) (key b) = true := by
      rw [last, List.append_assoc]
      exact sorted
    rw [List.foldl_cons, toList_foldl_insert more, last, List.append_assoc]
    rfl

/-- A collection is put together again from its items. -/
theorem ofList_toList (s : SortedBy key) : ofList s.toList = s :=
  ext (toList_foldl_insert s.sorted)

/-! ### What is found afterwards -/

section Find

variable [DecidableEq κ]

theorem find?_insertList (a : α) (k : κ) : ∀ {l : List α},
    l.Pairwise (fun a b => KeyOrder.before (key a) (key b) = true) →
    (insertList key a l).find? (fun x => decide (key x = k)) =
      if key a = k then some a else l.find? fun x => decide (key x = k)
  | [], _ => by by_cases h : key a = k <;> simp [insertList, h]
  | b :: bs, h => by
    obtain ⟨hb, hbs⟩ := List.pairwise_cons.mp h
    unfold insertList
    split
    · by_cases hk : key a = k <;> simp [hk]
    · split
      · rename_i hba
        have ih := find?_insertList a k hbs
        by_cases hk : key a = k
        · have hne : key b ≠ k := fun e => before_ne hba (e.trans hk.symm)
          simp [hk, hne] at ih ⊢
          exact ih
        · simp only [hk, if_false] at ih ⊢
          by_cases hbk : key b = k <;> simp [hbk, ih]
      · rename_i hab hba
        have same : key a = key b := KeyOrder.connected (by simpa using hab) (by simpa using hba)
        by_cases hk : key a = k
        · simp [hk]
        · simp [hk, same ▸ hk]

theorem find?_insert (s : SortedBy key) (a : α) (k : κ) :
    (s.insert a).find? k = if key a = k then some a else s.find? k :=
  find?_insertList a k s.sorted

omit [KeyOrder κ] in
theorem find?_filter_ne (k k' : κ) : ∀ l : List α,
    (l.filter fun a => decide (key a ≠ k)).find? (fun x => decide (key x = k')) =
      if k = k' then none else l.find? fun x => decide (key x = k')
  | [] => by simp
  | b :: bs => by
    have ih := find?_filter_ne k k' bs
    by_cases hb : key b = k
    · by_cases hk : k = k'
      · simp_all
      · have hbk : key b ≠ k' := fun e => hk (hb.symm.trans e)
        simpa [hb, hbk, hk] using ih
    · by_cases hk : k = k'
      · simp_all
      · by_cases hbk : key b = k'
        · simp [hbk, hk, Ne.symm hk]
        · simpa [hb, hbk, hk] using ih

theorem find?_erase (s : SortedBy key) (k k' : κ) :
    (s.erase k).find? k' = if k = k' then none else s.find? k' :=
  find?_filter_ne k k' s.toList

theorem find?_eq_some {s : SortedBy key} {k : κ} {a : α} (h : s.find? k = some a) :
    a ∈ s.toList ∧ key a = k :=
  ⟨List.mem_of_find?_eq_some h, by simpa using List.find?_some h⟩

theorem find?_of_mem {a : α} : ∀ {l : List α},
    l.Pairwise (fun a b => KeyOrder.before (key a) (key b) = true) → a ∈ l →
    l.find? (fun x => decide (key x = key a)) = some a
  | b :: bs, h, ha => by
    obtain ⟨hb, hbs⟩ := List.pairwise_cons.mp h
    rcases List.mem_cons.mp ha with rfl | ha
    · simp
    · have hne : key b ≠ key a := before_ne (hb a ha)
      simp [hne, find?_of_mem hbs ha]

theorem find?_key {s : SortedBy key} {a : α} (h : a ∈ s.toList) : s.find? (key a) = some a :=
  find?_of_mem s.sorted h

/-- Collections that find the same items are equal. -/
theorem ext_find? {s t : SortedBy key} (h : ∀ k, s.find? k = t.find? k) : s = t :=
  ext <| eq_of_mem_iff s.sorted t.sorted fun a =>
    ⟨fun ha => (find?_eq_some ((h (key a)).symm.trans (find?_key ha))).1,
      fun ha => (find?_eq_some ((h (key a)).trans (find?_key ha))).1⟩

end Find

end SortedBy

/-! ### Tables -/

/-- Values under keys, in the order of the keys. -/
abbrev Table (κ α : Type) [KeyOrder κ] := SortedBy (Prod.fst : κ × α → κ)

/-- A set of integers, in increasing order. -/
abbrev Ids := SortedBy (id : Int → Int)

namespace Table

variable {κ α : Type} [KeyOrder κ] [DecidableEq κ]

/-- The value under a key. -/
def get? (t : Table κ α) (k : κ) : Option α := (t.find? k).map Prod.snd

/-- Writes the value under a key. -/
def set (t : Table κ α) (k : κ) (v : α) : Table κ α := t.insert (k, v)

/-- The keys that have a value, in order. -/
def keys (t : Table κ α) : List κ := t.toList.map Prod.fst

@[simp] theorem get?_empty (k : κ) : get? (SortedBy.empty : Table κ α) k = none := rfl

theorem get?_set (t : Table κ α) (k : κ) (v : α) (k' : κ) :
    get? (t.set k v) k' = if k = k' then some v else get? t k' := by
  simp only [get?, set, SortedBy.find?_insert]
  split <;> simp_all

theorem get?_erase (t : Table κ α) (k k' : κ) :
    get? (t.erase k) k' = if k = k' then none else get? t k' := by
  simp only [get?, SortedBy.find?_erase]
  split <;> simp

theorem find?_eq_get? (t : Table κ α) (k : κ) : t.find? k = (get? t k).map (k, ·) := by
  unfold get?
  cases h : t.find? k with
  | none => rfl
  | some e =>
    obtain ⟨-, rfl⟩ := SortedBy.find?_eq_some h
    rfl

/-- Tables with the same values under all keys are equal. -/
theorem ext_get? {s t : Table κ α} (h : ∀ k, get? s k = get? t k) : s = t :=
  SortedBy.ext_find? fun k => by rw [find?_eq_get?, find?_eq_get?, h]

end Table
end FrameFlow
