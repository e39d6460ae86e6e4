/-
# What a format writes is read back

A reader takes a written piece for a value (`Reader.Takes`) when it reads the value off the
piece, up to whatever closes it. A format is faithful to a value (`Format.Faithful`) when
what it writes is taken for that value on both of its ways: straight from the text, and
through a value that is read whole before its type is known. How deep the text nests is
counted in levels, which both ways have to be allowed.

Faithfulness is handed on by the ways to build formats: here by `map`, `option`, `list`
and `choice`, in a separate module by records and by variants.

Key definitions: `Reader.Takes`, `Format.Faithful`, `Format.following`.
Key theorems: `Format.Faithful.parse_render`, `Format.faithful_list`.
-/
import FrameFlow.Proofs.Json.Tokens
import Mathlib.Data.List.Forall2

namespace FrameFlow.Json

variable {α β : Type}

/-! ### Taking a piece for a value -/

/-- A piece begins with a character that is neither a blank nor the end of a list. -/
def Begins (piece : List Char) : Prop := ∃ c r, piece = c :: r ∧ isBlank c = false ∧ c ≠ ']'

theorem Begins.skipBlanks {piece : List Char} (h : Begins piece) (rest : List Char) :
    skipBlanks (piece ++ rest) = piece ++ rest := by
  obtain ⟨c, r, rfl, solid, -⟩ := h
  exact skipBlanks_cons solid _

/-- A reader reads a value off a piece, up to what closes it. -/
structure Reader.Takes (m : Reader α) (piece : List Char) (a : α) : Prop where
  begins : Begins piece
  reads : ∀ ⦃rest⦄, Closes rest → m (piece ++ rest) = .ok (a, rest)

theorem Reader.Takes.map {m : Reader α} {piece : List Char} {a : α} (h : m.Takes piece a)
    (f : α → β) : (f <$> m).Takes piece (f a) :=
  ⟨h.begins, fun _ closes => Reader.map_ok (h.reads closes) f⟩

theorem Reader.Takes.all_begin {m : Reader α} {ps : List (List Char)} {as : List α}
    (h : List.Forall₂ m.Takes ps as) : ∀ p ∈ ps, Begins p := by
  induction h with
  | nil => exact nofun
  | cons here _ ih => exact List.forall_mem_cons.mpr ⟨here.begins, ih⟩

/-- What a format writes for a value is taken for that value, straight from the text and through
a value without a type, where at least so many levels may be opened. -/
structure Format.Faithful (f : Format α) (levels : Nat) (a : α) : Prop where
  reads : ∀ {depth}, levels ≤ depth → (f.read depth).Takes (f.write a) a
  buffered : ∃ v, f.ofValue v = .ok a ∧ (v = .null → (f.write a).head? = some 'n') ∧
    ∀ {depth}, levels ≤ depth → (value depth).Takes (f.write a) v

/-- A rendered text is parsed if it is read up to blanks at its end. -/
theorem Format.parse_render_ok {f : Format α} {a b : α} : f.parse (f.render a) = .ok b ↔
    ∃ rest, f.read depthLimit (f.write a) = .ok (b, rest) ∧ skipBlanks rest = [] := by
  have ends (rest : List Char) (c : α) :
      (endOfText rest >>= fun _ => pure c) = Except.ok b ↔ skipBlanks rest = [] ∧ c = b := by
    unfold endOfText
    rcases skipBlanks rest with _ | ⟨x, r⟩
    · exact ⟨fun h => ⟨rfl, Except.ok.inj h⟩, fun h => congrArg Except.ok h.2⟩
    · exact ⟨nofun, nofun⟩
  unfold Format.parse Format.render
  rw [String.toList_ofList]
  rcases f.read depthLimit (f.write a) with fault | ⟨c, rest⟩
  · exact ⟨nofun, nofun⟩
  · refine (ends rest c).trans ⟨?_, ?_⟩
    · rintro ⟨done, rfl⟩
      exact ⟨rest, rfl, done⟩
    · rintro ⟨_, same, done⟩
      cases same
      exact ⟨done, rfl⟩

namespace Format.Faithful

variable {f : Format α} {levels : Nat} {a : α}

theorem begins (h : f.Faithful levels a) : Begins (f.write a) := (h.reads (Nat.le_refl _)).begins

/-- More levels do no harm. -/
theorem mono {more : Nat} (h : f.Faithful levels a) (enough : levels ≤ more) :
    f.Faithful more a where
  reads deep := h.reads (Nat.le_trans enough deep)
  buffered := h.buffered.imp fun _ v =>
    ⟨v.1, v.2.1, fun deep => v.2.2 (Nat.le_trans enough deep)⟩

/-- A text that is rendered from a value is parsed as that value. -/
theorem parse_render (h : f.Faithful levels a) (enough : levels ≤ depthLimit) :
    f.parse (f.render a) = .ok a := by
  have read := (h.reads enough).reads closes_nil
  rw [List.append_nil] at read
  exact parse_render_ok.mpr ⟨[], read, rfl⟩

/-- Another type in disguise. -/
theorem map {wrap : α → β} {unwrap : β → α} {b : β} (h : f.Faithful levels (unwrap b))
    (same : wrap (unwrap b) = b) : (f.map wrap unwrap).Faithful levels b where
  reads deep := by
    have read := (h.reads deep).map wrap
    rw [same] at read
    exact read
  buffered := by
    obtain ⟨v, ofValue, null, whole⟩ := h.buffered
    refine ⟨v, ?_, null, whole⟩
    show wrap <$> f.ofValue v = _
    rw [ofValue]
    exact congrArg Except.ok same

end Format.Faithful

/-! ### Scalars -/

/-- The value that a token stands for alone. -/
def Token.alone? : Token → Option Value
  | .null => some .null
  | .boolean b => some (.boolean b)
  | .integer i => some (.integer i)
  | .number x => some (.number x)
  | .text s => some (.text s)
  | .list | .object => none

theorem value_alone {t : Token} {v : Value} (alone : t.alone? = some v) {s rest : List Char}
    (h : token s = .ok (t, rest)) (depth : Nat) : value depth s = .ok (v, rest) := by
  have here (inner : Option (Reader Value)) : valueOf inner t rest = .ok (v, rest) := by
    cases t <;> cases alone <;> rfl
  cases depth with
  | zero => exact (Reader.bind_ok h _).trans (here _)
  | succ depth => exact (Reader.bind_ok h _).trans (here _)

theorem token_of_alone {t : Token} {v : Value} (alone : t.alone? = some v) : v.token = t := by
  cases t <;> cases alone <;> rfl

theorem scalar_ok {accept : Token → Except Fault α} {s r : List Char} {a : α} :
    scalar accept s = .ok (a, r) ↔ ∃ t, token s = .ok (t, r) ∧ accept t = .ok a := by
  unfold scalar
  rcases read : token s with fault | ⟨t, rest⟩
  · rw [Reader.bind_error read]
    exact ⟨nofun, nofun⟩
  · rw [Reader.bind_ok read]
    constructor
    · intro h
      rcases accepted : accept t with fault | b
      · rw [accepted] at h
        cases h
      · rw [accepted] at h
        cases h
        exact ⟨t, rfl, accepted⟩
    · rintro ⟨_, same, accepted⟩
      cases same
      rw [accepted]
      rfl

/-- A scalar is read back if it is written as a token that is accepted as the scalar. It opens no
level. -/
theorem Format.Faithful.scalar {write : α → List Char} {accept : Token → Except Fault α} {a : α}
    {levels : Nat} {t : Token} {v : Value} (begins : Begins (write a)) (alone : t.alone? = some v)
    (null : t = .null → (write a).head? = some 'n') (accepts : accept t = .ok a)
    (read : ∀ ⦃rest⦄, Closes rest → token (write a ++ rest) = .ok (t, rest)) :
    (Format.scalar write accept).Faithful levels a where
  reads _ := ⟨begins, fun rest closes => by
    exact scalar_ok.mpr ⟨t, read closes, accepts⟩⟩
  buffered := ⟨v, by
    show accept v.token = _
    rw [token_of_alone alone, accepts], by
    rintro rfl
    exact null (token_of_alone alone).symm, fun _ =>
    ⟨begins, fun rest closes => value_alone alone (read closes) _⟩⟩

theorem begins_quoteText (t : String) : Begins (quoteText t) := ⟨'"', _, rfl, rfl, by decide⟩

/-- What begins like a number begins a piece. -/
theorem begins_of_isNumeric {c : Char} (h : isNumeric c) (r : List Char) : Begins (c :: r) :=
  ⟨c, r, rfl, isBlank_of_isNumeric h, by rintro rfl; cases h⟩

theorem begins_integerText (i : Int) : Begins (integerText i) := by
  unfold integerText
  split
  · exact begins_of_isNumeric rfl _
  · obtain ⟨d, ds, e⟩ : ∃ d ds, decimalDigits i.natAbs = d :: ds :=
      List.exists_cons_of_ne_nil Nat.toDigits_ne_nil
    have numeric := List.all_eq_true.mp (isNumeric_decimalDigits i.natAbs) d (by simp [e])
    rw [e]
    exact begins_of_isNumeric numeric ds

namespace Format

variable {levels : Nat}

theorem faithful_bool (b : Bool) : bool.Faithful levels b :=
  .scalar (t := .boolean b) (by cases b <;> exact ⟨_, _, rfl, rfl, by decide⟩) rfl nofun rfl
    fun rest _ => token_bool b rest

theorem faithful_text (t : String) : text.Faithful levels t :=
  .scalar (t := .text t) (begins_quoteText t) rfl nofun rfl fun rest _ => token_quoteText t rest

theorem faithful_int64 (i : Int64) : int64.Faithful levels i := by
  have low := Int64.le_toInt i
  have high := Int64.toInt_lt i
  refine .scalar (t := .integer i.toInt) (begins_integerText _) rfl nofun ?_
    fun rest closes => token_integerText (by omega) (by omega) closes
  simp only [acceptInt64, Int64.ofInt_toInt]
  exact if_pos (by omega)

/-- What is written like a number is faithful if it is read back where it is a whole text. -/
theorem Faithful.number {write : α → List Char} {accept : Token → Except Fault α} {a : α}
    (numeric : (write a).all isNumeric)
    (accepts : ∀ t, accept t = .ok a → t ≠ .null ∧ ∃ v, t.alone? = some v)
    (readsBack : (Format.scalar write accept).parse ((Format.scalar write accept).render a) =
      .ok a) : (Format.scalar write accept).Faithful levels a := by
  obtain ⟨r, read, done⟩ := parse_render_ok.mp readsBack
  obtain ⟨t, whole, accepted⟩ := scalar_ok.mp read
  obtain ⟨solid, v, alone⟩ := accepts t accepted
  have begins : Begins (write a) := by
    rcases e : write a with _ | ⟨c, cs⟩
    · have none : token (write a) = .ok (t, r) := whole
      rw [e] at none
      cases none
    · rw [e, List.all_cons, Bool.and_eq_true] at numeric
      exact begins_of_isNumeric numeric.1 cs
  exact .scalar begins alone (absurd · solid) accepted fun rest closes =>
    token_append (List.all_eq_true.mp numeric) whole done closes

theorem faithful_double {x : Double} (finite : x.isFinite)
    (readsBack : double.parse (double.render x) = .ok x) : double.Faithful levels x := by
  refine .number ?_ (fun t accepted => ?_) readsBack
  · rw [if_pos finite]
    exact isNumeric_finiteText _ _
  · cases t <;> cases accepted <;> exact ⟨nofun, _, rfl⟩

theorem faithful_single {x : Single} (finite : x.isFinite)
    (readsBack : single.parse (single.render x) = .ok x) : single.Faithful levels x := by
  refine .number ?_ (fun t accepted => ?_) readsBack
  · rw [if_pos finite]
    exact isNumeric_finiteText _ _
  · cases t <;> cases accepted <;> exact ⟨nofun, _, rfl⟩

/-! ### Options and names -/

/-- What does not begin like a missing value is read as what is there. -/
theorem read_option {f : Format α} {piece : List Char} (begins : Begins piece)
    (there : piece.head? ≠ some 'n') (depth : Nat) (rest : List Char) :
    (option f).read depth (piece ++ rest) = (some <$> f.read depth) (piece ++ rest) := by
  unfold option
  simp only [begins.skipBlanks]
  split
  · next e =>
    obtain ⟨c, r, rfl, -, -⟩ := begins
    cases e
    exact absurd rfl there
  · show _ = (f.read depth >>= fun a => pure (some a)) (piece ++ rest)
    rw [Reader.bind_apply]
    rfl

/-- An option is faithful where what is there is, and is not taken for a missing value. -/
theorem faithful_option {f : Format α} {o : Option α}
    (each : ∀ a ∈ o, f.Faithful levels a ∧ (f.write a).head? ≠ some 'n') :
    (option f).Faithful levels o := by
  rcases o with _ | a
  · refine ⟨fun {_} _ => ?_, .null, rfl, fun _ => rfl, fun {_} _ => ?_⟩
    · exact ⟨⟨'n', _, rfl, rfl, by decide⟩, fun _ _ => rfl⟩
    · exact ⟨⟨'n', _, rfl, rfl, by decide⟩, fun rest _ => value_alone rfl (token_nullText rest) _⟩
  obtain ⟨h, there⟩ := each a rfl
  obtain ⟨v, ofValue, null, whole⟩ := h.buffered
  refine ⟨fun {depth} deep => ⟨h.begins, fun rest closes => ?_⟩, v, ?_, null, whole⟩
  · exact (read_option h.begins there depth rest).trans
      (Reader.map_ok ((h.reads deep).reads closes) some)
  · unfold option
    simp only
    split
    · exact absurd (null rfl) there
    · rw [ofValue]
      rfl

theorem faithful_optionText (o : Option String) : (option text).Faithful levels o :=
  faithful_option fun t _ => ⟨faithful_text t, nofun⟩

/-- A name that is one of some choices is read back as its place among them. -/
theorem scalar_acceptVariant {choices : List String} {name : String} {i : Nat}
    (place : choices.idxOf? name = some i) (rest : List Char) :
    Json.scalar (acceptVariant choices) (quoteText name ++ rest) = .ok (i, rest) := by
  refine scalar_ok.mpr ⟨.text name, token_quoteText name rest, ?_⟩
  simp only [acceptVariant, acceptName, place]

theorem readName_quoteText {choices : List String} {name : String} {i : Nat}
    (place : choices.idxOf? name = some i) (depth : Nat) (rest : List Char) :
    readName choices depth (quoteText name ++ rest) = .ok (i, rest) :=
  scalar_acceptVariant place rest

theorem faithful_choice [Inhabited α] {all : List α} {name : α → String} {a : α} {i : Nat}
    (place : (all.map name).idxOf? (name a) = some i) (there : all[i]? = some a) :
    (choice all name).Faithful levels a where
  reads _ := ⟨begins_quoteText _, fun rest _ => by
    refine (Reader.map_ok (readName_quoteText place _ rest) _).trans ?_
    rw [List.getD_eq_getElem?_getD, there]
    rfl⟩
  buffered := ⟨.text (name a), by
    show (fun i => all.getD i default) <$> acceptName (all.map name) (name a) = _
    rw [acceptName, place]
    show Except.ok (all.getD i default) = _
    rw [List.getD_eq_getElem?_getD, there]
    rfl, nofun, fun _ =>
    ⟨begins_quoteText _, fun rest _ => value_alone rfl (token_quoteText _ rest) _⟩⟩

/-! ### Lists -/

/-- Pieces, each behind a comma but one that is the first. -/
def following : Bool → List (List Char) → List Char
  | _, [] => []
  | first, p :: ps => (if first then p else ',' :: p) ++ following false ps

theorem commaSeparated_eq : ∀ ps : List (List Char), commaSeparated ps = following true ps
  | [] => rfl
  | [p] => (List.append_nil p).symm
  | p :: q :: ps => by
    show p ++ ',' :: commaSeparated (q :: ps) = _
    rw [commaSeparated_eq (q :: ps)]
    rfl

/-- What follows an item closes it. -/
theorem closes_following (ps : List (List Char)) {rest : List Char} (closes : Closes rest) :
    Closes (following false ps ++ rest) := by
  cases ps with
  | nil => exact closes
  | cons p ps => exact closes_cons (.inl rfl)

theorem length_following {ps : List (List Char)} (begins : ∀ p ∈ ps, Begins p) (first : Bool) :
    ps.length ≤ (following first ps).length := by
  induction ps generalizing first with
  | nil => exact Nat.zero_le _
  | cons p ps ih =>
    obtain ⟨c, r, rfl, -⟩ := begins p List.mem_cons_self
    have later := ih (fun q hq => begins q (List.mem_cons_of_mem _ hq)) false
    cases first <;> simp [following] <;> omega

end Format

theorem listGoesOn_piece {p : List Char} (begins : Begins p) (first : Bool) (rest : List Char) :
    listGoesOn first ((if first then p else ',' :: p) ++ rest) = .ok (true, p ++ rest) := by
  obtain ⟨c, r, rfl, solid, inside⟩ := begins
  cases first with
  | false =>
    unfold listGoesOn
    simp [skipBlanks_cons (c := ',') (by decide), skipBlanks_cons solid, inside]
  | true =>
    unfold listGoesOn
    simp [skipBlanks_cons solid, inside]

/-- The next item of a list is read where its piece stands. -/
theorem items_piece {p : List Char} (begins : Begins p) (item : Reader α) (fuel : Nat)
    (first : Bool) (ps : List (List Char)) (rest : List Char) :
    items item (fuel + 1) first (Format.following first (p :: ps) ++ rest) =
      (item >>= fun a => items item fuel false >>= fun as => pure (a :: as))
        (p ++ (Format.following false ps ++ rest)) := by
  conv_lhs => unfold items
  rw [Format.following, List.append_assoc, Reader.bind_ok (listGoesOn_piece begins first _),
    if_pos rfl]

/-- All items of a list are read, up to its closing bracket. -/
theorem items_following {item : Reader α} {ps : List (List Char)} {as : List α}
    (takes : List.Forall₂ item.Takes ps as) (rest : List Char) :
    ∀ {fuel} first, ps.length < fuel →
      items item fuel first (Format.following first ps ++ ']' :: rest) = .ok (as, ']' :: rest) := by
  induction takes with
  | nil =>
    intro fuel first enough
    obtain ⟨fuel, rfl⟩ := Nat.exists_eq_add_one.mpr enough
    rfl
  | @cons p a ps as here _ ih =>
    intro fuel first enough
    obtain ⟨fuel, rfl⟩ := Nat.exists_eq_add_one.mpr (Nat.zero_lt_of_lt enough)
    have closes : Closes (Format.following false ps ++ ']' :: rest) :=
      Format.closes_following ps (closes_cons (.inr (.inl rfl)))
    have later := ih false (Nat.lt_of_succ_lt_succ enough)
    rw [items_piece here.begins, Reader.bind_ok (here.reads closes), Reader.bind_ok later]
    rfl

/-- What is between the brackets of a list is read item by item. -/
theorem withFuel_items {item : Reader α} {ps : List (List Char)} {as : List α}
    (takes : List.Forall₂ item.Takes ps as) (rest : List Char) :
    withFuel (items item · true) (Format.following true ps ++ ']' :: rest) =
      .ok (as, ']' :: rest) := by
  refine items_following takes rest true (Nat.lt_succ_of_le ?_)
  have enough := Format.length_following (Reader.Takes.all_begin takes) true
  rw [List.length_append]
  omega

namespace Format

variable {levels : Nat}

/-- The items of a written list are read whole as values that its items are taken from. -/
theorem buffered_items {f : Format α} : ∀ {l : List α},
    (∀ a ∈ l, f.Faithful levels a) → ∃ vs, vs.mapM f.ofValue = .ok l ∧
      ∀ {depth}, levels ≤ depth → List.Forall₂ (value depth).Takes (l.map f.write) vs
  | [], _ => ⟨[], rfl, fun _ => .nil⟩
  | a :: l, each => by
    obtain ⟨v, ofValue, -, whole⟩ := (each a List.mem_cons_self).buffered
    obtain ⟨vs, ofValues, wholes⟩ :=
      buffered_items fun b hb => each b (List.mem_cons_of_mem _ hb)
    refine ⟨v :: vs, ?_, fun deep => .cons (whole deep) (wholes deep)⟩
    rw [List.mapM_cons, ofValue, ofValues]
    rfl

/-- A written list is read item by item, and then its closing bracket. -/
theorem read_list (f : Format α) (depth : Nat) (l : List α) (rest : List Char) :
    (list f).read (depth + 1) ((list f).write l ++ rest) =
      (withFuel (items (f.read depth) · true) (following true (l.map f.write) ++ ']' :: rest) >>=
        fun x => closeList x.2 >>= fun y => pure (x.1, y.2)) := by
  show (list f).read (depth + 1) ('[' :: (commaSeparated (l.map f.write) ++ [']']) ++ rest) = _
  rw [commaSeparated_eq, List.cons_append, List.append_assoc, List.singleton_append]
  unfold list
  simp only [skipBlanks_cons (c := '[') (by decide), nested]

/-- A list is faithful where the format of its items is faithful to each of them. -/
theorem faithful_list {f : Format α} {l : List α}
    (each : ∀ a ∈ l, f.Faithful levels a) : (list f).Faithful (levels + 1) l where
  reads {depth} deep := by
    obtain ⟨depth, rfl⟩ := Nat.exists_eq_add_one.mpr (Nat.zero_lt_of_lt deep)
    refine ⟨⟨'[', _, rfl, rfl, by decide⟩, fun rest closes => ?_⟩
    have takes : List.Forall₂ (f.read depth).Takes (l.map f.write) l :=
      List.forall₂_map_left_iff.mpr (List.forall₂_same.mpr fun a ha =>
        (each a ha).reads (Nat.le_of_succ_le_succ deep))
    rw [read_list, withFuel_items takes rest]
    rfl
  buffered := by
    obtain ⟨vs, ofValues, wholes⟩ := buffered_items each
    refine ⟨.list vs, ofValues, nofun, fun {depth} deep => ?_⟩
    obtain ⟨depth, rfl⟩ := Nat.exists_eq_add_one.mpr (Nat.zero_lt_of_lt deep)
    refine ⟨⟨'[', _, rfl, rfl, by decide⟩, fun rest closes => ?_⟩
    have read := withFuel_items (wholes (Nat.le_of_succ_le_succ deep)) rest
    show value (depth + 1) ('[' :: (commaSeparated (l.map f.write) ++ [']']) ++ rest) = _
    rw [commaSeparated_eq, List.cons_append, List.append_assoc, List.singleton_append]
    have opens : token ('[' :: (following true (l.map f.write) ++ ']' :: rest)) =
      .ok (.list, _) := rfl
    unfold value
    rw [Reader.bind_ok opens]
    unfold valueOf
    simp only [List.drop_one, List.tail_cons, read]
    rfl

end Format
end FrameFlow.Json
