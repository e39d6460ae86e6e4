/-
# Records are read back

The written values of a record fill its fields one after another
(`Fields.Fills`): each stands under a key that addresses a field not read so far, and the
field takes it, from the text or from a value that was read whole. This is kept by
`Fields.cons`, and from it follow the runs of all loops over members: a loop that
meets the written members reads them all and stops at the closing brace.

Key definitions: `Fields.Fills`, `Fields.Faithful`.
Key theorems: `Fields.Faithful.cons`, `Format.faithful_record`.
-/
import FrameFlow.Json.Record
import FrameFlow.Proofs.Json.Faithful

namespace FrameFlow.Json

variable {σ α β : Type}

/-! ### Members -/

/-- An object goes on where a written member stands. -/
theorem objectGoesOn_member (first : Bool) (name : String) (p rest : List Char) :
    objectGoesOn first ((if first then Fields.writeMember name p
        else ',' :: Fields.writeMember name p) ++ rest) =
      .ok (true, quoteText name ++ ':' :: (p ++ rest)) := by
  have written : Fields.writeMember name p ++ rest = quoteText name ++ ':' :: (p ++ rest) :=
    List.append_assoc ..
  cases first
  · exact (congrArg (fun s => objectGoesOn false (',' :: s)) written).trans rfl
  · exact (congrArg (objectGoesOn true) written).trans rfl

theorem colon_cons (rest : List Char) : colon (':' :: rest) = .ok ((), rest) := rfl

theorem closeObject_brace (rest : List Char) : closeObject ('}' :: rest) = .ok ((), rest) := rfl

/-- What follows a member closes its value. -/
theorem closes_members (ps : List (List Char)) (rest : List Char) :
    Closes (Format.following false ps ++ '}' :: rest) :=
  Format.closes_following ps (closes_cons (.inr (.inr rfl)))

/-- All members of an object are read, up to its closing brace. -/
theorem members_following {item : Reader α} {ps : List (List Char)} {as : List α}
    (takes : List.Forall₂ item.Takes ps as) (rest : List Char) :
    ∀ {names : List String} {fuel} first, names.length = ps.length → ps.length < fuel →
      members item fuel first (Format.following first (names.zipWith Fields.writeMember ps) ++
        '}' :: rest) = .ok (names.zip as, '}' :: rest) := by
  induction takes with
  | nil =>
    intro names fuel first named enough
    obtain ⟨fuel, rfl⟩ := Nat.exists_eq_add_one.mpr enough
    rw [List.length_eq_zero_iff.mp named]
    rfl
  | @cons p a ps as here _ ih =>
    intro names fuel first named enough
    obtain ⟨fuel, rfl⟩ := Nat.exists_eq_add_one.mpr (Nat.zero_lt_of_lt enough)
    obtain ⟨name, names, rfl⟩ := List.exists_cons_of_length_eq_add_one named
    have later := ih false (Nat.succ.inj named) (Nat.lt_of_succ_lt_succ enough)
    unfold members
    rw [List.zipWith_cons_cons, Format.following, List.append_assoc,
      Reader.bind_ok (objectGoesOn_member first name p _), if_pos rfl,
      Reader.bind_ok (memberKey_quoteText name _), Reader.bind_ok (colon_cons _),
      Reader.bind_ok (here.reads (closes_members _ rest)), Reader.bind_ok later]
    rfl

namespace Fields

/-- The fields that are read into a record so far, those that are not, by their names, and the
written values from which they are going to be filled, all of which make up a record at the end. -/
inductive Fills (fields : Fields σ α) (levels : Nat) (a : α) :
    List String → σ → List (List Char) → Prop
  | done {read : σ} : fields.finish read = .ok a → Fills fields levels a [] read []
  | next {name : String} {names : List String} {read read' : σ} {p : List Char}
      {ps : List (List Char)} {i : Nat} (place : fields.names.idxOf? name = some i)
      (fresh : fields.has i read = false)
      (reads : ∀ {depth}, levels ≤ depth → (fields.readAt i depth read).Takes p read')
      (buffered : ∃ v, fields.valueAt i v read = .ok read' ∧
        ∀ {depth}, levels ≤ depth → (value depth).Takes p v)
      (others : Fills fields levels a names read' ps) :
      Fills fields levels a (name :: names) read (p :: ps)

/-- The written values of a record fill all its fields, in order. -/
def Faithful (fields : Fields σ α) (levels : Nat) (a : α) : Prop :=
  fields.Fills levels a fields.names fields.nothing (fields.write a)

/-- A field that is not read so far is read where its written member stands. -/
theorem readMembers_member {fields : Fields σ α} {name : String} {read : σ} {i : Nat}
    (place : fields.names.idxOf? name = some i) (fresh : fields.has i read = false)
    (depth fuel : Nat) (first : Bool) (names : List String) (p : List Char)
    (ps : List (List Char)) (rest : List Char) :
    fields.readMembers depth (fuel + 1) first read
      (Format.following first ((name :: names).zipWith writeMember (p :: ps)) ++ rest) =
        (fields.readAt i depth read >>= fields.readMembers depth fuel false)
          (p ++ (Format.following false (names.zipWith writeMember ps) ++ rest)) := by
  conv_lhs => unfold Fields.readMembers
  rw [List.zipWith_cons_cons, Format.following, List.append_assoc,
    Reader.bind_ok (objectGoesOn_member first name p _), if_pos rfl,
    Reader.bind_ok (memberKey_quoteText name _)]
  simp only [place, fresh, Bool.false_eq_true, if_false]
  rw [Reader.bind_ok (colon_cons _)]

namespace Fills

variable {fields : Fields σ α} {levels : Nat} {a : α} {names : List String} {read : σ}
  {ps : List (List Char)}

theorem length_eq (h : fields.Fills levels a names read ps) : names.length = ps.length := by
  induction h with
  | done _ => rfl
  | next _ _ _ _ _ ih => exact congrArg (· + 1) ih

/-- The members that are left are read into the fields. -/
theorem readMembers (h : fields.Fills levels a names read ps) : ∃ filled,
    fields.finish filled = .ok a ∧ ∀ {depth fuel first} rest, levels ≤ depth → ps.length < fuel →
      fields.readMembers depth fuel first read
        (Format.following first (names.zipWith writeMember ps) ++ '}' :: rest) =
          .ok (filled, '}' :: rest) := by
  induction h with
  | @done read finish =>
    refine ⟨read, finish, fun rest _ enough => ?_⟩
    obtain ⟨fuel, rfl⟩ := Nat.exists_eq_add_one.mpr enough
    rfl
  | @next name names read read' p ps i place fresh reads _ _ ih =>
    obtain ⟨filled, finish, later⟩ := ih
    refine ⟨filled, finish, fun {_ _ first} rest deep enough => ?_⟩
    obtain ⟨fuel, rfl⟩ := Nat.exists_eq_add_one.mpr (Nat.zero_lt_of_lt enough)
    rw [readMembers_member place fresh,
      Reader.bind_ok ((reads deep).reads (closes_members _ rest)),
      later rest deep (Nat.lt_of_succ_lt_succ enough)]

/-- The members that are left are read whole, and the fields take their values. -/
theorem takeMembers (h : fields.Fills levels a names read ps) : ∃ filled vs,
    fields.finish filled = .ok a ∧ fields.takeMembers (names.zip vs) read = .ok filled ∧
      ∀ {depth}, levels ≤ depth → List.Forall₂ (value depth).Takes ps vs := by
  induction h with
  | @done read finish => exact ⟨read, [], finish, rfl, fun _ => .nil⟩
  | @next name names read read' p ps i place fresh _ buffered _ ih =>
    obtain ⟨v, valueAt, whole⟩ := buffered
    obtain ⟨filled, vs, finish, take, wholes⟩ := ih
    refine ⟨filled, v :: vs, finish, ?_, fun deep => .cons (whole deep) (wholes deep)⟩
    unfold Fields.takeMembers
    simp only [List.zip_cons_cons, place, fresh, Bool.false_eq_true, if_false, valueAt]
    exact take

end Fills

/-! ### One field after another -/

theorem faithful_nil {levels : Nat} : nil.Faithful levels () := .done rfl

/-- The place of a field moves up by one when another field is put before it. -/
theorem idxOf?_behind {names : List String} {name other : String} {i : Nat}
    (place : names.idxOf? other = some i) (different : name ≠ other) :
    (name :: names).idxOf? other = some (i + 1) := by
  rw [List.idxOf?_cons, place, beq_eq_false_iff_ne.mpr different]
  rfl

/-- The fields of a record stay filled when one more is put before them. -/
theorem Fills.behind {fields : Fields σ α} {levels : Nat} {names : List String} {read : σ}
    {ps : List (List Char)} {b : α} (h : fields.Fills levels b names read ps) {name : String}
    (missing : Missing β) (f : Format β) (a : β) (new : name ∉ names) :
    (cons name missing f fields).Fills levels (a, b) names (some a, read) ps := by
  induction h with
  | @done read finish =>
    refine .done ?_
    show (do
      let b ← fields.finish read
      return (a, b)) = _
    rw [finish]
    rfl
  | @next other names read read' p ps i place fresh reads buffered _ ih =>
    obtain ⟨different, later⟩ : name ≠ other ∧ name ∉ names := by simpa using new
    refine .next (idxOf?_behind place different) fresh (fun deep => (reads deep).map (some a, ·)) ?_
      (ih later)
    obtain ⟨v, valueAt, whole⟩ := buffered
    refine ⟨v, ?_, whole⟩
    show (do
      let s ← fields.valueAt i v read
      return (some a, s)) = _
    rw [valueAt]
    rfl

/-- A record with one more field is faithful where the field and the others are. -/
theorem Faithful.cons {fields : Fields σ α} {levels : Nat} {b : α} {name : String}
    {missing : Missing β} {f : Format β} {a : β} (new : name ∉ fields.names)
    (here : f.Faithful levels a) (others : fields.Faithful levels b) :
    (Fields.cons name missing f fields).Faithful levels (a, b) := by
  refine .next (i := 0) (by simp [Fields.cons, List.idxOf?_cons]) rfl
    (fun deep => (here.reads deep).map (some ·, fields.nothing)) ?_ (others.behind missing f a new)
  obtain ⟨v, ofValue, -, whole⟩ := here.buffered
  refine ⟨v, ?_, whole⟩
  show (do
    let a ← f.ofValue v
    return (some a, fields.nothing)) = _
  rw [ofValue]
  rfl

end Fields

/-! ### Whole records -/

theorem writeObject_append (members : List (List Char)) (rest : List Char) :
    writeObject members ++ rest = '{' :: (Format.following true members ++ '}' :: rest) := by
  rw [writeObject, Format.commaSeparated_eq, List.cons_append, List.append_assoc,
    List.singleton_append]

theorem begins_writeObject (members : List (List Char)) : Begins (writeObject members) :=
  ⟨'{', _, rfl, rfl, by decide⟩

theorem begins_writeMember (name : String) (p : List Char) : Begins (Fields.writeMember name p) :=
  ⟨'"', _, rfl, rfl, by decide⟩

/-- A loop over some members has fuel for all of them. -/
theorem length_members (names : List String) {ps : List (List Char)}
    (named : names.length = ps.length) (first : Bool) (rest : List Char) :
    ps.length < (Format.following first (names.zipWith Fields.writeMember ps) ++
      '}' :: rest).length + 1 := by
  have begins : ∀ m ∈ names.zipWith Fields.writeMember ps, Begins m := by
    intro m hm
    rw [← List.map_uncurry_zip_eq_zipWith] at hm
    obtain ⟨⟨name, p⟩, -, rfl⟩ := List.mem_map.mp hm
    exact begins_writeMember name p
  have enough := Format.length_following begins first
  rw [List.length_zipWith, named, Nat.min_self] at enough
  rw [List.length_append]
  omega

/-- A written object is read whole where its members are. -/
theorem takes_writeObject {depth : Nat} (names : List String) {ps : List (List Char)}
    {vs : List Value} (named : names.length = ps.length)
    (takes : List.Forall₂ (value depth).Takes ps vs) :
    (value (depth + 1)).Takes (writeObject (names.zipWith Fields.writeMember ps))
      (.object (names.zip vs)) := by
  refine ⟨begins_writeObject _, fun rest _ => ?_⟩
  have loop : withFuel (members (value depth) · true)
      (Format.following true (names.zipWith Fields.writeMember ps) ++ '}' :: rest) =
        .ok (names.zip vs, '}' :: rest) :=
    members_following takes rest true named (length_members names named true rest)
  rw [writeObject_append]
  have opens : token ('{' :: (Format.following true (names.zipWith Fields.writeMember ps) ++
      '}' :: rest)) = .ok (.object, _) := rfl
  unfold value
  rw [Reader.bind_ok opens]
  unfold valueOf
  simp only [List.drop_one, List.tail_cons, loop]
  rfl

/-- A written record is read member by member. -/
theorem Format.read_record (title : String) (fields : Fields σ α) (depth : Nat) (a : α)
    (rest : List Char) :
    (record title fields).read (depth + 1) ((record title fields).write a ++ rest) =
      fields.readObject depth (following true (fields.writeMembers a) ++ '}' :: rest) := by
  show (record title fields).read (depth + 1) (writeObject (fields.writeMembers a) ++ rest) = _
  rw [writeObject_append]
  rfl

/-- A record is faithful where all its fields are. -/
theorem Format.faithful_record {title : String} {fields : Fields σ α} {levels : Nat} {a : α}
    (h : fields.Faithful levels a) : (record title fields).Faithful (levels + 1) a where
  reads {depth} deep := by
    obtain ⟨depth, rfl⟩ := Nat.exists_eq_add_one.mpr (Nat.zero_lt_of_lt deep)
    refine ⟨begins_writeObject _, fun rest _ => ?_⟩
    obtain ⟨filled, finish, read⟩ := h.readMembers
    have loop : withFuel (fields.readMembers depth · true fields.nothing)
        (following true (fields.writeMembers a) ++ '}' :: rest) = .ok (filled, '}' :: rest) :=
      read rest (Nat.le_of_succ_le_succ deep) (length_members fields.names h.length_eq true rest)
    rw [read_record]
    unfold Fields.readObject
    rw [Reader.bind_ok loop, finish]
    rfl
  buffered := by
    obtain ⟨filled, vs, finish, take, wholes⟩ := h.takeMembers
    refine ⟨.object (fields.names.zip vs), ?_, nofun, fun {depth} deep => ?_⟩
    · show (do fields.finish (← fields.takeMembers (fields.names.zip vs) fields.nothing)) = _
      rw [take]
      exact finish
    · obtain ⟨depth, rfl⟩ := Nat.exists_eq_add_one.mpr (Nat.zero_lt_of_lt deep)
      exact takes_writeObject fields.names h.length_eq (wholes (Nat.le_of_succ_le_succ deep))

/-- The same of a type whose values hold the fields of a record. -/
theorem Format.faithful_wrapped {title : String} {fields : Fields σ α} {levels : Nat}
    {wrap : α → β} {unwrap : β → α} {b : β} (h : fields.Faithful levels (unwrap b))
    (same : wrap (unwrap b) = b) :
    ((record title fields).map wrap unwrap).Faithful (levels + 1) b :=
  (faithful_record h).map same

end FrameFlow.Json
