/-
# Tagged variants are read back

A variant is written with its tag before everything else. Where the payload stands beside
the tag (`Format.adjacent`), the tag is read first and chooses how the payload is read.
Where the tag stands among the fields (`Format.tagged`), the fields are read whole, and
the variant takes them from the values. Both are faithful where the payload or the
fields of the variant that is written are.

Key definitions: `Case.Faithful`.
Key theorems: `Format.faithful_adjacent`, `Format.faithful_tagged`.
-/
import FrameFlow.Proofs.Json.Records

namespace FrameFlow.Json

variable {σ α β : Type}

/-! ### Tag and payload side by side -/

namespace TagKeys

variable {keys : TagKeys}

theorem key?_tag : keys.key? keys.tag = some .tag := if_pos rfl

theorem key?_payload (apart : keys.tag ≠ keys.payload) :
    keys.key? keys.payload = some .payload := by
  rw [key?, if_neg apart.symm, if_pos rfl]

/-- A key that matters is met at once where its member stands next. -/
theorem next_member {name : String} {k : Key} (matters : keys.key? name = some k) (fuel : Nat)
    (first : Bool) (p rest : List Char) :
    keys.next (fuel + 1) first ((if first then Fields.writeMember name p
        else ',' :: Fields.writeMember name p) ++ rest) = .ok (some k, ':' :: (p ++ rest)) := by
  unfold next
  rw [Reader.bind_ok (objectGoesOn_member first name p rest), if_pos rfl,
    Reader.bind_ok (memberKey_quoteText name _)]
  simp only [matters]
  rfl

theorem next_brace (first : Bool) (rest : List Char) :
    withFuel (keys.next · first) ('}' :: rest) = .ok (none, '}' :: rest) := rfl

theorem noMore_brace (rest : List Char) : keys.noMore ('}' :: rest) = .ok ((), '}' :: rest) := rfl

end TagKeys

/-- The written payload of a variant is taken for the variant, in both ways of reading. -/
structure Case.Faithful (c : Case α) (levels : Nat) (p : List Char) (a : α) : Prop where
  reads : ∀ {depth}, levels ≤ depth → (c.read depth).Takes p a
  buffered : ∃ v, c.ofValue v = .ok a ∧ ∀ {depth}, levels ≤ depth → (value depth).Takes p v

theorem Case.faithful_payload {name : String} {f : Format β} {make : β → α} {levels : Nat} {b : β}
    (h : f.Faithful levels b) : (payload name f make).Faithful levels (f.write b) (make b) where
  reads deep := (h.reads deep).map make
  buffered := by
    obtain ⟨v, ofValue, -, whole⟩ := h.buffered
    refine ⟨v, ?_, whole⟩
    show make <$> f.ofValue v = _
    rw [ofValue]
    rfl

section Adjacent

variable {title : String} {keys : TagKeys} {cases : List (Case α)}
  {write : α → String × Option (List Char)} {a : α} {name : String} {i : Nat} {c : Case α}

/-- A tag is read back as the case that it names. -/
theorem readCase_quoteText (place : (cases.map Case.name).idxOf? name = some i)
    (there : cases[i]? = some c) (depth : Nat) (rest : List Char) :
    readCase cases depth (quoteText name ++ rest) = .ok (c, rest) := by
  unfold readCase caseAt
  rw [Reader.bind_ok (Format.readName_quoteText place depth rest), there]
  rfl

theorem caseOfValue_text (place : (cases.map Case.name).idxOf? name = some i)
    (there : cases[i]? = some c) : caseOfValue cases (.text name) = .ok c := by
  show (do caseAt cases (← acceptName (cases.map Case.name) name)) = _
  rw [acceptName, place]
  show caseAt cases i = _
  rw [caseAt, there]

theorem takes_quoteText (depth : Nat) (name : String) :
    (value depth).Takes (quoteText name) (.text name) :=
  ⟨begins_quoteText name, fun rest _ => value_alone rfl (token_quoteText name rest) depth⟩

theorem Format.write_adjacent {payload : Option (List Char)} (written : write a = (name, payload)) :
    (adjacent title keys cases write).write a =
      writeObject (Fields.writeMember keys.tag (quoteText name) ::
        (payload.map (Fields.writeMember keys.payload)).toList) := by
  show writeObject (Fields.writeMember keys.tag (quoteText (write a).1) ::
    ((write a).2.map (Fields.writeMember keys.payload)).toList) = _
  rw [written]

/-- A variant that is written without a payload is read back. -/
theorem Format.faithful_adjacent_bare (written : write a = (name, none))
    (place : (cases.map Case.name).idxOf? name = some i) (there : cases[i]? = some c)
    (bare : c.bare = some a) {levels : Nat} :
    (adjacent title keys cases write).Faithful (levels + 1) a := by
  have made : bareCase keys c = .ok a := by rw [bareCase, bare]
  refine ⟨fun {depth} deep => ?_, .object [(keys.tag, .text name)], ?_, nofun,
    fun {depth} deep => ?_⟩
  · obtain ⟨depth, rfl⟩ := Nat.exists_eq_add_one.mpr (Nat.zero_lt_of_lt deep)
    rw [write_adjacent written]
    refine ⟨begins_writeObject _, fun rest _ => ?_⟩
    have tag : withFuel (keys.next · true) (following true
        [Fields.writeMember keys.tag (quoteText name)] ++ '}' :: rest) =
          .ok (some .tag, ':' :: (quoteText name ++ '}' :: rest)) := by
      rw [following, following, List.append_nil]
      exact TagKeys.next_member TagKeys.key?_tag _ true _ _
    rw [writeObject_append]
    show readTagged keys cases depth _ = _
    unfold readTagged
    simp only [Option.map_none, Option.toList_none]
    rw [Reader.bind_ok tag]
    simp only
    rw [Reader.bind_ok (colon_cons _), Reader.bind_ok (readCase_quoteText place there depth _),
      Reader.bind_ok (TagKeys.next_brace false rest), made]
    rfl
  · show takeTagged keys cases [(keys.tag, .text name)] = _
    unfold takeTagged
    simp only [TagKeys.nextOf, TagKeys.key?_tag, caseOfValue_text place there]
    exact made
  · obtain ⟨depth, rfl⟩ := Nat.exists_eq_add_one.mpr (Nat.zero_lt_of_lt deep)
    rw [write_adjacent written]
    exact takes_writeObject [keys.tag] rfl (.cons (takes_quoteText depth name) .nil)

/-- A variant is read back where its payload is. -/
theorem Format.faithful_adjacent {levels : Nat} {p : List Char} (apart : keys.tag ≠ keys.payload)
    (written : write a = (name, some p)) (place : (cases.map Case.name).idxOf? name = some i)
    (there : cases[i]? = some c) (h : c.Faithful levels p a) :
    (adjacent title keys cases write).Faithful (levels + 1) a := by
  obtain ⟨v, ofValue, whole⟩ := h.buffered
  refine ⟨fun {depth} deep => ?_, .object [(keys.tag, .text name), (keys.payload, v)], ?_, nofun,
    fun {depth} deep => ?_⟩
  · obtain ⟨depth, rfl⟩ := Nat.exists_eq_add_one.mpr (Nat.zero_lt_of_lt deep)
    rw [write_adjacent written]
    refine ⟨begins_writeObject _, fun rest _ => ?_⟩
    have brace : Closes ('}' :: rest) := closes_cons (.inr (.inr rfl))
    have payload : withFuel (keys.next · false)
        (',' :: Fields.writeMember keys.payload p ++ '}' :: rest) =
          .ok (some .payload, ':' :: (p ++ '}' :: rest)) :=
      TagKeys.next_member (TagKeys.key?_payload apart) _ false _ _
    have tag : withFuel (keys.next · true) (following true
        [Fields.writeMember keys.tag (quoteText name), Fields.writeMember keys.payload p] ++
          '}' :: rest) = .ok (some .tag, ':' :: (quoteText name ++
            (',' :: Fields.writeMember keys.payload p ++ '}' :: rest))) := by
      rw [following, following, following, List.append_nil, List.append_assoc]
      exact TagKeys.next_member TagKeys.key?_tag _ true _ _
    rw [writeObject_append]
    show readTagged keys cases depth _ = _
    unfold readTagged
    simp only [Option.map_some, Option.toList_some]
    rw [Reader.bind_ok tag]
    simp only
    rw [Reader.bind_ok (colon_cons _), Reader.bind_ok (readCase_quoteText place there depth _),
      Reader.bind_ok payload]
    simp only
    rw [Reader.bind_ok (colon_cons _),
      Reader.bind_ok ((h.reads (Nat.le_of_succ_le_succ deep)).reads brace),
      Reader.bind_ok (TagKeys.noMore_brace rest)]
    rfl
  · show takeTagged keys cases [(keys.tag, .text name), (keys.payload, v)] = _
    unfold takeTagged
    simp only [TagKeys.nextOf, TagKeys.key?_tag, TagKeys.key?_payload apart,
      caseOfValue_text place there]
    show (do
      let a ← c.ofValue v
      noMoreOf keys []
      return a) = _
    rw [ofValue]
    rfl
  · obtain ⟨depth, rfl⟩ := Nat.exists_eq_add_one.mpr (Nat.zero_lt_of_lt deep)
    rw [write_adjacent written]
    exact takes_writeObject [keys.tag, keys.payload] rfl
      (.cons (takes_quoteText depth name) (.cons (whole (Nat.le_of_succ_le_succ deep)) .nil))

end Adjacent

/-! ### Tag among the fields -/

section Tagged

variable {title tag : String} {variants : List (Variant α)} {write : α → String × List (List Char)}
  {a : α} {name : String} {i : Nat} {c : Case α}

/-- Members that are not the tag are read whole. -/
theorem readWithTag_members {depth : Nat} {ps : List (List Char)} {vs : List Value}
    (takes : List.Forall₂ (value depth).Takes ps vs) (met : Option Nat) (rest : List Char) :
    ∀ {names : List String} {fuel} first, names.length = ps.length → tag ∉ names →
      ps.length < fuel → readWithTag tag variants depth fuel first met
        (Format.following first (names.zipWith Fields.writeMember ps) ++ '}' :: rest) =
          .ok ((met, names.zip vs), '}' :: rest) := by
  induction takes with
  | nil =>
    intro names fuel first named _ enough
    obtain ⟨fuel, rfl⟩ := Nat.exists_eq_add_one.mpr enough
    rw [List.length_eq_zero_iff.mp named]
    rfl
  | @cons p v ps vs here _ ih =>
    intro names fuel first named other enough
    obtain ⟨fuel, rfl⟩ := Nat.exists_eq_add_one.mpr (Nat.zero_lt_of_lt enough)
    obtain ⟨name, names, rfl⟩ := List.exists_cons_of_length_eq_add_one named
    obtain ⟨different, others⟩ : tag ≠ name ∧ tag ∉ names := by simpa using other
    have later := ih false (Nat.succ.inj named) others (Nat.lt_of_succ_lt_succ enough)
    unfold readWithTag
    rw [List.zipWith_cons_cons, Format.following, List.append_assoc,
      Reader.bind_ok (objectGoesOn_member first name p _), if_pos rfl,
      Reader.bind_ok (memberKey_quoteText name _), if_neg different.symm,
      Reader.bind_ok (colon_cons _), Reader.bind_ok (here.reads (closes_members _ rest)),
      Reader.bind_ok later]
    rfl

/-- The tag is read as the place of the variant that it names, the members behind it whole. -/
theorem readWithTag_tag {depth fuel : Nat} {names : List String} {ps : List (List Char)}
    {vs : List Value} (place : (variants.map Variant.name).idxOf? name = some i)
    (takes : List.Forall₂ (value depth).Takes ps vs) (named : names.length = ps.length)
    (apart : tag ∉ names) (enough : ps.length < fuel) (rest : List Char) :
    readWithTag tag variants depth (fuel + 1) true none (Format.following true
      ((tag :: names).zipWith Fields.writeMember (quoteText name :: ps)) ++ '}' :: rest) =
        .ok ((some i, names.zip vs), '}' :: rest) := by
  have read (rest : List Char) : readTag variants (quoteText name ++ rest) = .ok (i, rest) :=
    Format.scalar_acceptVariant place rest
  unfold readWithTag
  rw [List.zipWith_cons_cons, Format.following, List.append_assoc,
    Reader.bind_ok (objectGoesOn_member true tag _ _), if_pos rfl,
    Reader.bind_ok (memberKey_quoteText tag _), if_pos rfl]
  simp only [Option.isSome_none, Bool.false_eq_true, if_false]
  rw [Reader.bind_ok (colon_cons _), Reader.bind_ok (read _)]
  exact readWithTag_members takes (some i) rest false named apart enough

/-- Members that are not the tag are left as they are. -/
theorem takeTag_members (met : Option Nat) : ∀ {names : List String} {vs : List Value},
    tag ∉ names → takeTag tag variants (names.zip vs) met = .ok (met, names.zip vs)
  | [], _, _ => rfl
  | _ :: _, [], _ => rfl
  | name :: names, v :: vs, other => by
    obtain ⟨different, others⟩ : tag ≠ name ∧ tag ∉ names := by simpa using other
    rw [List.zip_cons_cons, takeTag, if_neg different.symm, takeTag_members met others]
    rfl

/-- A variant is read back where its fields are. -/
theorem Format.faithful_tagged {label : String} {fields : Fields σ β} {make : β → α} {b : β}
    {levels : Nat} (written : write a = (name, fields.writeMembers b))
    (place : (variants.map Variant.name).idxOf? name = some i)
    (there : variants[i]? = some (.record name label fields make)) (made : make b = a)
    (apart : tag ∉ fields.names) (h : fields.Faithful levels b) :
    (tagged title tag variants write).Faithful (levels + 1) a := by
  obtain ⟨filled, vs, finish, take, wholes⟩ := h.takeMembers
  have text : (tagged title tag variants write).write a = writeObject
      ((tag :: fields.names).zipWith Fields.writeMember (quoteText name :: fields.write b)) := by
    show writeObject (Fields.writeMember tag (quoteText (write a).1) :: (write a).2) = _
    rw [written]
    rfl
  have found : variantAt variants i (.object (fields.names.zip vs)) = .ok a := by
    unfold variantAt
    rw [there]
    show make <$> (do fields.finish (← fields.takeMembers (fields.names.zip vs) fields.nothing)) = _
    rw [take, ← made]
    show make <$> fields.finish filled = _
    rw [finish]
    rfl
  refine ⟨fun {depth} deep => ?_, .object ((tag, .text name) :: fields.names.zip vs), ?_, nofun,
    fun {depth} deep => ?_⟩
  · obtain ⟨depth, rfl⟩ := Nat.exists_eq_add_one.mpr (Nat.zero_lt_of_lt deep)
    rw [text]
    refine ⟨begins_writeObject _, fun rest _ => ?_⟩
    rw [writeObject_append]
    show readTaggedObject tag variants depth _ = _
    have count : (tag :: fields.names).length = (quoteText name :: fields.write b).length :=
      congrArg (· + 1) h.length_eq
    have enough := Nat.lt_of_succ_lt_succ (length_members (tag :: fields.names) count true rest)
    have loop : withFuel (readWithTag tag variants depth · true none) (following true
        ((tag :: fields.names).zipWith Fields.writeMember (quoteText name :: fields.write b)) ++
          '}' :: rest) = .ok ((some i, fields.names.zip vs), '}' :: rest) :=
      readWithTag_tag place (wholes (Nat.le_of_succ_le_succ deep)) h.length_eq apart enough rest
    unfold readTaggedObject
    rw [Reader.bind_ok loop]
    simp only
    rw [Reader.bind_ok (closeObject_brace rest), found]
    rfl
  · have named : tagOfValue variants (.text name) = .ok i := by
      show acceptName (variants.map Variant.name) name = _
      rw [acceptName, place]
    have taken : takeTag tag variants ((tag, .text name) :: fields.names.zip vs) none =
        .ok (some i, fields.names.zip vs) := by
      rw [takeTag, if_pos rfl]
      simp only [Option.isSome_none, Bool.false_eq_true, if_false, named]
      exact takeTag_members (some i) apart
    unfold tagged
    simp only [taken]
    exact found
  · obtain ⟨depth, rfl⟩ := Nat.exists_eq_add_one.mpr (Nat.zero_lt_of_lt deep)
    rw [text]
    exact takes_writeObject (tag :: fields.names) (congrArg (· + 1) h.length_eq)
      (.cons (takes_quoteText depth name) (wholes (Nat.le_of_succ_le_succ deep)))

end Tagged
end FrameFlow.Json
