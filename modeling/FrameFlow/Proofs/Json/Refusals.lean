/-
# What a format writes is read back or refused

Some values of a type are written as a text that the format itself does not read: a 32-bit number
that is infinite is written as a missing value. A reader refuses such a piece
(`Reader.Refuses`) when it stops with a fault, whatever closes the piece. A format tells good
values from others (`Format.Tells`) when it is faithful to those that are good and refuses what it
writes for those that are not. The ways to build formats hand this on: a list or a record is good
when all of its parts are, and where one is not, the parts before it are read and reading stops
there.

Key definitions: `Reader.Refuses`, `Format.Tells`, `Fields.Tells`.
Key theorems: `Format.Tells.list`, `Fields.Tells.cons`, `Format.Tells.parse_render`.
-/
import FrameFlow.Proofs.Json.Records

namespace FrameFlow.Json

variable {α β σ : Type}

/-! ### Refusing a piece -/

/-- A reader stops on a piece with a fault, whatever closes it. -/
structure Reader.Refuses (m : Reader α) (piece : List Char) : Prop where
  begins : Begins piece
  stops : ∀ ⦃rest⦄, Closes rest → ∃ e, m (piece ++ rest) = .error e

theorem Reader.Refuses.bind {m : Reader α} {piece : List Char} (h : m.Refuses piece)
    (f : α → Reader β) : (m >>= f).Refuses piece :=
  ⟨h.begins, fun _ closes => (h.stops closes).imp fun _ stop => Reader.bind_error stop f⟩

/-- What a format writes for a value is read back if the value is good, and refused if it is not,
where at least so many levels may be opened. -/
structure Format.Tells (f : Format α) (levels : Nat) (good : Prop) (a : α) : Prop where
  faithful : good → f.Faithful levels a
  refuses : ¬good → ∀ {depth}, levels ≤ depth → (f.read depth).Refuses (f.write a)

namespace Format

variable {f : Format α} {levels : Nat} {good : Prop} {a : α}

theorem Faithful.tells (h : f.Faithful levels a) : f.Tells levels True a :=
  ⟨fun _ => h, fun bad => absurd trivial bad⟩

namespace Tells

theorem begins (h : f.Tells levels good a) : Begins (f.write a) := by
  by_cases g : good
  · exact (h.faithful g).begins
  · exact (h.refuses g (Nat.le_refl _)).begins

theorem mono {more : Nat} (h : f.Tells levels good a) (enough : levels ≤ more) :
    f.Tells more good a :=
  ⟨fun g => (h.faithful g).mono enough, fun bad _ deep => h.refuses bad (Nat.le_trans enough deep)⟩

/-- Goodness may be put in other words. -/
theorem congr {good' : Prop} (h : f.Tells levels good a) (same : good ↔ good') :
    f.Tells levels good' a :=
  ⟨fun g => h.faithful (same.mpr g), fun bad => h.refuses fun g => bad (same.mp g)⟩

/-- A text that is rendered from a value is parsed as that value or not at all. -/
theorem parse_render (h : f.Tells levels good a) (enough : levels ≤ depthLimit) :
    (good → f.parse (f.render a) = .ok a) ∧ (¬good → ∃ e, f.parse (f.render a) = .error e) := by
  refine ⟨fun g => (h.faithful g).parse_render enough, fun bad => ?_⟩
  obtain ⟨e, stop⟩ := (h.refuses bad enough).stops closes_nil
  rw [List.append_nil] at stop
  refine ⟨e, ?_⟩
  unfold parse render
  rw [String.toList_ofList, stop]
  rfl

/-- Another type in disguise. -/
theorem map {wrap : α → β} {unwrap : β → α} {b : β} (h : f.Tells levels good (unwrap b))
    (same : wrap (unwrap b) = b) : (f.map wrap unwrap).Tells levels good b :=
  ⟨fun g => (h.faithful g).map same, fun bad _ deep => (h.refuses bad deep).bind _⟩

end Tells

/-! ### Numbers and options -/

/-- A 32-bit number that is not finite is written as a missing value, which no number is. -/
theorem tells_single {x : Single}
    (readsBack : x.isFinite → single.parse (single.render x) = .ok x) :
    single.Tells levels x.isFinite x := by
  refine ⟨fun finite => faithful_single finite (readsBack finite), fun infinite depth _ => ?_⟩
  have written : single.write x = nullText := if_neg infinite
  rw [written]
  refine ⟨⟨'n', _, rfl, rfl, by decide⟩, fun rest _ => ⟨.wrongType .null "f32", ?_⟩⟩
  show Json.scalar acceptSingle (nullText ++ rest) = _
  unfold Json.scalar
  rw [Reader.bind_ok (token_nullText rest)]
  rfl

theorem Tells.option {o : Option α} {good : α → Prop}
    (each : ∀ a ∈ o, f.Tells levels (good a) a ∧ (f.write a).head? ≠ some 'n') :
    (Format.option f).Tells levels (∀ a ∈ o, good a) o := by
  refine ⟨fun g => faithful_option fun a ha => ⟨(each a ha).1.faithful (g a ha), (each a ha).2⟩,
    fun bad depth deep => ?_⟩
  rcases o with _ | a
  · exact absurd nofun bad
  obtain ⟨h, there⟩ := each a rfl
  have refused : (f.read depth).Refuses (f.write a) :=
    h.refuses (fun g => bad fun _ same => Option.some.inj same ▸ g) deep
  refine ⟨h.begins, fun rest closes => ?_⟩
  obtain ⟨e, stop⟩ := (refused.bind fun a => pure (some a)).stops closes
  exact ⟨e, (read_option h.begins there depth rest).trans stop⟩

end Format

/-! ### Lists -/

/-- Some pieces are taken, and the one behind them is refused. -/
inductive Reader.Stops (m : Reader α) : List (List Char) → Prop
  | here {p : List Char} {ps : List (List Char)} (refuses : m.Refuses p) : Stops m (p :: ps)
  | later {p : List Char} {ps : List (List Char)} {a : α} (takes : m.Takes p a)
      (others : Stops m ps) : Stops m (p :: ps)

/-- A list is not read beyond an item that is refused. -/
theorem items_stops {item : Reader α} {ps : List (List Char)} (h : item.Stops ps)
    (rest : List Char) : ∀ fuel first,
      ∃ e, items item fuel first (Format.following first ps ++ ']' :: rest) = .error e := by
  have closes (ps : List (List Char)) : Closes (Format.following false ps ++ ']' :: rest) :=
    Format.closes_following ps (closes_cons (.inr (.inl rfl)))
  -- a loop that is out of fuel stops too, so no fuel has to be left over
  induction h with
  | @here p ps refuses =>
    rintro (_ | fuel) first
    · exact ⟨_, rfl⟩
    obtain ⟨e, stop⟩ := refuses.stops (closes ps)
    refine ⟨e, ?_⟩
    rw [items_piece refuses.begins, Reader.bind_error stop]
  | @later p ps a takes _ ih =>
    rintro (_ | fuel) first
    · exact ⟨_, rfl⟩
    obtain ⟨e, stop⟩ := ih fuel false
    refine ⟨e, ?_⟩
    rw [items_piece takes.begins, Reader.bind_ok (takes.reads (closes ps)), Reader.bind_error stop]

namespace Format

variable {f : Format α} {levels depth : Nat} {good : α → Prop}

/-- Of items that are told, the first that is not good is refused. -/
theorem stops_of_tells : ∀ {l : List α}, (∀ a ∈ l, f.Tells levels (good a) a) →
    (¬∀ a ∈ l, good a) → levels ≤ depth → (f.read depth).Stops (l.map f.write)
  | [], _, bad, _ => absurd (List.forall_mem_nil _) bad
  | a :: l, each, bad, deep => by
    obtain ⟨first, others⟩ := List.forall_mem_cons.mp each
    by_cases g : good a
    · have rest : ¬∀ b ∈ l, good b := fun all => bad (List.forall_mem_cons.mpr ⟨g, all⟩)
      exact .later ((first.faithful g).reads deep) (stops_of_tells others rest deep)
    · exact .here (first.refuses g deep)

/-- A list is good when all its items are. -/
theorem Tells.list {l : List α} (each : ∀ a ∈ l, f.Tells levels (good a) a) :
    (Format.list f).Tells (levels + 1) (∀ a ∈ l, good a) l := by
  refine ⟨fun g => faithful_list fun a ha => (each a ha).faithful (g a ha),
    fun bad depth deep => ?_⟩
  obtain ⟨depth, rfl⟩ := Nat.exists_eq_add_one.mpr (Nat.zero_lt_of_lt deep)
  refine ⟨⟨'[', _, rfl, rfl, by decide⟩, fun rest _ => ?_⟩
  have stops := stops_of_tells each bad (Nat.le_of_succ_le_succ deep)
  obtain ⟨e, stop⟩ := items_stops stops rest
    ((following true (l.map f.write) ++ ']' :: rest).length + 1) true
  refine ⟨e, ?_⟩
  rw [read_list, withFuel, stop]
  rfl

end Format

/-! ### Records -/

namespace Fields

/-- Some fields are read from the written values, and the value of the one behind them is
refused. -/
inductive Stops (fields : Fields σ α) (levels : Nat) : List String → σ → List (List Char) → Prop
  | here {name : String} {names : List String} {read : σ} {p : List Char} {ps : List (List Char)}
      {i : Nat} (place : fields.names.idxOf? name = some i) (fresh : fields.has i read = false)
      (refuses : ∀ {depth}, levels ≤ depth → (fields.readAt i depth read).Refuses p) :
      Stops fields levels (name :: names) read (p :: ps)
  | later {name : String} {names : List String} {read read' : σ} {p : List Char}
      {ps : List (List Char)} {i : Nat} (place : fields.names.idxOf? name = some i)
      (fresh : fields.has i read = false)
      (reads : ∀ {depth}, levels ≤ depth → (fields.readAt i depth read).Takes p read')
      (others : Stops fields levels names read' ps) :
      Stops fields levels (name :: names) read (p :: ps)

/-- The written values of a record fill its fields if the record is good, and one of them is refused
if it is not. -/
structure Tells (fields : Fields σ α) (levels : Nat) (good : Prop) (a : α) : Prop where
  faithful : good → fields.Faithful levels a
  stops : ¬good → fields.Stops levels fields.names fields.nothing (fields.write a)

variable {fields : Fields σ α} {levels : Nat} {names : List String} {read : σ}
  {ps : List (List Char)}

/-- An object is not read beyond a member that is refused. -/
theorem Stops.readMembers (h : fields.Stops levels names read ps) {depth : Nat}
    (deep : levels ≤ depth) (rest : List Char) : ∀ fuel first, ∃ e,
      fields.readMembers depth fuel first read
        (Format.following first (names.zipWith writeMember ps) ++ '}' :: rest) = .error e := by
  induction h with
  | @here name names read p ps i place fresh refuses =>
    rintro (_ | fuel) first
    · exact ⟨_, rfl⟩
    obtain ⟨e, stop⟩ := (refuses deep).stops (closes_members (names.zipWith writeMember ps) rest)
    exact ⟨e, by rw [readMembers_member place fresh, Reader.bind_error stop]⟩
  | @later name names read read' p ps i place fresh reads _ ih =>
    rintro (_ | fuel) first
    · exact ⟨_, rfl⟩
    obtain ⟨e, stop⟩ := ih fuel false
    refine ⟨e, ?_⟩
    rw [readMembers_member place fresh, Reader.bind_ok ((reads deep).reads (closes_members _ rest)),
      stop]

/-- A record stops as before when one more field is put before the others. -/
theorem Stops.behind (h : fields.Stops levels names read ps) {name : String} (missing : Missing β)
    (f : Format β) (b : β) (new : name ∉ names) :
    (cons name missing f fields).Stops levels names (some b, read) ps := by
  induction h with
  | here place fresh refuses =>
    have different := (List.ne_and_not_mem_of_not_mem_cons new).1
    exact .here (idxOf?_behind place different) fresh fun deep => (refuses deep).bind _
  | later place fresh reads _ ih =>
    obtain ⟨different, later⟩ := List.ne_and_not_mem_of_not_mem_cons new
    exact .later (idxOf?_behind place different) fresh (fun deep => (reads deep).map (some b, ·))
      (ih later)

theorem tells_nil : nil.Tells levels True () :=
  ⟨fun _ => faithful_nil, fun bad => absurd trivial bad⟩

/-- A record with one more field is good when the field and the others are. -/
theorem Tells.cons {name : String} {missing : Missing β} {f : Format β} {b : β} {a : α}
    {good good' : Prop} (new : name ∉ fields.names) (here : f.Tells levels good b)
    (others : fields.Tells levels good' a) :
    (Fields.cons name missing f fields).Tells levels (good ∧ good') (b, a) := by
  refine ⟨fun g => .cons new (here.faithful g.1) (others.faithful g.2), fun bad => ?_⟩
  have first : (Fields.cons name missing f fields).names.idxOf? name = some 0 := by
    simp [Fields.cons, List.idxOf?_cons]
  by_cases g : good
  · have rest := others.stops fun g' => bad ⟨g, g'⟩
    exact .later first rfl (fun deep => ((here.faithful g).reads deep).map (some ·, fields.nothing))
      (rest.behind missing f b new)
  · exact .here first rfl fun deep => (here.refuses g deep).bind _

end Fields

/-- A record is good when all its fields are. -/
theorem Format.tells_record {title : String} {fields : Fields σ α} {levels : Nat} {good : Prop}
    {a : α} (h : fields.Tells levels good a) : (record title fields).Tells (levels + 1) good a := by
  refine ⟨fun g => faithful_record (h.faithful g), fun bad depth deep => ?_⟩
  obtain ⟨depth, rfl⟩ := Nat.exists_eq_add_one.mpr (Nat.zero_lt_of_lt deep)
  refine ⟨begins_writeObject _, fun rest _ => ?_⟩
  obtain ⟨e, stop⟩ := (h.stops bad).readMembers (Nat.le_of_succ_le_succ deep) rest
    ((following true (fields.writeMembers a) ++ '}' :: rest).length + 1) true
  have loop : withFuel (fields.readMembers depth · true fields.nothing)
      (following true (fields.writeMembers a) ++ '}' :: rest) = .error e := stop
  refine ⟨e, ?_⟩
  rw [read_record]
  unfold Fields.readObject
  rw [Reader.bind_error loop]

/-- The same of a type whose values hold the fields of a record. -/
theorem Format.tells_wrapped {title : String} {fields : Fields σ α} {levels : Nat} {good : Prop}
    {wrap : α → β} {unwrap : β → α} {b : β} (h : fields.Tells levels good (unwrap b))
    (same : wrap (unwrap b) = b) :
    ((record title fields).map wrap unwrap).Tells (levels + 1) good b :=
  (tells_record h).map same

end FrameFlow.Json
