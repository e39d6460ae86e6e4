/-
# What can be read

A property of whatever a reader reads (`Reader.Gives`) is handed on by the ways to put readers
together, and a property of whatever a format reads (`Format.Reads`) by the ways to build formats:
a record gives what its fields give, whether they are members, items or defaults. Tokens are where
it begins: a number is finite, and an integer has at most 64 bits (`Token.Sound`). So a 64-bit
number that is read into a frame is finite, and a 32-bit number is not a NaN; but narrowing may
have made it infinite.

Key definitions: `Reader.Gives`, `Value.Sound`, `Format.Reads`, `Fields.Gives`, `Number.Readable`.
Key theorems: `token_sound`, `Format.reads_record`, `Frame.readable_of_ofJson`.
-/
import FrameFlow.Proofs.Binary.Bounds
import FrameFlow.Proofs.Json.Frames
import FrameFlow.Proofs.Sorted

namespace FrameFlow.Json

variable {α β σ : Type} {P : α → Prop} {Q : β → Prop}

theorem bind_eq_ok {x : Except Fault α} {f : α → Except Fault β} {b : β} :
    (x >>= f) = .ok b ↔ ∃ a, x = .ok a ∧ f a = .ok b := by
  rcases x with e | a
  · exact ⟨nofun, by rintro ⟨_, same, -⟩; cases same⟩
  · exact ⟨fun h => ⟨a, rfl, h⟩, by rintro ⟨_, same, h⟩; cases same; exact h⟩

theorem map_eq_ok {x : Except Fault α} {f : α → β} {b : β} :
    f <$> x = .ok b ↔ ∃ a, x = .ok a ∧ f a = b := by
  rcases x with e | a
  · exact ⟨nofun, by rintro ⟨_, same, -⟩; cases same⟩
  · exact ⟨fun h => ⟨a, rfl, Except.ok.inj h⟩, by rintro ⟨_, same, rfl⟩; cases same; rfl⟩

/-! ### Readers -/

/-- Whatever a reader reads has a property. -/
def Reader.Gives (m : Reader α) (P : α → Prop) : Prop := ∀ ⦃s a r⦄, m s = .ok (a, r) → P a

namespace Reader

variable {m : Reader α}

theorem gives_any : m.Gives fun _ => True := fun _ _ _ _ => trivial

theorem gives_fail (e : Fault) : (fail e).Gives P := nofun

theorem gives_pure {a : α} (h : P a) : (pure a : Reader α).Gives P := by
  rintro s _ r ⟨⟩
  exact h

theorem gives_lift {e : Except Fault α} (h : ∀ a, e = .ok a → P a) : (lift e).Gives P := by
  intro s a r read
  rcases e with e | b
  · cases read
  · cases read
    exact h a rfl

theorem Gives.mono {P' : α → Prop} (h : m.Gives P) (weaker : ∀ a, P a → P' a) : m.Gives P' :=
  fun _ a _ read => weaker a (h read)

theorem bind_eq_ok_iff {f : α → Reader β} {s r : List Char} {b : β} :
    (m >>= f) s = .ok (b, r) ↔ ∃ a t, m s = .ok (a, t) ∧ f a t = .ok (b, r) := by
  rw [bind_apply, bind_eq_ok, Prod.exists]

theorem Gives.bind {f : α → Reader β} (first : m.Gives P) (second : ∀ a, P a → (f a).Gives Q) :
    (m >>= f).Gives Q := by
  intro s b r read
  obtain ⟨a, t, here, later⟩ := bind_eq_ok_iff.mp read
  exact second a (first here) later

theorem Gives.map {f : α → β} (h : m.Gives fun a => Q (f a)) : (f <$> m).Gives Q :=
  h.bind fun _ here => gives_pure here

end Reader

/-! ### Tokens and values -/

/-- A number is finite, and an integer has at most 64 bits. -/
def Token.Sound : Token → Prop
  | integer i => i.natAbs ≤ 2 ^ 64
  | number x => x.isFinite
  | _ => True

theorem realToken_sound {negative : Bool} {whole fraction : List Char} {exponent : Int} {t : Token}
    (h : realToken negative whole fraction exponent = .ok t) : t.Sound := by
  unfold realToken at h
  split at h
  · next x found =>
    cases h
    exact Double.isFinite_ofDigits? found
  · cases h

theorem wholeToken_sound {negative : Bool} {digits : List Char} {t : Token}
    (h : wholeToken negative digits = .ok t) : t.Sound := by
  unfold wholeToken at h
  simp only at h
  split at h
  · split at h
    · next fits =>
      cases h
      show (-(digitsValue digits : Int)).natAbs ≤ 2 ^ 64
      omega
    · exact realToken_sound h
  · split at h
    · next fits =>
      cases h
      show (digitsValue digits : Int).natAbs ≤ 2 ^ 64
      omega
    · exact realToken_sound h

theorem scaled_sound (negative : Bool) (whole fraction : List Char) :
    (scaled negative whole fraction).Gives Token.Sound := by
  intro s t r read
  unfold scaled at read
  split at read
  · obtain ⟨⟨e, rest⟩, -, read⟩ := bind_eq_ok.mp read
    obtain ⟨t', real, same⟩ := bind_eq_ok.mp read
    cases same
    exact realToken_sound real
  · obtain ⟨t', real, same⟩ := bind_eq_ok.mp read
    cases same
    exact realToken_sound real

theorem behindWhole_sound (negative : Bool) (whole : List Char) :
    (behindWhole negative whole).Gives Token.Sound := by
  intro s t r read
  unfold behindWhole at read
  split at read
  · obtain ⟨⟨fraction, rest⟩, -, read⟩ := bind_eq_ok.mp read
    exact scaled_sound negative whole fraction read
  · split at read
    · exact scaled_sound negative whole [] read
    · obtain ⟨t', integer, same⟩ := bind_eq_ok.mp read
      cases same
      exact wholeToken_sound integer

theorem number_sound (negative : Bool) : (number negative).Gives Token.Sound := by
  intro s t r read
  unfold number at read
  rcases s with _ | ⟨c, s⟩
  · cases read
  simp only at read
  split at read
  · rcases s with _ | ⟨d, s⟩
    · exact behindWhole_sound negative [c] read
    · simp only at read
      split at read
      · cases read
      · exact behindWhole_sound negative [c] read
  · split at read
    · exact behindWhole_sound negative _ read
    · cases read

theorem keyword_gives {a : α} (h : P a) : ∀ w : List Char, (keyword a w).Gives P
  | [], _, _, _, read => by
    cases read
    exact h
  | _ :: _, [], _, _, read => by cases read
  | x :: w, c :: s, b, r, read => by
    unfold keyword at read
    split at read
    · exact keyword_gives h w read
    · cases read

/-- What is scanned is sound. -/
theorem token_sound : token.Gives Token.Sound := by
  have word {t : Token} (h : t.Sound) (w : List Char) : (keyword t w).Gives Token.Sound :=
    keyword_gives h w
  intro s t r read
  unfold token at read
  simp only at read
  split at read
  · cases read
  split at read
  · exact word (t := .null) trivial _ read
  split at read
  · exact word (t := .boolean true) trivial _ read
  split at read
  · exact word (t := .boolean false) trivial _ read
  split at read
  · obtain ⟨⟨cs, rest⟩, -, same⟩ := bind_eq_ok.mp read
    cases same
    trivial
  split at read
  · cases read
    trivial
  split at read
  · cases read
    trivial
  split at read
  · exact number_sound true read
  split at read
  · exact number_sound false read
  · cases read

theorem gives_scalar {accept : Token → Except Fault α}
    (h : ∀ t a, t.Sound → accept t = .ok a → P a) : (scalar accept).Gives P :=
  token_sound.bind fun t sound => Reader.gives_lift fun a => h t a sound

/-- All numbers and integers in a value are sound. -/
inductive Value.Sound : Value → Prop
  | null : Sound .null
  | boolean (b : Bool) : Sound (.boolean b)
  | integer {i : Int} (small : i.natAbs ≤ 2 ^ 64) : Sound (.integer i)
  | number {x : Double} (finite : x.isFinite) : Sound (.number x)
  | text (s : String) : Sound (.text s)
  | list {vs : List Value} (each : ∀ v ∈ vs, Sound v) : Sound (.list vs)
  | object {ms : List (String × Value)} (each : ∀ m ∈ ms, Sound m.2) : Sound (.object ms)

theorem Value.Sound.token {v : Value} (h : v.Sound) : v.token.Sound := by
  cases h with
  | integer small => exact small
  | number finite => exact finite
  | _ => trivial

/-! ### Loops -/

theorem gives_withFuel {loop : Nat → Reader α} (h : ∀ fuel, (loop fuel).Gives P) :
    (withFuel loop).Gives P :=
  fun s _ _ read => h (s.length + 1) read

theorem gives_items {item : Reader α} (h : item.Gives P) :
    ∀ fuel first, (items item fuel first).Gives fun l => ∀ a ∈ l, P a
  | 0, _ => Reader.gives_fail _
  | fuel + 1, first => by
    refine Reader.gives_any.bind fun more _ => ?_
    split
    · refine h.bind fun a here => (gives_items h fuel false).bind fun l later => ?_
      exact Reader.gives_pure (List.forall_mem_cons.mpr ⟨here, later⟩)
    · exact Reader.gives_pure (List.forall_mem_nil _)

theorem gives_members {item : Reader α} (h : item.Gives P) :
    ∀ fuel first, (members item fuel first).Gives fun l => ∀ m ∈ l, P m.2
  | 0, _ => Reader.gives_fail _
  | fuel + 1, first => by
    refine Reader.gives_any.bind fun more _ => ?_
    split
    · refine Reader.gives_any.bind fun key _ => Reader.gives_any.bind fun _ _ => ?_
      refine h.bind fun a here => (gives_members h fuel false).bind fun l later => ?_
      exact Reader.gives_pure (List.forall_mem_cons.mpr ⟨here, later⟩)
    · exact Reader.gives_pure (List.forall_mem_nil _)

theorem valueOf_sound {inner : Option (Reader Value)} (h : ∀ m ∈ inner, m.Gives Value.Sound)
    {t : Token} (sound : t.Sound) : (valueOf inner t).Gives Value.Sound := by
  cases t with
  | null => exact Reader.gives_pure .null
  | boolean b => exact Reader.gives_pure (.boolean b)
  | integer i => exact Reader.gives_pure (.integer sound)
  | number x => exact Reader.gives_pure (.number sound)
  | text s => exact Reader.gives_pure (.text s)
  | list =>
    rcases inner with _ | item
    · exact Reader.gives_fail _
    intro s v r read
    obtain ⟨⟨vs, t⟩, loop, read⟩ := bind_eq_ok.mp read
    obtain ⟨⟨⟨⟩, u⟩, -, same⟩ := bind_eq_ok.mp read
    cases same
    exact .list (gives_withFuel (fun fuel => gives_items (h item rfl) fuel true) loop)
  | object =>
    rcases inner with _ | item
    · exact Reader.gives_fail _
    intro s v r read
    obtain ⟨⟨ms, t⟩, loop, read⟩ := bind_eq_ok.mp read
    obtain ⟨⟨⟨⟩, u⟩, -, same⟩ := bind_eq_ok.mp read
    cases same
    exact .object (gives_withFuel (fun fuel => gives_members (h item rfl) fuel true) loop)

/-- What is read whole is sound. -/
theorem value_sound : ∀ depth, (value depth).Gives Value.Sound
  | 0 => token_sound.bind fun _ sound => valueOf_sound (by simp) sound
  | depth + 1 => token_sound.bind fun _ sound =>
    valueOf_sound (by simpa using value_sound depth) sound

/-! ### Formats -/

/-- Whatever a format reads from a text has a property. -/
def Format.Reads (f : Format α) (P : α → Prop) : Prop := ∀ depth, (f.read depth).Gives P

/-- So has what it takes from a value that was read whole. -/
def Format.Takes (f : Format α) (P : α → Prop) : Prop :=
  ∀ ⦃v a⦄, v.Sound → f.ofValue v = .ok a → P a

namespace Format

variable {f : Format α}

theorem reads_all (h : ∀ a, P a) : f.Reads P := fun _ _ a _ _ => h a

theorem takes_all (h : ∀ a, P a) : f.Takes P := fun _ a _ _ => h a

theorem reads_any : f.Reads fun _ => True := reads_all fun _ => trivial

theorem Reads.parse (h : f.Reads P) {text : String} {a : α} (read : f.parse text = .ok a) :
    P a := by
  obtain ⟨⟨b, rest⟩, first, read⟩ := bind_eq_ok.mp read
  obtain ⟨⟨⟩, -, same⟩ := bind_eq_ok.mp read
  cases same
  exact h depthLimit first

theorem Reads.mono {P' : α → Prop} (h : f.Reads P) (weaker : ∀ a, P a → P' a) : f.Reads P' :=
  fun depth => (h depth).mono weaker

theorem Takes.mono {P' : α → Prop} (h : f.Takes P) (weaker : ∀ a, P a → P' a) : f.Takes P' :=
  fun _ a sound taken => weaker a (h sound taken)

theorem Reads.map {wrap : α → β} {unwrap : β → α} (h : f.Reads fun a => Q (wrap a)) :
    (f.map wrap unwrap).Reads Q :=
  fun depth => (h depth).map

theorem reads_scalar {write : α → List Char} {accept : Token → Except Fault α}
    (h : ∀ t a, t.Sound → accept t = .ok a → P a) : (scalar write accept).Reads P :=
  fun _ => gives_scalar h

theorem takes_scalar {write : α → List Char} {accept : Token → Except Fault α}
    (h : ∀ t a, t.Sound → accept t = .ok a → P a) : (scalar write accept).Takes P :=
  fun v a sound => h v.token a sound.token

theorem gives_refuse (expected : String) : (refuse expected : Reader α).Gives P :=
  gives_scalar fun _ _ _ => nofun

theorem gives_nested {inner : Nat → Reader α} (h : ∀ depth, (inner depth).Gives P) :
    ∀ depth, (nested depth inner).Gives P
  | 0 => Reader.gives_fail _
  | depth + 1 => h depth

theorem Reads.option (h : f.Reads P) : (Format.option f).Reads fun o => ∀ a ∈ o, P a := by
  intro depth s o r read
  unfold Format.option at read
  simp only at read
  split at read
  · exact keyword_gives (P := fun o => ∀ a ∈ o, P a) (a := none) (by simp) _ read
  · obtain ⟨⟨a, t⟩, first, same⟩ := bind_eq_ok.mp read
    cases same
    rintro b ⟨⟩
    exact h depth first

theorem Reads.list (h : f.Reads P) : (Format.list f).Reads fun l => ∀ a ∈ l, P a := by
  intro depth s l r read
  unfold Format.list at read
  simp only at read
  split at read
  · refine gives_nested (P := fun l => ∀ a ∈ l, P a) (fun depth s l r read => ?_) depth read
    obtain ⟨⟨l, t⟩, loop, read⟩ := bind_eq_ok.mp read
    obtain ⟨⟨⟨⟩, u⟩, -, same⟩ := bind_eq_ok.mp read
    cases same
    exact gives_withFuel (fun fuel => gives_items (h depth) fuel true) loop
  · exact gives_refuse (P := fun l => ∀ a ∈ l, P a) _ read

theorem Takes.mapM (h : f.Takes P) : ∀ {vs : List Value} {l : List α}, (∀ v ∈ vs, v.Sound) →
    vs.mapM f.ofValue = .ok l → ∀ a ∈ l, P a
  | [], l, _, taken => by
    cases taken
    exact List.forall_mem_nil _
  | v :: vs, l, sound, taken => by
    rw [List.mapM_cons] at taken
    obtain ⟨a, here, taken⟩ := bind_eq_ok.mp taken
    obtain ⟨as, later, same⟩ := bind_eq_ok.mp taken
    cases same
    obtain ⟨first, others⟩ := List.forall_mem_cons.mp sound
    exact List.forall_mem_cons.mpr ⟨h first here, Takes.mapM h others later⟩

theorem Takes.list (h : f.Takes P) : (Format.list f).Takes fun l => ∀ a ∈ l, P a := by
  intro v l sound taken
  cases sound with
  | list each => exact h.mapM each taken
  | _ => cases taken

end Format

/-! ### Records -/

/-- The fields read so far stay in order, and the record that they make up has a property. -/
structure Fields.Keeps (fields : Fields σ α) (Q : σ → Prop) (P : α → Prop) : Prop where
  nothing : Q fields.nothing
  readAt : ∀ {i depth read}, Q read → (fields.readAt i depth read).Gives Q
  finish : ∀ {read a}, Q read → fields.finish read = .ok a → P a
  readItems : ∀ expected depth seen, (fields.readItems expected depth seen).Gives P

/-- Whatever fields are read, the record that they make up has a property. -/
def Fields.Gives (fields : Fields σ α) (P : α → Prop) : Prop := ∃ Q, fields.Keeps Q P

namespace Fields

variable {fields : Fields σ α}

theorem Gives.nil : Fields.nil.Gives fun _ => True :=
  ⟨fun _ => True, trivial, fun _ => Reader.gives_any, fun _ _ => trivial,
    fun _ _ _ => Reader.gives_any⟩

/-- A record with one more field has what the field gives, or its default, and the others. -/
theorem Gives.cons {name : String} {missing : Missing β} {f : Format β} (here : f.Reads Q)
    (inObject : ∀ b ∈ missing.inObject, Q b) (inList : ∀ b ∈ missing.inList, Q b)
    (others : fields.Gives P) :
    (Fields.cons name missing f fields).Gives fun r => Q r.1 ∧ P r.2 := by
  obtain ⟨K, keeps⟩ := others
  refine ⟨fun read => (∀ b ∈ read.1, Q b) ∧ K read.2, ⟨by simp [Fields.cons], keeps.nothing⟩,
    ?_, ?_, ?_⟩
  · rintro (_ | i) depth ⟨b, read⟩ ⟨first, later⟩
    · refine (here depth).bind fun b good => Reader.gives_pure ⟨?_, later⟩
      rintro _ ⟨⟩
      exact good
    · exact (keeps.readAt later).bind fun _ good => Reader.gives_pure ⟨first, good⟩
  · rintro ⟨b, read⟩ ⟨b', a⟩ ⟨first, later⟩ finish
    unfold Fields.cons at finish
    simp only at finish
    -- a field that is there was read, or its default was taken
    split at finish
    · next c found =>
      obtain ⟨_, chosen, finish⟩ := bind_eq_ok.mp finish
      obtain ⟨d, finished, same⟩ := bind_eq_ok.mp finish
      cases chosen
      cases same
      refine ⟨?_, keeps.finish later finished⟩
      rcases Option.or_eq_some_iff.mp found with set | ⟨-, default⟩
      · exact first _ set
      · exact inObject _ default
    · cases finish
  · intro expected depth seen
    have rest {b : β} (good : Q b) : (do
        let a ← fields.readItems expected depth (seen + 1)
        return (b, a) : Reader (β × α)).Gives fun r => Q r.1 ∧ P r.2 :=
      (keeps.readItems expected depth (seen + 1)).bind fun a good' =>
        Reader.gives_pure ⟨good, good'⟩
    unfold Fields.cons
    simp only
    refine Reader.gives_any.bind fun more _ => ?_
    split
    · exact (here depth).bind fun b good => rest good
    · split
      · next b default =>
        exact (Reader.gives_pure (inList b default)).bind fun b good => rest good
      · exact (Reader.gives_fail (P := Q) _).bind fun b good => rest good

/-- A field that has to be there. -/
theorem Gives.needed {name : String} {f : Format β} (here : f.Reads Q) (others : fields.Gives P) :
    (Fields.cons name .refused f fields).Gives fun r => Q r.1 ∧ P r.2 :=
  others.cons here nofun nofun

/-- A field that has a default. -/
theorem Gives.defaulted {name : String} {f : Format β} {b : β} (good : Q b) (here : f.Reads Q)
    (others : fields.Gives P) :
    (Fields.cons name (.default b) f fields).Gives fun r => Q r.1 ∧ P r.2 :=
  others.cons here (fun _ same => Option.some.inj same ▸ good)
    fun _ same => Option.some.inj same ▸ good

theorem Keeps.readMembers {K : σ → Prop} (keeps : fields.Keeps K P) (depth : Nat) :
    ∀ fuel first {read}, K read → (fields.readMembers depth fuel first read).Gives K
  | 0, _, _, _ => Reader.gives_fail _
  | fuel + 1, first, read, good => by
    refine Reader.gives_any.bind fun more _ => ?_
    split
    · refine Reader.gives_any.bind fun key _ => ?_
      split
      · split
        · exact Reader.gives_fail _
        · refine Reader.gives_any.bind fun _ _ => (keeps.readAt good).bind fun read' good' => ?_
          exact keeps.readMembers depth fuel false good'
      · refine Reader.gives_any.bind fun _ _ => Reader.gives_any.bind fun _ _ => ?_
        exact keeps.readMembers depth fuel false good
    · exact Reader.gives_pure good

end Fields

theorem Format.reads_record {title : String} {fields : Fields σ α} (h : fields.Gives P) :
    (record title fields).Reads P := by
  obtain ⟨K, keeps⟩ := h
  intro depth s a r read
  unfold record at read
  simp only at read
  split at read
  · refine gives_nested (P := P) (fun depth => ?_) depth read
    exact (keeps.readItems _ _ _).bind fun _ good =>
      Reader.gives_any.bind fun _ _ => Reader.gives_pure good
  · refine gives_nested (P := P) (fun depth => ?_) depth read
    have loop := gives_withFuel fun fuel => keeps.readMembers depth fuel true keeps.nothing
    refine loop.bind fun filled good => ?_
    refine (Reader.gives_lift fun _ => keeps.finish good).bind fun _ good => ?_
    exact Reader.gives_any.bind fun _ _ => Reader.gives_pure good
  · exact gives_refuse (P := P) _ read

/-! ### Tagged variants -/

/-- Whatever is read as a variant has a property, also where its payload was read before. -/
structure Case.Gives (c : Case α) (P : α → Prop) : Prop where
  read : ∀ depth, (c.read depth).Gives P
  ofValue : ∀ {v a}, v.Sound → c.ofValue v = .ok a → P a
  bare : ∀ a ∈ c.bare, P a

theorem Case.gives_payload {name : String} {f : Format β} {make : β → α}
    (reads : f.Reads fun b => P (make b)) (takes : f.Takes fun b => P (make b)) :
    (payload name f make).Gives P where
  read depth := (reads depth).map
  ofValue {v a} sound taken := by
    obtain ⟨b, here, rfl⟩ := map_eq_ok.mp taken
    exact takes sound here
  bare := nofun

theorem Case.gives_plain {name title : String} {a : α} (h : P a) :
    (plain name title a).Gives P where
  read _ := gives_scalar fun t b _ accepted => by
    cases t <;> cases accepted
    exact h
  ofValue {v b} _ taken := by
    rcases t : v.token <;> simp only [plain, t] at taken <;> cases taken
    exact h
  bare := by
    rintro _ ⟨⟩
    exact h

section Adjacent

variable {title : String} {keys : TagKeys} {cases : List (Case α)}

theorem gives_caseAt (h : ∀ c ∈ cases, c.Gives P) (i : Nat) :
    (Reader.lift (caseAt cases i)).Gives fun c => c.Gives P := by
  refine Reader.gives_lift fun c found => ?_
  unfold caseAt at found
  split at found
  · next there =>
    cases found
    exact h c (List.mem_of_getElem? there)
  · cases found

theorem gives_readPair (h : ∀ c ∈ cases, c.Gives P) (depth : Nat) :
    (readPair title cases depth).Gives P := by
  refine Reader.gives_any.bind fun more _ => ?_
  split
  · have tag : (readCaseItem cases).Gives fun c => c.Gives P :=
      Reader.gives_any.bind fun i _ => gives_caseAt h i
    refine tag.bind fun c good => Reader.gives_any.bind fun more _ => ?_
    split
    · exact (good.read depth).bind fun _ here =>
        Reader.gives_any.bind fun _ _ => Reader.gives_pure here
    · exact Reader.gives_fail _
  · exact Reader.gives_fail _

theorem gives_readTagged (h : ∀ c ∈ cases, c.Gives P) (depth : Nat) :
    (readTagged keys cases depth).Gives P := by
  have tag : (readCase cases depth).Gives fun c => c.Gives P :=
    Reader.gives_any.bind fun i _ => gives_caseAt h i
  have closed {a : α} (here : P a) : (do
      closeObject
      return a : Reader α).Gives P :=
    Reader.gives_any.bind fun _ _ => Reader.gives_pure here
  have refused (e : Fault) : (do
      let a ← Reader.fail e
      closeObject
      return a : Reader α).Gives P :=
    (Reader.gives_fail e).bind fun _ => closed
  unfold readTagged
  refine Reader.gives_any.bind fun first _ => ?_
  split
  · exact refused _
  · refine Reader.gives_any.bind fun _ _ => tag.bind fun c good => ?_
    refine Reader.gives_any.bind fun second _ => ?_
    split
    · refine (Reader.gives_lift fun a bare => ?_).bind fun _ => closed
      unfold bareCase at bare
      split at bare
      · next there =>
        cases bare
        exact good.bare a there
      · cases bare
    · exact refused _
    · refine Reader.gives_any.bind fun _ _ => (good.read depth).bind fun _ here => ?_
      exact Reader.gives_any.bind fun _ _ => (Reader.gives_pure here).bind fun _ => closed
  · -- a payload before its tag is read whole, so it is sound when the case takes it
    refine Reader.gives_any.bind fun _ _ => (value_sound depth).bind fun v sound => ?_
    refine Reader.gives_any.bind fun second _ => ?_
    split
    · exact refused _
    · exact refused _
    · refine Reader.gives_any.bind fun _ _ => tag.bind fun c good => ?_
      refine (Reader.gives_lift fun _ => good.ofValue sound).bind fun _ here => ?_
      exact Reader.gives_any.bind fun _ _ => (Reader.gives_pure here).bind fun _ => closed

theorem Format.reads_adjacent {write : α → String × Option (List Char)}
    (h : ∀ c ∈ cases, c.Gives P) : (adjacent title keys cases write).Reads P := by
  intro depth s a r read
  unfold adjacent at read
  simp only at read
  split at read
  · exact gives_nested (P := P) (gives_readPair h) depth read
  · exact gives_nested (P := P) (gives_readTagged h) depth read
  · exact gives_refuse (P := P) _ read

end Adjacent
end FrameFlow.Json

namespace FrameFlow

open Json

/-! ### The numbers in a frame that was read -/

/-- What a number can be that was read: a 64-bit number is finite, a 32-bit number is one. -/
def Number.Readable : Number → Prop
  | single x => x.isNaN = false
  | double x => x.isFinite

theorem Binary.isNaN_of_isFinite {f : Layout} {x : Binary f} (finite : x.isFinite) :
    x.isNaN = false := by
  unfold isFinite at finite
  unfold isNaN
  simp only [decide_eq_true_eq, decide_eq_false_iff_not] at finite ⊢
  omega

theorem accept_single {t : Token} {x : Single} (sound : t.Sound)
    (accepted : acceptSingle t = .ok x) : (Number.single x).Readable := by
  cases t with
  | integer i =>
    cases accepted
    exact Binary.isNaN_clamp _ _
  | number y =>
    cases accepted
    exact Binary.isNaN_convert (Binary.isNaN_of_isFinite sound)
  | _ => cases accepted

theorem accept_double {t : Token} {x : Double} (sound : t.Sound)
    (accepted : acceptDouble t = .ok x) : (Number.double x).Readable := by
  cases t with
  | integer i =>
    cases accepted
    exact Double.isFinite_ofInt sound
  | number y =>
    cases accepted
    exact sound
  | _ => cases accepted

theorem reads_single : Format.single.Reads fun x => (Number.single x).Readable :=
  Format.reads_scalar fun _ _ => accept_single

theorem reads_double : Format.double.Reads fun x => (Number.double x).Readable :=
  Format.reads_scalar fun _ _ => accept_double

theorem takes_double : Format.double.Takes fun x => (Number.double x).Readable :=
  Format.takes_scalar fun _ _ => accept_double

/-- All numbers of something are such as can be read. -/
def AllReadable (numbers : List Number) : Prop := ∀ x ∈ numbers, x.Readable

theorem reads_confidence :
    (Format.option .single).Reads fun c => AllReadable (c.toList.map .single) :=
  reads_single.option.mono fun _ h =>
    List.forall_mem_map.mpr fun x hx => h x (Option.mem_toList.mp hx)

theorem Box.reads : Box.format.Reads fun b => AllReadable b.numbers := by
  have zero : (Number.single .zero).Readable := Binary.isNaN_clamp _ _
  refine .map (.mono (Format.reads_record (.needed reads_single <| .needed reads_single <|
    .needed reads_single <| .needed reads_single <| .defaulted zero reads_single <|
    .defaulted trivial Format.reads_any .nil)) ?_)
  rintro ⟨xc, yc, width, height, angle, oriented, ⟨⟩⟩ ⟨h₁, h₂, h₃, h₄, h₅, -⟩
  simp [AllReadable, numbers, h₁, h₂, h₃, h₄, h₅]

theorem Track.reads : Track.format.Reads fun t => AllReadable t.numbers :=
  .map (.mono (Format.reads_record (.needed Box.reads <| .needed Format.reads_any .nil))
    fun _ h => h.1)

theorem Datum.reads : Datum.format.Reads fun d => AllReadable d.numbers := by
  have bare {d : Datum} (h : d.numbers = []) : AllReadable d.numbers := by
    rw [h]
    exact List.forall_mem_nil _
  have plain {β : Type} (name : String) (f : Format β) (make : β → Datum)
      (h : ∀ b, (make b).numbers = []) :
      (Case.payload name f make).Gives fun d => AllReadable d.numbers :=
    Case.gives_payload (Format.reads_all fun b => bare (h b)) (Format.takes_all fun b => bare (h b))
  have one (x : Double) (h : (Number.double x).Readable) : AllReadable (float x).numbers :=
    List.forall_mem_singleton.mpr h
  have all (xs : List Double) (h : ∀ x ∈ xs, (Number.double x).Readable) :
      AllReadable (vector xs).numbers :=
    List.forall_mem_map.mpr h
  refine Format.reads_adjacent fun c hc => ?_
  simp only [cases, List.mem_cons, List.not_mem_nil, or_false] at hc
  obtain rfl | rfl | rfl | rfl | rfl | rfl := hc
  · exact Case.gives_plain (bare rfl)
  · exact plain _ _ _ fun _ => rfl
  · exact plain _ _ _ fun _ => rfl
  · exact Case.gives_payload (reads_double.mono one) (takes_double.mono one)
  · exact Case.gives_payload (reads_double.list.mono all) (takes_double.list.mono all)
  · exact plain _ _ _ fun _ => rfl

theorem Reading.reads : Reading.format.Reads fun r => AllReadable r.numbers :=
  .map (.mono (Format.reads_record (.defaulted (List.forall_mem_nil _) reads_confidence <|
    .needed Datum.reads .nil)) fun _ h => List.forall_mem_append.mpr ⟨h.1, h.2.1⟩)

theorem Attribute.reads : Attribute.format.Reads fun a => AllReadable a.numbers :=
  .map (.mono (Format.reads_record (.needed Format.reads_any <| .needed Format.reads_any <|
    .defaulted (List.forall_mem_nil _) Reading.reads.list <| .defaulted trivial Format.reads_any <|
    .defaulted trivial Format.reads_any .nil)) fun _ h => List.forall_mem_flatMap.mpr h.2.2.1)

theorem AttributeTable.reads : AttributeTable.format.Reads fun t => AllReadable t.numbers := by
  refine .map (Attribute.reads.list.mono fun l h => List.forall_mem_flatMap.mpr fun a ha => ?_)
  exact h a (SortedBy.mem_of_mem_ofList ha)

theorem Detection.reads : Detection.format.Reads fun d => AllReadable d.numbers := by
  have track : (Format.option Track.format).Reads fun t =>
      AllReadable (t.toList.flatMap Track.numbers) :=
    Track.reads.option.mono fun _ h =>
      List.forall_mem_flatMap.mpr fun t ht => h t (Option.mem_toList.mp ht)
  refine .map (.mono (Format.reads_record (.needed Format.reads_any <| .needed Format.reads_any <|
    .needed Format.reads_any <| .defaulted trivial Format.reads_any <|
    .defaulted (List.forall_mem_nil _) reads_confidence <| .needed Box.reads <|
    .defaulted (List.forall_mem_nil _) track <|
    .defaulted (List.forall_mem_nil _) AttributeTable.reads .nil)) ?_)
  rintro ⟨id, scope, label, drawLabel, confidence, box, track, attributes, ⟨⟩⟩
    ⟨-, -, -, -, h₁, h₂, h₃, h₄, -⟩
  simp only [AllReadable, numbers, List.forall_mem_append]
  exact ⟨⟨⟨h₁, h₂⟩, h₃⟩, h₄⟩

theorem Frame.reads : Frame.format.Reads fun f => AllReadable f.numbers := by
  refine .map (.mono (Format.reads_record (.needed Format.reads_any <|
    .defaulted trivial Format.reads_any <| .defaulted trivial Format.reads_any <|
    .defaulted trivial Format.reads_any <|
    .defaulted (List.forall_mem_nil _) Detection.reads.list <|
    .defaulted (List.forall_mem_nil _) AttributeTable.reads .nil)) ?_)
  rintro ⟨source, pts, width, height, detections, attributes, ⟨⟩⟩ ⟨-, -, -, -, h₁, h₂, -⟩
  exact List.forall_mem_append.mpr ⟨List.forall_mem_flatMap.mpr h₁, h₂⟩

/-- A frame that was read has no NaN in it, and all its 64-bit numbers are finite. -/
theorem Frame.readable_of_ofJson {text : String} {f : Frame} (read : Frame.ofJson text = .ok f) :
    ∀ x ∈ f.numbers, x.Readable :=
  Frame.reads.parse read

end FrameFlow
