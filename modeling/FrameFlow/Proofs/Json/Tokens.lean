/-
# Written scalars are read back

A scalar is written as a text between quotes, as a keyword, or as digits. What is
written is read back as one token, and reading stops where it ends, if a comma, a
closing bracket or nothing follows (`Closes`). A number is not looked into: its reader
takes a piece off the front, and takes the same piece whatever closes it
(`Reader.Local`), so that a number which is read back alone is read back anywhere.

Key definitions: `Closes`, `Reader.Local`, `isNumeric`.
Key theorems: `token_quoteText`, `token_integerText`, `token_numeric`.
-/
import FrameFlow.Json.Format

namespace FrameFlow.Json

/-! ### Readers in sequence -/

namespace Reader

variable {α β : Type} {m : Reader α} {s r : List Char} {a : α}

theorem bind_apply (m : Reader α) (f : α → Reader β) (s : List Char) :
    (m >>= f) s = (m s >>= fun x => f x.1 x.2) := by
  simp only [bind]
  cases m s <;> rfl

theorem lift_apply (e : Except Fault α) (s : List Char) :
    Reader.lift e s = (e >>= fun a => pure (a, s)) := by
  cases e <;> rfl

theorem bind_ok (h : m s = .ok (a, r)) (f : α → Reader β) : (m >>= f) s = f a r := by
  rw [bind_apply, h]
  rfl

theorem bind_error {e : Fault} (h : m s = .error e) (f : α → Reader β) :
    (m >>= f) s = .error e := by
  rw [bind_apply, h]
  rfl

theorem map_ok (h : m s = .ok (a, r)) (f : α → β) : (f <$> m) s = .ok (f a, r) :=
  bind_ok h _

end Reader

/-! ### What follows a value -/

/-- The end of a text, or a character that ends a value. -/
def Closes (rest : List Char) : Prop := ∀ c ∈ rest.head?, c = ',' ∨ c = ']' ∨ c = '}'

theorem closes_nil : Closes [] := by simp [Closes]

theorem closes_cons {c : Char} {rest : List Char} (h : c = ',' ∨ c = ']' ∨ c = '}') :
    Closes (c :: rest) := by
  simpa [Closes] using h

/-- No number goes on there. -/
theorem Closes.not_number {c : Char} {rest : List Char} (h : Closes (c :: rest)) :
    c.isDigit = false ∧ c ≠ '.' ∧ c ≠ 'e' ∧ c ≠ 'E' := by
  rcases h c rfl with rfl | rfl | rfl <;> decide

theorem Closes.not_exponent {rest : List Char} (h : Closes rest) : hasExponent rest = false := by
  rcases rest with _ | ⟨c, rest⟩
  · rfl
  · obtain ⟨-, -, lower, upper⟩ := h.not_number
    simp [hasExponent, lower, upper]

theorem skipBlanks_cons {c : Char} (h : isBlank c = false) (s : List Char) :
    skipBlanks (c :: s) = c :: s := by
  simp [skipBlanks, h]

/-! ### Texts -/

/-- A character of a control code is written by its two hexadecimal digits. -/
theorem hexFour?_digitChar : ∀ n < 0x20,
    hexFour? '0' '0' (Nat.digitChar (n / 16)) (Nat.digitChar (n % 16)) = some n := by
  decide

theorem textBody_escapeChar (c : Char) (s : List Char) :
    textBody (escapeChar c ++ s) = prepend c (textBody s) := by
  unfold escapeChar
  split
  · next e => subst e; rfl
  split
  · next e => subst e; rfl
  split
  · next e => subst e; rfl
  split
  · next e => subst e; rfl
  split
  · next e => subst e; rfl
  split
  · next e => subst e; rfl
  split
  · next e => subst e; rfl
  split
  · next small =>
    have digits := hexFour?_digitChar c.toNat small
    have low : isLowSurrogate c.toNat = false := by simp [isLowSurrogate]; omega
    have high : isHighSurrogate c.toNat = false := by simp [isHighSurrogate]; omega
    simp [textBody, plainEscape?, digits, low, high, Char.ofNat_toNat]
  · next quote backslash _ _ _ _ _ large =>
    rw [List.singleton_append, textBody.eq_def]
    simp only [quote, backslash, large, if_false]

/-- What is written for some characters is read back up to the closing quote. -/
theorem textBody_escaped (rest : List Char) : ∀ cs : List Char,
    textBody (cs.flatMap escapeChar ++ '"' :: rest) = .ok (cs, rest)
  | [] => by
    rw [List.flatMap_nil, List.nil_append, textBody.eq_def]
    rfl
  | c :: cs => by
    rw [List.flatMap_cons, List.append_assoc, textBody_escapeChar, textBody_escaped rest cs]
    rfl

theorem token_quoteText (t : String) (rest : List Char) :
    token (quoteText t ++ rest) = .ok (.text t, rest) := by
  have body := textBody_escaped rest t.toList
  simp only [quoteText, List.cons_append, List.append_assoc, List.nil_append] at body ⊢
  unfold token
  rw [skipBlanks_cons (by decide)]
  simp [body, bind, Except.bind, pure, Except.pure]

/-- A key is read back up to what follows its closing quote. -/
theorem memberKey_quoteText (name : String) (rest : List Char) :
    memberKey (quoteText name ++ rest) = .ok (name, rest) := by
  have body := textBody_escaped rest name.toList
  simp only [quoteText, List.cons_append, List.append_assoc, List.nil_append] at body ⊢
  simp [memberKey, body, bind, Except.bind, pure, Except.pure]

/-! ### Keywords -/

theorem token_nullText (rest : List Char) : token (nullText ++ rest) = .ok (.null, rest) := rfl

theorem token_bool (b : Bool) (rest : List Char) :
    token (Format.bool.write b ++ rest) = .ok (.boolean b, rest) := by
  cases b <;> rfl

/-! ### Integers -/

/-- All digits that a text begins with are read, if a character follows that is none. -/
theorem spanDigits_digits {rest : List Char} (closes : Closes rest) : ∀ {ds : List Char},
    (∀ d ∈ ds, d.isDigit) → spanDigits (ds ++ rest) = (ds, rest)
  | [], _ => by
    rcases rest with _ | ⟨c, rest⟩
    · rfl
    · simp [spanDigits, closes.not_number.1]
  | d :: ds, digits => by
    have here := digits d List.mem_cons_self
    have later : spanDigits (ds ++ rest) = (ds, rest) :=
      spanDigits_digits closes fun x hx => digits x (List.mem_cons_of_mem _ hx)
    simp [spanDigits, here, later]

theorem isDigit_of_mem_decimalDigits {n : Nat} : ∀ d ∈ decimalDigits n, d.isDigit :=
  fun _ => Nat.isDigit_of_mem_toDigits (by decide) (by decide)

theorem digitsValue_decimalDigits (n : Nat) : digitsValue (decimalDigits n) = n := by
  have value := Nat.ofDigitChars_ten_toDigits (n := n)
  unfold Nat.ofDigitChars at value
  simpa only [digitsValue, digitValue, decimalDigits, Nat.mul_comm] using value

/-- Only zero begins with a zero. -/
theorem head?_decimalDigits {n : Nat} (h : (decimalDigits n).head? = some '0') : n = 0 := by
  induction n using Nat.strongRecOn with
  | ind n ih =>
    rw [decimalDigits, Nat.toDigits_eq_if (by decide)] at h
    split at h
    · next small => simpa using h
    · next large =>
      obtain ⟨d, ds, e⟩ := List.exists_cons_of_ne_nil (Nat.toDigits_ne_nil (n := n / 10) (b := 10))
      rw [e] at h
      have := ih (n / 10) (by omega) (by rw [decimalDigits, e]; exact h)
      omega

theorem behindWhole_closes {rest : List Char} (closes : Closes rest) (negative : Bool)
    (whole : List Char) :
    behindWhole negative whole rest = Reader.lift (wholeToken negative whole) rest := by
  rw [Reader.lift_apply]
  unfold behindWhole
  split
  · exact absurd rfl closes.not_number.2.1
  · simp only [closes.not_exponent, Bool.false_eq_true, if_false]

/-- The digits of a number are read back as a whole number. -/
theorem number_decimalDigits {rest : List Char} (closes : Closes rest) (negative : Bool) (n : Nat) :
    number negative (decimalDigits n ++ rest) =
      Reader.lift (wholeToken negative (decimalDigits n)) rest := by
  have digits := isDigit_of_mem_decimalDigits (n := n)
  have read := spanDigits_digits closes digits
  have behind := behindWhole_closes closes negative (decimalDigits n)
  obtain ⟨d, ds, e⟩ : ∃ d ds, decimalDigits n = d :: ds :=
    List.exists_cons_of_ne_nil Nat.toDigits_ne_nil
  rw [e] at digits read behind ⊢
  unfold number
  simp only [List.cons_append] at read ⊢
  by_cases zero : d = '0'
  · -- a leading zero stands alone
    have none : n = 0 := head?_decimalDigits (by rw [e, zero]; rfl)
    rw [none, decimalDigits, Nat.toDigits_zero] at e
    cases e
    rw [if_pos rfl, List.nil_append]
    rcases rest with _ | ⟨c, rest⟩
    · exact behind
    · simp only [closes.not_number.1, Bool.false_eq_true, if_false]
      exact behind
  · have here : d.isDigit = true := digits d List.mem_cons_self
    rw [if_neg zero, if_pos here, read]
    exact behind

theorem token_digit {d : Char} (digit : d.isDigit) (s : List Char) :
    token (d :: s) = number false (d :: s) := by
  have other : ∀ c : Char, c.isDigit = false → d ≠ c := by
    rintro c no rfl
    rw [no] at digit
    cases digit
  have solid : isBlank d = false := by
    simp [isBlank, other]
  unfold token
  rw [skipBlanks_cons solid]
  simp [other, digit]

/-- An integer that 64 bits hold is read back. -/
theorem token_integerText {i : Int} (low : -0x8000000000000000 ≤ i) (high : i < 0x10000000000000000)
    {rest : List Char} (closes : Closes rest) :
    token (integerText i ++ rest) = .ok (.integer i, rest) := by
  unfold integerText
  split
  · next negative =>
    have fits : i.natAbs ≠ 0 ∧ i.natAbs ≤ 0x8000000000000000 := by omega
    have value : -(i.natAbs : Int) = i := by omega
    show number true (decimalDigits i.natAbs ++ rest) = _
    rw [number_decimalDigits closes, wholeToken, digitsValue_decimalDigits]
    simp only [if_true, if_pos fits, value]
    rfl
  · next positive =>
    have fits : i.natAbs < 0x10000000000000000 := by omega
    have value : (i.natAbs : Int) = i := by omega
    have begins : token (decimalDigits i.natAbs ++ rest) =
        number false (decimalDigits i.natAbs ++ rest) := by
      have digits := isDigit_of_mem_decimalDigits (n := i.natAbs)
      obtain ⟨d, ds, e⟩ : ∃ d ds, decimalDigits i.natAbs = d :: ds :=
        List.exists_cons_of_ne_nil Nat.toDigits_ne_nil
      rw [e] at digits ⊢
      exact token_digit (digits d List.mem_cons_self) (ds ++ rest)
    rw [begins, number_decimalDigits closes, wholeToken, digitsValue_decimalDigits]
    simp only [Bool.false_eq_true, if_false, if_pos fits, value]
    rfl

/-! ### Numbers -/

/-- A reader that takes a piece off the front of a text, and takes the same piece where something
that closes a value is put behind the text. -/
def Reader.Local {α : Type} (m : Reader α) : Prop := ∀ ⦃s a r⦄, m s = .ok (a, r) →
  (∃ piece, s = piece ++ r) ∧ ∀ ⦃rest⦄, Closes rest → m (s ++ rest) = .ok (a, r ++ rest)

theorem spanDigits_append {rest : List Char} (closes : Closes rest) : ∀ s : List Char,
    spanDigits (s ++ rest) = ((spanDigits s).1, (spanDigits s).2 ++ rest) ∧
      (spanDigits s).1 ++ (spanDigits s).2 = s
  | [] => ⟨spanDigits_digits closes (List.forall_mem_nil _), rfl⟩
  | c :: s => by
    obtain ⟨same, whole⟩ := spanDigits_append closes s
    unfold spanDigits
    by_cases digit : c.isDigit
    · simp [digit, same, whole]
    · simp [digit]

theorem local_someDigits : someDigits.Local := by
  intro s ds r h
  unfold someDigits at h ⊢
  obtain ⟨-, whole⟩ := spanDigits_append closes_nil s
  simp only at h
  split at h
  · cases h
  · next some =>
    cases h
    refine ⟨⟨_, whole.symm⟩, fun rest closes => ?_⟩
    simp only [(spanDigits_append closes s).1, if_neg some]

theorem Reader.Local.bind {α β : Type} {m : Reader α} {f : α → Reader β} (first : m.Local)
    (second : ∀ a, (f a).Local) : (m >>= f).Local := by
  intro s b r h
  rcases e : m s with fault | ⟨a, t⟩
  · rw [Reader.bind_error e] at h
    cases h
  · rw [Reader.bind_ok e] at h
    obtain ⟨⟨p, whole⟩, same⟩ := first e
    obtain ⟨⟨q, rfl⟩, later⟩ := second a h
    refine ⟨⟨p ++ q, by rw [whole, List.append_assoc]⟩, fun rest closes => ?_⟩
    rw [Reader.bind_ok (same closes), later closes]

theorem Reader.local_lift {α : Type} (e : Except Fault α) : (Reader.lift e).Local := by
  intro s a r h
  rcases e with e | a
  · cases h
  · cases h
    exact ⟨⟨[], rfl⟩, fun _ _ => rfl⟩

/-- A local reader behind a character that it does not see. -/
theorem Reader.Local.behind {α : Type} {m : Reader α} (here : m.Local) {c : Char} {s r : List Char}
    {a : α} (h : m s = .ok (a, r)) :
    (∃ piece, c :: s = piece ++ r) ∧ ∀ ⦃rest⦄, Closes rest → m (s ++ rest) = .ok (a, r ++ rest) :=
  ⟨(here h).1.imp' (c :: ·) fun _ e => by rw [e]; rfl, (here h).2⟩

/-- An exponent is some digits, behind a sign if there is one. -/
theorem exponent_cons (c : Char) (s : List Char) : exponent (c :: s) =
    if c = '-' then (someDigits >>= fun ds => Reader.lift (.ok (-(digitsValue ds : Int)))) s
    else if c = '+' then (someDigits >>= fun ds => Reader.lift (.ok (digitsValue ds : Int))) s
    else (someDigits >>= fun ds => Reader.lift (.ok (digitsValue ds : Int))) (c :: s) := by
  simp only [Reader.bind_apply]
  split
  · next minus => rw [minus]; rfl
  split
  · next plus => rw [plus]; rfl
  · next minus plus =>
    unfold exponent
    split
    · next e => cases e; exact absurd rfl minus
    · next e => cases e; exact absurd rfl plus
    · rfl

theorem local_exponent : exponent.Local := by
  have signed (f : List Char → Int) :=
    local_someDigits.bind fun ds => Reader.local_lift (.ok (f ds))
  intro s i r h
  rcases s with _ | ⟨c, s⟩
  · cases h
  simp only [List.cons_append, exponent_cons] at h ⊢
  by_cases minus : c = '-'
  · simp only [if_pos minus] at h ⊢
    exact (signed _).behind h
  by_cases plus : c = '+'
  · simp only [if_neg minus, if_pos plus] at h ⊢
    exact (signed _).behind h
  · simp only [if_neg minus, if_neg plus] at h ⊢
    exact signed _ h

theorem scaled_cons (negative : Bool) (whole fraction : List Char) (c : Char) (s : List Char) :
    scaled negative whole fraction (c :: s) =
      if c = 'e' ∨ c = 'E' then
        (exponent >>= fun e => Reader.lift (realToken negative whole fraction e)) s
      else Reader.lift (realToken negative whole fraction 0) (c :: s) := by
  simp only [Reader.bind_apply, Reader.lift_apply]
  unfold scaled
  simp only [hasExponent, Bool.or_eq_true, beq_iff_eq, List.drop_one, List.tail_cons]

theorem scaled_closes {rest : List Char} (closes : Closes rest) (negative : Bool)
    (whole fraction : List Char) : scaled negative whole fraction rest =
      Reader.lift (realToken negative whole fraction 0) rest := by
  rw [Reader.lift_apply]
  unfold scaled
  simp only [closes.not_exponent, Bool.false_eq_true, if_false]

theorem local_scaled (negative : Bool) (whole fraction : List Char) :
    (scaled negative whole fraction).Local := by
  have plain := Reader.local_lift (realToken negative whole fraction 0)
  intro s t r h
  rcases s with _ | ⟨c, s⟩
  · rw [scaled_closes closes_nil] at h
    refine ⟨(plain h).1, fun rest closes => ?_⟩
    rw [List.nil_append, scaled_closes closes]
    exact (plain h).2 closes
  simp only [List.cons_append, scaled_cons] at h ⊢
  by_cases exponent : c = 'e' ∨ c = 'E'
  · simp only [if_pos exponent] at h ⊢
    exact (local_exponent.bind fun e => Reader.local_lift _).behind h
  · simp only [if_neg exponent] at h ⊢
    exact plain h

theorem behindWhole_cons (negative : Bool) (whole : List Char) (c : Char) (s : List Char) :
    behindWhole negative whole (c :: s) =
      if c = '.' then (someDigits >>= scaled negative whole) s
      else if c = 'e' ∨ c = 'E' then scaled negative whole [] (c :: s)
      else Reader.lift (wholeToken negative whole) (c :: s) := by
  simp only [Reader.bind_apply, Reader.lift_apply]
  split
  · next point => rw [point]; rfl
  · next point =>
    unfold behindWhole
    split
    · next e => cases e; exact absurd rfl point
    · simp only [hasExponent, Bool.or_eq_true, beq_iff_eq]

theorem local_behindWhole (negative : Bool) (whole : List Char) :
    (behindWhole negative whole).Local := by
  have plain := Reader.local_lift (wholeToken negative whole)
  intro s t r h
  rcases s with _ | ⟨c, s⟩
  · rw [behindWhole_closes closes_nil] at h
    refine ⟨(plain h).1, fun rest closes => ?_⟩
    rw [List.nil_append, behindWhole_closes closes]
    exact (plain h).2 closes
  simp only [List.cons_append, behindWhole_cons] at h ⊢
  by_cases point : c = '.'
  · simp only [if_pos point] at h ⊢
    exact (local_someDigits.bind fun fraction => local_scaled _ _ _).behind h
  by_cases exponent : c = 'e' ∨ c = 'E'
  · simp only [if_neg point, if_pos exponent] at h ⊢
    exact local_scaled _ _ _ h
  · simp only [if_neg point, if_neg exponent] at h ⊢
    exact plain h

theorem local_number (negative : Bool) : (number negative).Local := by
  intro s t r h
  rcases s with _ | ⟨c, s⟩
  · cases h
  unfold number at h ⊢
  simp only [List.cons_append] at h ⊢
  by_cases zero : c = '0'
  · simp only [if_pos zero] at h ⊢
    have behind := local_behindWhole negative [c]
    rcases s with _ | ⟨d, s⟩
    · obtain ⟨begins, goesOn⟩ := behind.behind (c := c) h
      refine ⟨begins, fun rest closes => ?_⟩
      rw [← goesOn closes]
      rcases rest with _ | ⟨d, rest⟩
      · rfl
      · simp [closes.not_number.1]
    · by_cases digit : d.isDigit
      · simp only [if_pos digit] at h
        cases h
      · simp only [if_neg digit, List.cons_append] at h ⊢
        exact behind.behind h
  by_cases digit : c.isDigit
  · simp only [if_neg zero, if_pos digit] at h ⊢
    obtain ⟨⟨piece, whole⟩, goesOn⟩ := local_behindWhole negative _ h
    have digits := (spanDigits_append closes_nil (c :: s)).2
    refine ⟨⟨_, by rw [← digits, whole, ← List.append_assoc]⟩, fun rest closes => ?_⟩
    have same := (spanDigits_append closes (c :: s)).1
    rw [List.cons_append] at same
    rw [same]
    exact goesOn closes
  · simp only [if_neg zero, if_neg digit] at h
    cases h

/-! ### Texts of numbers -/

/-- The characters that numbers are written with. -/
def isNumeric (c : Char) : Bool := c.isDigit || c == '-' || c == '.' || c == 'e' || c == '+'

theorem isBlank_of_isNumeric {c : Char} (h : isNumeric c) : isBlank c = false := by
  rw [Bool.eq_false_iff]
  intro blank
  simp only [isBlank, Bool.or_eq_true, beq_iff_eq] at blank
  rcases blank with ((rfl | rfl) | rfl) | rfl <;> cases h

/-- What begins like a number is a number or no value. -/
theorem token_of_isNumeric {c : Char} (h : isNumeric c) (s : List Char) :
    token (c :: s) = if c = '-' then number true s
      else if c.isDigit then number false (c :: s) else .error .expectedValue := by
  have other : ∀ d : Char, isNumeric d = false → c ≠ d := by
    rintro d no rfl
    rw [no] at h
    cases h
  unfold token
  rw [skipBlanks_cons (isBlank_of_isNumeric h)]
  simp only [other 'n' rfl, other 't' rfl, other 'f' rfl, other '"' rfl, other '[' rfl,
    other '{' rfl, if_false]

/-- Numbers are read the same whatever closes them. -/
theorem token_numeric {s r : List Char} {t : Token} (numeric : ∀ c ∈ s, isNumeric c)
    (h : token s = .ok (t, r)) :
    (∃ piece, s = piece ++ r) ∧ ∀ ⦃rest⦄, Closes rest → token (s ++ rest) = .ok (t, r ++ rest) := by
  rcases s with _ | ⟨c, s⟩
  · cases h
  simp only [List.cons_append, token_of_isNumeric (numeric c List.mem_cons_self)] at h ⊢
  by_cases minus : c = '-'
  · simp only [if_pos minus] at h ⊢
    exact (local_number true).behind h
  by_cases digit : c.isDigit
  · simp only [if_neg minus, if_pos digit] at h ⊢
    exact local_number false h
  · simp only [if_neg minus, if_neg digit] at h
    cases h

/-- A number that is a whole text is read wherever something closes it. -/
theorem token_append {s r : List Char} {t : Token} (numeric : ∀ c ∈ s, isNumeric c)
    (h : token s = .ok (t, r)) (done : skipBlanks r = []) {rest : List Char}
    (closes : Closes rest) : token (s ++ rest) = .ok (t, rest) := by
  obtain ⟨⟨piece, whole⟩, goesOn⟩ := token_numeric numeric h
  rcases r with _ | ⟨c, r⟩
  · exact goesOn closes
  · have solid := isBlank_of_isNumeric (numeric c (by simp [whole]))
    rw [skipBlanks_cons solid] at done
    cases done

theorem isNumeric_decimalDigits (n : Nat) : (decimalDigits n).all isNumeric :=
  List.all_eq_true.mpr fun c h => by simp [isNumeric, isDigit_of_mem_decimalDigits c h]

theorem isNumeric_pointed (places : Nat) {digits : List Char} (numeric : digits.all isNumeric) :
    (DecimalStyle.pointed places digits).all isNumeric := by
  have point : isNumeric '.' = true := rfl
  have zero : isNumeric '0' = true := rfl
  unfold DecimalStyle.pointed
  split
  · simp [numeric, point, zero]
  · have halves := numeric
    rw [← List.take_append_drop places digits, List.all_append, Bool.and_eq_true] at halves
    rw [List.all_append, List.all_cons, halves.1, halves.2, point]
    rfl

theorem isNumeric_text (style : DecimalStyle) (d : Decimal) : (style.text d).all isNumeric := by
  have digits := isNumeric_decimalDigits d.coefficient
  have point : isNumeric '.' = true := rfl
  have zero : isNumeric '0' = true := rfl
  unfold DecimalStyle.text
  simp only
  split
  · rfl
  split
  · split
    · simp [digits, point, zero]
    · exact isNumeric_pointed _ digits
  · have sign : isNumeric (if d.leading < 0 then '-' else '+') = true := by
      split <;> rfl
    have letter : isNumeric 'e' = true := rfl
    rw [List.all_append, List.all_cons, List.all_cons, sign, letter, isNumeric_decimalDigits]
    rcases e : decimalDigits d.coefficient with _ | ⟨c, _ | ⟨c', r⟩⟩ <;>
      simp_all

/-- All characters of a written number are such. -/
theorem isNumeric_finiteText {f : Layout} (style : DecimalStyle) (x : Binary f) :
    (x.finiteText style).all isNumeric := by
  have sign : (if x.negative then ['-'] else []).all isNumeric := by
    split <;> rfl
  rw [Binary.finiteText, List.all_append, sign, isNumeric_text]
  rfl

end FrameFlow.Json
