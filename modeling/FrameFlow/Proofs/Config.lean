/-
# Which configurations are accepted

The check of a configuration goes through the stage names in order, with the names that it has
seen, and only then looks at the level. What it decides is said here without the order of the
check (`Config.Fine`), and what it refuses by what comes first: a fault of a stage name is one
after names without fault, and a fault of the level is one after stages without fault
(`Config.Refused`).

Key definitions: `Config.Fine`, `Config.NameFault`, `Config.Refused`.
Key theorems: `Config.check_eq_ok_iff`, `Config.check_eq_error_iff`.
-/
import FrameFlow.Config

namespace FrameFlow

/-! ### Names of levels -/

namespace Threshold

/-- The names that a level has in small letters. -/
def names : List String := ["off", "error", "warn", "info", "debug", "trace"]

/-- Texts that are the same in small letters. Letters outside of ASCII have no small ones here. -/
def SameLetters (s t : String) : Prop := s.toList.map Char.toLower = t.toList.map Char.toLower

/-- Whether a text is the name of a level, in any case of its letters. -/
def Named (s : String) : Prop := ∃ name ∈ names, SameLetters name s

theorem toNat_toLower (c : Char) :
    c.toLower.toNat = if 0x41 ≤ c.toNat ∧ c.toNat ≤ 0x5A then c.toNat + 0x20 else c.toNat := by
  unfold Char.toLower
  simp only [Char.toNat, ge_iff_le, UInt32.le_iff_toNat_le]
  split
  · next large =>
    have range : 0x41 ≤ c.val.toNat ∧ c.val.toNat ≤ 0x5A := large
    rw [if_pos range, UInt32.toNat_add]
    change (c.val.toNat + 0x20) % 2 ^ 32 = _
    omega
  · next other => exact (if_neg other).symm

theorem toNat_capital (c : Char) :
    (capital c).toNat = if 0x61 ≤ c.toNat ∧ c.toNat ≤ 0x7A then c.toNat - 0x20 else c.toNat := by
  have capitals : ∀ n < 26, (Char.ofNat (0x41 + n)).toNat = 0x41 + n := by decide
  unfold capital
  split
  · next small =>
    have found := capitals (c.toNat - 0x61) (by omega)
    rwa [show 0x41 + (c.toNat - 0x61) = c.toNat - 0x20 by omega] at found
  · rfl

theorem toLower_capital (c : Char) : (capital c).toLower = c.toLower := by
  apply Char.toNat_inj.mp
  rw [toNat_toLower, toNat_toLower, toNat_capital]
  grind

theorem capital_toLower (c : Char) : capital c.toLower = capital c := by
  apply Char.toNat_inj.mp
  rw [toNat_capital, toNat_capital, toNat_toLower]
  grind

theorem capital_eq_iff {c d : Char} : capital c = capital d ↔ c.toLower = d.toLower := by
  constructor
  · intro same
    rw [← toLower_capital c, same, toLower_capital]
  · intro same
    rw [← capital_toLower c, same, capital_toLower]

theorem map_capital_eq_iff {l m : List Char} :
    l.map capital = m.map capital ↔ l.map Char.toLower = m.map Char.toLower := by
  induction l generalizing m with
  | nil => cases m <;> simp
  | cons c l ih =>
    cases m with
    | nil => simp
    | cons d m => simp only [List.map_cons, List.cons.injEq, capital_eq_iff, ih]

/-- A threshold is found by the names of levels and by nothing else. -/
theorem ofName?_isSome_iff {s : String} : (ofName? s).isSome ↔ Named s := by
  have capitals : all.map (fun t => t.name.toList) = names.map (fun n => n.toList.map capital) := by
    decide
  have accepted : (ofName? s).isSome ↔ s.toList.map capital ∈ all.map fun t => t.name.toList := by
    rw [ofName?, List.find?_isSome, List.mem_map]
    simp only [beq_iff_eq]
  rw [accepted, capitals, List.mem_map]
  exact exists_congr fun n => and_congr_right fun _ => map_capital_eq_iff

end Threshold

namespace Config

/-! ### Stage names -/

/-- Names of stages without fault: none is empty, and none stands twice. -/
structure NamesFine (names : List String) : Prop where
  filled : "" ∉ names
  distinct : names.Nodup

/-- What is wrong with the name of a stage that comes after others. -/
inductive NameFault (before : List String) : String → Error → Prop
  | empty : NameFault before "" (.invalidConfig .emptyStageName)
  | repeated {name : String} (filled : name ≠ "") (again : name ∈ before) :
      NameFault before name (.duplicateStage name)

/-- Names without fault, also after others. -/
def FineAfter (seen names : List String) : Prop := NamesFine names ∧ ∀ n ∈ names, n ∉ seen

theorem NameFault.congr {before before' : List String} {name : String} {e : Error}
    (fault : NameFault before name e) (same : ∀ n, n ∈ before → n ∈ before') :
    NameFault before' name e := by
  cases fault with
  | empty => exact .empty
  | repeated filled again => exact .repeated filled (same name again)

theorem fineAfter_cons {seen names : List String} {n : String} :
    FineAfter seen (n :: names) ↔ n ≠ "" ∧ n ∉ seen ∧ FineAfter (n :: seen) names := by
  constructor
  · rintro ⟨⟨filled, distinct⟩, fresh⟩
    obtain ⟨new, distinct⟩ := List.nodup_cons.mp distinct
    rw [List.mem_cons, not_or] at filled
    refine ⟨Ne.symm filled.1, fresh n List.mem_cons_self, ⟨filled.2, distinct⟩, fun x hx => ?_⟩
    rw [List.mem_cons, not_or]
    refine ⟨?_, fresh x (List.mem_cons_of_mem _ hx)⟩
    rintro rfl
    exact new hx
  · rintro ⟨filled, unseen, ⟨fine, distinct⟩, fresh⟩
    refine ⟨⟨?_, List.nodup_cons.mpr ⟨fun hn => fresh n hn List.mem_cons_self, distinct⟩⟩, ?_⟩
    · rw [List.mem_cons, not_or]
      exact ⟨Ne.symm filled, fine⟩
    · intro x hx
      rcases List.mem_cons.mp hx with rfl | hx
      · exact unseen
      · exact fun hs => fresh x hx (List.mem_cons_of_mem _ hs)

theorem checkNames_eq_ok_iff {names seen : List String} :
    checkNames seen names = .ok () ↔ FineAfter seen names := by
  induction names generalizing seen with
  | nil => simp [checkNames, FineAfter, NamesFine.mk]
  | cons n names ih =>
    rw [fineAfter_cons]
    unfold checkNames
    split
    · next empty => simp [empty]
    · next filled =>
      split
      · next again => simp_all
      · next fresh => simp_all

theorem checkNames_eq_error_iff {names seen : List String} {e : Error} :
    checkNames seen names = .error e ↔ ∃ before n after,
      names = before ++ n :: after ∧ FineAfter seen before ∧ NameFault (before ++ seen) n e := by
  induction names generalizing seen with
  | nil => simp [checkNames]
  | cons n names ih =>
    have first : FineAfter seen [] := ⟨⟨List.not_mem_nil, .nil⟩, by simp⟩
    constructor
    · intro refused
      unfold checkNames at refused
      split at refused
      · next empty =>
        cases refused
        exact ⟨[], n, names, rfl, first, empty ▸ .empty⟩
      · next filled =>
        split at refused
        · next again =>
          cases refused
          exact ⟨[], n, names, rfl, first, .repeated filled (by simpa using again)⟩
        · next fresh =>
          obtain ⟨before, m, after, rfl, fine, fault⟩ := ih.mp refused
          exact ⟨n :: before, m, after, rfl,
            fineAfter_cons.mpr ⟨filled, by simpa using fresh, fine⟩,
            fault.congr fun _ => List.perm_middle.mem_iff.mp⟩
    · rintro ⟨before, m, after, split', fine, fault⟩
      unfold checkNames
      cases before with
      | nil =>
        obtain ⟨rfl, rfl⟩ := List.cons.inj split'
        cases fault with
        | empty => exact if_pos rfl
        | repeated filled again =>
          rw [if_neg filled, if_pos (by simpa using again)]
      | cons k before =>
        obtain ⟨rfl, rfl⟩ := List.cons.inj split'
        obtain ⟨filled, unseen, fine⟩ := fineAfter_cons.mp fine
        rw [if_neg filled, if_neg (by simpa using unseen)]
        exact ih.mpr ⟨before, m, after, rfl, fine,
          fault.congr fun _ => List.perm_middle.mem_iff.mpr⟩

/-! ### Configurations -/

/-- The names of the stages, in order. -/
def stageNames (c : Config) : List String := c.stages.map StageSpec.name

/-- A configuration without fault. -/
structure Fine (c : Config) : Prop where
  names : NamesFine c.stageNames
  level : ∀ name ∈ c.logLevel, Threshold.Named name

/-- What a configuration is refused for: the first stage with a fault, or else the level. -/
inductive Refused (c : Config) : Error → Prop
  | stage {before after : List StageSpec} {s : StageSpec} {e : Error}
      (split : c.stages = before ++ s :: after) (fine : NamesFine (before.map StageSpec.name))
      (fault : NameFault (before.map StageSpec.name) s.name e) : Refused c e
  | level {name : String} (fine : NamesFine c.stageNames) (some : c.logLevel = some name)
      (unnamed : ¬Threshold.Named name) : Refused c (.invalidConfig (.unknownLevel name))

variable {c : Config} {e : Error}

theorem fineAfter_nil {names : List String} : FineAfter [] names ↔ NamesFine names :=
  and_iff_left fun _ _ => List.not_mem_nil

theorem checkStages_eq_error_iff : checkNames [] c.stageNames = .error e ↔
    ∃ before s after, c.stages = before ++ s :: after ∧ NamesFine (before.map StageSpec.name) ∧
      NameFault (before.map StageSpec.name) s.name e := by
  rw [checkNames_eq_error_iff]
  constructor
  · rintro ⟨before, n, after, parts, fine, fault⟩
    obtain ⟨before, rest, split, rfl, tail⟩ := List.map_eq_append_iff.mp parts
    obtain ⟨s, after, rfl, rfl, rfl⟩ := List.map_eq_cons_iff.mp tail
    rw [List.append_nil] at fault
    exact ⟨before, s, after, split, fineAfter_nil.mp fine, fault⟩
  · rintro ⟨before, s, after, split, fine, fault⟩
    refine ⟨before.map StageSpec.name, s.name, after.map StageSpec.name, ?_,
      fineAfter_nil.mpr fine, ?_⟩
    · rw [stageNames, split, List.map_append, List.map_cons]
    · rw [List.append_nil]
      exact fault

theorem checkLevel_eq_ok_iff {level : Option String} :
    checkLevel level = .ok () ↔ ∀ name ∈ level, Threshold.Named name := by
  cases level with
  | none => simp [checkLevel]
  | some name => simp [checkLevel, Threshold.ofName?_isSome_iff]

theorem checkLevel_eq_error_iff {level : Option String} : checkLevel level = .error e ↔
    ∃ name, level = some name ∧ ¬Threshold.Named name ∧
      e = .invalidConfig (.unknownLevel name) := by
  cases level with
  | none => simp [checkLevel]
  | some name =>
    by_cases named : Threshold.Named name
    · rw [checkLevel, if_pos (Threshold.ofName?_isSome_iff.mpr named)]
      simp [named]
    · rw [checkLevel, if_neg (mt Threshold.ofName?_isSome_iff.mp named)]
      simp [named, eq_comm]

/-- Exactly what is without fault is accepted. -/
theorem check_eq_ok_iff : c.check = .ok () ↔ c.Fine := by
  have names : checkNames [] c.stageNames = .ok () ↔ NamesFine c.stageNames :=
    checkNames_eq_ok_iff.trans fineAfter_nil
  have level : checkLevel c.logLevel = .ok () ↔ _ := checkLevel_eq_ok_iff
  rw [show c.check = (checkNames [] c.stageNames >>= fun _ => checkLevel c.logLevel) from rfl]
  rcases checked : checkNames [] c.stageNames with e | ⟨⟩
  · rw [checked] at names
    exact iff_of_false (fun h => by cases h) fun fine => by cases names.mpr fine.names
  · exact level.trans ⟨fun h => ⟨names.mp checked, h⟩, Fine.level⟩

/-- The error is that of the first stage with a fault, and that of the level only if there is
none. -/
theorem check_eq_error_iff : c.check = .error e ↔ c.Refused e := by
  rw [show c.check = (checkNames [] c.stageNames >>= fun _ => checkLevel c.logLevel) from rfl]
  have stages : checkNames [] c.stageNames = .error e ↔ _ := checkStages_eq_error_iff
  rcases checked : checkNames [] c.stageNames with fault | ⟨⟩
  · have unfine : ¬NamesFine c.stageNames := by
      rw [← fineAfter_nil, ← checkNames_eq_ok_iff, checked]
      simp
    rw [checked] at stages
    refine stages.trans ⟨?_, fun refused => ?_⟩
    · rintro ⟨before, s, after, split, fine, fault⟩
      exact .stage split fine fault
    · cases refused with
      | stage split fine fault => exact ⟨_, _, _, split, fine, fault⟩
      | level fine => exact absurd fine unfine
  · have fine := fineAfter_nil.mp (checkNames_eq_ok_iff.mp checked)
    refine checkLevel_eq_error_iff.trans ⟨?_, fun refused => ?_⟩
    · rintro ⟨name, some, unnamed, rfl⟩
      exact .level fine some unnamed
    · cases refused with
      | stage split fine fault =>
        have first := stages.mpr ⟨_, _, _, split, fine, fault⟩
        rw [checked] at first
        cases first
      | level _ some unnamed => exact ⟨_, some, unnamed, rfl⟩

end Config
end FrameFlow
