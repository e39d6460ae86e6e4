/-
# What a move does

A move is asked for a list of identifiers, in which unknown, packed, repeated and
already present ones may stand side by side, or for all that is in the stage before.
It looks at every identifier before it takes any of them out of its stage, and the
first one that something speaks against (`Pipeline.objection?`) is what it is refused
for. If there is none, the known ones are in the destination afterwards, and that is
all that has changed (`Pipeline.Moved`). So only the set of identifiers counts, and a
move that is repeated changes nothing.

Key definitions: `Pipeline.asked`, `Pipeline.objection?`, `Pipeline.Moved`,
`Pipeline.MovesAsAsked`.
Key theorems: `Pipeline.planMove_eq`, `Pipeline.Moved.unique`,
`Pipeline.moves_as_asked`.
-/
import FrameFlow.Proofs.Pipeline.Agreement
import FrameFlow.Proofs.Pipeline.RoundTrip
import FrameFlow.Proofs.Pipeline.Strangers

namespace FrameFlow
namespace Pipeline

/-! ### What is asked -/

/-- The identifiers that a move is about: those that are listed, or all in the stage before its
destination where none is. -/
def asked (p : Pipeline) (stage : String) (ids : List Int) : List Int :=
  if ids = [] then
    match p.indexOf? stage with
    | some (before + 1) => ((p.stageNames[before]?).bind p.stageIds?).getD []
    | _ => []
  else ids

/-- What speaks against moving an identifier to a stage. -/
def objection? (p : Pipeline) (dest : Stage) (id : Int) : Option Error :=
  match p.locate id with
  | none => match p.missingIds with
    | .abort => some (.unknownId id)
    | .skip => none
  | some (.batch _) => some (.notIndependent id)
  | some (.stage _ payload) =>
    if payload = dest.payload then none
    else some (.payloadMismatch dest.name dest.payload payload)

/-- The known ones of some identifiers, each once. -/
def knownOf (p : Pipeline) (ids : List Int) : List Int :=
  (ids.filter fun id => (p.locate id).isSome).dedup

/-- The pipeline `q` is `p` with some identifiers moved to the stage at an index. -/
structure Moved (p : Pipeline) (dest : Nat) (ids : List Int) (q : Pipeline) : Prop where
  rest : Reseated p q
  places : ∀ x, q.places.get? x = if x ∈ ids then some (.stage dest) else p.places.get? x
  residents : ∀ i x, q.Holds i x ↔ if x ∈ ids then i = dest else p.Holds i x

variable {p q : Pipeline}

/-- An identifier may be moved when it stands in a stage that holds what the destination holds, or
is unknown and to be left out. -/
theorem objection?_eq_none_iff {dest : Stage} {id : Int} : p.objection? dest id = none ↔
    (∃ stage, p.locate id = some (.stage stage dest.payload)) ∨
      p.locate id = none ∧ p.missingIds = .skip := by
  unfold objection?
  rcases p.locate id with _ | ⟨stage, payload⟩ | k
  · rcases p.missingIds with _ | _ <;> simp
  · by_cases fits : payload = dest.payload <;> simp [fits]
  · simp

theorem mem_knownOf {ids : List Int} {x : Int} :
    x ∈ p.knownOf ids ↔ x ∈ ids ∧ (p.locate x).isSome := by
  rw [knownOf, List.mem_dedup, List.mem_filter]

/-- Only the set of identifiers counts. -/
theorem Moved.congr {dest : Nat} {ids ids' : List Int} (m : p.Moved dest ids q)
    (same : ∀ x, x ∈ ids' ↔ x ∈ ids) : p.Moved dest ids' q where
  rest := m.rest
  places x := (m.places x).trans (if_congr (same x).symm rfl rfl)
  residents i x := by rw [m.residents, if_congr (same x) rfl rfl]

/-- What is moved the same is the same. -/
theorem Moved.unique {dest : Nat} {ids : List Int} {q' : Pipeline} (m : p.Moved dest ids q)
    (m' : p.Moved dest ids q') : q = q' := by
  refine ext_views ⟨?_, ?_⟩ ?_ (fun i x => ?_) (fun x => ?_) (fun x => ?_) (fun x => ?_) ?_ ?_
  · rw [m.rest.name, m'.rest.name]
  · rw [m.rest.missingIds, m'.rest.missingIds]
  · rw [m.rest.shape, m'.rest.shape]
  · rw [m.residents, m'.residents]
  · rw [m.rest.frames, m'.rest.frames]
  · rw [m.rest.batches, m'.rest.batches]
  · rw [m.places, m'.places]
  · rw [m.rest.lastId, m'.rest.lastId]
  · rw [m.rest.queue, m'.rest.queue]

/-- What is in a stage already is moved there by doing nothing. -/
theorem Moved.again {dest : Nat} {ids : List Int} (m : p.Moved dest ids q) :
    q.Moved dest ids q where
  rest := .refl q
  places x := by
    rw [m.places]
    split <;> rfl
  residents i x := by
    rw [m.residents]
    split <;> rfl

section Plans

variable (h : p.Consistent)
include h

theorem Consistent.locate_eq_none_iff {x : Int} : p.locate x = none ↔ p.places.get? x = none := by
  rw [← Option.not_isSome_iff_eq_none, ← Option.not_isSome_iff_eq_none, h.locate_isSome_iff,
    h.known_iff]
  exact Iff.rfl

theorem Consistent.mem_knownOf_iff {ids : List Int} {x : Int} :
    x ∈ p.knownOf ids ↔ x ∈ ids ∧ (p.places.get? x).isSome := by
  rw [mem_knownOf, Option.isSome_iff_ne_none, Option.isSome_iff_ne_none, Ne, h.locate_eq_none_iff]

/-- What is asked of a move is what it goes through. -/
theorem asked_eq_requested {stage : String} {i : Nat} {s : Stage}
    (found : p.destination stage = .ok (i, s)) (ids : List Int) :
    p.asked stage ids = p.requested i ids := by
  unfold asked requested
  rw [(destination_eq_ok_iff.mp found).1]
  by_cases none : ids = []
  · rw [if_pos none, none]
    rcases i with _ | before
    · rfl
    simp only [List.isEmpty_nil, if_true]
    -- a stage is found by its name
    rcases there : p.stages[before]? with _ | t
    · simp [stageNames, there]
    · have named := h.stage?_eq_some_iff.mpr ⟨List.mem_of_getElem? there, rfl⟩
      simp [stageNames, there, stageIds?, named]
  · have listed : ids.isEmpty = false := by simpa using none
    rw [if_neg none, listed]
    rfl

/-- What a plan for some identifiers comes to: it fails at the first one that something speaks
against, and is otherwise made of all that are known and were not seen before. -/
def Plans (p : Pipeline) (dest : Stage) (seen ids : List Int)
    (result : Except Error (List (Int × Nat))) :
    Prop :=
  match ids.findSome? (p.objection? dest) with
  | some e => result = .error e
  | none => ∃ plan, result = .ok plan ∧
      ∀ x, x ∈ plan.map Prod.fst ↔ x ∈ ids ∧ x ∉ seen ∧ (p.places.get? x).isSome

omit h in
/-- An identifier that nothing speaks against comes before a plan, with what it adds. -/
theorem Plans.cons {dest : Stage} {seen seen' ids : List Int} {id : Int}
    {result : Except Error (List (Int × Nat))} (rest : p.Plans dest seen' ids result)
    (fine : p.objection? dest id = none) (added : List (Int × Nat))
    (members : ∀ x, (x ∈ added.map Prod.fst ∨ x ∈ ids ∧ x ∉ seen' ∧ (p.places.get? x).isSome) ↔
      x ∈ id :: ids ∧ x ∉ seen ∧ (p.places.get? x).isSome) :
    p.Plans dest seen (id :: ids) ((added ++ ·) <$> result) := by
  unfold Plans at rest ⊢
  rw [List.findSome?_cons, fine]
  simp only
  rcases first : ids.findSome? (p.objection? dest) with _ | e
  · rw [first] at rest
    obtain ⟨plan, rfl, listed⟩ := rest
    refine ⟨added ++ plan, rfl, fun x => ?_⟩
    rw [List.map_append, List.mem_append, listed]
    exact members x
  · rw [first] at rest
    rw [rest]
    rfl

omit h in
/-- An identifier that adds nothing. -/
theorem Plans.skip {dest : Stage} {seen seen' ids : List Int} {id : Int}
    {result : Except Error (List (Int × Nat))} (rest : p.Plans dest seen' ids result)
    (fine : p.objection? dest id = none)
    (members : ∀ x, (p.places.get? x).isSome → (x ∈ ids ∧ x ∉ seen' ↔ x ∈ id :: ids ∧ x ∉ seen)) :
    p.Plans dest seen (id :: ids) result := by
  have same : (([] : List (Int × Nat)) ++ ·) <$> result = result := by
    rcases result with e | plan <;> rfl
  rw [← same]
  refine rest.cons fine [] fun x => ?_
  have := members x
  simp only [List.map_nil, List.not_mem_nil, false_or]
  tauto

theorem planMove_eq (dest : Stage) : ∀ (ids seen : List Int),
    (∀ x ∈ seen, p.objection? dest x = none) → p.Plans dest seen ids (p.planMove dest seen ids).1
  | [], seen, _ => ⟨[], rfl, by simp⟩
  | id :: ids, seen, good => by
    unfold planMove
    by_cases repeated : id ∈ seen
    · -- what was seen before is passed over
      rw [if_pos (by simpa using repeated)]
      refine (planMove_eq dest ids seen good).skip (good id repeated) fun x _ => ?_
      rw [List.mem_cons]
      constructor
      · rintro ⟨listed, new⟩
        exact ⟨.inr listed, new⟩
      · rintro ⟨listed, new⟩
        exact ⟨listed.resolve_left fun e => new (e ▸ repeated), new⟩
    rw [if_neg (by simpa using repeated)]
    have later : p.objection? dest id = none →
        p.Plans dest (id :: seen) ids (p.planMove dest (id :: seen) ids).1 := by
      intro fine
      refine planMove_eq dest ids (id :: seen) fun x hx => ?_
      rcases List.mem_cons.mp hx with rfl | hx
      · exact fine
      · exact good x hx
    have refused : ∀ {e result}, p.objection? dest id = some e → result = .error e →
        p.Plans dest seen (id :: ids) result := by
      intro e result bad failed
      rw [Plans, List.findSome?_cons, bad]
      exact failed
    rcases place : p.places.get? id with _ | i | k
    · have unknown := h.locate_eq_none_iff.mpr place
      rcases policy : p.missingIds with _ | _
      · have fine : p.objection? dest id = none := by rw [objection?, unknown, policy]
        refine (later fine).skip fine fun x known => ?_
        have other : x ≠ id := by
          rintro rfl
          rw [place] at known
          cases known
        rw [List.mem_cons, List.mem_cons]
        tauto
      · exact refused (by rw [objection?, unknown, policy]) rfl
    · obtain ⟨source, there, -⟩ := h.resident.mp place
      have located : p.locate id = some (.stage source.name source.payload) := by
        rw [locate, place]
        simp [there]
      simp only [there, expect]
      by_cases fits : source.payload = dest.payload
      · have fine : p.objection? dest id = none := by
          rw [objection?, located]
          exact if_pos fits
        rw [if_pos fits.symm]
        refine (later fine).cons fine [(id, i)] fun x => ?_
        have known : x = id → (p.places.get? x).isSome := by
          rintro rfl
          rw [place]
          rfl
        have new : x = id → x ∉ seen := fun e => e ▸ repeated
        rw [List.map_singleton, List.mem_singleton, List.mem_cons, List.mem_cons]
        tauto
      · rw [if_neg (Ne.symm fits)]
        refine refused ?_ rfl
        rw [objection?, located]
        exact if_neg fits
    · exact refused (by rw [objection?, locate, place]) rfl

/-- Carrying out a plan moves what is planned. -/
theorem moved_relocate {dest : Nat} {k : Payload} {plan : List (Int × Nat)}
    (payload : p.payloadAt? dest = some k) (distinct : (plan.map Prod.fst).Nodup)
    (sources : ∀ e ∈ plan, p.places.get? e.1 = some (.stage e.2)) :
    p.Moved dest (plan.map Prod.fst) (p.relocate dest plan) where
  rest := reseated_relocate p dest plan
  places x := places_relocate dest x plan p
  residents _ _ := holds_relocate plan p (lt_of_payloadAt? payload) distinct
    fun e he _ held => h.only (sources e he) held

omit h in
/-- A move goes through what is asked of it, be it listed or not. -/
theorem move_requested {stage : String} {i : Nat} {s : Stage}
    (found : p.destination stage = .ok (i, s)) (ids : List Int) :
    (p.move stage ids).answer = (p.planMove s [] (p.requested i ids)).1.map List.length ∧
      (p.move stage ids).next =
        match (p.planMove s [] (p.requested i ids)).1 with
        | .ok plan => p.relocate i plan
        | .error _ => p := by
  unfold move
  rw [found]
  simp only
  by_cases first : (ids.isEmpty && i == 0) = true
  · -- nothing is before the first stage
    obtain ⟨none, rfl⟩ : ids.isEmpty = true ∧ i = 0 := by simpa using first
    rw [if_pos first, requested, if_pos none]
    exact ⟨rfl, rfl⟩
  · rw [if_neg first]
    rcases p.planMove s [] (p.requested i ids) with ⟨e | plan, events⟩
    · exact ⟨rfl, rfl⟩
    · exact ⟨rfl, rfl⟩

/-- A move is refused for the first objection, and otherwise answers how many identifiers it has
moved. -/
theorem move_eq {stage : String} {i : Nat} {s : Stage} (found : p.destination stage = .ok (i, s))
    (ids : List Int) :
    match (p.asked stage ids).findSome? (p.objection? s) with
    | some e => (p.move stage ids).answer = .error e ∧ (p.move stage ids).next = p
    | none => (p.move stage ids).answer = .ok (p.knownOf (p.asked stage ids)).length ∧
        p.Moved i (p.knownOf (p.asked stage ids)) (p.move stage ids).next := by
  have plans := planMove_eq h s (p.asked stage ids) [] fun _ hx => absurd hx List.not_mem_nil
  obtain ⟨answer, next⟩ := move_requested found ids
  rw [← asked_eq_requested h found] at answer next
  rw [answer, next]
  unfold Plans at plans
  rcases first : (p.asked stage ids).findSome? (p.objection? s) with _ | e
  · rw [first] at plans
    obtain ⟨plan, made, members⟩ := plans
    obtain ⟨distinct, sources⟩ := planMove_ok _ [] (Prod.ext made rfl)
    have payload : p.payloadAt? i = some s.payload := by
      rw [payloadAt?, destination_ok found, Option.map_some]
    have same : ∀ x, x ∈ p.knownOf (p.asked stage ids) ↔ x ∈ plan.map Prod.fst := by
      intro x
      rw [h.mem_knownOf_iff, members]
      simp
    have count : plan.length = (p.knownOf (p.asked stage ids)).length := by
      have perm := (List.perm_ext_iff_of_nodup distinct (List.nodup_dedup _)).mpr
        fun x => (same x).symm
      rw [← List.length_map (f := Prod.fst), perm.length_eq]
      rfl
    have moved := moved_relocate h payload distinct fun e he => (sources e he).2.1
    rw [made]
    exact ⟨congrArg Except.ok count, moved.congr same⟩
  · rw [first] at plans
    rw [plans]
    exact ⟨rfl, rfl⟩

end Plans

/-! ### Moves -/

/-- What a move of some identifiers to a stage is asked for, it does. -/
structure MovesAsAsked (p : Pipeline) (stage : String) (ids : List Int) : Prop where
  /-- It is carried out when every identifier stands in a stage that holds what the destination
  holds, or is unknown and to be left out. -/
  accepted : (∃ n, (p.move stage ids).answer = .ok n) ↔ ∃ dest, p.stage? stage = some dest ∧
    ∀ id ∈ p.asked stage ids, (∃ name, p.locate id = some (.stage name dest.payload)) ∨
      p.locate id = none ∧ p.missingIds = .skip
  /-- Then the known identifiers are in the destination, and it answers how many they are. -/
  moved : ∀ {n}, (p.move stage ids).answer = .ok n →
    n = (p.knownOf (p.asked stage ids)).length ∧ ∃ dest, p.indexOf? stage = some dest ∧
      p.Moved dest (p.knownOf (p.asked stage ids)) (p.move stage ids).next
  /-- It is refused where there is no such stage, or else for the first objection. -/
  refused : ∀ {e}, (p.move stage ids).answer = .error e ↔
    p.stage? stage = none ∧ e = .stageNotFound stage ∨
      ∃ dest, p.stage? stage = some dest ∧
        (p.asked stage ids).findSome? (p.objection? dest) = some e
  /-- The order of the identifiers and their repetition do not count. -/
  unordered : ∀ {ids'}, (∀ x, x ∈ ids' ↔ x ∈ ids) →
    (p.move stage ids').answer.toOption = (p.move stage ids).answer.toOption ∧
      (p.move stage ids').next = (p.move stage ids).next
  /-- A second time it answers the same and changes nothing. -/
  again : ∀ {n}, ids ≠ [] → (p.move stage ids).answer = .ok n →
    ((p.move stage ids).next.move stage ids).answer = .ok n ∧
      ((p.move stage ids).next.move stage ids).next = (p.move stage ids).next

/-- A stage is found by name together with its index. -/
theorem destination_of_stage? {stage : String} {s : Stage} (found : p.stage? stage = some s) :
    ∃ i, p.destination stage = .ok (i, s) := by
  obtain ⟨i, index, there⟩ := findIdx?_of_find? found
  exact ⟨i, destination_eq_ok_iff.mpr ⟨index, there⟩⟩

theorem stage?_of_destination {stage : String} {i : Nat} {s : Stage}
    (found : p.destination stage = .ok (i, s)) : p.stage? stage = some s := by
  obtain ⟨index, there⟩ := destination_eq_ok_iff.mp found
  rcases named : p.stage? stage with _ | t
  · obtain ⟨lt, accepted, -⟩ := List.findIdx?_eq_some_iff_getElem.mp index
    exact absurd accepted (List.find?_eq_none.mp named _ (List.getElem_mem lt))
  · obtain ⟨j, found'⟩ := destination_of_stage? named
    cases found.symm.trans found'
    rfl

/-- What no stage has for a name is no destination. -/
theorem destination_of_noStage {stage : String} (none : p.stage? stage = none) :
    p.destination stage = .error (.stageNotFound stage) := by
  have index : p.indexOf? stage = Option.none := by
    rw [indexOf?, List.findIdx?_eq_none_iff]
    intro s hs
    simpa using List.find?_eq_none.mp none s hs
  rw [destination, index]

/-- There is no objection against identifiers that may all be moved. -/
theorem findSome?_objection?_eq_none_iff {ids : List Int} {dest : Stage} :
    ids.findSome? (p.objection? dest) = none ↔
      ∀ id ∈ ids, (∃ name, p.locate id = some (.stage name dest.payload)) ∨
        p.locate id = none ∧ p.missingIds = .skip := by
  rw [List.findSome?_eq_none_iff]
  exact forall₂_congr fun _ _ => objection?_eq_none_iff

section Moves

variable (h : p.Consistent) {stage : String} {i : Nat} {s : Stage} {ids : List Int}
include h

/-- A move that answers with a number has moved what is known. -/
theorem move_eq_ok {n : Nat} (answer : (p.move stage ids).answer = .ok n) :
    ∃ i s, p.destination stage = .ok (i, s) ∧
      (p.asked stage ids).findSome? (p.objection? s) = none ∧
      n = (p.knownOf (p.asked stage ids)).length ∧
      p.Moved i (p.knownOf (p.asked stage ids)) (p.move stage ids).next := by
  rcases found : p.destination stage with e | ⟨i, s⟩
  · rw [move_of_noDestination found] at answer
    cases answer
  · have done := move_eq h found ids
    rcases first : (p.asked stage ids).findSome? (p.objection? s) with _ | e
    · rw [first] at done
      cases answer.symm.trans done.1
      exact ⟨i, s, rfl, first, rfl, done.2⟩
    · rw [first] at done
      cases answer.symm.trans done.1

theorem move_accepted_iff : (∃ n, (p.move stage ids).answer = .ok n) ↔
    ∃ dest, p.stage? stage = some dest ∧
      (p.asked stage ids).findSome? (p.objection? dest) = none := by
  constructor
  · rintro ⟨n, answer⟩
    obtain ⟨i, s, found, fine, -⟩ := move_eq_ok h answer
    exact ⟨s, stage?_of_destination found, fine⟩
  · rintro ⟨s, named, fine⟩
    obtain ⟨i, found⟩ := destination_of_stage? named
    have done := move_eq h found ids
    rw [fine] at done
    exact ⟨_, done.1⟩

theorem move_refused_iff {e : Error} : (p.move stage ids).answer = .error e ↔
    p.stage? stage = none ∧ e = .stageNotFound stage ∨
      ∃ dest, p.stage? stage = some dest ∧
        (p.asked stage ids).findSome? (p.objection? dest) = some e := by
  rcases named : p.stage? stage with _ | s
  · rw [move_of_noDestination (destination_of_noStage named)]
    constructor
    · rintro ⟨⟩
      exact .inl ⟨rfl, rfl⟩
    · rintro (⟨-, rfl⟩ | ⟨dest, none, -⟩)
      · rfl
      · cases none
  · obtain ⟨i, found⟩ := destination_of_stage? named
    have done := move_eq h found ids
    constructor
    · intro answer
      refine .inr ⟨s, rfl, ?_⟩
      rcases first : (p.asked stage ids).findSome? (p.objection? s) with _ | e'
      · rw [first] at done
        cases answer.symm.trans done.1
      · rw [first] at done
        cases answer.symm.trans done.1
        rfl
    · rintro (⟨none, -⟩ | ⟨dest, same, first⟩)
      · cases none
      · cases same
        rw [first] at done
        exact done.1

/-- Moves of the same identifiers are carried out alike. -/
theorem move_unordered {ids' : List Int} (same : ∀ x, x ∈ ids' ↔ x ∈ ids) :
    (p.move stage ids').answer.toOption = (p.move stage ids).answer.toOption ∧
      (p.move stage ids').next = (p.move stage ids).next := by
  have asked : ∀ x, x ∈ p.asked stage ids' ↔ x ∈ p.asked stage ids := by
    intro x
    by_cases none : ids = []
    · have none' : ids' = [] := List.eq_nil_iff_forall_not_mem.mpr fun x hx => by
        simpa [none] using (same x).mp hx
      rw [none, none']
    · have listed' : ids' ≠ [] := by
        obtain ⟨y, hy⟩ := List.exists_mem_of_ne_nil ids none
        exact List.ne_nil_of_mem ((same y).mpr hy)
      rw [Pipeline.asked, Pipeline.asked, if_neg none, if_neg listed']
      exact same x
  rcases found : p.destination stage with e | ⟨i, s⟩
  · rw [move_of_noDestination found, move_of_noDestination found]
    exact ⟨rfl, rfl⟩
  have done := move_eq h found ids
  have done' := move_eq h found ids'
  have fine : (p.asked stage ids').findSome? (p.objection? s) = none ↔
      (p.asked stage ids).findSome? (p.objection? s) = none := by
    rw [List.findSome?_eq_none_iff, List.findSome?_eq_none_iff]
    exact forall_congr' fun x => by rw [asked]
  rcases first : (p.asked stage ids).findSome? (p.objection? s) with _ | e
  · rw [first] at done
    rw [fine.mpr first] at done'
    have known : ∀ x, x ∈ p.knownOf (p.asked stage ids') ↔ x ∈ p.knownOf (p.asked stage ids) := by
      intro x
      rw [mem_knownOf, mem_knownOf, asked]
    have perm := (List.perm_ext_iff_of_nodup (List.nodup_dedup _) (List.nodup_dedup _)).mpr known
    rw [done.1, done'.1, ← done.2.unique (done'.2.congr fun x => (known x).symm)]
    exact ⟨congrArg some perm.length_eq, rfl⟩
  · obtain ⟨e', first'⟩ := Option.ne_none_iff_exists'.mp (mt fine.mp (by rw [first]; simp))
    rw [first] at done
    rw [first'] at done'
    rw [done.1, done.2, done'.1, done'.2]
    exact ⟨rfl, rfl⟩

/-- A move of listed identifiers is carried out again, and then nothing is left to be done. -/
theorem move_again {n : Nat} (listed : ids ≠ []) (answer : (p.move stage ids).answer = .ok n) :
    ((p.move stage ids).next.move stage ids).answer = .ok n ∧
      ((p.move stage ids).next.move stage ids).next = (p.move stage ids).next := by
  obtain ⟨i, s, found, fine, rfl, moved⟩ := move_eq_ok h answer
  have h' : (p.move stage ids).next.Consistent := h.movement (movement_move stage ids)
  have asked : ∀ r : Pipeline, r.asked stage ids = ids := fun r => if_neg listed
  rw [asked] at fine moved ⊢
  generalize (p.move stage ids).next = q at moved h' ⊢
  -- the destination is where it was, and holds what it held
  have payload : p.payloadAt? i = some s.payload := by
    rw [payloadAt?, destination_ok found, Option.map_some]
  obtain ⟨index, there⟩ := destinationFor_eq_ok_iff.mp <| destinationFor_congr moved.rest.shape <|
    destinationFor_eq_ok_iff.mpr ⟨(destination_eq_ok_iff.mp found).1, payload⟩
  obtain ⟨t, there, same⟩ := Option.map_eq_some_iff.mp there
  have found' : q.destination stage = .ok (i, t) := destination_eq_ok_iff.mpr ⟨index, there⟩
  have known : ∀ x, x ∈ ids → ((q.locate x).isSome ↔ (p.locate x).isSome) := by
    intro x hx
    rw [Option.isSome_iff_ne_none, Option.isSome_iff_ne_none, Ne, Ne, h.locate_eq_none_iff,
      h'.locate_eq_none_iff, moved.places]
    by_cases hk : x ∈ p.knownOf ids
    · have := (h.mem_knownOf_iff.mp hk).2
      rw [if_pos hk]
      simpa [Option.isSome_iff_ne_none] using this
    · rw [if_neg hk]
  have same_known : q.knownOf ids = p.knownOf ids := by
    unfold knownOf
    exact congrArg List.dedup (List.filter_congr fun x hx => Bool.eq_iff_iff.mpr (known x hx))
  have fine' : ids.findSome? (q.objection? t) = none := by
    rw [findSome?_objection?_eq_none_iff] at fine ⊢
    intro id hid
    by_cases hk : id ∈ p.knownOf ids
    · left
      refine ⟨t.name, ?_⟩
      rw [locate, moved.places, if_pos hk]
      simp [there]
    · right
      have unknown : p.locate id = none := by
        rw [mem_knownOf, not_and] at hk
        simpa using hk hid
      rcases fine id hid with ⟨name, located⟩ | ⟨-, skip⟩
      · rw [unknown] at located
        cases located
      · refine ⟨?_, moved.rest.missingIds.trans skip⟩
        have := known id hid
        rw [unknown] at this
        simpa using this
  have done := move_eq h' found' ids
  rw [asked, fine', same_known] at done
  exact ⟨done.1, done.2.unique moved.again⟩

end Moves

/-- **A move does what it is asked for.** In every reachable pipeline, whatever the destination and
the identifiers: it is carried out when nothing speaks against any of them, has then moved the
known ones and nothing else, and answers how many they are; and it is refused for a missing
destination or else for the first objection. -/
theorem moves_as_asked (reachable : p.Reachable) (stage : String) (ids : List Int) :
    p.MovesAsAsked stage ids where
  accepted := by
    rw [move_accepted_iff reachable.consistent]
    exact exists_congr fun dest => and_congr_right fun _ => findSome?_objection?_eq_none_iff
  moved answer := by
    obtain ⟨i, s, found, -, count, moved⟩ := move_eq_ok reachable.consistent answer
    exact ⟨count, i, (destination_eq_ok_iff.mp found).1, moved⟩
  refused := move_refused_iff reachable.consistent
  unordered := move_unordered reachable.consistent
  again := move_again reachable.consistent

/-- A frame that stands by itself, asked for twice, beside one that nobody knows. -/
theorem moves_as_asked_parted : parted.Reachable ∧ (parted.move "out" [1, 9, 1]).answer = .ok 1 ∧
    parted.MovesAsAsked "out" [1, 9, 1] :=
  ⟨reachable_parted, by decide, moves_as_asked reachable_parted "out" [1, 9, 1]⟩

end Pipeline
end FrameFlow
