/-
# What a packing does

A packing is asked for a list of identifiers. It looks for a fault before it takes any
of them out of its stage: in the list as a whole, in the destination, and then in one
identifier after another (`Pipeline.PackRefusal`). Where it finds none, the frames are
in a new batch, in the order of the list, and what waited under them waits under the
batch, list after list. What else changes is the stages that they have left and the
stage that the batch has come into (`Pipeline.Packed`).

Key definitions: `Pipeline.unfit?`, `Pipeline.PackRefusal`, `Pipeline.Packed`,
`Pipeline.PacksAsAsked`.
Key theorems: `Pipeline.planPack_at_first`, `Pipeline.first_of_planPack`,
`Pipeline.packed_bundle`, `Pipeline.packs_as_asked`.
-/
import FrameFlow.Proofs.Pipeline.Deleting
import FrameFlow.Proofs.Pipeline.DeadEnds
import FrameFlow.Proofs.Pipeline.Moving

namespace FrameFlow
namespace Pipeline

/-! ### What is asked -/

/-- What speaks against packing an identifier behind others: that it is among them, or else that it
is unknown or no single frame. -/
def unfit? (p : Pipeline) (before : List Int) (id : Int) : Option Error :=
  if id ∈ before then some (.repeatedFrame id)
  else match p.locate id with
    | none => some (.unknownId id)
    | some (.batch _) => some (.notIndependent id)
    | some (.stage ..) => if (p.frame? id).isSome then none else some (.notIndependent id)

/-- Why a packing is refused: each reason counts where those above it do not hold, and of the
identifiers the first one that something speaks against. -/
inductive PackRefusal (p : Pipeline) (stage : String) : List Int → Error → Prop where
  | empty : PackRefusal p stage [] .emptyBatch
  | noStage {ids : List Int} (listed : ids ≠ []) (missing : p.stage? stage = none) :
      PackRefusal p stage ids (.stageNotFound stage)
  | wrongStage {ids : List Int} (listed : ids ≠ []) (holds : p.payload? stage = some .frame) :
      PackRefusal p stage ids (.payloadMismatch stage .frame .batch)
  | unfit {before later : List Int} {id : Int} {e : Error} (holds : p.payload? stage = some .batch)
      (distinct : before.Nodup) (single : ∀ x ∈ before, p.Independent x)
      (first : p.unfit? before id = some e) : PackRefusal p stage (before ++ id :: later) e

/-- The pipeline `q` is `p` with some frames packed into a stage, as the batch `k`. -/
structure Packed (p : Pipeline) (stage : String) (ids : List Int) (k : Int) (q : Pipeline) :
    Prop where
  /-- The batch has the next identifier, which nothing had. -/
  next : k = p.lastId + 1 ∧ q.lastId = k
  new : p.Unknown k
  /-- It lists the frames in the order of the request. -/
  batch : q.batch? k = some ⟨k, ids⟩
  /-- It is in the destination, and in no other stage. -/
  located : q.locate k = some (.stage stage .batch)
  settled : ∀ name here, q.stageIds? name = some here → (k ∈ here ↔ name = stage)
  /-- Each frame is in it, and in no stage. -/
  packed : ∀ id ∈ ids, q.locate id = some (.batch k)
  away : ∀ id ∈ ids, ∀ name here, q.stageIds? name = some here → id ∉ here
  /-- But for this, the stages hold what they held. -/
  residents : ∀ name, q.stageIds? name = (p.stageIds? name).map fun here =>
    here.filter (· ∉ ids) ++ if name = stage then [k] else []
  /-- What waited under the frames waits under it, and nothing under them. -/
  carried : q.queue.under k = ids.flatMap p.queue.under
  waiting : ∀ x ≠ k, q.queue.under x = if x ∈ ids then [] else p.queue.under x
  /-- All else is as it was. -/
  frames : ∀ x, q.frame? x = p.frame? x
  batches : ∀ x ≠ k, q.batch? x = p.batch? x
  elsewhere : ∀ x ≠ k, x ∉ ids → q.locate x = p.locate x
  settings : q.name = p.name ∧ q.missingIds = p.missingIds ∧ q.shape = p.shape

variable {p : Pipeline}

/-! ### Fit and unfit identifiers -/

/-- Only the set of those before counts. -/
theorem unfit?_congr {before before' : List Int} {id : Int} (same : id ∈ before' ↔ id ∈ before) :
    p.unfit? before' id = p.unfit? before id := by
  unfold unfit?
  rw [if_congr same rfl rfl]

/-- An identifier may be packed when it is new in the list, and a single frame. -/
theorem unfit?_eq_none_iff {before : List Int} {id : Int} :
    p.unfit? before id = none ↔ id ∉ before ∧ p.Independent id := by
  have single : p.Independent id ↔
      (p.frame? id).isSome ∧ ∃ stage payload, p.locate id = some (.stage stage payload) :=
    ⟨fun s => ⟨s.frame, s.single⟩, fun s => ⟨s.1, s.2⟩⟩
  rw [single]
  unfold unfit?
  by_cases seen : id ∈ before
  · simp [seen]
  · rcases p.locate id with _ | ⟨stage, payload⟩ | k
    · simp [seen]
    · rcases p.frame? id with _ | f
      · simp [seen]
      · simp [seen]
    · simp [seen]

section Plans

variable (h : p.Consistent)
include h

/-- What speaks against an identifier is why it has no stage of its own. -/
theorem independentStage_of_unfit {before : List Int} {id : Int} {e : Error} (new : id ∉ before)
    (bad : p.unfit? before id = some e) : p.independentStage id = .error e := by
  unfold unfit? at bad
  rw [if_neg new] at bad
  unfold independentStage
  rcases place : p.places.get? id with _ | i | k
  · rw [h.locate_eq_none_iff.mpr place] at bad
    simp at bad
    simp [bad]
  · obtain ⟨s, there, -⟩ := h.resident.mp place
    have located : p.locate id = some (.stage s.name s.payload) := by
      simp [locate, place, there]
    rw [located] at bad
    simp only [Table.contains_eq]
    by_cases frame : (p.frame? id).isSome
    · simp [frame] at bad
    · have none : (p.frames.get? id).isSome = false := Bool.eq_false_iff.mpr frame
      simp [frame] at bad
      simp [none, bad]
  · have located : p.locate id = some (.batch k) := by simp [locate, place]
    rw [located] at bad
    simp at bad
    simp [bad]

/-- A plan fails at an identifier that something speaks against. -/
theorem planPack_of_unfit {seen : List Int} {id : Int} {e : Error} (bad : p.unfit? seen id = some e)
    (ids : List Int) : p.planPack seen (id :: ids) = .error e := by
  unfold planPack
  by_cases repeated : id ∈ seen
  · have why : some (Error.repeatedFrame id) = some e := by
      rw [← bad, unfit?, if_pos repeated]
    simp [repeated, Option.some.inj why]
  · rw [if_neg (by simpa using repeated), independentStage_of_unfit h repeated bad]
    rfl

omit h in
/-- A plan goes on behind an identifier that nothing speaks against. -/
theorem planPack_of_fit {seen : List Int} {id : Int} (fit : p.unfit? seen id = none)
    (ids : List Int) : ∃ source, p.planPack seen (id :: ids) =
      ((id, source) :: ·) <$> p.planPack (id :: seen) ids := by
  obtain ⟨new, single⟩ := unfit?_eq_none_iff.mp fit
  obtain ⟨source, stands⟩ := single.independentStage
  refine ⟨source, ?_⟩
  rw [planPack, if_neg (by simpa using new), stands]
  rcases p.planPack (id :: seen) ids with e | plan
  · rfl
  · rfl

/-- A plan fails at the first identifier that something speaks against. -/
theorem planPack_at_first {id : Int} {e : Error} (later : List Int) :
    ∀ before seen : List Int, before.Nodup → (∀ x ∈ before, x ∉ seen ∧ p.Independent x) →
    p.unfit? (before ++ seen) id = some e → p.planPack seen (before ++ id :: later) = .error e
  | [], seen, _, _, bad => planPack_of_unfit h bad later
  | x :: before, seen, distinct, good, bad => by
    obtain ⟨fresh, distinct⟩ := List.nodup_cons.mp distinct
    have fit : p.unfit? seen x = none := unfit?_eq_none_iff.mpr (good x List.mem_cons_self)
    obtain ⟨source, goesOn⟩ := planPack_of_fit fit (before ++ id :: later)
    have good' : ∀ y ∈ before, y ∉ x :: seen ∧ p.Independent y := by
      intro y hy
      obtain ⟨new, single⟩ := good y (List.mem_cons_of_mem _ hy)
      have ne : y ≠ x := fun e => fresh (e ▸ hy)
      exact ⟨by simp [ne, new], single⟩
    have bad' : p.unfit? (before ++ x :: seen) id = some e := by
      rw [← bad]
      apply unfit?_congr
      simp only [List.cons_append, List.mem_append, List.mem_cons]
      tauto
    rw [List.cons_append, goesOn, planPack_at_first later before (x :: seen) distinct good' bad']
    rfl

/-- A plan that fails does so at an identifier behind others that can be packed. -/
theorem first_of_planPack : ∀ (ids seen : List Int) {e : Error},
    p.planPack seen ids = .error e → ∃ before id later, ids = before ++ id :: later ∧
      before.Nodup ∧ (∀ x ∈ before, x ∉ seen ∧ p.Independent x) ∧
      p.unfit? (before ++ seen) id = some e
  | [], _, _, failed => by
    unfold planPack at failed
    cases failed
  | id :: ids, seen, e, failed => by
    rcases why : p.unfit? seen id with _ | e'
    · obtain ⟨source, goesOn⟩ := planPack_of_fit why ids
      have rest : p.planPack (id :: seen) ids = .error e := by
        rw [goesOn] at failed
        rcases made : p.planPack (id :: seen) ids with e' | plan
        · rw [made] at failed
          exact failed
        · rw [made] at failed
          cases failed
      obtain ⟨before, x, later, split, distinct, good, bad⟩ :=
        first_of_planPack ids (id :: seen) rest
      obtain ⟨new, single⟩ := unfit?_eq_none_iff.mp why
      have fresh : id ∉ before := fun hid => (good id hid).1 List.mem_cons_self
      refine ⟨id :: before, x, later, by rw [split, List.cons_append],
        List.nodup_cons.mpr ⟨fresh, distinct⟩, ?_, ?_⟩
      · intro y hy
        rcases List.mem_cons.mp hy with rfl | hy
        · exact ⟨new, single⟩
        · obtain ⟨new', single'⟩ := good y hy
          exact ⟨fun hs => new' (List.mem_cons_of_mem _ hs), single'⟩
      · rw [← bad]
        apply unfit?_congr
        simp only [List.cons_append, List.mem_append, List.mem_cons]
        tauto
    · have same : e' = e := by
        rw [planPack_of_unfit h why ids] at failed
        exact Except.error.inj failed
      exact ⟨[], id, ids, rfl, List.nodup_nil, by simp, by simpa [same] using why⟩

end Plans

/-! ### Destinations -/

/-- A name is found in the list of stages together with its index. -/
theorem stage?_eq_some_iff {stage : String} {s : Stage} : p.stage? stage = some s ↔
    ∃ i, p.indexOf? stage = some i ∧ p.stages[i]? = some s := by
  constructor
  · intro found
    obtain ⟨i, there⟩ := destination_of_stage? found
    exact ⟨i, destination_eq_ok_iff.mp there⟩
  · intro there
    obtain ⟨i, there⟩ := there
    exact stage?_of_destination (destination_eq_ok_iff.mpr there)

theorem destinationFor_of_noStage {stage : String} (missing : p.stage? stage = none) (k : Payload) :
    p.destinationFor stage k = .error (.stageNotFound stage) := by
  rw [destinationFor, destination_of_noStage missing]
  rfl

/-- A stage that holds something else is no destination. -/
theorem destinationFor_of_other {stage : String} {k k' : Payload}
    (holds : p.payload? stage = some k') (other : k' ≠ k) :
    p.destinationFor stage k = .error (.payloadMismatch stage k' k) := by
  obtain ⟨s, found, payload⟩ := Option.map_eq_some_iff.mp holds
  obtain ⟨i, there⟩ := destination_of_stage? found
  have name : s.name = stage := by simpa using List.find?_some found
  have refused : expect s k = .error (.payloadMismatch stage k' k) := by
    rw [expect, payload, if_neg other, name]
  rw [destinationFor, there]
  simp only [bind, Except.bind, refused]

theorem payload?_of_destinationFor {stage : String} {k : Payload} {i : Nat}
    (there : p.destinationFor stage k = .ok i) : p.payload? stage = some k := by
  obtain ⟨index, payload⟩ := destinationFor_eq_ok_iff.mp there
  obtain ⟨s, at', payload⟩ := Option.map_eq_some_iff.mp payload
  rw [payload?, stage?_eq_some_iff.mpr ⟨i, index, at'⟩, Option.map_some, payload]

/-- What is resident in a stage is found by the index of its name. -/
theorem stageIds?_eq (p : Pipeline) (name : String) : p.stageIds? name =
    (p.indexOf? name).bind fun i => (p.stages[i]?).map fun s => s.residents.toList := by
  rcases index : p.indexOf? name with _ | i
  · have none : p.stage? name = none := by
      by_contra some
      obtain ⟨s, found⟩ := Option.ne_none_iff_exists'.mp some
      obtain ⟨i, there, -⟩ := stage?_eq_some_iff.mp found
      rw [index] at there
      cases there
    rw [stageIds?, none]
    rfl
  · obtain ⟨s, there, -⟩ := indexOf?_eq_some index
    have found : p.stage? name = some s := stage?_eq_some_iff.mpr ⟨i, index, there⟩
    rw [stageIds?, found, Option.bind_some, there]

/-! ### What is done -/

section Bundle

variable {stage : String} {dest : Nat} {plan : List (Int × Nat)}
  (index : p.indexOf? stage = some dest) (payload : p.payloadAt? dest = some .batch)
include index payload

/-- The new batch is where it was to be packed. -/
theorem locate_bundle : (p.bundle (plan.map Prod.fst) plan dest).locate (p.lastId + 1) =
    some (.stage stage .batch) := by
  have place : (p.bundle (plan.map Prod.fst) plan dest).places.get? (p.lastId + 1) =
      some (.stage dest) := by
    rw [places_bundle, if_pos rfl]
  have shape := shape_bundle p plan dest (plan.map Prod.fst)
  have index' := (indexOf?_congr shape stage).trans index
  have payload' := (payloadAt?_congr shape dest).trans payload
  obtain ⟨s, there, name⟩ := indexOf?_eq_some index'
  have holds : s.payload = .batch := by
    rw [payloadAt?, there] at payload'
    exact Option.some.inj payload'
  simp [locate, place, there, name, holds]

variable (h : p.Consistent)
  (sources : ∀ e ∈ plan, p.places.get? e.1 = some (.stage e.2) ∧ (p.frames.get? e.1).isSome)
include h sources

/-- The frames have left their stages, and the batch has come into its own. -/
theorem stageIds?_bundle (name : String) :
    (p.bundle (plan.map Prod.fst) plan dest).stageIds? name = (p.stageIds? name).map fun here =>
      here.filter (· ∉ plan.map Prod.fst) ++ if name = stage then [p.lastId + 1] else [] := by
  have shape := shape_bundle p plan dest (plan.map Prod.fst)
  rw [stageIds?_eq, stageIds?_eq, indexOf?_congr shape]
  rcases here : p.indexOf? name with _ | i
  · rfl
  obtain ⟨s, there, hs⟩ := indexOf?_eq_some here
  obtain ⟨t, there', -⟩ := indexOf?_eq_some ((indexOf?_congr shape name).trans here)
  simp only [Option.bind_some, there, there', Option.map_some, Option.some.injEq]
  -- both lists are increasing, so it is enough that they have the same members
  have old : ∀ x ∈ s.residents.toList, x < p.lastId + 1 := by
    intro x hx
    have := (h.issued (h.resident.mpr ⟨s, there, hx⟩)).2
    omega
  have same : name = stage ↔ i = dest := by
    constructor
    · intro e
      rw [e, index] at here
      exact (Option.some.inj here).symm
    · intro e
      obtain ⟨s', there'', hs'⟩ := indexOf?_eq_some index
      rw [e, there''] at there
      rw [← hs, ← hs', Option.some.inj there]
  have members : ∀ x, x ∈ t.residents.toList ↔ x ∈ s.residents.toList ∧
      x ∉ plan.map Prod.fst ∨ i = dest ∧ x = p.lastId + 1 := by
    intro x
    have held := holds_bundle (j := i) (x := x) (plan.map Prod.fst) (lt_of_payloadAt? payload)
      (holds_of_plan h sources)
    simpa [Holds, there, there'] using held
  have order : ∀ a b : Int, a < b → KeyOrder.before (id a) (id b) = true := by
    intro a b lt
    simpa [KeyOrder.before] using lt
  refine SortedBy.eq_of_mem_iff t.residents.sorted (List.Pairwise.imp (order _ _) ?_) fun x => ?_
  · refine List.pairwise_append.mpr ⟨s.residents.increasing.filter _, ?_, ?_⟩
    · split <;> simp
    · intro a ha b hb
      have hb : b = p.lastId + 1 := by
        split at hb
        · simpa using hb
        · cases hb
      rw [hb]
      exact old a (List.mem_filter.mp ha).1
  · rw [members, List.mem_append, List.mem_filter, decide_eq_true_eq]
    by_cases e : name = stage
    · simp [e, same.mp e]
    · simp [e, mt same.mpr e]

variable (a : p.Addressed) (distinct : (plan.map Prod.fst).Nodup)
include a distinct

/-- Putting frames into a batch packs them, and does nothing else. -/
theorem packed_bundle :
    p.Packed stage (plan.map Prod.fst) (p.lastId + 1) (p.bundle (plan.map Prod.fst) plan dest) := by
  have shape := shape_bundle p plan dest (plan.map Prod.fst)
  have residents := stageIds?_bundle index payload h sources
  have unissued := next_not_mem_plan h sources
  have noResident : ∀ name here, p.stageIds? name = some here → p.lastId + 1 ∉ here := by
    intro name here found hin
    rw [stageIds?_eq] at found
    obtain ⟨i, -, found⟩ := Option.bind_eq_some_iff.mp found
    obtain ⟨s, there, rfl⟩ := Option.map_eq_some_iff.mp found
    exact next_not_held h i ⟨s, there, hin⟩
  have batch : ∀ x, (p.bundle (plan.map Prod.fst) plan dest).batches.get? x =
      if p.lastId + 1 = x then some ⟨p.lastId + 1, plan.map Prod.fst⟩ else p.batches.get? x :=
    batches_bundle p plan dest (plan.map Prod.fst)
  have waits : ∀ x, (p.bundle (plan.map Prod.fst) plan dest).queue.under x =
      if p.lastId + 1 = x then (plan.map Prod.fst).flatMap p.queue.under
      else if x ∈ plan.map Prod.fst then [] else p.queue.under x :=
    under_bundle distinct (under_next a h)
  refine
    { next := ⟨rfl, lastId_bundle p plan dest _⟩
      new := .of_place h a h.fresh
      batch := (batch _).trans (if_pos rfl)
      located := locate_bundle index payload
      settled := fun name here found => ?settled
      packed := fun id hid => ?packed
      away := fun id hid name here found => ?away
      residents := residents
      carried := (waits _).trans (if_pos rfl)
      waiting := fun x ne => (waits x).trans (if_neg (Ne.symm ne))
      frames := fun x => congrArg (Table.get? · x) (frames_bundle p plan dest _)
      batches := fun x ne => (batch x).trans (if_neg (Ne.symm ne))
      elsewhere := fun x ne out => ?elsewhere
      settings := ⟨(settings_bundle p plan dest _).1, (settings_bundle p plan dest _).2, shape⟩ }
  case settled =>
    rw [residents] at found
    obtain ⟨old, there, rfl⟩ := Option.map_eq_some_iff.mp found
    have out : p.lastId + 1 ∉ old := noResident name old there
    by_cases e : name = stage
    · simp [e]
    · simp [e, out]
  case packed =>
    have place : (p.bundle (plan.map Prod.fst) plan dest).places.get? id =
        some (.batch (p.lastId + 1)) := h.places_bundle_packed sources hid
    rw [locate, place]
  case away =>
    rw [residents] at found
    obtain ⟨old, there, rfl⟩ := Option.map_eq_some_iff.mp found
    have ne : id ≠ p.lastId + 1 := fun e => unissued (e ▸ hid)
    intro hin
    rcases List.mem_append.mp hin with hin | hin
    · have out := (List.mem_filter.mp hin).2
      simp only [decide_eq_true_eq] at out
      exact out hid
    · split at hin
      · exact ne (List.mem_singleton.mp hin)
      · cases hin
  case elsewhere =>
    apply locate_congr shape
    rw [places_bundle, if_neg (Ne.symm ne), if_neg out]

end Bundle

/-! ### Packings -/

/-- A packing of something asks for its destination first, and then for a plan. -/
theorem pack_answer (stage : String) {ids : List Int} (listed : ids ≠ []) :
    (p.pack stage ids).answer = (p.destinationFor stage .batch).bind fun _ =>
      (p.planPack [] ids).map fun _ => p.lastId + 1 := by
  have some : ids.isEmpty = false := by simpa using listed
  unfold pack
  rw [if_neg (by simp [some])]
  rcases p.destinationFor stage .batch with e | dest
  · rfl
  · rcases p.planPack [] ids with e | plan
    · rfl
    · rfl

/-- A packing that is carried out has a destination for batches and a plan. -/
theorem pack_ok {stage : String} {ids : List Int} {k : Int}
    (answer : (p.pack stage ids).answer = .ok k) : ids ≠ [] ∧ ∃ dest plan,
      p.destinationFor stage .batch = .ok dest ∧ p.planPack [] ids = .ok plan ∧
      k = p.lastId + 1 ∧ (p.pack stage ids).next = p.bundle ids plan dest := by
  have listed : ids ≠ [] := by
    rintro rfl
    cases answer
  have some : ids.isEmpty = false := by simpa using listed
  rw [pack_answer stage listed] at answer
  rcases there : p.destinationFor stage .batch with e | dest
  · rw [there] at answer
    cases answer
  rcases made : p.planPack [] ids with e | plan
  · rw [there, made] at answer
    cases answer
  rw [there, made] at answer
  refine ⟨listed, dest, plan, rfl, rfl, (Except.ok.inj answer).symm, ?_⟩
  unfold pack
  rw [if_neg (by simp [some]), there, made]
  rfl

/-- What a packing is asked for, it does, or says what is wrong with it. -/
structure PacksAsAsked (p : Pipeline) (stage : String) (ids : List Int) : Prop where
  /-- It is carried out when there are frames listed, the destination holds batches, and the frames
  are different and stand in stages by themselves. -/
  accepted : (∃ k, (p.pack stage ids).answer = .ok k) ↔
    ids ≠ [] ∧ p.payload? stage = some .batch ∧ ids.Nodup ∧ ∀ id ∈ ids, p.Independent id
  /-- Then the frames are packed, under the identifier that it answers, and nothing else is done. -/
  packed : ∀ {k}, (p.pack stage ids).answer = .ok k → p.Packed stage ids k (p.pack stage ids).next
  /-- It is refused for the first of the reasons that there are. -/
  refused : ∀ {e}, (p.pack stage ids).answer = .error e ↔ p.PackRefusal stage ids e
  /-- Then nothing is done. -/
  kept : ∀ {e}, (p.pack stage ids).answer = .error e → (p.pack stage ids).next = p
  /-- What is to become of unknown identifiers in a move does not count. -/
  policy : ∀ missingIds,
    ({ p with missingIds := missingIds }.pack stage ids).answer = (p.pack stage ids).answer

section Requests

variable (h : p.Consistent) {stage : String} {ids : List Int}
include h

theorem pack_accepted_iff : (∃ k, (p.pack stage ids).answer = .ok k) ↔
    ids ≠ [] ∧ p.payload? stage = some .batch ∧ ids.Nodup ∧ ∀ id ∈ ids, p.Independent id := by
  constructor
  · intro accepted
    obtain ⟨k, answer⟩ := accepted
    obtain ⟨listed, dest, plan, there, made, -, -⟩ := pack_ok answer
    obtain ⟨same, distinct, -, sources⟩ := planPack_ok ids [] made
    refine ⟨listed, payload?_of_destinationFor there, distinct, fun id hid => ?_⟩
    rw [← same] at hid
    obtain ⟨i, place, frame⟩ := Consistent.single_of_plan sources hid
    exact h.independent_iff.mpr ⟨frame, i, place⟩
  · intro legal
    obtain ⟨listed, holds, distinct, single⟩ := legal
    obtain ⟨dest, there⟩ := destinationFor_of_payload? holds
    obtain ⟨plan, -, answer, -⟩ := pack_accepts there listed distinct single
    exact ⟨p.lastId + 1, answer⟩

theorem pack_refused_iff {e : Error} :
    (p.pack stage ids).answer = .error e ↔ p.PackRefusal stage ids e := by
  constructor
  · intro answer
    by_cases listed : ids = []
    · subst listed
      cases answer
      exact .empty
    rw [pack_answer stage listed] at answer
    rcases named : p.stage? stage with _ | s
    · rw [destinationFor_of_noStage named] at answer
      cases answer
      exact .noStage listed named
    rcases holds : s.payload with _ | _
    · have frames : p.payload? stage = some .frame := by
        rw [payload?, named, Option.map_some, holds]
      rw [destinationFor_of_other frames (by decide)] at answer
      cases answer
      exact .wrongStage listed frames
    · have batches : p.payload? stage = some .batch := by
        rw [payload?, named, Option.map_some, holds]
      obtain ⟨dest, there⟩ := destinationFor_of_payload? batches
      have failed : p.planPack [] ids = .error e := by
        rw [there] at answer
        rcases made : p.planPack [] ids with e' | plan
        · rw [made] at answer
          exact congrArg Except.error (Except.error.inj answer)
        · rw [made] at answer
          cases answer
      obtain ⟨before, id, later, rfl, distinct, good, first⟩ := first_of_planPack h ids [] failed
      rw [List.append_nil] at first
      exact .unfit batches distinct (fun x hx => (good x hx).2) first
  · intro refusal
    cases refusal with
    | empty => rfl
    | noStage listed missing =>
      rw [pack_answer stage listed, destinationFor_of_noStage missing]
      rfl
    | wrongStage listed holds =>
      rw [pack_answer stage listed, destinationFor_of_other holds (by decide)]
      rfl
    | @unfit before later id _ holds distinct single first =>
      obtain ⟨dest, there⟩ := destinationFor_of_payload? holds
      have failed := planPack_at_first h later before [] distinct
        (fun x hx => ⟨List.not_mem_nil, single x hx⟩) (by rw [List.append_nil]; exact first)
      rw [pack_answer stage (by simp), there, failed]
      rfl

end Requests

/-- **A packing does what it is asked for.** In every reachable pipeline, whatever the destination
and the identifiers: it is carried out when they are different single frames, at least one, and the
destination holds batches; then they are packed in their order, with what waits for them, and
nothing else is done; and it is refused for the first fault, in the list, in the destination, or in
an identifier. -/
theorem packs_as_asked (reachable : p.Reachable) (stage : String) (ids : List Int) :
    p.PacksAsAsked stage ids where
  accepted := pack_accepted_iff reachable.consistent
  packed answer := by
    have h := reachable.consistent
    obtain ⟨-, dest, plan, there, made, rfl, next⟩ := pack_ok answer
    obtain ⟨index, payload⟩ := destinationFor_eq_ok_iff.mp there
    obtain ⟨rfl, distinct, -, sources⟩ := planPack_ok ids [] made
    rw [next]
    exact packed_bundle index payload h sources reachable.addressed distinct
  refused := pack_refused_iff reachable.consistent
  kept := pack_error
  policy missingIds := by
    by_cases listed : ids = []
    · rw [listed]
      rfl
    have plan : { p with missingIds := missingIds }.planPack [] ids = p.planPack [] ids :=
      planPack_congr (p := p) (q := { p with missingIds := missingIds }) rfl (fun _ => rfl) ids []
    rw [pack_answer stage listed, pack_answer stage listed, plan]
    rfl

/-- Two frames in different stages, each with an update, are packed in the order of the request; and
the second mention of one of them is what a request is refused for, before one that nobody knows. -/
theorem packs_as_asked_parted : parted.Reachable ∧
    parted.Packed "packs" [1, 2] 4 (parted.pack "packs" [1, 2]).next ∧
    parted.PackRefusal "packs" [1, 1, 9] (.repeatedFrame 1) :=
  ⟨reachable_parted, (packs_as_asked reachable_parted "packs" [1, 2]).packed (by decide),
    (packs_as_asked reachable_parted "packs" [1, 1, 9]).refused.mp (by decide)⟩

end Pipeline
end FrameFlow
