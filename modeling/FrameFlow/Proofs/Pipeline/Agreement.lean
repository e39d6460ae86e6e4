/-
# What a pipeline shows agrees

Callers see a pipeline through several windows: where an identifier is, what is
resident in a stage and how much, what a batch lists, and the statistics. The
windows look at different tables, and in every reachable pipeline they show the
same graph. The frames are counted by going through the stages for frames and
through the batches in the stages for batches: no frame is met twice, and none
is missed (`Pipeline.stats_frames_eq`).

Key definitions: `Pipeline.TablesAgree`, `Pipeline.AnswersAgree`.
Key theorem: `Pipeline.graph_agrees`.
-/
import Mathlib
import FrameFlow.Proofs.Pipeline.Consistency

namespace FrameFlow
namespace Pipeline

/-- The members of a batch. -/
def membersOf (p : Pipeline) (k : Int) : List Int := ((p.batch? k).map Batch.members).getD []

/-- What is resident in the stages for a payload, stage by stage. -/
def idsIn (p : Pipeline) (payload : Payload) : List Int :=
  (p.stages.filter fun s => s.payload = payload).flatMap fun s => s.residents.toList

/-- The tables show one graph. -/
structure TablesAgree (p : Pipeline) : Prop where
  /-- What has a place is a frame or a batch. -/
  known : ∀ id, (p.places.get? id).isSome ↔ (p.frames.get? id).isSome ∨ (p.batches.get? id).isSome
  /-- Nothing is a frame and a batch. -/
  apart : ∀ id, ¬((p.frames.get? id).isSome ∧ (p.batches.get? id).isSome)
  /-- Residents of a stage are what has its place there. -/
  resident : ∀ id i, p.places.get? id = some (.stage i) ↔
    ∃ s, p.stages[i]? = some s ∧ id ∈ s.residents.toList
  /-- Nothing is in two stages. -/
  oneStage : ∀ (id : Int) (i j : Nat) (s t : Stage), p.stages[i]? = some s →
    p.stages[j]? = some t → id ∈ s.residents.toList → id ∈ t.residents.toList → i = j
  /-- A packed frame is in the batch that lists it. -/
  packed : ∀ id k, p.places.get? id = some (.batch k) ↔
    ∃ b, p.batches.get? k = some b ∧ id ∈ b.members
  /-- A batch lists some frames, each once, and no batch. -/
  members : ∀ k b, p.batches.get? k = some b → b.members ≠ [] ∧ b.members.Nodup ∧
    ∀ m ∈ b.members, (p.frames.get? m).isSome ∧ p.batches.get? m = none
  /-- No frame is listed by two batches. -/
  disjoint : ∀ k k' b b', p.batches.get? k = some b → p.batches.get? k' = some b' → k ≠ k' →
    b.members.Disjoint b'.members
  /-- A batch is itself in a stage. -/
  settled : ∀ k b, p.batches.get? k = some b → ∃ i, p.places.get? k = some (.stage i)
  /-- Stages for frames hold frames, and stages for batches hold batches. -/
  holds : ∀ s ∈ p.stages, ∀ id ∈ s.residents.toList,
    match s.payload with
    | .frame => (p.frames.get? id).isSome
    | .batch => (p.batches.get? id).isSome

/-- What callers are told of the graph is one graph. -/
structure AnswersAgree (p : Pipeline) : Prop where
  inStage : ∀ id name payload, p.locate id = some (.stage name payload) ↔
    p.payload? name = some payload ∧ ∃ ids, p.stageIds? name = some ids ∧ id ∈ ids
  inBatch : ∀ id k, p.locate id = some (.batch k) ↔ ∃ b, p.batch? k = some b ∧ id ∈ b.members
  located : ∀ id, (p.locate id).isSome ↔ (p.frame? id).isSome ∨ (p.batch? id).isSome
  increasing : ∀ name ids, p.stageIds? name = some ids → ids.Pairwise (· < ·)
  sizes : ∀ name, p.stageSize? name = (p.stageIds? name).map List.length
  stages : p.stats.stages = p.stageNames.map fun name => (name, ((p.stageIds? name).getD []).length)
  frames : p.stats.frames =
    (p.idsIn .frame).length + ((p.idsIn .batch).map fun k => (p.membersOf k).length).sum
  batches : p.stats.batches = (p.idsIn .batch).length

namespace Consistent

variable {p : Pipeline} (h : p.Consistent)
include h

theorem tablesAgree : p.TablesAgree where
  known _ := h.known_iff
  apart id := by
    rintro ⟨hf, hb⟩
    obtain ⟨f, hf⟩ := Option.isSome_iff_exists.mp hf
    rw [h.batch_of_frame hf] at hb
    cases hb
  resident _ _ := h.resident
  oneStage id i j s t hs ht hi hj := h.holds_unique ⟨s, hs, hi⟩ ⟨t, ht, hj⟩
  packed _ _ := h.packed_iff
  members k b hb := by
    obtain ⟨-, -, filled, distinct, members⟩ := h.batch hb
    refine ⟨filled, distinct, fun m hm => ?_⟩
    obtain ⟨f, -, hf, -⟩ := h.packed (members m hm)
    exact ⟨by simp [hf], h.batch_of_frame hf⟩
  disjoint k k' b b' hb hb' ne m hm hm' := by
    have := ((h.batch hb).2.2.2.2 m hm).symm.trans ((h.batch hb').2.2.2.2 m hm')
    cases this
    exact ne rfl
  settled k b hb := by
    obtain ⟨⟨i, hi, -⟩, -⟩ := h.batch hb
    exact ⟨i, hi⟩
  holds s hs id hid := by
    obtain ⟨i, hi⟩ := List.mem_iff_getElem?.mp hs
    have payload : p.payloadAt? i = some s.payload := by rw [payloadAt?, hi, Option.map_some]
    rcases h.of_stage (h.resident.mpr ⟨s, hi, hid⟩) with ⟨hk, hf, -⟩ | ⟨hk, -, hb⟩
    · rw [Option.some.inj (payload.symm.trans hk)]
      exact hf
    · rw [Option.some.inj (payload.symm.trans hk)]
      exact hb

/-! ### Stages by name -/

/-- A name belongs to one stage. -/
theorem stage?_eq_some_iff {name : String} {s : Stage} :
    p.stage? name = some s ↔ s ∈ p.stages ∧ s.name = name := by
  unfold stage?
  constructor
  · intro hs
    exact ⟨List.mem_of_find?_eq_some hs, by simpa using List.find?_some hs⟩
  · rintro ⟨hs, rfl⟩
    rcases hf : p.stages.find? (fun t => t.name == s.name) with _ | t
    · simpa using List.find?_eq_none.mp hf s hs
    · have same : t.name = s.name := by simpa using List.find?_some hf
      rw [hf, List.inj_on_of_nodup_map h.names (List.mem_of_find?_eq_some hf) hs same]

theorem locate_eq_stage_iff {id : Int} {name : String} {payload : Payload} :
    p.locate id = some (.stage name payload) ↔
      p.payload? name = some payload ∧ ∃ ids, p.stageIds? name = some ids ∧ id ∈ ids := by
  have there : p.locate id = some (.stage name payload) ↔
      ∃ s ∈ p.stages, id ∈ s.residents.toList ∧ s.name = name ∧ s.payload = payload := by
    constructor
    · intro hl
      unfold locate at hl
      split at hl
      · cases hl
      · cases hl
      · next i hp =>
        obtain ⟨s, hs, hid⟩ := h.resident.mp hp
        rw [hs] at hl
        cases hl
        exact ⟨s, List.mem_of_getElem? hs, hid, rfl, rfl⟩
    · rintro ⟨s, hs, hid, rfl, rfl⟩
      obtain ⟨i, hi⟩ := List.mem_iff_getElem?.mp hs
      unfold locate
      rw [h.resident.mpr ⟨s, hi, hid⟩]
      simp [hi]
  rw [there]
  constructor
  · rintro ⟨s, hs, hid, hn, rfl⟩
    have found := h.stage?_eq_some_iff.mpr ⟨hs, hn⟩
    exact ⟨by rw [payload?, found, Option.map_some],
      s.residents.toList, by rw [stageIds?, found, Option.map_some], hid⟩
  · rintro ⟨hk, ids, hids, hid⟩
    obtain ⟨s, found, rfl⟩ := Option.map_eq_some_iff.mp hk
    rw [stageIds?, found] at hids
    cases hids
    obtain ⟨hs, hn⟩ := h.stage?_eq_some_iff.mp found
    exact ⟨s, hs, hid, hn, rfl⟩

theorem locate_eq_batch_iff {id k : Int} :
    p.locate id = some (.batch k) ↔ ∃ b, p.batch? k = some b ∧ id ∈ b.members := by
  rw [batch?, ← h.packed_iff]
  unfold locate
  rcases hp : p.places.get? id with _ | i | k'
  · simp
  · simp
  · simp

theorem locate_isSome_iff {id : Int} :
    (p.locate id).isSome ↔ (p.frame? id).isSome ∨ (p.batch? id).isSome := by
  rw [frame?, batch?, ← h.known_iff]
  unfold locate
  rcases hp : p.places.get? id with _ | i | k
  · simp
  · obtain ⟨s, hs, -⟩ := h.resident.mp hp
    simp [hs]
  · simp

/-! ### Counting -/

omit h in
theorem mem_idsIn {payload : Payload} {id : Int} :
    id ∈ p.idsIn payload ↔ ∃ i, p.Holds i id ∧ p.payloadAt? i = some payload := by
  simp only [idsIn, List.mem_flatMap, List.mem_filter, decide_eq_true_eq]
  constructor
  · rintro ⟨s, ⟨hs, hk⟩, hid⟩
    obtain ⟨i, hi⟩ := List.mem_iff_getElem?.mp hs
    exact ⟨i, ⟨s, hi, hid⟩, by rw [payloadAt?, hi, Option.map_some, hk]⟩
  · rintro ⟨i, ⟨s, hi, hid⟩, hk⟩
    rw [payloadAt?, hi] at hk
    exact ⟨s, ⟨List.mem_of_getElem? hi, Option.some.inj hk⟩, hid⟩

theorem nodup_idsIn (payload : Payload) : (p.idsIn payload).Nodup := by
  have disjoint : p.stages.Pairwise
      (Function.onFun List.Disjoint fun s => s.residents.toList) := by
    rw [List.pairwise_iff_getElem]
    intro i j hi hj lt x hx hx'
    have same : i = j :=
      h.holds_unique ⟨_, List.getElem?_eq_getElem hi, hx⟩ ⟨_, List.getElem?_eq_getElem hj, hx'⟩
    omega
  exact List.nodup_flatMap.mpr ⟨fun s _ => s.residents.nodup, disjoint.filter _⟩

theorem mem_idsIn_frame {id : Int} : id ∈ p.idsIn .frame ↔
    (p.frames.get? id).isSome ∧ ∃ i, p.places.get? id = some (.stage i) := by
  rw [mem_idsIn]
  constructor
  · rintro ⟨i, hi, hk⟩
    have hp := h.resident.mpr hi
    rcases h.of_stage hp with ⟨-, hf, -⟩ | ⟨hk', -, -⟩
    · exact ⟨hf, i, hp⟩
    · cases hk.symm.trans hk'
  · rintro ⟨hf, i, hp⟩
    obtain ⟨f, hf⟩ := Option.isSome_iff_exists.mp hf
    exact ⟨i, h.resident.mp hp, h.single hp hf⟩

theorem mem_idsIn_batch {k : Int} : k ∈ p.idsIn .batch ↔ (p.batches.get? k).isSome := by
  rw [mem_idsIn]
  constructor
  · rintro ⟨i, hi, hk⟩
    rcases h.of_stage (h.resident.mpr hi) with ⟨hk', -, -⟩ | ⟨-, -, hb⟩
    · cases hk.symm.trans hk'
    · exact hb
  · intro hb
    obtain ⟨b, hb⟩ := Option.isSome_iff_exists.mp hb
    obtain ⟨⟨i, hi, hk⟩, -⟩ := h.batch hb
    exact ⟨i, h.resident.mp hi, hk⟩

theorem mem_membersOf {m k : Int} : m ∈ p.membersOf k ↔ p.places.get? m = some (.batch k) := by
  rw [h.packed_iff, membersOf, batch?]
  rcases p.batches.get? k with _ | b <;> simp

/-- There are as many batches as residents of stages for batches. -/
theorem stats_batches_eq : p.stats.batches = (p.idsIn .batch).length :=
  Table.size_eq (h.nodup_idsIn .batch) fun _ => h.mem_idsIn_batch

/-- Each frame is met once, in a stage for frames or in a batch in a stage for batches. -/
theorem stats_frames_eq : p.stats.frames =
    (p.idsIn .frame).length + ((p.idsIn .batch).map fun k => (p.membersOf k).length).sum := by
  rw [← List.length_flatMap, ← List.length_append]
  refine Table.size_eq (List.nodup_append'.mpr ⟨h.nodup_idsIn .frame, ?_, ?_⟩) fun id => ?_
  · refine List.nodup_flatMap.mpr ⟨fun k hk => ?_, (h.nodup_idsIn .batch).imp fun ne m hm hm' => ?_⟩
    · obtain ⟨b, hb⟩ := Option.isSome_iff_exists.mp (h.mem_idsIn_batch.mp hk)
      rw [membersOf, batch?, hb]
      exact (h.batch hb).2.2.2.1
    · cases (h.mem_membersOf.mp hm).symm.trans (h.mem_membersOf.mp hm')
      exact ne rfl
  · intro id hid hid'
    obtain ⟨-, i, hi⟩ := h.mem_idsIn_frame.mp hid
    obtain ⟨k, -, hm⟩ := List.mem_flatMap.mp hid'
    cases hi.symm.trans (h.mem_membersOf.mp hm)
  · rw [List.mem_append, List.mem_flatMap, h.mem_idsIn_frame]
    constructor
    · rintro (⟨hf, -⟩ | ⟨k, -, hm⟩)
      · exact hf
      · obtain ⟨f, -, hf, -⟩ := h.packed (h.mem_membersOf.mp hm)
        simp [hf]
    · intro hf
      cases h.standing id with
      | single place => exact .inl ⟨hf, _, place⟩
      | packed place _ _ live =>
        exact .inr ⟨_, h.mem_idsIn_batch.mpr (by simp [live]), h.mem_membersOf.mpr place⟩
      | _ => simp_all

theorem stats_stages_eq : p.stats.stages =
    p.stageNames.map fun name => (name, ((p.stageIds? name).getD []).length) := by
  rw [stats, stageNames, List.map_map]
  refine List.map_congr_left fun s hs => ?_
  have found := h.stage?_eq_some_iff.mpr ⟨hs, rfl⟩
  simp [stageIds?, found, SortedBy.size]

theorem answersAgree : p.AnswersAgree where
  inStage _ _ _ := h.locate_eq_stage_iff
  inBatch _ _ := h.locate_eq_batch_iff
  located _ := h.locate_isSome_iff
  increasing name ids hids := by
    obtain ⟨s, -, rfl⟩ := Option.map_eq_some_iff.mp hids
    exact s.residents.increasing
  sizes name := by
    rw [stageSize?, stageIds?, Option.map_map]
    rfl
  stages := h.stats_stages_eq
  frames := h.stats_frames_eq
  batches := h.stats_batches_eq

end Consistent

/-- **The graph is consistent.** From a configuration that passes its check, whatever operations
follow, with whatever arguments, the tables show one graph, and so do all answers about it. -/
theorem graph_agrees {c : Config} (hc : c.check = .ok ()) (ops : List Operation) :
    ∃ q e, create c = .ok (q, e) ∧ (q.after ops).TablesAgree ∧ (q.after ops).AnswersAgree := by
  have made := create_of_check hc
  have consistent : ((ofConfig c).after ops).Consistent :=
    Reachable.consistent ⟨c, _, _, ops, made, rfl⟩
  exact ⟨_, _, made, consistent.tablesAgree, consistent.answersAgree⟩

theorem graph_agrees_sample : sampleConfig.check = .ok () ∧
    ∃ q e, create sampleConfig = .ok (q, e) ∧ (q.after sampleRun).TablesAgree ∧
      (q.after sampleRun).AnswersAgree :=
  ⟨rfl, graph_agrees rfl sampleRun⟩

end Pipeline
end FrameFlow
