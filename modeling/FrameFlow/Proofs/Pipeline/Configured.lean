/-
# A pipeline has the graph of its configuration

No operation changes the names of the stages or what they hold, so what was configured is what every
later look-up by a name finds, and what a move that lists nothing draws from
(`Pipeline.serves_of_shape`). What the check lets through is therefore decided once for all that is
ever done with a pipeline (`Config.decides`).

Key definitions: `Pipeline.Nowhere`, `Pipeline.DrawsFrom`, `Pipeline.Serves`.
Key theorems: `Pipeline.serves_after`, `Config.decides`.
-/
import FrameFlow.Proofs.Pipeline.Packing

namespace FrameFlow

namespace Pipeline

/-! ### What is served -/

/-- A name that a pipeline does not know, whatever is asked. -/
structure Nowhere (p : Pipeline) (name : String) : Prop where
  index : p.indexOf? name = none
  payload : p.payload? name = none
  size : p.stageSize? name = none
  ids : p.stageIds? name = none
  add : ∀ f, p.addFrame name f = .refuse p (.stageNotFound name) []
  move : ∀ ids, p.move name ids = .refuse p (.stageNotFound name) []
  /-- That nothing is listed is seen before the name is. -/
  pack : ∀ ids, p.pack name ids =
    .refuse p (if ids = [] then .emptyBatch else .stageNotFound name) []
  unpack : ∀ id, p.unpack name id = .refuse p (.stageNotFound name) []
  unpackIf : ∀ id accept, p.unpackIf name id accept = .refuse p (.stageNotFound name) []

/-- A move that lists nothing, into the stage at the index `i`, draws from the stage for `r`. -/
structure DrawsFrom (p : Pipeline) (i : Nat) (r s : StageSpec) (ids : List Int) : Prop where
  source : p.stageIds? r.name = some ids
  /-- Where nothing is resident, nothing is moved. -/
  nothing : ids = [] → p.move s.name [] = ⟨.ok 0, p, [.moved p.name s.name 0]⟩
  /-- Otherwise all residents might as well have been listed. -/
  listed : ids ≠ [] → p.move s.name [] = p.move s.name ids
  /-- They come into the stage if it holds what they are. -/
  moved : r.payload = s.payload →
    (p.move s.name []).answer = .ok ids.length ∧ p.Moved i ids (p.move s.name []).next
  refused : ids ≠ [] → r.payload ≠ s.payload →
    p.move s.name [] = .refuse p (.payloadMismatch s.name s.payload r.payload) []

/-- A pipeline has the graph of a configuration. -/
structure Serves (c : Config) (p : Pipeline) : Prop where
  names : p.stageNames = c.stageNames
  /-- A name stands for the place in the list where it is. -/
  index : ∀ name i, p.indexOf? name = some i ↔ c.stageNames[i]? = some name
  /-- It is the place that the table of names has for it. -/
  table : ∀ name, c.build.2.get? name = p.indexOf? name
  payload : ∀ (i : Nat) s, c.stages[i]? = some s → p.payload? s.name = some s.payload
  others : ∀ name, name ∉ c.stageNames → p.Nowhere name
  /-- There is nothing before the first stage, and each other one draws from the one before it. -/
  first : ∀ s, c.stages[0]? = some s → p.move s.name [] = ⟨.ok 0, p, []⟩
  draws : ∀ (i : Nat) r s, c.stages[i]? = some r → c.stages[i + 1]? = some s →
    ∃ ids, p.DrawsFrom (i + 1) r s ids

/-! ### Names -/

variable {p : Pipeline} {c : Config} {name : String}

theorem nowhere_of_noStage (missing : p.stage? name = none) : p.Nowhere name := by
  have destination := destination_of_noStage missing
  have destinationFor := destinationFor_of_noStage missing
  have route : ∀ id, p.unpackRoute name id = .error (.stageNotFound name) := by
    intro id
    rw [unpackRoute, destinationFor]
    rfl
  refine ⟨?_, ?_, ?_, ?_, fun f => ?_, move_of_noDestination destination, fun ids => ?_,
    fun id => ?_, fun id accept => ?_⟩
  · rcases index : p.indexOf? name with _ | i
    · rfl
    · obtain ⟨s, there, -⟩ := indexOf?_eq_some index
      rw [stage?_eq_some_iff.mpr ⟨i, index, there⟩] at missing
      cases missing
  · rw [payload?, missing]; rfl
  · rw [stageSize?, missing]; rfl
  · rw [stageIds?, missing]; rfl
  · rw [addFrame, destinationFor]
  · unfold pack
    cases ids with
    | nil => rfl
    | cons id ids => rw [destinationFor]; rfl
  · rw [unpack, route]
  · rw [unpackIf, route]

/-- A name stands for the place in the list where it is. -/
theorem Consistent.indexOf?_eq_some_iff (h : p.Consistent) {i : Nat} :
    p.indexOf? name = some i ↔ p.stageNames[i]? = some name := by
  unfold stageNames
  rw [List.getElem?_map, Option.map_eq_some_iff]
  constructor
  · exact indexOf?_eq_some
  · rintro ⟨s, there, rfl⟩
    have named := h.stage?_eq_some_iff.mpr ⟨List.mem_of_getElem? there, rfl⟩
    obtain ⟨j, index, found⟩ := Pipeline.stage?_eq_some_iff.mp named
    -- at both places is the name, and no name stands twice
    have below : i < (p.stages.map Stage.name).length := by
      rw [List.length_map]
      exact (List.getElem?_eq_some_iff.mp there).1
    have same : i = j := (List.getElem?_inj below h.names).mp
      (by simp only [List.getElem?_map, there, found])
    rw [index, same]

section Shape

variable (h : p.Consistent) (shape : p.shape = c.stages.map fun s => (s.name, s.payload))
include h shape

theorem stage_of_shape {i : Nat} {s : StageSpec} (there : c.stages[i]? = some s) :
    ∃ t, p.stages[i]? = some t ∧ t.name = s.name ∧ t.payload = s.payload ∧
      p.indexOf? s.name = some i := by
  have at' := congrArg (fun l => l[i]?) shape
  simp only [Pipeline.shape, List.getElem?_map, there, Option.map_some] at at'
  obtain ⟨t, found, same⟩ := Option.map_eq_some_iff.mp at'
  obtain ⟨name, payload⟩ := Prod.mk.inj same
  refine ⟨t, found, name, payload, h.indexOf?_eq_some_iff.mpr ?_⟩
  rw [stageNames, List.getElem?_map, found, Option.map_some, name]

/-- What is resident in the stage before is what is asked of a move that lists nothing. -/
theorem requested_of_shape {i : Nat} {r : StageSpec} (before : c.stages[i]? = some r) :
    p.stageIds? r.name = some (p.requested (i + 1) []) := by
  obtain ⟨t, found, -, -, index⟩ := stage_of_shape h shape before
  rw [stageIds?_eq, index, Option.bind_some, found, Option.map_some]
  simp [requested, found]

theorem drawsFrom {i : Nat} {r s : StageSpec} (before : c.stages[i]? = some r)
    (there : c.stages[i + 1]? = some s) :
    p.DrawsFrom (i + 1) r s (p.requested (i + 1) []) := by
  obtain ⟨t, source, -, holds, -⟩ := stage_of_shape h shape before
  obtain ⟨u, target, name, payload, index⟩ := stage_of_shape h shape there
  have found : p.destination s.name = .ok (i + 1, u) := destination_eq_ok_iff.mpr ⟨index, target⟩
  have residents : p.requested (i + 1) [] = t.residents.toList := by simp [requested, source]
  have resident : ∀ x ∈ p.requested (i + 1) [], p.places.get? x = some (.stage i) := by
    intro x hx
    rw [residents] at hx
    exact h.resident.mpr ⟨t, source, hx⟩
  refine ⟨requested_of_shape h shape before, fun none => ?_, fun some => ?_, fun same => ?_,
    fun some other => ?_⟩
  · rw [move, found]
    simp only [none]
    rfl
  · have listed : (p.requested (i + 1) []).isEmpty = false := by simpa using some
    have asked : p.requested (i + 1) (p.requested (i + 1) []) = p.requested (i + 1) [] := by
      rw [requested, listed, if_neg (by simp)]
    unfold move
    rw [found]
    simp only [listed, Bool.false_and, Bool.false_eq_true, if_false, asked]
    rfl
  · have located : ∀ x ∈ p.requested (i + 1) [],
        p.locate x = Option.some (.stage t.name t.payload) := by
      intro x hx
      rw [locate, resident x hx]
      simp only [source, Option.map_some]
    have fits : (p.requested (i + 1) []).findSome? (p.objection? u) = none :=
      findSome?_objection?_eq_none_iff.mpr fun x hx =>
        .inl ⟨t.name, by rw [located x hx, payload, ← same, holds]⟩
    have known : p.knownOf (p.requested (i + 1) []) = p.requested (i + 1) [] := by
      rw [knownOf, List.filter_eq_self.mpr fun x hx => by rw [located x hx]; rfl]
      rw [residents]
      exact List.Nodup.dedup (Ids.nodup _)
    have moves := move_eq h found []
    rw [asked_eq_requested h found, fits, known] at moves
    exact moves
  · obtain ⟨x, xs, list⟩ := List.exists_cons_of_ne_nil some
    have stands := resident x (by rw [list]; exact List.mem_cons_self)
    have unfit : expect u t.payload = .error (.payloadMismatch s.name s.payload r.payload) := by
      rw [expect, payload, holds, if_neg (Ne.symm other), name]
    rw [move, found]
    simp only [list, planMove, stands, source, unfit]
    rfl

/-- Nothing comes before the first stage. -/
theorem move_first {s : StageSpec} (there : c.stages[0]? = some s) :
    p.move s.name [] = ⟨.ok 0, p, []⟩ := by
  obtain ⟨t, target, -, -, index⟩ := stage_of_shape h shape there
  rw [move, destination_eq_ok_iff.mpr ⟨index, target⟩]
  rfl

/-- A consistent pipeline with the stages of a configuration serves it. -/
theorem serves_of_shape : p.Serves c := by
  have names : p.stageNames = c.stageNames := by
    rw [stageNames_eq, shape, List.map_map]
    rfl
  refine ⟨names, fun name i => ?index, fun name => ?table, fun i s there => ?payload,
    fun name missing => ?others, fun s => move_first h shape,
    fun i r s before there => ⟨_, drawsFrom h shape before there⟩⟩
  case index =>
    rw [h.indexOf?_eq_some_iff, names]
  case table =>
    exact table_of_shape (names ▸ h.names) shape name
  case payload =>
    obtain ⟨t, found, -, holds, index⟩ := stage_of_shape h shape there
    rw [payload?, stage?_eq_some_iff.mpr ⟨i, index, found⟩, Option.map_some, holds]
  case others =>
    refine nowhere_of_noStage ?_
    rw [stage?, List.find?_eq_none]
    intro s hs named
    rw [← names] at missing
    exact missing (List.mem_map.mpr ⟨s, hs, by simpa using named⟩)

end Shape

/-! ### Runs -/

/-- After any operations a new pipeline serves its configuration. -/
theorem serves_after (hc : c.check = .ok ()) (ops : List Operation) :
    ((ofConfig c).after ops).Serves c := by
  have reachable : ((ofConfig c).after ops).Reachable := ⟨c, _, _, ops, create_of_check hc, rfl⟩
  exact serves_of_shape reachable.consistent (shape_built hc ops)

end Pipeline

/-! ### What the check decides -/

namespace Config

open Pipeline

/-- What becomes of a configuration. -/
structure Decides (c : Config) : Prop where
  accepted : c.check = .ok () ↔ c.Fine
  refused : ∀ e, c.check = .error e ↔ c.Refused e
  created : ∀ q event, create c = .ok (q, event) ↔
    c.Fine ∧ q = ofConfig c ∧ event = .created c.name c.stages.length
  notCreated : ∀ e, create c = .error e ↔ c.Refused e
  /-- The loop that builds the stages and the table of their names gives the stages. -/
  built : ∀ q event, create c = .ok (q, event) → q.stages = c.build.1
  serves : ∀ q event, create c = .ok (q, event) → ∀ ops, (q.after ops).Serves c

/-- **Exactly the configurations whose stages can be told apart are accepted.** Every other one is
refused for the first of its stages that has no name or a name that stands before it, or else for
its level. A pipeline of an accepted one has, after any operations, the graph that was configured:
names are found where they were listed, no other name is found, and a move that lists nothing draws
from the stage listed before. -/
theorem decides (c : Config) : c.Decides := by
  have made : ∀ q event, create c = .ok (q, event) ↔
      c.check = .ok () ∧ q = ofConfig c ∧ event = .created c.name c.stages.length := by
    intro q event
    unfold create
    rcases c.check with e | ⟨⟩
    · simp [bind, Except.bind]
    · simp [bind, Except.bind, pure, Except.pure, eq_comm]
  refine ⟨check_eq_ok_iff, fun e => check_eq_error_iff, fun q event => ?_, fun e => ?_,
    fun q event new => ?_, fun q event new ops => ?_⟩
  · rw [made, check_eq_ok_iff]
  · rw [← check_eq_error_iff]
    unfold create
    rcases c.check with e' | ⟨⟩
    · simp [bind, Except.bind]
    · simp [bind, Except.bind, pure, Except.pure]
  · obtain ⟨checked, rfl, -⟩ := (made q event).mp new
    exact (build_eq (nodup_of_check checked)).1.symm
  · obtain ⟨checked, rfl, -⟩ := (made q event).mp new
    exact serves_after checked ops

end Config
end FrameFlow
