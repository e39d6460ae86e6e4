/-
# The stages and their names

The list of stages and the table of their names are built in one loop (`Config.build`). An entry of
the table is put over an earlier one of the same name, so the table is the inverse of the list only
because the check lets no name through twice (`Config.build_eq`). Operations move frames and
batches between the stages, and no operation changes their names or what they hold
(`Pipeline.shape_after`), so the table stays the inverse of the list (`Pipeline.table_after`).

Key definition: `Config.build`.
Key theorems: `Config.build_eq`, `Pipeline.shape_after`, `Pipeline.table_after`.
-/
import FrameFlow.Proofs.Pipeline.Acceptance

namespace FrameFlow

/-! ### Building -/

/-- A stage that was just built. -/
def StageSpec.fresh (s : StageSpec) : Stage := ⟨s.name, s.payload, .empty⟩

namespace Config

/-- The stages and the table of their names, both built by going once through the specifications. -/
def build (c : Config) : List Stage × Table String Nat :=
  c.stages.zipIdx.foldl (fun g s => (g.1 ++ [s.1.fresh], g.2.set s.1.name s.2)) ([], .empty)

theorem build_stages (l : List StageSpec) : ∀ (k : Nat) (g : List Stage × Table String Nat),
    ((l.zipIdx k).foldl (fun g s => (g.1 ++ [s.1.fresh], g.2.set s.1.name s.2)) g).1 =
      g.1 ++ l.map StageSpec.fresh := by
  induction l with
  | nil => simp
  | cons s l ih =>
    intro k g
    rw [List.zipIdx_cons, List.foldl_cons, ih]
    simp

/-- Where no name stands twice, none of the entries is put over another. -/
theorem build_table {l : List StageSpec} (distinct : (l.map StageSpec.name).Nodup) (name : String) :
    ∀ (k : Nat) (g : List Stage × Table String Nat),
    ((l.zipIdx k).foldl (fun g s => (g.1 ++ [s.1.fresh], g.2.set s.1.name s.2)) g).2.get? name =
      ((l.findIdx? fun s => s.name == name).map (· + k)).or (g.2.get? name) := by
  induction l with
  | nil => simp
  | cons s l ih =>
    intro k g
    obtain ⟨new, distinct⟩ := List.nodup_cons.mp distinct
    rw [List.zipIdx_cons, List.foldl_cons, ih distinct, List.findIdx?_cons, Table.get?_set]
    by_cases same : s.name = name
    · -- what comes later has other names
      have none : (l.findIdx? fun s => s.name == name) = none := by
        rw [List.findIdx?_eq_none_iff]
        intro t ht
        simp only [beq_eq_false_iff_ne]
        rintro rfl
        exact new (same ▸ List.mem_map_of_mem ht)
      simp [none, same]
    · have other : (s.name == name) = false := by simpa using same
      rw [if_neg same, other]
      simp [Option.map_map, Function.comp_def, Nat.add_comm, Nat.add_left_comm]

/-- The table finds the index of a name in the list. -/
theorem build_eq {c : Config} (distinct : c.stageNames.Nodup) :
    c.build.1 = (Pipeline.ofConfig c).stages ∧
      ∀ name, c.build.2.get? name = (Pipeline.ofConfig c).indexOf? name := by
  refine ⟨build_stages c.stages 0 _, fun name => ?_⟩
  refine (build_table distinct name 0 _).trans ?_
  rw [Pipeline.indexOf?, Pipeline.ofConfig, List.findIdx?_map]
  simp [Function.comp_def]

end Config

namespace Pipeline

variable {p q : Pipeline} {c : Config}

/-- A name stands for the stage at its index. -/
theorem indexOf?_eq_some {name : String} {i : Nat} (h : p.indexOf? name = some i) :
    ∃ s, p.stages[i]? = some s ∧ s.name = name := by
  obtain ⟨below, same, -⟩ := List.findIdx?_eq_some_iff_getElem.mp h
  exact ⟨_, List.getElem?_eq_getElem below, by simpa using same⟩

/-! ### Runs -/

/-- No effect changes the names of the stages or what they hold. -/
theorem Effect.shape (e : p.Effect q) : q.shape = p.shape := by
  cases e with
  | movement m =>
    cases m with
    | stay => rfl
    | arrive f payload => exact (reseated_settle _ _ _).shape
    | relocate payload distinct sources => exact (reseated_relocate p _ _).shape
    | bundle payload filled distinct sources => exact shape_bundle p _ _ _
    | dissolve payload place live => exact shape_dissolve p _ _ _
  | dropFrame place frame => exact (reseated_leave p _ _).shape
  | dropBatch place live =>
    rw [dropBatch_eq]
    exact (reseated_leave p _ _).shape
  | enqueue frame keeper => rfl
  | settle id same => rfl
  | edit g frame => rfl

/-- No run of operations changes the names of the stages or what they hold. -/
theorem shape_after (ops : List Operation) (h : p.Consistent) : (p.after ops).shape = p.shape := by
  induction ops generalizing p with
  | nil => rfl
  | cons op ops ih =>
    have e := effect_run h op
    exact (ih (h.effect e)).trans e.shape

theorem shape_ofConfig (c : Config) :
    (ofConfig c).shape = c.stages.map fun s => (s.name, s.payload) := by
  simp [Pipeline.shape, ofConfig]

/-- After any operations a new pipeline has the list of stages that was built. -/
theorem shape_built (hc : c.check = .ok ()) (ops : List Operation) :
    ((ofConfig c).after ops).shape = c.stages.map fun s => (s.name, s.payload) :=
  (shape_after ops (consistent_ofConfig hc)).trans (shape_ofConfig c)

/-- The table that was built finds names in a list of stages that is as it was built. -/
theorem table_of_shape (distinct : c.stageNames.Nodup)
    (shape : p.shape = c.stages.map fun s => (s.name, s.payload)) (name : String) :
    c.build.2.get? name = p.indexOf? name := by
  have new : p.shape = (ofConfig c).shape := shape.trans (shape_ofConfig c).symm
  rw [(Config.build_eq distinct).2, indexOf?_congr new]

/-- After any operations the table that was built finds every name in the list of stages. -/
theorem table_after (hc : c.check = .ok ()) (ops : List Operation) (name : String) :
    c.build.2.get? name = ((ofConfig c).after ops).indexOf? name :=
  table_of_shape (Config.nodup_of_check hc) (shape_built hc ops) name

end Pipeline
end FrameFlow
