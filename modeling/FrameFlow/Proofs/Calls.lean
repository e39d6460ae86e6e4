/-
# Calls, one after another

What is asked of a state answers something and leaves a state. Asked one after another,
calls answer a list and leave the state of the last. Two ways to keep a state are told
apart by no calls if every call answers alike in related states and leaves related
states (`Simulates`): the run follows from the step.

Key definitions: `Calls.replies`, `Calls.after`, `Calls.Simulates`.
Key theorems: `Calls.Simulates.replies_eq`, `Calls.Simulates.after_rel`.
-/

namespace FrameFlow
namespace Calls

variable {σ τ κ ρ : Type}

/-- What some calls answer, one after another. -/
def replies (ask : σ → κ → ρ × σ) (s : σ) : List κ → List ρ
  | [] => []
  | c :: cs => (ask s c).1 :: replies ask (ask s c).2 cs

/-- The state after some calls, one after another. -/
def after (ask : σ → κ → ρ × σ) (s : σ) : List κ → σ
  | [] => s
  | c :: cs => after ask (ask s c).2 cs

/-- Of related states every call answers alike, and it leaves related states. -/
structure Simulates (ask : σ → κ → ρ × σ) (ask' : τ → κ → ρ × τ) (R : σ → τ → Prop) : Prop where
  reply : ∀ {s t}, R s t → ∀ c, (ask s c).1 = (ask' t c).1
  next : ∀ {s t}, R s t → ∀ c, R (ask s c).2 (ask' t c).2

variable {ask : σ → κ → ρ × σ} {ask' : τ → κ → ρ × τ} {R : σ → τ → Prop} {s : σ} {t : τ}

theorem Simulates.replies_eq (sim : Simulates ask ask' R) (related : R s t) (cs : List κ) :
    replies ask s cs = replies ask' t cs := by
  induction cs generalizing s t with
  | nil => rfl
  | cons c cs ih =>
    have here : (ask s c).1 = (ask' t c).1 := sim.reply related c
    have later := ih (sim.next related c)
    simp only [replies]
    rw [here, later]

theorem Simulates.after_rel (sim : Simulates ask ask' R) (related : R s t) (cs : List κ) :
    R (after ask s cs) (after ask' t cs) := by
  induction cs generalizing s t with
  | nil => exact related
  | cons c cs ih => exact ih (sim.next related c)

/-- What every call keeps holds after all of them. -/
theorem after_keeps {P : σ → Prop} (keeps : ∀ s c, P s → P (ask s c).2) (start : P s)
    (cs : List κ) : P (after ask s cs) := by
  induction cs generalizing s with
  | nil => exact start
  | cons c cs ih => exact ih (keeps s c start)

/-- A step for each of some items is a call for each of them. -/
theorem foldl_eq_after {α : Type} {step : σ → α → σ} {call : α → κ}
    (same : ∀ s a, step s a = (ask s (call a)).2) (l : List α) (s : σ) :
    l.foldl step s = after ask s (l.map call) := by
  induction l generalizing s with
  | nil => rfl
  | cons a l ih =>
    rw [List.foldl_cons, same, ih]
    rfl

end Calls
end FrameFlow
