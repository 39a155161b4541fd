import EmbeddedSystem.Foundations.Outputs
import EmbeddedSystem.StepMotor.Driver

namespace EmbeddedSystem.StepMotor

open Foundations Foundations.Outputs

inductive Pin
  | pin1 | pin2 | pin3 | pin4
  deriving DecidableEq

def setstep (c : Coils) : List (Pin × ℕ) :=
  [(.pin1, c.p1), (.pin2, c.p2), (.pin3, c.p3), (.pin4, c.p4)]

def pinWrites (cmd : Command) : List (Pin × ℕ) :=
  match stepMotorIoctl cmd with
  | .ok (trace, _) => (trace.map setstep).flatten
  | .error _ => []

section Settling

lemma settles_off : Settles 0 (setstep .off) := by
  simp [setstep, Coils.off, Settles]

lemma mem_keys_setstep (c : Coils) (pin : Pin) : pin ∈ keys (setstep c) := by
  cases pin <;> simp [keys, setstep]

lemma settles_trace (trace : List Coils) :
    Settles 0 ((trace ++ [Coils.off]).map setstep).flatten := by
  rw [List.map_append, List.flatten_append]
  apply settles_of_keys
  · simpa using settles_off
  · intro pin _
    simpa using mem_keys_setstep .off pin

lemma settles_pinWrites (cmd : Command) : Settles 0 (pinWrites cmd) := by
  obtain ⟨hopen, hclose⟩ := stepMotorIoctl_eq
  cases cmd with
  | motorOpen =>
    rw [pinWrites, hopen]
    exact settles_trace _
  | motorClose =>
    rw [pinWrites, hclose]
    exact settles_trace _
  | unknown => trivial

end Settling

section Results

variable {P : Type} [DecidableEq P] {s : State P Pin ℕ} {ls : List (P × Outputs.Move Command Pin ℕ)}

theorem pins_low (h : Run (Outputs.Step pinWrites) (.init 0) ls s) :
    (∀ pin, s.out pin ≠ 0 → ∃ p ws, s.call p = some ws ∧ (pin, 0) ∈ ws) ∧
      ((∀ p, s.call p = none) → ∀ pin, s.out pin = 0) :=
  rests_run settles_pinWrites h

theorem pins_low_open : ∃ (s : State (Fin 2) Pin ℕ), s.out .pin1 = 1 ∧
    ∃ p ws, s.call p = some ws ∧ (Pin.pin1, 0) ∈ ws := by
  have hwrites : ∃ ws, pinWrites .motorOpen = (.pin1, 1) :: ws := by
    rw [pinWrites, stepMotorIoctl_eq.1, List.replicate_succ]
    exact ⟨_, rfl⟩
  obtain ⟨ws, hws⟩ := hwrites
  obtain ⟨s, hrun, hhigh⟩ : ∃ s : State (Fin 2) Pin ℕ, Run (Outputs.Step pinWrites) (.init 0)
      [(0, .call .motorOpen), (0, .write .pin1 1)] s ∧ s.out .pin1 = 1 :=
    ⟨_, .cons (.call Command.motorOpen rfl) (.cons (.write (congrArg some hws)) .nil), rfl⟩
  exact ⟨s, hhigh, (pins_low hrun).1 .pin1 (by simp [hhigh])⟩

end Results

end EmbeddedSystem.StepMotor
