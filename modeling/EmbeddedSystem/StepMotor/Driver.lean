import EmbeddedSystem.Kernel.Memory

/-! The driver `step_motor.c`: the values that its two commands write to the pins of the coils. -/

namespace EmbeddedSystem.StepMotor

open Kernel

abbrev degree : ℕ := 128
abbrev steps : ℕ := 8

def blue : Fin 8 → ℕ := ![1, 1, 0, 0, 0, 0, 0, 1]
def pink : Fin 8 → ℕ := ![0, 1, 1, 1, 0, 0, 0, 0]
def yellow : Fin 8 → ℕ := ![0, 0, 0, 1, 1, 1, 0, 0]
def orange : Fin 8 → ℕ := ![0, 0, 0, 0, 0, 1, 1, 1]

structure Coils where
  p1 : ℕ
  p2 : ℕ
  p3 : ℕ
  p4 : ℕ
  deriving DecidableEq

def Coils.off : Coils := ⟨0, 0, 0, 0⟩

def tableStep (j : ℤ) : Except Fault Coils := do
  let k ← arrayIndex 8 j
  return ⟨blue k, pink k, yellow k, orange k⟩

def turn (js : List ℕ) : Except Fault (List Coils) := do
  let sweeps ← (List.range degree).mapM fun _ => js.mapM fun j => tableStep j
  return sweeps.flatten ++ [.off]

def stepMotorOpen : Except Fault (List Coils) := turn (List.range steps)

def stepMotorClose : Except Fault (List Coils) := turn (List.range steps).reverse

inductive Command
  | motorOpen | motorClose | unknown
  deriving DecidableEq

def stepMotorIoctl : Command → Except Fault (List Coils × ℤ)
  | .motorOpen => return (← stepMotorOpen, 0)
  | .motorClose => return (← stepMotorClose, 0)
  | .unknown => return ([], 0)

section Sweeps

def entry (k : Fin 8) : Coils := ⟨blue k, pink k, yellow k, orange k⟩

def forward : List Coils := (List.finRange 8).map entry

def backward : List Coils := (List.finRange 8).reverse.map entry

lemma tableSteps_forward : (List.range steps).mapM (fun j => tableStep j) = .ok forward := rfl

lemma tableSteps_backward :
    (List.range steps).reverse.mapM (fun j => tableStep j) = .ok backward := rfl

lemma mapM_const {α : Type} {x : Except Fault α} {a : α} (h : x = .ok a) (n : ℕ) :
    (List.range n).mapM (fun _ => x) = .ok (List.replicate n a) := by
  have hmap : List.replicate n a = (List.range n).map fun _ => a := by
    rw [List.map_const', List.length_range]
  rw [h, hmap]
  exact List.mapM_pure

lemma turn_eq {js : List ℕ} {sweep : List Coils} (h : js.mapM (fun j => tableStep j) = .ok sweep) :
    turn js = .ok ((List.replicate degree sweep).flatten ++ [.off]) := by
  rw [turn, mapM_const h, ok_bind]
  rfl

lemma stepMotorIoctl_eq :
    stepMotorIoctl .motorOpen = .ok ((List.replicate degree forward).flatten ++ [.off], 0) ∧
      stepMotorIoctl .motorClose = .ok ((List.replicate degree backward).flatten ++ [.off], 0) := by
  constructor
  · rw [stepMotorIoctl, stepMotorOpen, turn_eq tableSteps_forward]
    rfl
  · rw [stepMotorIoctl, stepMotorClose, turn_eq tableSteps_backward]
    rfl

end Sweeps

end EmbeddedSystem.StepMotor
