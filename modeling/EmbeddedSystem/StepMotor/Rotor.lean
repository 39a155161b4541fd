import EmbeddedSystem.StepMotor.Driver

/-! The rotor of the step motor: its position, an integer number of half-steps, follows the coils
that are energised. -/

namespace EmbeddedSystem.StepMotor

open Kernel

def Coils.phase (c : Coils) : Option (Fin 8) := (List.finRange 8).find? fun k => entry k = c

/-- The position nearest to `p` that is congruent to `k` modulo 8. -/
def nearest (p : ℤ) (k : Fin 8) : ℤ := p + (k.val - p).bmod 8

def pull (p : ℤ) (c : Coils) : ℤ :=
  match c.phase with
  | some k => nearest p k
  | none => p

def rotate (p : ℤ) (trace : List Coils) : ℤ := trace.foldl pull p

section Positions

lemma pull_off (p : ℤ) : pull p .off = p := rfl

lemma nearest_congr (p : ℤ) (k : Fin 8) : nearest p k % 8 = k.val := by
  rw [nearest, Int.bmod_def]
  split <;> omega

lemma nearest_le (p : ℤ) (k : Fin 8) {q : ℤ} (hq : q % 8 = k.val) :
    |nearest p k - p| ≤ |q - p| := by
  rw [nearest, Int.bmod_def, abs_le]
  obtain ⟨habs, _⟩ | ⟨habs, _⟩ := abs_cases (q - p)
  all_goals
    rw [habs]
    split <;> omega

lemma nearest_shift (p m : ℤ) (k : Fin 8) : nearest (8 * m + p) k = 8 * m + nearest p k := by
  have hdiff : ((k.val : ℤ) - (8 * m + p)).bmod 8 = ((k.val : ℤ) - p).bmod 8 := by
    have hsub : (k.val : ℤ) - (8 * m + p) = (k.val - p) - 8 * m := by ring
    rw [hsub]
    exact Int.sub_mul_bmod_self_left ..
  rw [nearest, nearest, hdiff, add_assoc]

lemma pull_shift (p m : ℤ) (c : Coils) : pull (8 * m + p) c = 8 * m + pull p c := by
  rw [pull, pull]
  cases c.phase with
  | none => rfl
  | some k => exact nearest_shift p m k

lemma rotate_shift (p m : ℤ) (trace : List Coils) :
    rotate (8 * m + p) trace = 8 * m + rotate p trace := by
  induction trace generalizing p with
  | nil => rfl
  | cons c trace ih =>
    simp only [rotate, List.foldl_cons, pull_shift]
    exact ih (pull p c)

lemma rotate_append (p : ℤ) (xs ys : List Coils) :
    rotate p (xs ++ ys) = rotate (rotate p xs) ys := List.foldl_append ..

end Positions

section Sweeps

lemma rotate_forward {p m : ℤ} (hp : p = 8 * m ∨ p = 8 * m - 1) :
    rotate p forward = 8 * m + 7 := by
  obtain rfl | rfl := hp
  · have h := rotate_shift 0 m forward
    rwa [add_zero] at h
  · exact rotate_shift (-1) m forward

lemma rotate_backward {p m : ℤ} (hp : p = 8 * m + 7 ∨ p = 8 * m + 8) :
    rotate p backward = 8 * m := by
  obtain rfl | rfl := hp
  · have h := rotate_shift 7 m backward
    exact h.trans (add_zero _)
  · have h := rotate_shift 8 m backward
    exact h.trans (add_zero _)

lemma rotate_forward_many {p m : ℤ} (n : ℕ) (hp : p = 8 * m ∨ p = 8 * m - 1) :
    rotate p (List.replicate (n + 1) forward).flatten = 8 * (m + n) + 7 := by
  induction n generalizing p m with
  | zero =>
    simp only [Nat.cast_zero, add_zero]
    exact rotate_forward hp
  | succ n ih =>
    rw [List.replicate_succ, List.flatten_cons, rotate_append, rotate_forward hp,
      ih (m := m + 1) (Or.inr (by ring))]
    push_cast
    ring

lemma rotate_backward_many {p m : ℤ} (n : ℕ) (hp : p = 8 * m + 7 ∨ p = 8 * m + 8) :
    rotate p (List.replicate (n + 1) backward).flatten = 8 * (m - n) := by
  induction n generalizing p m with
  | zero =>
    simp only [Nat.cast_zero, sub_zero]
    exact rotate_backward hp
  | succ n ih =>
    rw [List.replicate_succ, List.flatten_cons, rotate_append, rotate_backward hp,
      ih (m := m - 1) (Or.inr (by ring))]
    push_cast
    ring

lemma rotate_command (m : ℤ) :
    (∀ p, p = 8 * m ∨ p = 8 * m - 1 →
      ∃ trace, stepMotorIoctl .motorOpen = .ok (trace, 0) ∧ rotate p trace = 8 * m + 1023) ∧
    ∀ p, p = 8 * m + 1023 ∨ p = 8 * m + 1024 →
      ∃ trace, stepMotorIoctl .motorClose = .ok (trace, 0) ∧ rotate p trace = 8 * m := by
  constructor
  · intro p hp
    refine ⟨_, stepMotorIoctl_eq.1, ?_⟩
    rw [rotate_append, rotate_forward_many 127 hp]
    simp only [rotate, List.foldl_cons, List.foldl_nil, pull_off]
    ring
  · intro p hp
    refine ⟨_, stepMotorIoctl_eq.2, ?_⟩
    have hstart : p = 8 * (m + 127) + 7 ∨ p = 8 * (m + 127) + 8 := by omega
    rw [rotate_append, rotate_backward_many 127 hstart]
    simp only [rotate, List.foldl_cons, List.foldl_nil, pull_off]
    ring

end Sweeps

end EmbeddedSystem.StepMotor
