import EmbeddedSystem.StepMotor.Rotor

/-! The module `ch10_201711395.c`, which turns a step motor when it is loaded. Its tables and its
`setstep` are those of `step_motor.c`. -/

namespace EmbeddedSystem.Challenge10

open Kernel
open StepMotor (Coils steps tableStep rotate)

inductive Action
  | setstep (c : Coils)
  | udelay (delay : ℤ)
  | mdelay (delay : ℤ)
  deriving DecidableEq

def Action.coils : Action → Option Coils
  | .setstep c => some c
  | _ => none

def coils (trace : List Action) : List Coils := trace.filterMap Action.coils

def sweeps (degree : ℤ) : ℕ := ((degree.tdiv 45 * 64).bmod (2 ^ 32)).toNat

def sweep (js : List ℕ) (delay : ℤ) : Except Fault (List Action) := do
  let settings ← js.mapM fun j => do return [.setstep (← tableStep j), .udelay delay]
  return settings.flatten

def turn (js : List ℕ) (degree delay : ℤ) : Except Fault (List Action) := do
  let rounds ← (List.range (sweeps degree)).mapM fun _ => sweep js delay
  return rounds.flatten ++ [.setstep .off]

def forward : ℤ → ℤ → Except Fault (List Action) := turn (List.range steps)

def backward : ℤ → ℤ → Except Fault (List Action) := turn ((List.range steps).map (· + 1)).reverse

def moveDegree (degree delay direction : ℤ) : Except Fault (List Action) :=
  if direction ≠ 0 then backward degree delay else forward degree delay

def ch10Init : Except Fault (List Action × ℤ) := do
  let t₁ ← moveDegree 90 3000 0
  let t₂ ← moveDegree 45 3000 0
  let t₃ ← moveDegree 45 3000 0
  let t₄ ← moveDegree 180 3000 1
  return (t₁ ++ .mdelay 1200 :: t₂ ++ .mdelay 1200 :: t₃ ++ .mdelay 1200 :: t₄, 0)

def thereAndBack (ds : List ℤ) (delay : ℤ) : Except Fault (List Action) := do
  let there ← ds.mapM fun d => forward d delay
  let back ← backward ds.sum delay
  return there.flatten ++ back

section Turns

lemma sweeps_eq {d : ℤ} (hd : 0 ≤ d) (hint : d / 45 * 64 < 2 ^ 31) :
    (sweeps d : ℤ) = d / 45 * 64 := by
  have hdiv : d.tdiv 45 = d / 45 := Int.tdiv_eq_ediv_of_nonneg hd
  have hnonneg : 0 ≤ d / 45 := Int.ediv_nonneg hd (by decide)
  have hwrap : (d / 45 * 64).bmod (2 ^ 32) = d / 45 * 64 :=
    Int.bmod_eq_of_le_mul_two (by omega) (by omega)
  rw [sweeps, hdiv, hwrap]
  exact Int.toNat_of_nonneg (by omega)

lemma turn_eq {js : List ℕ} {delay : ℤ} {actions : List Action}
    (h : sweep js delay = .ok actions) (degree : ℤ) :
    turn js degree delay =
      .ok ((List.replicate (sweeps degree) actions).flatten ++ [.setstep .off]) := by
  rw [turn, StepMotor.mapM_const h, ok_bind]
  rfl

lemma turn_error {js : List ℕ} {delay degree : ℤ} {e : Fault} (h : sweep js delay = .error e)
    (hn : sweeps degree ≠ 0) : turn js degree delay = .error e := by
  obtain ⟨n, hn⟩ := Nat.exists_eq_succ_of_ne_zero hn
  rw [turn, hn, List.range_succ_eq_map, List.mapM_cons, h]
  rfl

lemma turn_none (js : List ℕ) {delay degree : ℤ} (hn : sweeps degree = 0) :
    turn js degree delay = .ok [.setstep .off] := by
  rw [turn, hn]
  rfl

lemma coils_flatten_replicate (n : ℕ) (actions : List Action) :
    coils (List.replicate n actions).flatten = (List.replicate n (coils actions)).flatten := by
  rw [coils, List.filterMap_flatten, List.map_replicate]
  rfl

lemma forward_eq (degree delay : ℤ) : ∃ trace, forward degree delay = .ok trace ∧
    coils trace = (List.replicate (sweeps degree) StepMotor.forward).flatten ++ [.off] := by
  have hsweep : sweep (List.range steps) delay = .ok
      ((List.finRange 8).map fun k => [.setstep (StepMotor.entry k), .udelay delay]).flatten := rfl
  refine ⟨_, turn_eq hsweep degree, ?_⟩
  rw [coils, List.filterMap_append]
  exact congrArg (· ++ _) (coils_flatten_replicate _ _)

lemma backward_error {degree : ℤ} (delay : ℤ) (h : sweeps degree ≠ 0) :
    backward degree delay = .error .index := turn_error rfl h

end Turns

section Positions

lemma rotate_sweeps {p m : ℤ} (n : ℕ) (hp : p = 8 * m ∨ p = 8 * m - 1) :
    rotate p ((List.replicate n StepMotor.forward).flatten ++ [.off]) =
      if n = 0 then p else 8 * (m + n) - 1 := by
  rw [StepMotor.rotate_append]
  change rotate p _ = _
  cases n with
  | zero => rfl
  | succ n =>
    rw [StepMotor.rotate_forward_many n hp, if_neg n.succ_ne_zero]
    push_cast
    ring

lemma forwards_eq (ds : List ℤ) (delay : ℤ) : ∃ traces,
    ds.mapM (fun d => forward d delay) = .ok traces ∧
      ∀ p m, p = 8 * m ∨ p = 8 * m - 1 → rotate p (coils traces.flatten) =
        if (ds.map sweeps).sum = 0 then p else 8 * (m + (ds.map sweeps).sum) - 1 := by
  induction ds with
  | nil => exact ⟨[], rfl, fun p m _ => rfl⟩
  | cons d ds ih =>
    obtain ⟨traces, htraces, hrest⟩ := ih
    obtain ⟨trace, htrace, hcoils⟩ := forward_eq d delay
    refine ⟨trace :: traces, ?_, ?_⟩
    · rw [List.mapM_cons, htrace, ok_bind, htraces]
      rfl
    · intro p m hp
      have hfirst : rotate p (coils trace) =
          if sweeps d = 0 then p else 8 * (m + sweeps d) - 1 := by
        rw [hcoils]
        exact rotate_sweeps _ hp
      have hstart : rotate p (coils trace) = 8 * (m + sweeps d) ∨
          rotate p (coils trace) = 8 * (m + sweeps d) - 1 := by
        rw [hfirst]
        split <;> omega
      rw [List.flatten_cons, coils, List.filterMap_append, StepMotor.rotate_append]
      change rotate (rotate p (coils trace)) (coils traces.flatten) = _
      rw [hrest _ _ hstart, hfirst, List.map_cons, List.sum_cons, Nat.cast_add]
      split_ifs <;> omega

theorem forwards_compose {ds : List ℤ} (hds : ∀ d ∈ ds, 0 ≤ d ∧ d / 45 * 64 < 2 ^ 31) (delay : ℤ)
    {p : ℤ} (hp : 8 ∣ p) : ∃ traces, ds.mapM (fun d => forward d delay) = .ok traces ∧
      rotate p (coils traces.flatten) = p + 512 * (ds.map (· / 45)).sum -
        if (ds.map (· / 45)).sum = 0 then 0 else 1 := by
  obtain ⟨traces, htraces, hrotate⟩ := forwards_eq ds delay
  obtain ⟨m, hm⟩ := hp
  have hsum : (((ds.map sweeps).sum : ℕ) : ℤ) = (ds.map (· / 45)).sum * 64 := by
    rw [Nat.cast_list_sum, List.map_map, ← List.sum_map_mul_right]
    exact congrArg List.sum (List.map_congr_left fun d hd => sweeps_eq (hds d hd).1 (hds d hd).2)
  refine ⟨traces, htraces, ?_⟩
  rw [hrotate p m (Or.inl hm)]
  split <;> split <;> omega

end Positions

section Cancellation

theorem moves_cancel_iff {ds : List ℤ} (hds : ∀ d ∈ ds, 0 ≤ d) (hint : ds.sum / 45 * 64 < 2 ^ 31)
    (delay : ℤ) {p : ℤ} (hp : 8 ∣ p) :
    (∃ trace, thereAndBack ds delay = .ok trace ∧ rotate p (coils trace) = p) ↔ ds.sum < 45 := by
  obtain ⟨traces, htraces, hrotate⟩ := forwards_eq ds delay
  obtain ⟨m, hm⟩ := hp
  have hsum : (sweeps ds.sum : ℤ) = ds.sum / 45 * 64 := sweeps_eq (List.sum_nonneg hds) hint
  constructor
  · rintro ⟨trace, htrace, -⟩
    by_contra hlarge
    have hback : backward ds.sum delay = .error .index := backward_error delay (by omega)
    rw [thereAndBack, htraces, ok_bind, hback] at htrace
    cases htrace
  · intro hsmall
    have hback : backward ds.sum delay = .ok [.setstep .off] := turn_none _ (by omega)
    have hnone : (ds.map sweeps).sum = 0 := by
      rw [List.sum_eq_zero_iff]
      intro n hn
      obtain ⟨d, hd, rfl⟩ := List.mem_map.mp hn
      have hnonneg := hds d hd
      have hle := List.single_le_sum hds d hd
      have heq := sweeps_eq hnonneg (by omega)
      omega
    refine ⟨traces.flatten ++ [.setstep .off], ?_, ?_⟩
    · rw [thereAndBack, htraces, ok_bind, hback]
      rfl
    · rw [coils, List.filterMap_append, StepMotor.rotate_append]
      change rotate p (coils traces.flatten) = p
      rw [hrotate p m (Or.inl hm), if_pos hnone]

theorem moves_cancel_44 : ∃ trace, thereAndBack [30, 14] 3000 = .ok trace ∧
    rotate 0 (coils trace) = 0 :=
  (moves_cancel_iff (by decide) (by decide) 3000 (dvd_zero 8)).mpr (by decide)

theorem moves_leave_tables : ¬ ∀ (ds : List ℤ) (delay p : ℤ), (∀ d ∈ ds, 0 ≤ d) →
    ds.sum / 45 * 64 < 2 ^ 31 → 8 ∣ p →
    ∃ trace, thereAndBack ds delay = .ok trace ∧ rotate p (coils trace) = p := by
  intro h
  obtain ⟨trace, htrace, -⟩ := h [90, 45, 45] 3000 0 (by decide) (by decide) (dvd_zero 8)
  obtain ⟨traces, htraces, -⟩ := forwards_eq [90, 45, 45] 3000
  have hback : backward [90, 45, 45].sum 3000 = .error .index := backward_error 3000 (by decide)
  rw [thereAndBack, htraces, ok_bind, hback] at htrace
  cases htrace

end Cancellation

end EmbeddedSystem.Challenge10
