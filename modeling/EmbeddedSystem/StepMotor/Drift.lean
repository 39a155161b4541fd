import EmbeddedSystem.StepMotor.Rotor

namespace EmbeddedSystem.StepMotor

open Kernel

def execute (cs : List Command) : Except Fault (List Coils) := do
  let results ← cs.mapM stepMotorIoctl
  return (results.map Prod.fst).flatten

def Smooth (p : ℤ) : List Coils → Prop
  | [] => True
  | c :: trace => |pull p c - p| ≤ 1 ∧ Smooth (pull p c) trace

instance decidableSmooth (p : ℤ) : (trace : List Coils) → Decidable (Smooth p trace)
  | [] => inferInstanceAs (Decidable True)
  | c :: trace =>
    have := decidableSmooth (pull p c) trace
    inferInstanceAs (Decidable (|pull p c - p| ≤ 1 ∧ Smooth (pull p c) trace))

section Smoothness

lemma phase_entry (k : Fin 8) : (entry k).phase = some k := by
  revert k
  decide

lemma pull_entry (p : ℤ) (k : Fin 8) : pull p (entry k) = nearest p k := by
  rw [pull, phase_entry]

lemma smooth_append {p : ℤ} {xs ys : List Coils} :
    Smooth p (xs ++ ys) ↔ Smooth p xs ∧ Smooth (rotate p xs) ys := by
  induction xs generalizing p with
  | nil => simp [Smooth, rotate]
  | cons c xs ih =>
    rw [List.cons_append, Smooth, Smooth, ih, and_assoc]
    rfl

lemma Smooth.move {p : ℤ} {xs ys : List Coils} {c : Coils} (h : Smooth p (xs ++ c :: ys)) :
    |pull (rotate p xs) c - rotate p xs| ≤ 1 := (smooth_append.mp h).2.1

lemma smooth_shift (p m : ℤ) (trace : List Coils) :
    Smooth (8 * m + p) trace ↔ Smooth p trace := by
  induction trace generalizing p with
  | nil => rfl
  | cons c trace ih =>
    rw [Smooth, Smooth, pull_shift, ih, add_sub_add_left_eq_sub]

def Aligned (p : ℤ) : Prop := ∃ m, p = 8 * m ∨ p = 8 * m - 1

lemma smooth_forward {p : ℤ} (h : Aligned p) : Smooth p forward ∧ Aligned (rotate p forward) := by
  obtain ⟨m, hp⟩ := h
  refine ⟨?_, m + 1, Or.inr ?_⟩
  · obtain rfl | rfl := hp
    · have h := (smooth_shift 0 m forward).mpr (by decide)
      rwa [add_zero] at h
    · exact (smooth_shift (-1) m forward).mpr (by decide)
  · rw [rotate_forward hp]
    ring

lemma smooth_backward {p : ℤ} (h : Aligned p) :
    Smooth p backward ∧ Aligned (rotate p backward) := by
  obtain ⟨m, hp⟩ := h
  refine ⟨?_, m - 1, Or.inl ?_⟩
  · obtain rfl | rfl := hp
    · have h := (smooth_shift 0 m backward).mpr (by decide)
      rwa [add_zero] at h
    · exact (smooth_shift (-1) m backward).mpr (by decide)
  · exact rotate_backward (by omega)

lemma smooth_sweeps {sweep : List Coils}
    (h : ∀ p, Aligned p → Smooth p sweep ∧ Aligned (rotate p sweep)) (n : ℕ) {p : ℤ}
    (hp : Aligned p) : Smooth p ((List.replicate n sweep).flatten ++ [.off]) := by
  induction n generalizing p with
  | zero => simp [Smooth, pull_off]
  | succ n ih =>
    rw [List.replicate_succ, List.flatten_cons, List.append_assoc, smooth_append]
    exact ⟨(h p hp).1, ih (h p hp).2⟩

end Smoothness

section Runs

variable {cs : List Command} {trace : List Coils}

def opens (cs : List Command) : ℤ := cs.count .motorOpen

def closes (cs : List Command) : ℤ := cs.count .motorClose

def lastCommand (cs : List Command) : Option Command := (cs.filter (· ≠ .unknown)).getLast?

def rest (cs : List Command) : ℤ :=
  1024 * (opens cs - closes cs) - if lastCommand cs = some .motorOpen then 1 else 0

lemma execute_snoc {c : Command} {xs ys : List Coils} (h : execute cs = .ok xs)
    (hc : stepMotorIoctl c = .ok (ys, 0)) : execute (cs ++ [c]) = .ok (xs ++ ys) := by
  obtain ⟨results, hresults, hxs⟩ := bind_ok.mp h
  cases hxs
  rw [execute, List.mapM_append, hresults, ok_bind, List.mapM_cons, hc, ok_bind]
  simp [pure, Except.pure]

lemma rest_open (cs : List Command) :
    rest (cs ++ [.motorOpen]) = 1024 * (opens cs - closes cs) + 1023 := by
  simp [rest, opens, closes, lastCommand]
  ring

lemma rest_close (cs : List Command) :
    rest (cs ++ [.motorClose]) = 1024 * (opens cs - closes cs) - 1024 := by
  simp [rest, opens, closes, lastCommand]
  ring

lemma rest_unknown (cs : List Command) : rest (cs ++ [.unknown]) = rest cs := by
  simp [rest, opens, closes, lastCommand]

lemma rest_cases (cs : List Command) :
    rest cs = 8 * (128 * (opens cs - closes cs)) ∨
      rest cs = 8 * (128 * (opens cs - closes cs)) - 1 := by
  rw [rest]
  split <;> omega

lemma command_step (cs : List Command) (c : Command) : ∃ trace,
    stepMotorIoctl c = .ok (trace, 0) ∧ Smooth (rest cs) trace ∧
      rotate (rest cs) trace = rest (cs ++ [c]) := by
  have hrest := rest_cases cs
  have haligned : Aligned (rest cs) := ⟨_, hrest⟩
  cases c with
  | motorOpen =>
    obtain ⟨trace, htrace, hrotate⟩ := (rotate_command _).1 _ hrest
    have heq := stepMotorIoctl_eq.1
    rw [htrace] at heq
    cases heq
    refine ⟨_, htrace, smooth_sweeps (fun p hp => smooth_forward hp) degree haligned, ?_⟩
    rw [hrotate, rest_open]
    ring
  | motorClose =>
    have hclose : rest cs = 8 * (128 * (opens cs - closes cs) - 128) + 1023 ∨
        rest cs = 8 * (128 * (opens cs - closes cs) - 128) + 1024 := by omega
    obtain ⟨trace, htrace, hrotate⟩ := (rotate_command _).2 _ hclose
    have heq := stepMotorIoctl_eq.2
    rw [htrace] at heq
    cases heq
    refine ⟨_, htrace, smooth_sweeps (fun p hp => smooth_backward hp) degree haligned, ?_⟩
    rw [hrotate, rest_close]
    ring
  | unknown => exact ⟨[], rfl, trivial, (rest_unknown cs).symm⟩

lemma execute_rests (cs : List Command) :
    ∃ trace, execute cs = .ok trace ∧ Smooth 0 trace ∧ rotate 0 trace = rest cs := by
  induction cs using List.reverseRecOn with
  | nil => exact ⟨[], rfl, trivial, rfl⟩
  | append_singleton cs c ih =>
    obtain ⟨xs, hxs, hsmooth, hrotate⟩ := ih
    obtain ⟨ys, hys, hsmooth', hrotate'⟩ := command_step cs c
    refine ⟨xs ++ ys, execute_snoc hxs hys, smooth_append.mpr ⟨hsmooth, ?_⟩, ?_⟩
    · rw [hrotate]
      exact hsmooth'
    · rw [rotate_append, hrotate, hrotate']

theorem rotor_undrifted (cs : List Command) : ∃ trace, execute cs = .ok trace ∧
    (∀ xs c ys, trace = xs ++ c :: ys → |pull (rotate 0 xs) c - rotate 0 xs| ≤ 1) ∧
    rotate 0 trace = 1024 * ((cs.count .motorOpen : ℤ) - cs.count .motorClose) -
      (if lastCommand cs = some .motorOpen then 1 else 0) ∧
    (cs.count .motorOpen = cs.count .motorClose → lastCommand cs = some .motorClose →
      rotate 0 trace = 0) := by
  obtain ⟨trace, htrace, hsmooth, hrotate⟩ := execute_rests cs
  refine ⟨trace, htrace, ?_, hrotate, ?_⟩
  · rintro xs c ys rfl
    exact hsmooth.move
  · intro hcount hlast
    rw [hrotate, rest, opens, closes, hcount, hlast]
    simp

theorem rotor_undrifted_twice : ∃ trace,
    execute [.motorOpen, .motorOpen, .motorClose, .motorClose] = .ok trace ∧
      rotate 0 trace = 0 := by
  obtain ⟨trace, htrace, -, -, hzero⟩ :=
    rotor_undrifted [.motorOpen, .motorOpen, .motorClose, .motorClose]
  exact ⟨trace, htrace, hzero (by decide) (by decide)⟩

end Runs

end EmbeddedSystem.StepMotor
