import EmbeddedSystem.Foundations.Outputs

/-! The driver `speaker.c`, and its pin under calls of several processes, which nothing keeps
apart. -/

namespace EmbeddedSystem.Speaker

open Foundations Foundations.Outputs

def speaker : ℕ := 12

inductive Action
  | gpioSetValue (pin value : ℕ)
  | udelay (note : ℕ)
  deriving DecidableEq

def play (note : ℕ) : List Action :=
  (List.range 100).flatMap fun _ =>
    [.gpioSetValue speaker 1, .udelay note, .gpioSetValue speaker 0, .udelay note]

def speakerCorrect : List Action :=
  [1516, 1136, 1803, 1516, 1136].flatMap play ++ [.gpioSetValue speaker 0]

def speakerIncorrect : List Action :=
  ((List.range 2).flatMap fun _ => play 1136) ++ [.gpioSetValue speaker 0]

inductive Command
  | correct | incorrect | unknown
  deriving DecidableEq

def speakerIoctl : Command → List Action
  | .correct => speakerCorrect
  | .incorrect => speakerIncorrect
  | .unknown => []

def Action.write : Action → Option (ℕ × ℕ)
  | .gpioSetValue pin value => some (pin, value)
  | .udelay _ => none

def pinWrites (cmd : Command) : List (ℕ × ℕ) := (speakerIoctl cmd).filterMap Action.write

section Settling

lemma settles_flatMap {α : Type} {f : α → List Action}
    (h : ∀ a, Settles 0 ((f a).filterMap Action.write)) (as : List α) :
    Settles 0 ((as.flatMap f).filterMap Action.write) := by
  induction as with
  | nil => trivial
  | cons a as ih =>
    rw [List.flatMap_cons, List.filterMap_append]
    exact settles_append (h a) ih

lemma settles_play (note : ℕ) : Settles 0 ((play note).filterMap Action.write) := by
  apply settles_flatMap
  intro _
  simp [List.filterMap_cons, Action.write, Settles, keys]

lemma settles_pinWrites (cmd : Command) : Settles 0 (pinWrites cmd) := by
  have hoff : Settles 0 ([.gpioSetValue speaker 0].filterMap Action.write) := by
    simp [Action.write, Settles]
  cases cmd with
  | correct =>
    rw [pinWrites, speakerIoctl, speakerCorrect, List.filterMap_append]
    exact settles_append (settles_flatMap settles_play _) hoff
  | incorrect =>
    rw [pinWrites, speakerIoctl, speakerIncorrect, List.filterMap_append]
    exact settles_append (settles_flatMap (fun _ => settles_play 1136) _) hoff
  | unknown => trivial

end Settling

section Results

variable {P : Type} [DecidableEq P] {s : State P ℕ ℕ} {ls : List (P × Move Command ℕ ℕ)}

theorem speaker_silent (h : Run (Step pinWrites) (.init 0) ls s) :
    (∀ pin, s.out pin ≠ 0 → ∃ p ws, s.call p = some ws ∧ (pin, 0) ∈ ws) ∧
      ((∀ p, s.call p = none) → ∀ pin, s.out pin = 0) :=
  rests_run settles_pinWrites h

theorem speaker_silent_note : ∃ (s : State (Fin 2) ℕ ℕ), s.out speaker = 1 ∧
    ∃ p ws, s.call p = some ws ∧ (speaker, 0) ∈ ws := by
  have hwrites : ∃ ws, pinWrites .incorrect = (speaker, 1) :: ws := ⟨_, rfl⟩
  obtain ⟨ws, hws⟩ := hwrites
  obtain ⟨s, hrun, hhigh⟩ : ∃ s : State (Fin 2) ℕ ℕ, Run (Step pinWrites) (.init 0)
      [(0, .call .incorrect), (0, .write speaker 1)] s ∧ s.out speaker = 1 :=
    ⟨_, .cons (.call Command.incorrect rfl) (.cons (.write (congrArg some hws)) .nil), rfl⟩
  exact ⟨s, hhigh, (speaker_silent hrun).1 speaker (by simp [hhigh])⟩

end Results

end EmbeddedSystem.Speaker
