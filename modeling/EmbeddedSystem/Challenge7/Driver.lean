import EmbeddedSystem.Foundations.Timer

/-! The module `ch7_mod.c`, whose timer callback arms its timer again. Each statement of the
callback and of the exit function is one step. The callback does not run twice at once. -/

namespace EmbeddedSystem.Challenge7

open Foundations

inductive Callback
  | getValue
  | setValue (ret : Bool)
  | count | modTimer | done
  deriving DecidableEq

inductive Exit
  | loaded | delTimer | ledOff | freeSwitch | freeLed | returned
  deriving DecidableEq

structure System where
  pending : Bool
  callback : Option Callback
  data : BitVec 32
  led : Bool
  switchRequested : Bool
  ledRequested : Bool
  exit : Exit

inductive Move
  | expire
  | getValue (ret : Bool)
  | setValue | count | modTimer | finish
  | exit | delTimer | ledOff | freeSwitch | freeLed
  deriving DecidableEq

def ch7ModInit : System := ⟨true, none, 0, false, true, true, .loaded⟩

inductive Step (s : System) : Move → System → Prop
  | expire :
      s.pending = true → s.callback = none →
      Step s .expire { s with pending := false, callback := some .getValue }
  | getValue (ret : Bool) :
      s.callback = some .getValue →
      Step s (.getValue ret) { s with callback := some (.setValue ret) }
  | setValue {ret : Bool} :
      s.callback = some (.setValue ret) →
      Step s .setValue { s with led := ret, callback := some .count }
  | count :
      s.callback = some .count →
      Step s .count { s with data := s.data + 1, callback := some .modTimer }
  | modTimer :
      s.callback = some .modTimer →
      Step s .modTimer { s with pending := true, callback := some .done }
  | finish : s.callback = some .done → Step s .finish { s with callback := none }
  | exit : s.exit = .loaded → Step s .exit { s with exit := .delTimer }
  | delTimer :
      s.exit = .delTimer → Step s .delTimer { s with pending := false, exit := .ledOff }
  | ledOff : s.exit = .ledOff → Step s .ledOff { s with led := false, exit := .freeSwitch }
  | freeSwitch :
      s.exit = .freeSwitch →
      Step s .freeSwitch { s with switchRequested := false, exit := .freeLed }
  | freeLed :
      s.exit = .freeLed → Step s .freeLed { s with ledRequested := false, exit := .returned }

/-- `del_timer` finds no callback that has yet to arm the timer, and the exit function returns when
no callback is running. -/
def Clear (s : System) : Move → Prop
  | .delTimer => s.callback = none ∨ s.callback = some .done
  | .freeLed => s.callback = none
  | _ => True

def Exit.stage : Exit → Timer.Stage
  | .loaded | .delTimer => .active
  | .returned => .left
  | _ => .cancelled

def System.timer (s : System) : Timer.State := ⟨s.pending, s.callback.isSome, s.exit.stage⟩

def Move.timer : Move → Option Timer.Move
  | .expire => some .fire
  | .modTimer => some .arm
  | .finish => some .finish
  | .delTimer => some .cancel
  | .freeLed => some .leave
  | _ => none

def Cancelled (s : System) : Prop :=
  s.exit.stage ≠ .active → s.pending = false ∧ (s.callback = none ∨ s.callback = some .done)

variable {s t : System} {m : Move} {ms ls : List Move}

lemma Cancelled.active (hs : Cancelled s) {c : Callback} (hc : s.callback = some c)
    (hdone : c ≠ .done) : s.exit.stage = .active :=
  Timer.active_of_midway (fun hstage => (hs hstage).2) hc hdone

lemma cancelled_step (hs : Cancelled s) (h : Guarded Step Clear s m t) : Cancelled t := by
  obtain ⟨h, hclear⟩ := h
  cases h with
  | expire hpending _ =>
    intro hstage
    rw [(hs hstage).1] at hpending
    cases hpending
  | getValue _ hc | setValue hc | count hc | modTimer hc =>
    exact fun hstage => absurd (hs.active hc (by simp)) hstage
  | finish => exact fun hstage => ⟨(hs hstage).1, Or.inl rfl⟩
  | exit => exact fun hstage => absurd rfl hstage
  | delTimer => exact fun _ => ⟨rfl, hclear⟩
  | ledOff he | freeSwitch he | freeLed he => exact fun _ => hs (by simp [he, Exit.stage])

lemma timer_step (hs : Cancelled s) (h : Guarded Step Clear s m t) :
    Silent (Guarded Timer.Step Timer.Orderly) s.timer m.timer t.timer := by
  obtain ⟨h, hclear⟩ := h
  cases h with
  | expire hpending hc =>
    exact ⟨.fire hpending (by simp [System.timer, hc]), trivial⟩
  | getValue _ hc | setValue hc | count hc => simp [Silent, Move.timer, System.timer, hc]
  | modTimer hc =>
    have hactive := hs.active hc (by simp)
    have htimer : System.timer { s with pending := true, callback := some .done } =
        { s.timer with pending := true } := by simp [System.timer, hc]
    rw [htimer]
    exact ⟨.arm, hactive⟩
  | finish hc => exact ⟨.finish (by simp [System.timer, hc]), trivial⟩
  | exit he | ledOff he | freeSwitch he =>
    simp [Silent, Move.timer, System.timer, he, Exit.stage]
  | delTimer he => exact ⟨.cancel (by simp [System.timer, he, Exit.stage]), trivial⟩
  | freeLed he =>
    have hidle : s.callback = none := hclear
    exact ⟨.leave (by simp [System.timer, he, Exit.stage]), congrArg Option.isSome hidle⟩

lemma cancelled_init : Cancelled ch7ModInit := fun h => absurd rfl h

lemma stopped_init : Timer.Stopped ch7ModInit.timer := ⟨fun h => absurd rfl h, nofun⟩

theorem exit_quiets (h : Run (Guarded Step Clear) ch7ModInit ls s) (hs : s.exit = .returned) :
    s.pending = false ∧ s.callback = none ∧
      ∀ ms t, Run (Guarded Step Clear) s ms t → .expire ∉ ms := by
  have hleft : s.timer.stage = .left := by simp [System.timer, hs, Exit.stage]
  obtain ⟨hpending, hidle, hsilent⟩ := Timer.quiet_after (I := Cancelled) h
    (fun _ _ _ hs he => cancelled_step hs he) (fun _ _ _ hs he => timer_step hs he)
    cancelled_init stopped_init hleft
  refine ⟨hpending, Option.not_isSome_iff_eq_none.mp (by simpa [System.timer] using hidle), ?_⟩
  intro ms t hrun hmem
  exact hsilent ms t hrun .expire hmem rfl

end EmbeddedSystem.Challenge7
