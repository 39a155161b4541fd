import EmbeddedSystem.Challenge7.Driver

/-! The module `ch8_mod.c`, whose interrupt handler arms the timer. Each statement of the handler,
of the timer callback and of the exit function is one step. Neither the handler nor the callback
runs twice at once, and `free_irq` waits for the handler. -/

namespace EmbeddedSystem.Challenge8

open Foundations

inductive Callback
  | setValue | done
  deriving DecidableEq

inductive Isr
  | count | ledOff | ledOn | modTimer | done
  deriving DecidableEq

inductive Exit
  | loaded | delTimer | freeIrq | freeSensor | freeLed | returned
  deriving DecidableEq

structure System where
  pending : Bool
  callback : Option Callback
  irqRequested : Bool
  isr : Option Isr
  data : BitVec 32
  led : Bool
  sensorRequested : Bool
  ledRequested : Bool
  exit : Exit

inductive Move
  | expire | setValue | finish
  | interrupt | count | ledOff | ledOn | modTimer | handled
  | exit | delTimer | freeIrq | freeSensor | freeLed
  deriving DecidableEq

/-- `ret` is the result of `request_irq`; the module stays loaded when it fails. -/
def ch8ModInit (ret : ℤ) : System := ⟨false, none, ret = 0, none, 0, false, true, true, .loaded⟩

inductive Step (s : System) : Move → System → Prop
  | expire :
      s.pending = true → s.callback = none →
      Step s .expire { s with pending := false, callback := some .setValue }
  | setValue :
      s.callback = some .setValue →
      Step s .setValue { s with led := false, callback := some .done }
  | finish : s.callback = some .done → Step s .finish { s with callback := none }
  | interrupt :
      s.irqRequested = true → s.isr = none → Step s .interrupt { s with isr := some .count }
  | count :
      s.isr = some .count →
      Step s .count { s with data := s.data + 1, isr := some .ledOff }
  | ledOff : s.isr = some .ledOff → Step s .ledOff { s with led := false, isr := some .ledOn }
  | ledOn : s.isr = some .ledOn → Step s .ledOn { s with led := true, isr := some .modTimer }
  | modTimer :
      s.isr = some .modTimer → Step s .modTimer { s with pending := true, isr := some .done }
  | handled : s.isr = some .done → Step s .handled { s with isr := none }
  | exit : s.exit = .loaded → Step s .exit { s with exit := .delTimer }
  | delTimer :
      s.exit = .delTimer → Step s .delTimer { s with pending := false, exit := .freeIrq }
  | freeIrq :
      s.exit = .freeIrq → s.isr = none →
      Step s .freeIrq { s with irqRequested := false, exit := .freeSensor }
  | freeSensor :
      s.exit = .freeSensor →
      Step s .freeSensor { s with sensorRequested := false, exit := .freeLed }
  | freeLed :
      s.exit = .freeLed → Step s .freeLed { s with ledRequested := false, exit := .returned }

def Exit.stage : Exit → Timer.Stage
  | .loaded | .delTimer => .active
  | .returned => .left
  | _ => .cancelled

/-- `del_timer` finds no handler that has yet to arm the timer, no interrupt comes after it, and the
exit function returns when no callback is running. -/
def Clear (s : System) : Move → Prop
  | .delTimer => s.isr = none ∨ s.isr = some .done
  | .interrupt => s.exit.stage = .active
  | .freeLed => s.callback = none
  | _ => True

def System.timer (s : System) : Timer.State := ⟨s.pending, s.callback.isSome, s.exit.stage⟩

def Move.timer : Move → Option Timer.Move
  | .expire => some .fire
  | .modTimer => some .arm
  | .finish => some .finish
  | .delTimer => some .cancel
  | .freeLed => some .leave
  | _ => none

def Cancelled (s : System) : Prop :=
  s.exit.stage ≠ .active → s.isr = none ∨ s.isr = some .done

variable {s t : System} {m : Move} {ms ls : List Move} {ret : ℤ}

lemma Cancelled.active (hs : Cancelled s) {i : Isr} (hi : s.isr = some i) (hdone : i ≠ .done) :
    s.exit.stage = .active := Timer.active_of_midway hs hi hdone

lemma cancelled_step (hs : Cancelled s) (h : Guarded Step Clear s m t) : Cancelled t := by
  obtain ⟨h, hclear⟩ := h
  cases h with
  | expire | setValue | finish => exact hs
  | interrupt => exact fun hstage => absurd hclear hstage
  | count hi | ledOff hi | ledOn hi | modTimer hi =>
    exact fun hstage => absurd (hs.active hi (by simp)) hstage
  | handled => exact fun _ => Or.inl rfl
  | exit => exact fun hstage => absurd rfl hstage
  | delTimer => exact fun _ => hclear
  | freeIrq he | freeSensor he | freeLed he => exact fun _ => hs (by simp [he, Exit.stage])

lemma timer_step (hs : Cancelled s) (h : Guarded Step Clear s m t) :
    Silent (Guarded Timer.Step Timer.Orderly) s.timer m.timer t.timer := by
  obtain ⟨h, hclear⟩ := h
  cases h with
  | expire hpending hc => exact ⟨.fire hpending (by simp [System.timer, hc]), trivial⟩
  | setValue hc => simp [Silent, Move.timer, System.timer, hc]
  | finish hc => exact ⟨.finish (by simp [System.timer, hc]), trivial⟩
  | interrupt | count | ledOff | ledOn | handled => rfl
  | modTimer hi =>
    have hactive := hs.active hi (by simp)
    exact ⟨.arm, hactive⟩
  | exit he | freeIrq he | freeSensor he => simp [Silent, Move.timer, System.timer, he, Exit.stage]
  | delTimer he => exact ⟨.cancel (by simp [System.timer, he, Exit.stage]), trivial⟩
  | freeLed he =>
    have hidle : s.callback = none := hclear
    exact ⟨.leave (by simp [System.timer, he, Exit.stage]), congrArg Option.isSome hidle⟩

lemma cancelled_init (ret : ℤ) : Cancelled (ch8ModInit ret) := fun h => absurd rfl h

lemma stopped_init (ret : ℤ) : Timer.Stopped (ch8ModInit ret).timer :=
  ⟨fun h => absurd rfl h, nofun⟩

theorem exit_quiets (h : Run (Guarded Step Clear) (ch8ModInit ret) ls s)
    (hs : s.exit = .returned) :
    s.pending = false ∧ s.callback = none ∧
      ∀ ms t, Run (Guarded Step Clear) s ms t → .expire ∉ ms := by
  have hleft : s.timer.stage = .left := by simp [System.timer, hs, Exit.stage]
  obtain ⟨hpending, hidle, hsilent⟩ := Timer.quiet_after (I := Cancelled) h
    (fun _ _ _ hs he => cancelled_step hs he) (fun _ _ _ hs he => timer_step hs he)
    (cancelled_init ret) (stopped_init ret) hleft
  refine ⟨hpending, Option.not_isSome_iff_eq_none.mp (by simpa [System.timer] using hidle), ?_⟩
  intro ms t hrun hmem
  exact hsilent ms t hrun .expire hmem rfl

theorem no_timer_survives (ls₇ : List Challenge7.Move) (s₇ : Challenge7.System) (ret : ℤ)
    (ls₈ : List Move) (s₈ : System) :
    (Run (Guarded Challenge7.Step Challenge7.Clear) Challenge7.ch7ModInit ls₇ s₇ →
      s₇.exit = .returned → s₇.pending = false ∧ s₇.callback = none ∧
        ∀ ms t, Run (Guarded Challenge7.Step Challenge7.Clear) s₇ ms t → .expire ∉ ms) ∧
    (Run (Guarded Step Clear) (ch8ModInit ret) ls₈ s₈ →
      s₈.exit = .returned → s₈.pending = false ∧ s₈.callback = none ∧
        ∀ ms t, Run (Guarded Step Clear) s₈ ms t → .expire ∉ ms) :=
  ⟨fun h hs => Challenge7.exit_quiets h hs, fun h hs => exit_quiets h hs⟩

theorem no_timer_survives_once : ∃ ls₇ s₇ ls₈ s₈,
    Run (Guarded Challenge7.Step Challenge7.Clear) Challenge7.ch7ModInit ls₇ s₇ ∧
      Run (Guarded Step Clear) (ch8ModInit 0) ls₈ s₈ ∧ .modTimer ∈ ls₇ ∧ .modTimer ∈ ls₈ ∧
        s₇.pending = false ∧ s₈.pending = false := by
  obtain ⟨s₇, hrun₇, hs₇⟩ : ∃ s, Run (Guarded Challenge7.Step Challenge7.Clear)
      Challenge7.ch7ModInit [.expire, .getValue true, .setValue, .count, .modTimer, .exit,
        .delTimer, .finish, .ledOff, .freeSwitch, .freeLed] s ∧ s.exit = .returned :=
    ⟨_, .cons ⟨.expire rfl rfl, trivial⟩ (.cons ⟨.getValue true rfl, trivial⟩
      (.cons ⟨.setValue rfl, trivial⟩ (.cons ⟨.count rfl, trivial⟩
      (.cons ⟨.modTimer rfl, trivial⟩ (.cons ⟨.exit rfl, trivial⟩
      (.cons ⟨.delTimer rfl, Or.inr rfl⟩ (.cons ⟨.finish rfl, trivial⟩
      (.cons ⟨.ledOff rfl, trivial⟩ (.cons ⟨.freeSwitch rfl, trivial⟩
      (.cons ⟨.freeLed rfl, rfl⟩ .nil)))))))))), rfl⟩
  obtain ⟨s₈, hrun₈, hs₈⟩ : ∃ s, Run (Guarded Step Clear) (ch8ModInit 0)
      [.interrupt, .count, .ledOff, .ledOn, .modTimer, .exit, .delTimer, .handled, .freeIrq,
        .freeSensor, .freeLed] s ∧ s.exit = .returned :=
    ⟨_, .cons ⟨.interrupt rfl rfl, rfl⟩ (.cons ⟨.count rfl, trivial⟩ (.cons ⟨.ledOff rfl, trivial⟩
      (.cons ⟨.ledOn rfl, trivial⟩ (.cons ⟨.modTimer rfl, trivial⟩ (.cons ⟨.exit rfl, trivial⟩
      (.cons ⟨.delTimer rfl, Or.inr rfl⟩ (.cons ⟨.handled rfl, trivial⟩
      (.cons ⟨.freeIrq rfl rfl, trivial⟩ (.cons ⟨.freeSensor rfl, trivial⟩
      (.cons ⟨.freeLed rfl, rfl⟩ .nil)))))))))), rfl⟩
  obtain ⟨⟨hpending₇, -⟩, hpending₈, -⟩ :=
    (no_timer_survives _ s₇ 0 _ s₈).imp (fun h => h hrun₇ hs₇) fun h => h hrun₈ hs₈
  exact ⟨_, s₇, _, s₈, hrun₇, hrun₈, by decide, by decide, hpending₇, hpending₈⟩

theorem timer_survives :
    (¬ ∀ ls s, Run Challenge7.Step Challenge7.ch7ModInit ls s → s.exit = .returned →
      s.pending = false) ∧
    ¬ ∀ ret ls s, Run Step (ch8ModInit ret) ls s → s.exit = .returned → s.pending = false := by
  constructor
  · intro h
    have hrun : Run Challenge7.Step Challenge7.ch7ModInit
        [.expire, .getValue true, .exit, .delTimer, .setValue, .count, .modTimer, .ledOff,
          .freeSwitch, .freeLed] _ :=
      .cons (.expire rfl rfl) (.cons (.getValue true rfl) (.cons (.exit rfl) (.cons (.delTimer rfl)
        (.cons (.setValue rfl) (.cons (.count rfl) (.cons (.modTimer rfl) (.cons (.ledOff rfl)
        (.cons (.freeSwitch rfl) (.cons (.freeLed rfl) .nil)))))))))
    exact absurd (h _ _ hrun rfl) (by decide)
  · intro h
    have hrun : Run Step (ch8ModInit 0)
        [.exit, .delTimer, .interrupt, .count, .ledOff, .ledOn, .modTimer, .handled, .freeIrq,
          .freeSensor, .freeLed] _ :=
      .cons (.exit rfl) (.cons (.delTimer rfl) (.cons (.interrupt rfl rfl) (.cons (.count rfl)
        (.cons (.ledOff rfl) (.cons (.ledOn rfl) (.cons (.modTimer rfl) (.cons (.handled rfl)
        (.cons (.freeIrq rfl rfl) (.cons (.freeSensor rfl) (.cons (.freeLed rfl) .nil))))))))))
    exact absurd (h 0 _ _ hrun rfl) (by decide)

end EmbeddedSystem.Challenge8
