import EmbeddedSystem.Challenge4.Waiting

/-! The wait of `ch4_read` in steps: `wait_event_interruptible` registers on `my_wq`, tests
`msg_count > 0`, sleeps, and begins again when it is woken. A write holds `my_lock` between its
`msg_count++` and its `wake_up_interruptible`, and an increment that an `int` has no room for ends
the writer as a fault does. -/

namespace EmbeddedSystem.Challenge4

open Kernel Foundations

inductive CallPhase
  | idle
  | unlocked (userBuf : MsgSt)
  | registered (userBuf : MsgSt) (woken : Bool)
  | tested (userBuf : MsgSt) (woken : Bool)
  | asleep (userBuf : MsgSt) (woken : Bool)
  | seen (userBuf : MsgSt)
  | waking (y : Reply)
  | faulted (e : Fault)
  | overflowed
  deriving DecidableEq

structure WaitSystem (P : Type) where
  driver : Driver
  myLock : Option P
  call : P → CallPhase

inductive WaitMove
  | read (y : Reply)
  | release | register
  | test (holds : Bool)
  | interrupted | sleep | signal | resume
  | readWoken (y : Reply)
  | write (y : Reply)
  | wakeUp
  | fault (e : Fault)
  | overflow
  deriving DecidableEq

def CallPhase.wakeUp : CallPhase → CallPhase
  | .registered userBuf _ => .registered userBuf true
  | .tested userBuf _ => .tested userBuf true
  | .asleep userBuf _ => .asleep userBuf true
  | ph => ph

abbrev Driver.hasRoom (s : Driver) : Prop := s.msgCount.toInt + 1 < 2 ^ 31

variable {P : Type} [DecidableEq P]

def WaitSystem.init : WaitSystem P := ⟨.init, none, fun _ => .idle⟩

def WaitSystem.set (s : WaitSystem P) (p : P) (ph : CallPhase) : WaitSystem P :=
  { s with call := Function.update s.call p ph }

inductive WaitStep (s : WaitSystem P) : P × WaitMove → WaitSystem P → Prop
  | read {p : P} {o : Outcome} {userBuf : MsgSt} {d : Driver} {y : Reply} :
      s.call p = .idle → s.myLock = none → ch4Read o s.driver userBuf = .ok (some (d, y)) →
      WaitStep s (p, .read y) { s with driver := d }
  | release {p : P} {o : Outcome} {userBuf : MsgSt} :
      s.call p = .idle → s.myLock = none → ch4Read o s.driver userBuf = .ok none →
      WaitStep s (p, .release) (s.set p (.unlocked userBuf))
  | register {p : P} {userBuf : MsgSt} :
      s.call p = .unlocked userBuf →
      WaitStep s (p, .register) (s.set p (.registered userBuf false))
  | testTrue {p : P} {userBuf : MsgSt} {woken : Bool} :
      s.call p = .registered userBuf woken → 0 < s.driver.msgCount.toInt →
      WaitStep s (p, .test true) (s.set p (.seen userBuf))
  | testFalse {p : P} {userBuf : MsgSt} {woken : Bool} :
      s.call p = .registered userBuf woken → ¬ 0 < s.driver.msgCount.toInt →
      WaitStep s (p, .test false) (s.set p (.tested userBuf woken))
  | interrupted {p : P} {userBuf : MsgSt} {woken : Bool} :
      s.call p = .tested userBuf woken →
      WaitStep s (p, .interrupted) (s.set p (.seen userBuf))
  | sleep {p : P} {userBuf : MsgSt} {woken : Bool} :
      s.call p = .tested userBuf woken →
      WaitStep s (p, .sleep) (s.set p (.asleep userBuf woken))
  | signal {p : P} {userBuf : MsgSt} {woken : Bool} :
      s.call p = .asleep userBuf woken →
      WaitStep s (p, .signal) (s.set p (.asleep userBuf true))
  | resume {p : P} {userBuf : MsgSt} :
      s.call p = .asleep userBuf true →
      WaitStep s (p, .resume) (s.set p (.registered userBuf false))
  | readWoken {p : P} {o : Outcome} {userBuf : MsgSt} {d : Driver} {y : Reply} :
      s.call p = .seen userBuf → s.myLock = none → ch4ReadTake o s.driver userBuf = .ok (d, y) →
      WaitStep s (p, .readWoken y) ({ s with driver := d }.set p .idle)
  | write {p : P} {o : Outcome} {userBuf : MsgSt} {d : Driver} {y : Reply} :
      s.call p = .idle → s.myLock = none → ch4Write o s.driver userBuf = .ok (d, y) →
      y.effect.isSome = true → s.driver.hasRoom →
      WaitStep s (p, .write y) ({ s with driver := d, myLock := some p }.set p (.waking y))
  | reject {p : P} {o : Outcome} {userBuf : MsgSt} {d : Driver} {y : Reply} :
      s.call p = .idle → s.myLock = none → ch4Write o s.driver userBuf = .ok (d, y) →
      y.effect.isSome = false →
      WaitStep s (p, .write y) { s with driver := d }
  | wakeUp {p : P} {y : Reply} :
      s.call p = .waking y →
      WaitStep s (p, .wakeUp)
        ({ s with myLock := none, call := fun q => (s.call q).wakeUp }.set p .idle)
  | readFault {p : P} {o : Outcome} {userBuf : MsgSt} {e : Fault} :
      s.call p = .idle → s.myLock = none → ch4Read o s.driver userBuf = .error e →
      WaitStep s (p, .fault e) ({ s with myLock := some p }.set p (.faulted e))
  | wokenFault {p : P} {o : Outcome} {userBuf : MsgSt} {e : Fault} :
      s.call p = .seen userBuf → s.myLock = none → ch4ReadTake o s.driver userBuf = .error e →
      WaitStep s (p, .fault e) ({ s with myLock := some p }.set p (.faulted e))
  | writeFault {p : P} {o : Outcome} {userBuf : MsgSt} {e : Fault} :
      s.call p = .idle → s.myLock = none → ch4Write o s.driver userBuf = .error e →
      WaitStep s (p, .fault e) ({ s with myLock := some p }.set p (.faulted e))
  | overflow {p : P} {o : Outcome} {userBuf : MsgSt} {d : Driver} {y : Reply} :
      s.call p = .idle → s.myLock = none → ch4Write o s.driver userBuf = .ok (d, y) →
      y.effect.isSome = true → ¬ s.driver.hasRoom →
      WaitStep s (p, .overflow) ({ s with myLock := some p }.set p .overflowed)

section Projection

variable {s t : WaitSystem P} {p : P} {m : WaitMove} {ls : List (P × WaitMove)}

def CallPhase.phase : CallPhase → Phase
  | .idle | .waking _ | .overflowed => .idle
  | .unlocked userBuf | .registered userBuf _ | .tested userBuf _ | .asleep userBuf _ =>
    .waiting userBuf
  | .seen userBuf => .woken userBuf
  | .faulted e => .faulted e

def WaitMove.move : WaitMove → Option Move
  | .read y => some (.read y)
  | .release => some .sleep
  | .test true => some (.wake false)
  | .interrupted => some (.wake true)
  | .readWoken y => some (.readWoken y)
  | .write y => some (.write y)
  | .fault e => some (.fault e)
  | _ => none

def WaitSystem.system (s : WaitSystem P) : System P := ⟨s.driver, fun p => (s.call p).phase⟩

def labels (l : P × WaitMove) : Option (P × Move) := l.2.move.map (Prod.mk l.1)

@[simp] lemma phase_wakeUp (ph : CallPhase) : ph.wakeUp.phase = ph.phase := by
  cases ph <;> rfl

lemma system_set (s : WaitSystem P) (p : P) (ph : CallPhase) :
    (s.set p ph).system = s.system.set p ph.phase := by
  simp only [WaitSystem.system, WaitSystem.set, System.set, System.mk.injEq, true_and]
  funext q
  by_cases hq : q = p
  · subst hq
    simp
  · simp [hq]

lemma system_set_self {ph : CallPhase} (h : ph.phase = (s.call p).phase) :
    (s.set p ph).system = s.system := by
  rw [system_set, h]
  simp only [System.set, WaitSystem.system, System.mk.injEq, true_and]
  exact Function.update_eq_self p _

lemma waitStep_silent (h : WaitStep s (p, m) t) :
    Silent Step s.system (labels (p, m)) t.system := by
  have hphase : ∀ {ph : CallPhase}, s.call p = ph → s.system.phase p = ph.phase := by
    rintro _ rfl
    rfl
  cases h with
  | read hp _ hd => exact .read (hphase hp) hd
  | release hp _ hd =>
    rw [system_set]
    exact .sleep (hphase hp) hd
  | testTrue hp hcount =>
    rw [system_set]
    exact .wakeCount (hphase hp) hcount
  | interrupted hp =>
    rw [system_set]
    exact .wakeSignal (hphase hp)
  | readWoken hp _ hd =>
    rw [system_set]
    exact .readWoken (hphase hp) hd
  | @write _ _ _ d y hp _ hd =>
    have hself : (CallPhase.waking y).phase = (s.call p).phase := by
      rw [hp]
      rfl
    rw [@system_set_self _ _ { s with driver := d, myLock := some p } p _ hself]
    exact .write (hphase hp) hd
  | reject hp _ hd => exact .write (hphase hp) hd
  | readFault hp _ hd =>
    rw [system_set]
    exact .readFault (hphase hp) hd
  | wokenFault hp _ hd =>
    rw [system_set]
    exact .wokenFault (hphase hp) hd
  | writeFault hp _ hd =>
    rw [system_set]
    exact .writeFault (hphase hp) hd
  | register hp | testFalse hp | sleep hp | signal hp | resume hp | overflow hp =>
    apply system_set_self
    rw [hp]
    rfl
  | @wakeUp _ y hp =>
    have hself : CallPhase.idle.phase = (s.call p).wakeUp.phase := by
      rw [phase_wakeUp, hp]
      rfl
    refine (system_set_self hself).trans ?_
    simp only [WaitSystem.system, phase_wakeUp]

lemma wait_run (h : Run WaitStep (.init : WaitSystem P) ls s) :
    Run Step .init (ls.filterMap labels) s.system := by
  have hsim : ∀ (s : WaitSystem P) l t, True → WaitStep s l t →
      Silent Step s.system (labels l) t.system := by
    rintro s ⟨p, m⟩ t - hs
    exact waitStep_silent hs
  exact h.project (fun _ _ _ _ _ => trivial) hsim trivial

end Projection

section Wakefulness

variable {s t : WaitSystem P} {p q : P} {m : WaitMove} {ls : List (P × WaitMove)}

/-- The call has found `msg_count > 0` false and has not been woken since it registered. -/
def CallPhase.dozes : CallPhase → Bool
  | .tested _ woken | .asleep _ woken => !woken
  | _ => false

lemma dozes_wakeUp (ph : CallPhase) : ph.wakeUp.dozes = false := by
  cases ph <;> rfl

lemma call_set_self (s : WaitSystem P) (p : P) (ph : CallPhase) : (s.set p ph).call p = ph := by
  simp [WaitSystem.set]

lemma call_set_of_ne (s : WaitSystem P) (ph : CallPhase) (h : q ≠ p) :
    (s.set p ph).call q = s.call q := by
  simp [WaitSystem.set, h]

def Woken (s : WaitSystem P) : Prop := ∃ q y, s.call q = .waking y

structure Attentive (s : WaitSystem P) : Prop where
  room : s.driver.msgList.length < 2 ^ 31
  watched : ∀ p, (s.call p).dozes = true → s.driver.msgList = [] ∨ Woken s

lemma Attentive.set (ha : Attentive s) {ph : CallPhase} (hwake : ∀ y, s.call p ≠ .waking y)
    (hdoze : ph.dozes = true → s.driver.msgList = [] ∨ Woken s) : Attentive (s.set p ph) := by
  have hkeep : Woken s → Woken (s.set p ph) := by
    rintro ⟨q, y, hq⟩
    have hne : q ≠ p := by
      rintro rfl
      exact hwake y hq
    exact ⟨q, y, by rw [call_set_of_ne _ _ hne, hq]⟩
  refine ⟨ha.room, ?_⟩
  intro q hq
  by_cases hqp : q = p
  · subst hqp
    rw [call_set_self] at hq
    exact (hdoze hq).imp id hkeep
  · rw [call_set_of_ne _ _ hqp] at hq
    exact (ha.watched q hq).imp id hkeep

omit [DecidableEq P] in
lemma Attentive.take (ha : Attentive s) {o : Outcome} {userBuf : MsgSt} {d : Driver} {y : Reply}
    (hd : ch4ReadTake o s.driver userBuf = .ok (d, y)) : Attentive { s with driver := d } := by
  obtain ⟨tmp, rest, hq, rfl, -⟩ := ch4ReadTake_cases hd
  have hroom := ha.room
  rw [hq, List.length_cons] at hroom
  refine ⟨by simp only; omega, ?_⟩
  intro p hp
  obtain hempty | hwoken := ha.watched p hp
  · rw [hq] at hempty
    cases hempty
  · exact Or.inr hwoken

lemma Attentive.wakeUp (ha : Attentive s) :
    Attentive ({ s with myLock := none, call := fun q => (s.call q).wakeUp }.set p .idle) := by
  refine ⟨ha.room, ?_⟩
  intro q hq
  by_cases hqp : q = p
  · subst hqp
    rw [call_set_self] at hq
    cases hq
  · rw [call_set_of_ne _ _ hqp] at hq
    simp only [dozes_wakeUp] at hq
    cases hq

lemma Attentive.write (ha : Attentive s)
    (hcount : s.driver.msgCount.toInt = s.driver.msgList.length) (hroom : s.driver.hasRoom)
    {d : Driver} {y : Reply} {e : Option Effect} (hc : Changes s.driver d e) :
    Attentive ({ s with driver := d, myLock := some p }.set p (.waking y)) := by
  constructor
  · rw [Driver.hasRoom, hcount] at hroom
    apply changes_length hc _ ha.room
    intros
    omega
  · intro q _
    exact Or.inr ⟨p, y, call_set_self ..⟩

lemma attentive_step (ha : Attentive s) (hcount : s.driver.msgCount.toInt = s.driver.msgList.length)
    (h : WaitStep s (p, m) t) : Attentive t := by
  have hwake : ∀ {ph : CallPhase}, s.call p = ph → (∀ y, ph ≠ .waking y) →
      ∀ y, s.call p ≠ .waking y := by
    rintro _ rfl hph
    exact hph
  cases h with
  | read _ _ hd => exact ha.take (ch4Read_take hd)
  | readWoken hp _ hd =>
    apply (ha.take hd).set (hwake hp (by simp))
    simp [CallPhase.dozes]
  | write hp _ hd _ hroom => exact ha.write hcount hroom (ch4Write_changes hd)
  | reject hp _ hd hy =>
    obtain ⟨rfl, -⟩ | ⟨x, -, hx⟩ := ch4Write_cases hd
    · exact ha
    · rw [hx] at hy
      cases hy
  | wakeUp => exact ha.wakeUp
  | testFalse hp hfalse =>
    apply ha.set (hwake hp (by simp))
    -- the test has just found the list empty
    intro _
    rw [hcount] at hfalse
    exact Or.inl (List.length_eq_zero_iff.mp (by omega))
  | sleep hp =>
    apply ha.set (hwake hp (by simp))
    intro hdoze
    apply ha.watched p
    rw [hp]
    exact hdoze
  | release hp | register hp | testTrue hp | interrupted hp | signal hp | resume hp =>
    apply ha.set (hwake hp (by simp))
    simp [CallPhase.dozes]
  | readFault hp | wokenFault hp | writeFault hp | overflow hp =>
    have hlocked : Attentive { s with myLock := some p } := ⟨ha.room, ha.watched⟩
    apply hlocked.set (hwake hp (by simp))
    simp [CallPhase.dozes]

lemma attentive_run (h : Run WaitStep (.init : WaitSystem P) ls s) :
    Attentive s ∧ s.driver.msgCount.toInt = s.driver.msgList.length := by
  have ha : Attentive s := by
    apply h.induct_right (M := fun _ s => Attentive s)
    · exact ⟨Nat.two_pow_pos 31, fun p hp => by cases hp⟩
    · rintro ls s ⟨p, m⟩ t hr ha hs
      exact attentive_step ha ((counted_run (wait_run hr)).toInt ha.room) hs
  exact ⟨ha, (counted_run (wait_run h)).toInt ha.room⟩

theorem no_lost_wake_up (h : Run WaitStep (.init : WaitSystem P) ls s) {userBuf : MsgSt}
    (hp : s.call p = .asleep userBuf false) (hcount : 0 < s.driver.msgCount.toInt) :
    ∃ q y, s.call q = .waking y := by
  obtain ⟨ha, heq⟩ := attentive_run h
  obtain hempty | hwoken := ha.watched p (by rw [hp]; rfl)
  · rw [heq, hempty] at hcount
    exact absurd hcount (by decide)
  · exact hwoken

theorem no_lost_wake_up_write : ∃ (ls : List (Fin 2 × WaitMove)) (s : WaitSystem (Fin 2)),
    Run WaitStep .init ls s ∧ s.call 0 = .asleep .zero false ∧
      ∃ q y, s.call q = .waking y := by
  obtain ⟨ls, s, hrun, hp, hcount⟩ : ∃ ls s, Run WaitStep (.init : WaitSystem (Fin 2)) ls s ∧
      s.call 0 = .asleep .zero false ∧ 0 < s.driver.msgCount.toInt := by
    refine ⟨_, _, .cons (@WaitStep.release _ _ _ 0 .success .zero rfl rfl rfl)
      (.cons (.register (p := 0) rfl) (.cons (.testFalse (p := 0) rfl ?_)
      (.cons (.sleep (p := 0) rfl)
      (.cons (.write (p := 1) rfl rfl (ch4Write_hello _) rfl ?_) .nil)))), rfl, ?_⟩
    · exact (by decide : ¬ 0 < (0 : BitVec 32).toInt)
    · exact (by decide : (0 : BitVec 32).toInt + 1 < 2 ^ 31)
    · exact (by decide : 0 < ((0 : BitVec 32) + 1).toInt)
  exact ⟨ls, s, hrun, hp, no_lost_wake_up hrun hp hcount⟩

end Wakefulness

end EmbeddedSystem.Challenge4
