import EmbeddedSystem.SimpleBlock1.Driver

/-! The waits of `simple_block_1.c` in steps. A wait tests its condition, and as long as that fails
it enters `my_wq`, tests again and sleeps. No waiter is exclusive, so `wake_up` wakes all that are
in the queue and sleep, or are about to. A timer ends the sleep of `WQ_INTERRUPTIBLE_TIMEOUT`. -/

namespace EmbeddedSystem.SimpleBlock1

open Foundations

inductive CallPhase
  | outside (ph : Phase)
  | preparing (w : Wait) (ret : ℕ)
  | testing (w : Wait) (ret : ℕ) (signal woken : Bool)
  | asleep (w : Wait) (ret : ℕ) (woken : Bool)
  deriving DecidableEq

inductive WaitMove
  | ioctl (cmd : BitVec 32) (arg : BitVec 64)
  | test
  | ended (w : Wait) (e : Ending) (ret : ℤ)
  | prepare (signal : Bool)
  | sleep | signal | expire
  | resume (left : ℕ)
  | reduce | add | wakeUp
  | ret (myData : BitVec 64)
  | fail (ret : ℤ)
  deriving DecidableEq

structure WaitSystem (P : Type) where
  myData : BitVec 64
  myWq : List P
  call : P → CallPhase

def erestartsys : ℤ := 512

def Wait.interruptible : Wait → Bool
  | .wq => false
  | .wqInterruptible | .wqInterruptibleTimeout => true

def Wait.start (hz : ℕ) : Wait → ℕ
  | .wq | .wqInterruptible => 0
  | .wqInterruptibleTimeout => 2 * hz

/-- `___wait_cond_timeout`, with `__ret` after it. -/
def waitCondTimeout (condition : Bool) (ret : ℕ) : Bool × ℕ :=
  if condition && ret == 0 then (true, 1) else (condition || ret == 0, ret)

def Wait.test (w : Wait) (condition : Bool) (ret : ℕ) : Bool × ℕ :=
  match w with
  | .wq | .wqInterruptible => (condition, ret)
  | .wqInterruptibleTimeout => waitCondTimeout condition ret

def ending (condition : Bool) : Ending := if condition then .observed else .timedOut

def CallPhase.wakeUp : CallPhase → CallPhase
  | .testing w ret signal _ => .testing w ret signal true
  | .asleep w ret _ => .asleep w ret true
  | ph => ph

def CallPhase.dozes : CallPhase → Bool
  | .testing _ _ false false => true
  | .asleep _ _ false => true
  | _ => false

variable {P : Type} [DecidableEq P]

def WaitSystem.init : WaitSystem P := ⟨0, [], fun _ => .outside .idle⟩

def WaitSystem.set (s : WaitSystem P) (p : P) (ph : CallPhase) : WaitSystem P :=
  { s with call := Function.update s.call p ph }

def WaitSystem.positive (s : WaitSystem P) : Bool := decide (0 < s.myData.toInt)

-- `prepare_to_wait_event` without a pending signal.
def WaitSystem.enter (s : WaitSystem P) (p : P) : WaitSystem P :=
  { s with myWq := if p ∈ s.myWq then s.myWq else p :: s.myWq }

-- `finish_wait`, and `prepare_to_wait_event` with a pending signal.
def WaitSystem.leave (s : WaitSystem P) (p : P) : WaitSystem P :=
  { s with myWq := s.myWq.filter (· ≠ p) }

def WaitSystem.wakeUp (s : WaitSystem P) : WaitSystem P :=
  { s with
    myWq := s.myWq.filter fun q => !(s.call q).dozes
    call := fun q => if q ∈ s.myWq then (s.call q).wakeUp else s.call q }

inductive WaitStep (hz : ℕ) (s : WaitSystem P) : P × WaitMove → WaitSystem P → Prop
  | ioctl {p : P} (cmd : BitVec 32) (arg : BitVec 64) :
      s.call p = .outside .idle →
      WaitStep hz s (p, .ioctl cmd arg) (s.set p (.outside (simpleBlock1Ioctl cmd arg)))
  | enterTrue {p : P} {w : Wait} {ret : ℕ} :
      s.call p = .outside (.waiting w) → w.test s.positive (w.start hz) = (true, ret) →
      WaitStep hz s (p, .ended w (ending s.positive) ret) (s.set p (.outside (afterWait w ret)))
  | enterFalse {p : P} {w : Wait} {ret : ℕ} :
      s.call p = .outside (.waiting w) → w.test s.positive (w.start hz) = (false, ret) →
      WaitStep hz s (p, .test) (s.set p (.preparing w (w.start hz)))
  | prepare {p : P} {w : Wait} {ret : ℕ} :
      s.call p = .preparing w ret →
      WaitStep hz s (p, .prepare false) ((s.enter p).set p (.testing w ret false false))
  | prepareSignal {p : P} {w : Wait} {ret : ℕ} :
      s.call p = .preparing w ret → w.interruptible = true →
      WaitStep hz s (p, .prepare true) ((s.leave p).set p (.testing w ret true false))
  | testTrue {p : P} {w : Wait} {ret ret' : ℕ} {signal woken : Bool} :
      s.call p = .testing w ret signal woken → w.test s.positive ret = (true, ret') →
      WaitStep hz s (p, .ended w (ending s.positive) ret')
        ((s.leave p).set p (.outside (afterWait w ret')))
  | interrupted {p : P} {w : Wait} {ret ret' : ℕ} {woken : Bool} :
      s.call p = .testing w ret true woken → w.test s.positive ret = (false, ret') →
      WaitStep hz s (p, .ended w .signalled (-erestartsys))
        (s.set p (.outside (afterWait w (-erestartsys))))
  | sleep {p : P} {w : Wait} {ret ret' : ℕ} {woken : Bool} :
      s.call p = .testing w ret false woken → w.test s.positive ret = (false, ret') →
      WaitStep hz s (p, .sleep) (s.set p (.asleep w ret woken))
  | signal {p : P} {w : Wait} {ret : ℕ} {woken : Bool} :
      s.call p = .asleep w ret woken → w.interruptible = true →
      WaitStep hz s (p, .signal) (s.set p (.asleep w ret true))
  | expire {p : P} {ret : ℕ} {woken : Bool} :
      s.call p = .asleep .wqInterruptibleTimeout ret woken →
      WaitStep hz s (p, .expire) (s.set p (.asleep .wqInterruptibleTimeout 0 true))
  -- `schedule_timeout` returns the jiffies that are left
  | resume {p : P} {w : Wait} {ret left : ℕ} :
      s.call p = .asleep w ret true → left ≤ ret →
      WaitStep hz s (p, .resume left) (s.set p (.preparing w left))
  | reduce {p : P} :
      s.call p = .outside .reducing →
      WaitStep hz s (p, .reduce) ({ s with myData := s.myData - 1 }.set p (.outside .returning))
  | add {p : P} {arg : BitVec 64} :
      s.call p = .outside (.adding arg) →
      WaitStep hz s (p, .add) ({ s with myData := s.myData + arg }.set p (.outside .updated))
  | wakeUp {p : P} :
      s.call p = .outside .updated →
      WaitStep hz s (p, .wakeUp) (s.wakeUp.set p (.outside .returning))
  | ret {p : P} :
      s.call p = .outside .returning →
      WaitStep hz s (p, .ret s.myData) (s.set p (.outside .idle))
  | fail {p : P} {ret : ℤ} :
      s.call p = .outside (.failing ret) →
      WaitStep hz s (p, .fail ret) (s.set p (.outside .idle))

end EmbeddedSystem.SimpleBlock1
