import EmbeddedSystem.Foundations.Runs
import EmbeddedSystem.Kernel.Memory

/-! The driver `simple_block_1.c`, whose calls wait with three different macros. Each update of
`my_data` under `my_lock` is one step. A wait ends in one step, at any time at which its macro may
return. -/

namespace EmbeddedSystem.SimpleBlock1

open Foundations
open Kernel (iowr)

def ioctlStartNum : ℕ := 0x80

def simpleIoctlNum : ℕ := 0x7a

inductive Wait
  | wq | wqInterruptible | wqInterruptibleTimeout
  deriving DecidableEq

def Wait.cmd : Wait → BitVec 32
  | .wq => iowr simpleIoctlNum (ioctlStartNum + 1)
  | .wqInterruptible => iowr simpleIoctlNum (ioctlStartNum + 2)
  | .wqInterruptibleTimeout => iowr simpleIoctlNum (ioctlStartNum + 3)

def wqWakeUp : BitVec 32 := iowr simpleIoctlNum (ioctlStartNum + 4)

inductive Ending
  | observed | signalled | timedOut
  deriving DecidableEq

inductive WaitReturns (myData : BitVec 64) : Wait → Ending → ℤ → Prop
  | wq : 0 < myData.toInt → WaitReturns myData .wq .observed 0
  | interruptible : 0 < myData.toInt → WaitReturns myData .wqInterruptible .observed 0
  | interrupted {ret : ℤ} : ret < 0 → WaitReturns myData .wqInterruptible .signalled ret
  | timeout {ret : ℤ} :
      0 < myData.toInt → 0 < ret → WaitReturns myData .wqInterruptibleTimeout .observed ret
  | timeoutInterrupted {ret : ℤ} :
      ret < 0 → WaitReturns myData .wqInterruptibleTimeout .signalled ret
  | timedOut : ¬ 0 < myData.toInt → WaitReturns myData .wqInterruptibleTimeout .timedOut 0

inductive Phase
  | idle
  | waiting (w : Wait)
  | reducing
  | adding (arg : BitVec 64)
  | updated
  | returning
  | failing (ret : ℤ)
  deriving DecidableEq

/-- The `switch`, which has no default: any other command goes on to the decrement. -/
def simpleBlock1Ioctl (cmd : BitVec 32) (arg : BitVec 64) : Phase :=
  if cmd = Wait.wq.cmd then .waiting .wq
  else if cmd = Wait.wqInterruptible.cmd then .waiting .wqInterruptible
  else if cmd = Wait.wqInterruptibleTimeout.cmd then .waiting .wqInterruptibleTimeout
  else if cmd = wqWakeUp then .adding arg
  else .reducing

def afterWait : Wait → ℤ → Phase
  | .wq, _ => .reducing
  | .wqInterruptible, ret => if ret < 0 then .failing ret else .reducing
  | .wqInterruptibleTimeout, ret => if ret < 0 then .failing ret else .reducing

structure System (P : Type) where
  myData : BitVec 64
  phase : P → Phase

inductive Move
  | ioctl (cmd : BitVec 32) (arg : BitVec 64)
  | wake (w : Wait) (e : Ending) (ret : ℤ)
  | reduce | add | wakeUp
  | ret (myData : BitVec 64)
  | fail (ret : ℤ)
  deriving DecidableEq

variable {P : Type} [DecidableEq P]

def System.init : System P := ⟨0, fun _ => .idle⟩

def System.set (s : System P) (p : P) (ph : Phase) : System P :=
  { s with phase := Function.update s.phase p ph }

inductive Step (s : System P) : P × Move → System P → Prop
  | ioctl {p : P} (cmd : BitVec 32) (arg : BitVec 64) :
      s.phase p = .idle → Step s (p, .ioctl cmd arg) (s.set p (simpleBlock1Ioctl cmd arg))
  | wake {p : P} {w : Wait} {e : Ending} {ret : ℤ} :
      s.phase p = .waiting w → WaitReturns s.myData w e ret →
      Step s (p, .wake w e ret) (s.set p (afterWait w ret))
  | reduce {p : P} :
      s.phase p = .reducing →
      Step s (p, .reduce) ({ s with myData := s.myData - 1 }.set p .returning)
  | add {p : P} {arg : BitVec 64} :
      s.phase p = .adding arg →
      Step s (p, .add) ({ s with myData := s.myData + arg }.set p .updated)
  | wakeUp {p : P} : s.phase p = .updated → Step s (p, .wakeUp) (s.set p .returning)
  | ret {p : P} : s.phase p = .returning → Step s (p, .ret s.myData) (s.set p .idle)
  | fail {p : P} {ret : ℤ} : s.phase p = .failing ret → Step s (p, .fail ret) (s.set p .idle)

end EmbeddedSystem.SimpleBlock1
