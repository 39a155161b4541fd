import Mathlib.Tactic

/-! The driver `simple_block_2.c`. Each update of `my_data` under `my_lock` is one step. A wait
tests `my_data > 0`, and as long as that fails it enters `my_wq`, tests again and sleeps. Waiters
of `WQ_EX` are exclusive: they enter at the tail, the other ones at the head, and
`wake_up_interruptible` goes on from the head to the first exclusive one that it wakes. A waiter
that a signal has woken is not woken again. -/

namespace EmbeddedSystem.SimpleBlock2

inductive Phase
  | idle
  | entering (exclusive : Bool)
  | preparing (exclusive : Bool)
  | testing (exclusive signal woken : Bool)
  | asleep (exclusive woken : Bool)
  | seen
  | updated (all : Bool)
  | returning
  deriving DecidableEq

structure System (P : Type) where
  myData : BitVec 64
  myWq : List (P × Bool)
  phase : P → Phase

inductive Move
  | wait (exclusive : Bool)
  | test (holds : Bool)
  | prepare (signal : Bool)
  | interrupted | sleep | signal | resume
  | consume
  | produce (all : Bool) (arg : BitVec 64)
  | wakeUp
  | ret (myData : BitVec 64)
  | unknown
  deriving DecidableEq

def Phase.wakeUp : Phase → Phase
  | .testing exclusive signal _ => .testing exclusive signal true
  | .asleep exclusive _ => .asleep exclusive true
  | ph => ph

def Phase.dozes : Phase → Bool
  | .testing _ false false => true
  | .asleep _ false => true
  | _ => false

variable {P : Type} [DecidableEq P]

def System.init : System P := ⟨0, [], fun _ => .idle⟩

def System.set (s : System P) (p : P) (ph : Phase) : System P :=
  { s with phase := Function.update s.phase p ph }

def enter (p : P) (exclusive : Bool) (myWq : List (P × Bool)) : List (P × Bool) :=
  if p ∈ myWq.map Prod.fst then myWq
  else if exclusive then myWq ++ [(p, true)]
  else (p, false) :: myWq

def leave (p : P) (myWq : List (P × Bool)) : List (P × Bool) := myWq.filter fun x => x.1 ≠ p

def woken (dozes : P → Bool) (all : Bool) : List (P × Bool) → List P
  | [] => []
  | x :: myWq =>
    if dozes x.1 then
      if x.2 && !all then [x.1] else x.1 :: woken dozes all myWq
    else woken dozes all myWq

def System.woken (s : System P) (all : Bool) : List P :=
  SimpleBlock2.woken (fun q => (s.phase q).dozes) all s.myWq

def System.wakeUp (s : System P) (all : Bool) : System P :=
  { s with
    myWq := s.myWq.filter fun x => x.1 ∉ s.woken all
    phase := fun q => if q ∈ s.woken all then (s.phase q).wakeUp else s.phase q }

inductive Step (s : System P) : P × Move → System P → Prop
  | wait {p : P} {exclusive : Bool} :
      s.phase p = .idle → Step s (p, .wait exclusive) (s.set p (.entering exclusive))
  | enterTrue {p : P} {exclusive : Bool} :
      s.phase p = .entering exclusive → 0 < s.myData.toInt →
      Step s (p, .test true) (s.set p .seen)
  | enterFalse {p : P} {exclusive : Bool} :
      s.phase p = .entering exclusive → ¬ 0 < s.myData.toInt →
      Step s (p, .test false) (s.set p (.preparing exclusive))
  | prepare {p : P} {exclusive : Bool} :
      s.phase p = .preparing exclusive →
      Step s (p, .prepare false)
        ({ s with myWq := enter p exclusive s.myWq }.set p (.testing exclusive false false))
  | prepareSignal {p : P} {exclusive : Bool} :
      s.phase p = .preparing exclusive →
      Step s (p, .prepare true)
        ({ s with myWq := leave p s.myWq }.set p (.testing exclusive true false))
  | testTrue {p : P} {exclusive signal woken : Bool} :
      s.phase p = .testing exclusive signal woken → 0 < s.myData.toInt →
      Step s (p, .test true) ({ s with myWq := leave p s.myWq }.set p .seen)
  | interrupted {p : P} {exclusive woken : Bool} :
      s.phase p = .testing exclusive true woken → ¬ 0 < s.myData.toInt →
      Step s (p, .interrupted) (s.set p .idle)
  | sleep {p : P} {exclusive woken : Bool} :
      s.phase p = .testing exclusive false woken → ¬ 0 < s.myData.toInt →
      Step s (p, .sleep) (s.set p (.asleep exclusive woken))
  | signal {p : P} {exclusive woken : Bool} :
      s.phase p = .asleep exclusive woken →
      Step s (p, .signal) (s.set p (.asleep exclusive true))
  | resume {p : P} {exclusive : Bool} :
      s.phase p = .asleep exclusive true →
      Step s (p, .resume) (s.set p (.preparing exclusive))
  | consume {p : P} :
      s.phase p = .seen →
      Step s (p, .consume) ({ s with myData := s.myData - 1 }.set p .returning)
  | produce {p : P} {all : Bool} {arg : BitVec 64} :
      s.phase p = .idle →
      Step s (p, .produce all arg) ({ s with myData := s.myData + arg }.set p (.updated all))
  | wakeUp {p : P} {all : Bool} :
      s.phase p = .updated all →
      Step s (p, .wakeUp) ((s.wakeUp all).set p .returning)
  | ret {p : P} :
      s.phase p = .returning →
      Step s (p, .ret s.myData) (s.set p .idle)
  -- the switch has no default, so any other command goes on to the decrement
  | unknown {p : P} :
      s.phase p = .idle → Step s (p, .unknown) (s.set p .seen)

end EmbeddedSystem.SimpleBlock2
