import EmbeddedSystem.Kernel.Memory

/-! The driver `ch4_mod_201711395.c`, whose reads wait for a message. What runs under `my_lock` is
one atomic step; between the two locked parts of `ch4_read` stands `wait_event_interruptible`,
which returns when it has seen `msg_count > 0` or when a signal arrives. A list of
`struct msg_list` is the list of the messages it points to. -/

namespace EmbeddedSystem.Challenge4

open Kernel

abbrev bufSize : ℕ := 128
abbrev sizeofMsgSt : ℕ := 132

structure MsgSt where
  bytes : Fin 132 → UInt8
  deriving DecidableEq

def MsgSt.len (m : MsgSt) : BitVec 32 :=
  (m.bytes 3).toBitVec ++ (m.bytes 2).toBitVec ++ (m.bytes 1).toBitVec ++ (m.bytes 0).toBitVec

def MsgSt.zero : MsgSt := ⟨fun _ => 0⟩

structure Driver where
  msgList : List MsgSt
  msgCount : BitVec 32

def Driver.init : Driver := ⟨[], 0⟩

inductive Effect
  | appended (m : MsgSt)
  | removed (m : MsgSt)
  deriving DecidableEq

structure Reply where
  ret : ℤ
  effect : Option Effect
  buf : Option MsgSt
  deriving DecidableEq

lemma userCopy_msg (o : Outcome) (dst src : MsgSt) :
    ∃ bytes ret, userCopy o dst.bytes src.bytes sizeofMsgSt = .ok (bytes, ret) := by
  obtain ⟨⟨bytes, ret⟩, hcopy⟩ := userCopy_total o
    (by decide : (0 : ℤ) ≤ sizeofMsgSt ∧ (sizeofMsgSt : ℤ) ≤ (132 : ℕ)) (by decide) dst.bytes
      src.bytes
  exact ⟨bytes, ret, hcopy⟩

/-- The part of `ch4_read` that takes the first node; the head of an empty list is no node. -/
def ch4ReadTake (o : Outcome) (s : Driver) (userBuf : MsgSt) : Except Fault (Driver × Reply) :=
  match s.msgList with
  | [] => throw .listHead
  | tmp :: rest => do
    let (bytes, ret) ← userCopy o userBuf.bytes tmp.bytes sizeofMsgSt
    return (⟨rest, s.msgCount - 1⟩, ⟨ret, some (.removed tmp), some ⟨bytes⟩⟩)

/-- The first locked part of `ch4_read`, which has no result when it goes on to wait. -/
def ch4Read (o : Outcome) (s : Driver) (userBuf : MsgSt) :
    Except Fault (Option (Driver × Reply)) := do
  if s.msgList = [] then
    return none
  else
    let r ← ch4ReadTake o s userBuf
    return some r

def ch4Write (o : Outcome) (s : Driver) (userBuf : MsgSt) : Except Fault (Driver × Reply) :=
  if userBuf.len.toInt ≥ bufSize then
    return (s, ⟨-1, none, none⟩)
  else do
    if !o.vmalloc then throw .null
    let (bytes, ret) ← userCopy o MsgSt.zero.bytes userBuf.bytes sizeofMsgSt
    if !o.kmalloc then throw .null
    return (⟨s.msgList ++ [⟨bytes⟩], s.msgCount + 1⟩, ⟨ret, some (.appended ⟨bytes⟩), none⟩)

inductive Phase
  | idle
  | waiting (userBuf : MsgSt)
  | woken (userBuf : MsgSt)
  | faulted (e : Fault)
  deriving DecidableEq

structure System (P : Type) where
  driver : Driver
  phase : P → Phase

inductive Move
  | read (y : Reply)
  | sleep
  | wake (signal : Bool)
  | readWoken (y : Reply)
  | write (y : Reply)
  | fault (e : Fault)
  deriving DecidableEq

def Move.effect : Move → Option Effect
  | .read y => y.effect
  | .readWoken y => y.effect
  | .write y => y.effect
  | _ => none

variable {P : Type} [DecidableEq P]

def System.init : System P := ⟨.init, fun _ => .idle⟩

def System.set (s : System P) (p : P) (ph : Phase) : System P :=
  { s with phase := Function.update s.phase p ph }

inductive Step (s : System P) : P × Move → System P → Prop
  | read {p : P} {o : Outcome} {userBuf : MsgSt} {d : Driver} {y : Reply} :
      s.phase p = .idle → ch4Read o s.driver userBuf = .ok (some (d, y)) →
      Step s (p, .read y) { s with driver := d }
  | sleep {p : P} {o : Outcome} {userBuf : MsgSt} :
      s.phase p = .idle → ch4Read o s.driver userBuf = .ok none →
      Step s (p, .sleep) (s.set p (.waiting userBuf))
  | wakeCount {p : P} {userBuf : MsgSt} :
      s.phase p = .waiting userBuf → 0 < s.driver.msgCount.toInt →
      Step s (p, .wake false) (s.set p (.woken userBuf))
  | wakeSignal {p : P} {userBuf : MsgSt} :
      s.phase p = .waiting userBuf → Step s (p, .wake true) (s.set p (.woken userBuf))
  | readWoken {p : P} {o : Outcome} {userBuf : MsgSt} {d : Driver} {y : Reply} :
      s.phase p = .woken userBuf → ch4ReadTake o s.driver userBuf = .ok (d, y) →
      Step s (p, .readWoken y) ({ s with driver := d }.set p .idle)
  | write {p : P} {o : Outcome} {userBuf : MsgSt} {d : Driver} {y : Reply} :
      s.phase p = .idle → ch4Write o s.driver userBuf = .ok (d, y) →
      Step s (p, .write y) { s with driver := d }
  | readFault {p : P} {o : Outcome} {userBuf : MsgSt} {e : Fault} :
      s.phase p = .idle → ch4Read o s.driver userBuf = .error e →
      Step s (p, .fault e) (s.set p (.faulted e))
  | wokenFault {p : P} {o : Outcome} {userBuf : MsgSt} {e : Fault} :
      s.phase p = .woken userBuf → ch4ReadTake o s.driver userBuf = .error e →
      Step s (p, .fault e) (s.set p (.faulted e))
  | writeFault {p : P} {o : Outcome} {userBuf : MsgSt} {e : Fault} :
      s.phase p = .idle → ch4Write o s.driver userBuf = .error e →
      Step s (p, .fault e) (s.set p (.faulted e))

end EmbeddedSystem.Challenge4
