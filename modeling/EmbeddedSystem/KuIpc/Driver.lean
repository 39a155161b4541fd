import EmbeddedSystem.Kernel.Memory

/-! The ioctls of the driver `ku_ipc.c`. Every body runs under `my_lock` and is one atomic step.
The globals `tmp` and `kern_buf` are written before they are read in every body, so they are
local values here, and a list of `struct msg_queue` is the list of the messages it points to.
A `struct msgbuf` is its bytes: a little-endian `long` and 128 characters. A reply holds the
result of an ioctl, the change it made, and the caller's buffer when the ioctl wrote to it. -/

namespace EmbeddedSystem.KuIpc

open Kernel

abbrev queueNum : ℕ := 10
abbrev kuipcMaxmsg : ℕ := 5
abbrev kuipcMaxvol : ℕ := 100
abbrev sizeofLong : ℕ := 8
abbrev sizeofInt : ℕ := 4
abbrev sizeofMsgbuf : ℕ := 136

def kuIpcCreat : BitVec 32 := 1
def kuIpcExcl : BitVec 32 := 2
def kuIpcNowait : BitVec 32 := 1
def kuMsgNoerror : BitVec 32 := 2

structure Msgbuf where
  bytes : Fin 136 → UInt8
  deriving DecidableEq

def Msgbuf.type (m : Msgbuf) : BitVec 64 :=
  (m.bytes 7).toBitVec ++ (m.bytes 6).toBitVec ++ (m.bytes 5).toBitVec ++ (m.bytes 4).toBitVec ++
    (m.bytes 3).toBitVec ++ (m.bytes 2).toBitVec ++ (m.bytes 1).toBitVec ++ (m.bytes 0).toBitVec

def Msgbuf.text (m : Msgbuf) : Fin 128 → UInt8 := fun i => m.bytes (Fin.natAdd 8 i)

def Msgbuf.make (type : BitVec 64) (text : List UInt8) : Msgbuf where
  bytes i := if i.val < 8 then ⟨(type >>> (8 * i.val)).setWidth 8⟩ else text.getD (i.val - 8) 0

def Msgbuf.zero : Msgbuf := ⟨fun _ => 0⟩

structure Qid where
  key : ℤ
  msgflg : BitVec 32
  deriving DecidableEq

/-- The caller's `struct msg_config`, with the contents of the buffer `msg` points to. -/
structure MsgConfig where
  key : ℤ
  msg : Msgbuf
  msgsz : ℤ
  msgtyp : BitVec 64
  msgflg : BitVec 32
  deriving DecidableEq

structure Driver where
  msgQueue : Fin queueNum → List Msgbuf
  queueReferenceCounter : Fin queueNum → BitVec 32

def Driver.init : Driver := ⟨fun _ => [], fun _ => 0⟩

inductive Effect
  | counted (k : Fin queueNum)
  | uncounted (k : Fin queueNum)
  | queued (k : Fin queueNum) (m : Msgbuf)
  | removed (k : Fin queueNum) (m : Msgbuf)
  deriving DecidableEq

structure Reply where
  ret : ℤ
  effect : Option Effect
  buf : Option Msgbuf
  deriving DecidableEq

def Driver.setCounter (s : Driver) (k : Fin queueNum) (n : BitVec 32) : Driver :=
  { s with queueReferenceCounter := Function.update s.queueReferenceCounter k n }

def Driver.setQueue (s : Driver) (k : Fin queueNum) (q : List Msgbuf) : Driver :=
  { s with msgQueue := Function.update s.msgQueue k q }

@[simp] lemma msgQueue_setCounter (s : Driver) (k : Fin queueNum) (n : BitVec 32) :
    (s.setCounter k n).msgQueue = s.msgQueue := rfl

@[simp] lemma counter_setCounter (s : Driver) (k : Fin queueNum) (n : BitVec 32) :
    (s.setCounter k n).queueReferenceCounter = Function.update s.queueReferenceCounter k n := rfl

@[simp] lemma msgQueue_setQueue (s : Driver) (k : Fin queueNum) (q : List Msgbuf) :
    (s.setQueue k q).msgQueue = Function.update s.msgQueue k q := rfl

@[simp] lemma counter_setQueue (s : Driver) (k : Fin queueNum) (q : List Msgbuf) :
    (s.setQueue k q).queueReferenceCounter = s.queueReferenceCounter := rfl

def kuIpcMsgget (s : Driver) (myQid : Qid) : Except Fault (Driver × Reply) :=
  if myQid.msgflg = kuIpcCreat ||| kuIpcExcl then do
    let k ← arrayIndex queueNum myQid.key
    if s.queueReferenceCounter k ≠ 0 then
      return (s, ⟨-1, none, none⟩)
    else
      return (s.setCounter k (s.queueReferenceCounter k + 1), ⟨myQid.key, some (.counted k), none⟩)
  else if myQid.msgflg = kuIpcCreat then do
    let k ← arrayIndex queueNum myQid.key
    return (s.setCounter k (s.queueReferenceCounter k + 1), ⟨myQid.key, some (.counted k), none⟩)
  else
    -- `ret` keeps its initial value
    return (s, ⟨0, none, none⟩)

def kuIpcMsgclose (s : Driver) (msqid : ℤ) : Except Fault (Driver × Reply) := do
  -- the array is read before `msqid` is compared with the bounds
  let k ← arrayIndex queueNum msqid
  if s.queueReferenceCounter k = 0 ∨ msqid < 0 ∨ msqid ≥ queueNum then
    return (s, ⟨-1, none, none⟩)
  else
    return (s.setCounter k (s.queueReferenceCounter k - 1), ⟨0, some (.uncounted k), none⟩)

def countMessages : List Msgbuf → ℕ → ℕ → Except Fault (ℕ × ℕ)
  | [], msgNum, msgVol => return (msgNum, msgVol)
  | tmp :: rest, msgNum, msgVol => do
    let n ← strlen tmp.text
    countMessages rest (msgNum + 1) (msgVol + (sizeofLong + n + 1))

def kuIpcMsgsnd (o : Outcome) (s : Driver) (myMsg : MsgConfig) : Except Fault (Driver × Reply) := do
  let k ← arrayIndex queueNum myMsg.key
  let (msgNum, msgVol) ← countMessages (s.msgQueue k) 0 0
  -- the size of the field `msgsz`, not its value
  if msgVol + sizeofInt > kuipcMaxvol ∨ msgNum ≥ kuipcMaxmsg then
    return (s, ⟨-1, none, none⟩)
  else
    if !o.vmalloc then throw .null
    let (bytes, ret) ← userCopy o Msgbuf.zero.bytes myMsg.msg.bytes myMsg.msgsz
    if !o.kmalloc then throw .null
    return (s.setQueue k (s.msgQueue k ++ [⟨bytes⟩]), ⟨ret, some (.queued k ⟨bytes⟩), none⟩)

inductive Search
  | absent
  | short
  | found (m : Msgbuf) (rest : List Msgbuf)

def Search.past (tmp : Msgbuf) : Search → Search
  | .found m rest => .found m (tmp :: rest)
  | r => r

def findMessage (myMsg : MsgConfig) : List Msgbuf → Except Fault Search
  | [] => return .absent
  | tmp :: rest =>
    if myMsg.msgtyp = tmp.type then do
      if myMsg.msgflg &&& kuMsgNoerror = 0 then
        let n ← strlen tmp.text
        if sizeT myMsg.msgsz < sizeofLong + n + 1 then return .short
      return .found tmp rest
    else do
      let r ← findMessage myMsg rest
      return r.past tmp

def kuIpcMsgrcv (o : Outcome) (s : Driver) (myMsg : MsgConfig) : Except Fault (Driver × Reply) := do
  let k ← arrayIndex queueNum myMsg.key
  match ← findMessage myMsg (s.msgQueue k) with
  | .absent => return (s, ⟨-1, none, none⟩)
  | .short => return (s, ⟨-2, none, none⟩)
  | .found m rest =>
    let (bytes, ret) ← userCopy o myMsg.msg.bytes m.bytes myMsg.msgsz
    return (s.setQueue k rest, ⟨ret, some (.removed k m), some ⟨bytes⟩⟩)

inductive Request
  | msgget (myQid : Qid)
  | msgclose (myKey : ℤ)
  | msgrcv (myMsg : MsgConfig)
  | msgsnd (myMsg : MsgConfig)
  | unknown
  deriving DecidableEq

def kuIpcIoctl (o : Outcome) (s : Driver) : Request → Except Fault (Driver × Reply)
  | .msgget myQid => kuIpcMsgget s myQid
  | .msgclose myKey => kuIpcMsgclose s myKey
  | .msgrcv myMsg => kuIpcMsgrcv o s myMsg
  | .msgsnd myMsg => kuIpcMsgsnd o s myMsg
  | .unknown => return (s, ⟨0, none, none⟩)

end EmbeddedSystem.KuIpc
