import EmbeddedSystem.Kernel.Messages
import EmbeddedSystem.KuIpc.Driver

/-! Sending, receiving and the exit of `ku_ipc.c` on the ten lists in memory. The walks over a list
run on fuel. -/

namespace EmbeddedSystem.KuIpc.Memory

open Kernel Foundations

variable {A B : Type} [DecidableEq A] [DecidableEq B]

abbrev System (A B : Type) := Messages (Fin queueNum) A B Msgbuf

def countBody (m : System A B) (tmp : A) (count : ℕ × ℕ) :
    Except Fault (ForInStep (ℕ × ℕ)) := do
  let msg ← m.lists.nodes.read tmp
  let buf ← m.bufs.read msg
  let n ← strlen buf.text
  return .yield (count.1 + 1, count.2 + (sizeofLong + n + 1))

def append (o : Outcome) (m : System A B) (new : Fresh m) (k : Fin queueNum) (myMsg : MsgConfig) :
    Except Fault (System A B × Reply) := do
  if !o.vmalloc then throw .null
  let bufs := m.bufs.kmalloc new.buf new.junkBuf new.buf_free
  let bufs ← bufs.write new.buf .zero
  let kernBuf ← bufs.read new.buf
  let (bytes, ret) ← userCopy o kernBuf.bytes myMsg.msg.bytes myMsg.msgsz
  let bufs ← bufs.write new.buf ⟨bytes⟩
  if !o.kmalloc then throw .null
  let lists := m.lists.kmalloc new.node new.junk new.node_free
  let lists ← lists.store new.node new.buf
  let lists ← lists.listAddTail (.node new.node) (.head k)
  return (⟨lists, bufs⟩, ⟨ret, some (.queued k ⟨bytes⟩), none⟩)

def kuIpcMsgsnd (fuel : ℕ) (o : Outcome) (m : System A B) (new : Fresh m) (myMsg : MsgConfig) :
    OptionT (Except Fault) (System A B × Reply) := do
  let k ← arrayIndex queueNum myMsg.key
  let (msgNum, msgVol) ← Lists.listForEachEntry (fun _ => m.lists) k (countBody m) fuel (0, 0)
  if msgVol + sizeofInt > kuipcMaxvol ∨ msgNum ≥ kuipcMaxmsg then
    return (m, ⟨-1, none, none⟩)
  else
    append o m new k myMsg

structure Receive (A B : Type) where
  memory : System A B
  reply : Option Reply

def take (o : Outcome) (m : System A B) (k : Fin queueNum) (myMsg : MsgConfig) (tmp : A) :
    Except Fault (System A B × Reply) := do
  let kernBuf ← m.lists.nodes.read tmp
  let buf ← m.bufs.read kernBuf
  let (bytes, ret) ← userCopy o myMsg.msg.bytes buf.bytes myMsg.msgsz
  let lists ← m.lists.listDel (.node tmp)
  let lists ← lists.kfree tmp
  let bufs ← m.bufs.kfree kernBuf
  return (⟨lists, bufs⟩, ⟨ret, some (.removed k buf), some ⟨bytes⟩⟩)

def receiveBody (o : Outcome) (k : Fin queueNum) (myMsg : MsgConfig) (tmp : A)
    (s : Receive A B) : Except Fault (ForInStep (Receive A B)) := do
  let msg ← s.memory.lists.nodes.read tmp
  let buf ← s.memory.bufs.read msg
  if myMsg.msgtyp = buf.type then
    if myMsg.msgflg &&& kuMsgNoerror = 0 then
      let n ← strlen buf.text
      if sizeT myMsg.msgsz < sizeofLong + n + 1 then
        return .done ⟨s.memory, some ⟨-2, none, none⟩⟩
    let (memory, reply) ← take o s.memory k myMsg tmp
    return .done ⟨memory, some reply⟩
  else
    return .yield s

def kuIpcMsgrcv (fuel : ℕ) (o : Outcome) (m : System A B) (myMsg : MsgConfig) :
    OptionT (Except Fault) (System A B × Reply) := do
  let k ← arrayIndex queueNum myMsg.key
  let s ← Lists.listForEachEntry (fun s => s.memory.lists) k (receiveBody o k myMsg) fuel ⟨m, none⟩
  return (s.memory, s.reply.getD ⟨-1, none, none⟩)

inductive Call
  | msgsnd (myMsg : MsgConfig)
  | msgrcv (myMsg : MsgConfig)
  deriving DecidableEq

def Call.request : Call → Request
  | .msgsnd myMsg => .msgsnd myMsg
  | .msgrcv myMsg => .msgrcv myMsg

def kuIpcIoctl (fuel : ℕ) (o : Outcome) (m : System A B) (new : Fresh m) :
    Call → OptionT (Except Fault) (System A B × Reply)
  | .msgsnd myMsg => kuIpcMsgsnd fuel o m new myMsg
  | .msgrcv myMsg => kuIpcMsgrcv fuel o m myMsg

def exitBody (pos : Ptr (Fin queueNum) A) (m : System A B) : Except Fault (System A B) := do
  let tmp ← pos.entry
  let msg ← m.lists.nodes.read tmp
  let bufs ← m.bufs.kfree msg
  let lists ← m.lists.kfree tmp
  return ⟨lists, bufs⟩

def kuIpcExit (fuel : ℕ) (m : System A B) : OptionT (Except Fault) (System A B) :=
  (List.finRange queueNum).foldlM
    (fun m i => Lists.listForEachSafe Messages.lists i exitBody fuel m) m

end EmbeddedSystem.KuIpc.Memory
