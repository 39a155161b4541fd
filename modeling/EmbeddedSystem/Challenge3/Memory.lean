import EmbeddedSystem.Challenge3.Driver
import EmbeddedSystem.Kernel.Messages

/-! The calls of `ch3_mod_201711395.c` and its exit on the list in memory. What `printk` makes of a
text is left out, but not that it reads the buffer. `list_for_each_safe` runs on fuel. -/

namespace EmbeddedSystem.Challenge3.Memory

open Kernel Foundations
open Challenge4 (MsgSt Reply sizeofMsgSt)

variable {A B : Type} [DecidableEq A] [DecidableEq B]

abbrev System (A B : Type) := Messages Unit A B MsgSt

def ch3Read (o : Outcome) (m : System A B) (userBuf : MsgSt) :
    Except Fault (System A B × Reply) := do
  if m.lists.listEmpty () then
    return (m, ⟨-1, none, none⟩)
  else
    let first ← m.lists.getNext (.head ())
    let tmp ← first.entry
    let kernBuf ← m.lists.nodes.read tmp
    let _str ← m.bufs.read kernBuf
    let msg ← m.bufs.read kernBuf
    let (bytes, ret) ← userCopy o userBuf.bytes msg.bytes sizeofMsgSt
    let lists ← m.lists.listDel (.node tmp)
    let lists ← lists.kfree tmp
    let bufs ← m.bufs.kfree kernBuf
    return (⟨lists, bufs⟩, ⟨ret, some (.removed msg), some ⟨bytes⟩⟩)

def ch3Write (o : Outcome) (m : System A B) (new : Fresh m) (userBuf : MsgSt) :
    Except Fault (System A B × Reply) := do
  if userBuf.len.toInt ≥ 128 then
    return (m, ⟨-1, none, none⟩)
  else
    if !o.vmalloc then throw .null
    let bufs := m.bufs.kmalloc new.buf new.junkBuf new.buf_free
    let bufs ← bufs.write new.buf .zero
    let kernBuf ← bufs.read new.buf
    let (bytes, ret) ← userCopy o kernBuf.bytes userBuf.bytes sizeofMsgSt
    let bufs ← bufs.write new.buf ⟨bytes⟩
    if !o.kmalloc then throw .null
    let lists := m.lists.kmalloc new.node new.junk new.node_free
    let lists ← lists.store new.node new.buf
    let msg ← lists.nodes.read new.node
    let _str ← bufs.read msg
    let lists ← lists.listAddTail (.node new.node) (.head ())
    return (⟨lists, bufs⟩, ⟨ret, some (.appended ⟨bytes⟩), none⟩)

def ch3Ioctl (o : Outcome) (m : System A B) (new : Fresh m) :
    Request → Except Fault (System A B × Reply)
  | .read userBuf => ch3Read o m userBuf
  | .write userBuf => ch3Write o m new userBuf
  | .unknown => return (m, ⟨0, none, none⟩)

def exitBody (pos : Ptr Unit A) (m : System A B) : Except Fault (System A B) := do
  let tmp ← pos.entry
  let msg ← m.lists.nodes.read tmp
  let _str ← m.bufs.read msg
  let lists ← m.lists.kfree tmp
  return { m with lists := lists }

/-- `ch3_exit`; there is no `vfree` in it. -/
def ch3Exit (fuel : ℕ) (m : System A B) : OptionT (Except Fault) (System A B) :=
  Lists.listForEachSafe Messages.lists () exitBody fuel m

end EmbeddedSystem.Challenge3.Memory
