import EmbeddedSystem.Challenge4.Driver
import EmbeddedSystem.Kernel.Heap
import EmbeddedSystem.Kernel.RcuList

/-! The calls and `proc_ch4_show` on the list in memory. Each access of `tmp`, of `kern_buf` or of a
link is one step. A call makes its steps under `my_lock`; the walk of `proc_ch4_show` does not take
the lock. A read that finds the list empty leaves here to wait. The global `tmp` is NULL at first,
and after a `kmalloc` that failed. -/

namespace EmbeddedSystem.Challenge4

open Kernel

abbrev listPoison1 : Addr := 0x100

inductive CallKind
  | read | write
  deriving DecidableEq

inductive CallPc
  -- `ch4_write`
  | checkLen | vmalloc | memset | copyFromUser | kmalloc | loadKernBuf
  | setMsg (buf : Addr)
  | printNew | loadNew
  -- `list_add_tail`
  | loadLast (new : Addr)
  | setLast (new prev : Addr)
  | setNext (new prev : Addr)
  | setPrev (new prev : Addr)
  | publish (new prev : Addr)
  | countUp
  -- `ch4_read`
  | listEmpty | loadFirst
  | setTmp (first : Addr)
  | loadMsg
  | setKernBuf (buf : Addr)
  | printFirst | copyToUser | loadEntry
  -- `list_del`
  | loadPrev (entry : Addr)
  | loadNext (entry prev : Addr)
  | unlinkPrev (entry prev next : Addr)
  | unlinkNext (entry prev next : Addr)
  | poisonNext (entry : Addr)
  | poisonPrev (entry : Addr)
  | kfree | vfree | countDown
  | unlock | faulted
  deriving DecidableEq

/-- The call that holds `my_lock`, with the node that it has assigned to `tmp` and its result so
far. -/
structure Call where
  kind : CallKind
  o : Outcome
  userBuf : MsgSt
  own : Addr
  reply : Reply
  pc : CallPc

inductive WalkPc
  | idle | loadFirst
  | setTmp (entry : Addr)
  | test | print | loadTmp
  | loadNext (entry : Option Addr)
  | faulted
  deriving DecidableEq

structure ListSystem where
  nodes : Memory Addr
  bufs : Heap Addr MsgSt
  tmp : Option Addr
  kernBuf : Addr
  msgCount : BitVec 32
  call : Option Call
  walk : WalkPc

def ListSystem.init (junk : Memory Addr) (junkBufs : Addr → MsgSt) : ListSystem where
  nodes := junk.initListHead
  bufs := ⟨fun _ => false, junkBufs⟩
  tmp := none
  kernBuf := 0
  msgCount := 0
  call := none
  walk := .idle

def CallKind.start : CallKind → CallPc
  | .read => .listEmpty
  | .write => .checkLen

def ListSystem.goto (s : ListSystem) (c : Call) (pc : CallPc) : ListSystem :=
  { s with call := some { c with pc := pc } }

def setNext (m : Memory Addr) (a b : Addr) : Memory Addr :=
  { m with next := Function.update m.next a b }

def setPrev (m : Memory Addr) (a b : Addr) : Memory Addr :=
  { m with prev := Function.update m.prev a b }

def deref : Option Addr → Except Fault Addr
  | none => throw .null
  | some a => return a

@[simp] lemma deref_some (a : Addr) : deref (some a) = .ok a := rfl

def writeStep (fresh : Addr) (junk : Memory Addr) (junkMsg : MsgSt) (s : ListSystem) (c : Call) :
    Except Fault ListSystem :=
  match c.pc with
  | .checkLen =>
    if c.userBuf.len.toInt ≥ bufSize then
      return s.goto { c with reply := ⟨-1, none, none⟩ } .unlock
    else return s.goto c .vmalloc
  | .vmalloc =>
    if !c.o.vmalloc then throw .null
    else return { s with bufs := s.bufs.kmalloc fresh junkMsg, kernBuf := fresh }.goto c .memset
  | .memset => do
    let bufs ← s.bufs.write s.kernBuf .zero
    return { s with bufs := bufs }.goto c .copyFromUser
  | .copyFromUser => do
    let dst ← s.bufs.read s.kernBuf
    let (bytes, ret) ← userCopy c.o dst.bytes c.userBuf.bytes sizeofMsgSt
    let bufs ← s.bufs.write s.kernBuf ⟨bytes⟩
    let c := { c with reply := ⟨ret, some (.appended ⟨bytes⟩), none⟩ }
    return { s with bufs := bufs }.goto c .kmalloc
  | .kmalloc =>
    if !c.o.kmalloc then return { s with tmp := none }.goto c .loadKernBuf
    else
      let c := { c with own := fresh }
      return { s with nodes := s.nodes.kmalloc fresh junk, tmp := some fresh }.goto c .loadKernBuf
  | .loadKernBuf => return s.goto c (.setMsg s.kernBuf)
  | .setMsg buf => do
    let a ← deref s.tmp
    s.nodes.touch a
    return { s with nodes := s.nodes.store a buf }.goto c .printNew
  | .printNew => do
    let a ← deref s.tmp
    s.nodes.touch a
    let _ ← s.bufs.read (s.nodes.val a)
    return s.goto c .loadNew
  | .loadNew => do
    let new ← deref s.tmp
    return s.goto c (.loadLast new)
  | .loadLast new => return s.goto c (.setLast new (s.nodes.prev listHead))
  | .setLast new prev =>
    return { s with nodes := setPrev s.nodes listHead new }.goto c (.setNext new prev)
  | .setNext new prev => do
    s.nodes.touch new
    return { s with nodes := setNext s.nodes new listHead }.goto c (.setPrev new prev)
  | .setPrev new prev => do
    s.nodes.touch new
    return { s with nodes := setPrev s.nodes new prev }.goto c (.publish new prev)
  | .publish new prev => do
    s.nodes.touch prev
    return { s with nodes := setNext s.nodes prev new }.goto c .countUp
  | .countUp => return { s with msgCount := s.msgCount + 1 }.goto c .unlock
  | _ => return s

def readStep (s : ListSystem) (c : Call) : Except Fault ListSystem :=
  match c.pc with
  | .listEmpty =>
    if s.nodes.next listHead = listHead then return { s with call := none }
    else return s.goto c .loadFirst
  | .loadFirst => return s.goto c (.setTmp (s.nodes.next listHead))
  | .setTmp first => return { s with tmp := some first }.goto { c with own := first } .loadMsg
  | .loadMsg => do
    let a ← deref s.tmp
    s.nodes.touch a
    return s.goto c (.setKernBuf (s.nodes.val a))
  | .setKernBuf buf => return { s with kernBuf := buf }.goto c .printFirst
  | .printFirst => do
    let a ← deref s.tmp
    s.nodes.touch a
    let _ ← s.bufs.read (s.nodes.val a)
    return s.goto c .copyToUser
  | .copyToUser => do
    let msg ← s.bufs.read s.kernBuf
    let (bytes, ret) ← userCopy c.o c.userBuf.bytes msg.bytes sizeofMsgSt
    return s.goto { c with reply := ⟨ret, some (.removed msg), some ⟨bytes⟩⟩ } .loadEntry
  | .loadEntry => do
    let entry ← deref s.tmp
    return s.goto c (.loadPrev entry)
  | .loadPrev entry => do
    s.nodes.touch entry
    return s.goto c (.loadNext entry (s.nodes.prev entry))
  | .loadNext entry prev => do
    s.nodes.touch entry
    return s.goto c (.unlinkPrev entry prev (s.nodes.next entry))
  | .unlinkPrev entry prev next => do
    s.nodes.touch next
    return { s with nodes := setPrev s.nodes next prev }.goto c (.unlinkNext entry prev next)
  | .unlinkNext entry prev next => do
    s.nodes.touch prev
    return { s with nodes := setNext s.nodes prev next }.goto c (.poisonNext entry)
  | .poisonNext entry => do
    s.nodes.touch entry
    return { s with nodes := setNext s.nodes entry listPoison1 }.goto c (.poisonPrev entry)
  | .poisonPrev entry => do
    s.nodes.touch entry
    return { s with nodes := setPrev s.nodes entry listPoison2 }.goto c .kfree
  | .kfree => do
    let a ← deref s.tmp
    s.nodes.touch a
    return { s with nodes := s.nodes.kfree a }.goto c .vfree
  | .vfree => do
    let bufs ← s.bufs.kfree s.kernBuf
    return { s with bufs := bufs }.goto c .countDown
  | .countDown => return { s with msgCount := s.msgCount - 1 }.goto c .unlock
  | _ => return s

def callStep (fresh : Addr) (junk : Memory Addr) (junkMsg : MsgSt) (s : ListSystem) (c : Call) :
    Except Fault ListSystem :=
  match c.kind with
  | .read => readStep s c
  | .write => writeStep fresh junk junkMsg s c

def walkStep (s : ListSystem) : Except Fault ListSystem :=
  match s.walk with
  | .loadFirst => return { s with walk := .setTmp (s.nodes.next listHead) }
  | .setTmp entry => return { s with tmp := some entry, walk := .test }
  | .test => return { s with walk := if s.tmp = some listHead then .idle else .print }
  | .print => do
    let a ← deref s.tmp
    s.nodes.touch a
    let _ ← s.bufs.read (s.nodes.val a)
    return { s with walk := .loadTmp }
  | .loadTmp => return { s with walk := .loadNext s.tmp }
  | .loadNext entry => do
    let a ← deref entry
    s.nodes.touch a
    return { s with walk := .setTmp (s.nodes.next a) }
  | .idle | .faulted => return s

inductive ListMove
  | lock (kind : CallKind)
  | work
  | unlock (kind : CallKind) (o : Outcome) (userBuf : MsgSt) (reply : Reply)
  | fault (e : Fault)
  | start
  | walk
  | walkFault (e : Fault)

def CallPc.runs : CallPc → Bool
  | .unlock | .faulted => false
  | _ => true

def WalkPc.runs : WalkPc → Bool
  | .idle | .faulted => false
  | _ => true

inductive ListStep (s : ListSystem) : ListMove → ListSystem → Prop
  | lock {kind : CallKind} {o : Outcome} {userBuf : MsgSt} :
      s.call = none →
      ListStep s (.lock kind)
        { s with call := some ⟨kind, o, userBuf, 0, ⟨0, none, none⟩, kind.start⟩ }
  | work {c : Call} {fresh : Addr} {junk : Memory Addr} {junkMsg : MsgSt} {t : ListSystem} :
      s.call = some c → c.pc.runs = true → s.nodes.live fresh = false → s.bufs.live fresh = false →
      callStep fresh junk junkMsg s c = .ok t → ListStep s .work t
  | fault {c : Call} {fresh : Addr} {junk : Memory Addr} {junkMsg : MsgSt} {e : Fault} :
      s.call = some c → c.pc.runs = true → s.nodes.live fresh = false → s.bufs.live fresh = false →
      callStep fresh junk junkMsg s c = .error e → ListStep s (.fault e) (s.goto c .faulted)
  | unlock {c : Call} :
      s.call = some c → c.pc = .unlock →
      ListStep s (.unlock c.kind c.o c.userBuf c.reply) { s with call := none }
  | start : s.walk = .idle → ListStep s .start { s with walk := .loadFirst }
  | walk {t : ListSystem} :
      s.walk.runs = true → walkStep s = .ok t → ListStep s .walk t
  | walkFault {e : Fault} :
      s.walk.runs = true → walkStep s = .error e →
      ListStep s (.walkFault e) { s with walk := .faulted }

end EmbeddedSystem.Challenge4
