import EmbeddedSystem.Kernel.Queues
import EmbeddedSystem.Switch.Broadcast

/-! The ioctls, the tasklets and the exit of `switch.c` on their twenty lists in memory. The global
`tmp` is set under `my_lock` before it is used, so it is a local variable here.
`list_for_each_safe` runs on fuel. -/

namespace EmbeddedSystem.Switch.Memory

open Kernel Foundations

variable {A : Type} {w : ℕ}

abbrev Head := Sensor × Fin queueNum

abbrev Nodes (A : Type) (w : ℕ) := Lists Head A (Data w)

structure System (A : Type) (w : ℕ) where
  lists : Nodes A w
  queueUse : Fin queueNum → Bool
  pre : BitVec w
  switchDataTmp : Data w
  ultrasonicDataTmp : Data w
  switchPending : Bool
  ultrasonicPending : Bool
  echoValidFlag : ℕ
  echoStart : ℤ
  echoStop : ℤ

def System.init (junk : A → Data w) : System A w where
  lists := .init junk
  queueUse _ := false
  pre := 0
  switchDataTmp := ⟨0, 0⟩
  ultrasonicDataTmp := ⟨0, 0⟩
  switchPending := false
  ultrasonicPending := false
  echoValidFlag := 3
  echoStart := 0
  echoStop := 0

/-- What `kmalloc` returns in each pass of a tasklet's loop: `NULL`, or a node that is not in use
by then. -/
abbrev Alloc (A : Type) (w : ℕ) := Fin queueNum → (l : Nodes A w) → Option l.New

inductive Event (A : Type) (w : ℕ)
  | ioctl (cmd : Command) (key : ℤ)
  | switchTasklet (kmalloc : Alloc A w) (myData : Data w)
  | ultrasonicTasklet (kmalloc : Alloc A w) (myData : Data w)

def Event.abs : Event A w → Switch.Event w
  | .ioctl cmd key => .ioctl cmd key
  | .switchTasklet _ myData => .switchTasklet (fun _ => true) myData
  | .ultrasonicTasklet _ myData => .ultrasonicTasklet (fun _ => true) myData

section Calls

variable [DecidableEq A]

def switchQueueGet (m : System A w) (key : ℤ) : Except Fault (System A w × Reply w) := do
  let k ← arrayIndex queueNum key
  if m.queueUse k ∨ key < 0 ∨ key ≥ queueNum then
    return (m, ⟨-1, none⟩)
  else
    return ({ m with queueUse := Function.update m.queueUse k true }, ⟨1, some (.opened k)⟩)

def switchQueueClose (fuel : ℕ) (m : System A w) (key : ℤ) :
    OptionT (Except Fault) (System A w × Reply w) := do
  let k ← arrayIndex queueNum key
  if !m.queueUse k ∨ key < 0 ∨ key ≥ queueNum then
    return (m, ⟨-1, none⟩)
  else
    let lists ← Lists.listForEachSafe id (.switch, k) Lists.takeBody fuel m.lists
    let lists ← Lists.listForEachSafe id (.ultrasonic, k) Lists.takeBody fuel lists
    return ({ m with lists := lists, queueUse := Function.update m.queueUse k false },
      ⟨1, some (.closed k)⟩)

def recv (d : Sensor) (m : System A w) (key : ℤ) : Except Fault (System A w × Reply w) := do
  let k ← arrayIndex queueNum key
  if m.lists.listEmpty (d, k) then
    return (m, ⟨-1, none⟩)
  else
    let next ← m.lists.getNext (.head (d, k))
    let tmp ← next.entry
    let data ← m.lists.nodes.read tmp
    let lists ← m.lists.listDel (.node tmp)
    let lists ← lists.kfree tmp
    return ({ m with lists := lists }, ⟨data.value, some (.received d k data)⟩)

def switchRecv : System A w → ℤ → Except Fault (System A w × Reply w) := recv .switch

def ultrasonicRecv : System A w → ℤ → Except Fault (System A w × Reply w) := recv .ultrasonic

def broadcastBody (kmalloc : Alloc A w) (d : Sensor) (use : Fin queueNum → Bool) (myData : Data w)
    (l : Nodes A w) (i : Fin queueNum) : Except Fault (Nodes A w) :=
  if use i then
    match kmalloc i l with
    | none => throw .null
    | some new => do
      let l ← (l.kmalloc new.node new.junk new.free).store new.node myData
      l.listAddTail (.node new.node) (.head (d, i))
  else return l

def broadcast (kmalloc : Alloc A w) (d : Sensor) (use : Fin queueNum → Bool) (myData : Data w)
    (l : Nodes A w) : Except Fault (Nodes A w) :=
  (List.finRange queueNum).foldlM (broadcastBody kmalloc d use myData) l

def System.trigger (m : System A w) : System A w :=
  if m.echoValidFlag = 3 then
    let m := { m with echoStart := 1, echoStop := 1, echoValidFlag := 0 }
    { m with echoValidFlag := 1 }
  else m

def switchTaskletFunc (kmalloc : Alloc A w) (m : System A w) (myData : Data w) :
    Except Fault (System A w × Reply w) :=
  if m.pre + 20 < myData.timestamp then do
    let lists ← broadcast kmalloc .switch m.queueUse myData m.lists
    let m := { m with lists := lists, pre := myData.timestamp }
    return (m.trigger, ⟨0, some (.sensed .switch myData)⟩)
  else
    return (m, ⟨0, none⟩)

def ultrasonicTaskletFunc (kmalloc : Alloc A w) (m : System A w) (myData : Data w) :
    Except Fault (System A w × Reply w) := do
  let lists ← broadcast kmalloc .ultrasonic m.queueUse myData m.lists
  return ({ m with lists := lists }, ⟨0, some (.sensed .ultrasonic myData)⟩)

def switchIoctl (fuel : ℕ) (m : System A w) (cmd : Command) (key : ℤ) :
    OptionT (Except Fault) (System A w × Reply w) :=
  match cmd with
  | .queueGet => switchQueueGet m key
  | .queueClose => switchQueueClose fuel m key
  | .switchRecv => switchRecv m key
  | .ultrasonicRecv => ultrasonicRecv m key
  | .unknown => return (m, ⟨0, none⟩)

def perform (fuel : ℕ) (m : System A w) : Event A w → OptionT (Except Fault) (System A w × Reply w)
  | .ioctl cmd key => switchIoctl fuel m cmd key
  | .switchTasklet kmalloc myData => switchTaskletFunc kmalloc m myData
  | .ultrasonicTasklet kmalloc myData => ultrasonicTaskletFunc kmalloc m myData

def freeQueues (fuel : ℕ) (d : Sensor) (l : Nodes A w) : OptionT (Except Fault) (Nodes A w) :=
  (List.finRange queueNum).foldlM
    (fun l i => Lists.listForEachSafe id (d, i) Lists.takeBody fuel l) l

def switchExit (fuel : ℕ) (m : System A w) : OptionT (Except Fault) (System A w) := do
  let lists ← freeQueues fuel .switch m.lists
  let lists ← freeQueues fuel .ultrasonic lists
  return { m with lists := lists }

end Calls

end EmbeddedSystem.Switch.Memory
