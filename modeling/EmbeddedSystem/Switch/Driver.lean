import EmbeddedSystem.Kernel.Memory

/-! The driver `switch.c`: four ioctls, two tasklets and the interrupt handlers of three buttons
and of the ultrasonic sensor. The ioctls and the tasklets run under `my_lock` with interrupts off,
so each of them, and each handler, is one atomic step. A list of `struct switch_queue` is the list
of its data; an `unsigned long` of `jiffies` has `w` bits; a `ktime_t` counts nanoseconds. -/

namespace EmbeddedSystem.Switch

open Kernel

abbrev queueNum : ℕ := 10

structure Data (w : ℕ) where
  value : ℤ
  timestamp : BitVec w
  deriving DecidableEq

inductive Sensor
  | switch | ultrasonic
  deriving DecidableEq

structure Driver (w : ℕ) where
  switchQueue : Fin queueNum → List (Data w)
  ultrasonicQueue : Fin queueNum → List (Data w)
  queueUse : Fin queueNum → Bool
  pre : BitVec w
  switchDataTmp : Data w
  ultrasonicDataTmp : Data w
  switchPending : Bool
  ultrasonicPending : Bool
  echoValidFlag : ℕ
  echoStart : ℤ
  echoStop : ℤ

inductive Effect (w : ℕ)
  | opened (k : Fin queueNum)
  | closed (k : Fin queueNum)
  | sensed (d : Sensor) (x : Data w)
  | received (d : Sensor) (k : Fin queueNum) (x : Data w)
  deriving DecidableEq

structure Reply (w : ℕ) where
  ret : ℤ
  effect : Option (Effect w)
  deriving DecidableEq

variable {w : ℕ}

def Driver.init : Driver w where
  switchQueue _ := []
  ultrasonicQueue _ := []
  queueUse _ := false
  pre := 0
  switchDataTmp := ⟨0, 0⟩
  ultrasonicDataTmp := ⟨0, 0⟩
  switchPending := false
  ultrasonicPending := false
  echoValidFlag := 3
  echoStart := 0
  echoStop := 0

def Driver.queue (s : Driver w) : Sensor → Fin queueNum → List (Data w)
  | .switch => s.switchQueue
  | .ultrasonic => s.ultrasonicQueue

def Driver.setQueue (s : Driver w) : Sensor → (Fin queueNum → List (Data w)) → Driver w
  | .switch, queue => { s with switchQueue := queue }
  | .ultrasonic, queue => { s with ultrasonicQueue := queue }

@[simp] lemma queueUse_setQueue (s : Driver w) (d : Sensor) (queue : Fin queueNum → List (Data w)) :
    (s.setQueue d queue).queueUse = s.queueUse := by
  cases d <;> rfl

@[simp] lemma queue_setQueue_self (s : Driver w) (d : Sensor)
    (queue : Fin queueNum → List (Data w)) : (s.setQueue d queue).queue d = queue := by
  cases d <;> rfl

lemma queue_setQueue_of_ne (s : Driver w) {d d' : Sensor} (queue : Fin queueNum → List (Data w))
    (h : d' ≠ d) : (s.setQueue d queue).queue d' = s.queue d' := by
  cases d <;> cases d' <;> first | rfl | exact absurd rfl h

def switchQueueGet (s : Driver w) (key : ℤ) : Except Fault (Driver w × Reply w) := do
  -- the array is read before `key` is compared with the bounds
  let k ← arrayIndex queueNum key
  if s.queueUse k ∨ key < 0 ∨ key ≥ queueNum then
    return (s, ⟨-1, none⟩)
  else
    return ({ s with queueUse := Function.update s.queueUse k true }, ⟨1, some (.opened k)⟩)

def switchQueueClose (s : Driver w) (key : ℤ) : Except Fault (Driver w × Reply w) := do
  let k ← arrayIndex queueNum key
  if !s.queueUse k ∨ key < 0 ∨ key ≥ queueNum then
    return (s, ⟨-1, none⟩)
  else
    return ({ s with
      switchQueue := Function.update s.switchQueue k []
      ultrasonicQueue := Function.update s.ultrasonicQueue k []
      queueUse := Function.update s.queueUse k false }, ⟨1, some (.closed k)⟩)

def recv (d : Sensor) (s : Driver w) (key : ℤ) : Except Fault (Driver w × Reply w) := do
  let k ← arrayIndex queueNum key
  match s.queue d k with
  | [] => return (s, ⟨-1, none⟩)
  | tmp :: rest => return (s.setQueue d (Function.update (s.queue d) k rest),
      ⟨tmp.value, some (.received d k tmp)⟩)

def switchRecv : Driver w → ℤ → Except Fault (Driver w × Reply w) := recv .switch

def ultrasonicRecv : Driver w → ℤ → Except Fault (Driver w × Reply w) := recv .ultrasonic

def broadcast (kmalloc use : Fin queueNum → Bool) (queue : Fin queueNum → List (Data w))
    (x : Data w) : Except Fault (Fin queueNum → List (Data w)) :=
  if ∃ i, use i = true ∧ kmalloc i = false then throw .null
  else return fun i => if use i then queue i ++ [x] else queue i

def Driver.beginTrigger (s : Driver w) : Driver w :=
  { s with echoStart := 1, echoStop := 1, echoValidFlag := 0 }

def Driver.endTrigger (s : Driver w) : Driver w := { s with echoValidFlag := 1 }

def Driver.trigger (s : Driver w) : Driver w :=
  if s.echoValidFlag = 3 then s.beginTrigger.endTrigger else s

def switchTaskletFunc (kmalloc : Fin queueNum → Bool) (s : Driver w) (myData : Data w) :
    Except Fault (Driver w × Reply w) :=
  if s.pre + 20 < myData.timestamp then do
    let queue ← broadcast kmalloc s.queueUse s.switchQueue myData
    let s := { s with switchQueue := queue, pre := myData.timestamp }
    return (s.trigger, ⟨0, some (.sensed .switch myData)⟩)
  else
    return (s, ⟨0, none⟩)

def ultrasonicTaskletFunc (kmalloc : Fin queueNum → Bool) (s : Driver w) (myData : Data w) :
    Except Fault (Driver w × Reply w) := do
  let queue ← broadcast kmalloc s.queueUse s.ultrasonicQueue myData
  return ({ s with ultrasonicQueue := queue }, ⟨0, some (.sensed .ultrasonic myData)⟩)

def switchIrqIsr (value : ℤ) (s : Driver w) (jiffies : BitVec w) : Driver w :=
  { s with switchDataTmp := ⟨value, jiffies⟩, switchPending := true }

def switch1IrqIsr : Driver w → BitVec w → Driver w := switchIrqIsr 1

def switch2IrqIsr : Driver w → BitVec w → Driver w := switchIrqIsr 2

def switch3IrqIsr : Driver w → BitVec w → Driver w := switchIrqIsr 3

def centimetres (start stop : ℤ) : ℤ :=
  let time := ((stop - start).bmod (2 ^ 64)).tdiv 1000
  (time.bmod (2 ^ 32)).tdiv 58

def ultrasonicIsr (s : Driver w) (tmpTime : ℤ) (level : Bool) (jiffies : BitVec w) : Driver w :=
  if s.echoValidFlag = 1 then
    if level then { s with echoStart := tmpTime, echoValidFlag := 2 } else s
  else if s.echoValidFlag = 2 then
    if !level then
      { s with
        echoStop := tmpTime
        echoValidFlag := 3
        ultrasonicDataTmp := ⟨centimetres s.echoStart tmpTime, jiffies⟩
        ultrasonicPending := true }
    else s
  else s

inductive Command
  | queueGet | queueClose | switchRecv | ultrasonicRecv | unknown
  deriving DecidableEq

def switchIoctl (s : Driver w) (cmd : Command) (key : ℤ) : Except Fault (Driver w × Reply w) :=
  match cmd with
  | .queueGet => switchQueueGet s key
  | .queueClose => switchQueueClose s key
  | .switchRecv => switchRecv s key
  | .ultrasonicRecv => ultrasonicRecv s key
  | .unknown => return (s, ⟨0, none⟩)

end EmbeddedSystem.Switch
