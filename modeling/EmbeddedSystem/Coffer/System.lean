import EmbeddedSystem.Coffer.App

/-! The switch driver together with `coffer_app`. The accepted presses are numbered. Beside the two
lists of the app's queue stand the numbers of their presses, and of the presses that triggered their
measurements with the measured values. -/

namespace EmbeddedSystem.Coffer

open Kernel Switch

structure Ghost where
  presses : ℕ
  trigger : ℕ
  latched : ℕ × ℤ
  switchTags : List ℕ
  ultrasonicTags : List (ℕ × ℤ)
  retTag : Option ℕ
  distanceTag : Option (ℕ × ℤ)

def Ghost.init : Ghost := ⟨0, 0, (0, 0), [], [], none, none⟩

def Ghost.received {w : ℕ} (g : Ghost) : Command → Option (Effect w) → Ghost
  | .switchRecv, some _ => { g with retTag := g.switchTags.head?, switchTags := g.switchTags.tail }
  | .switchRecv, none => { g with retTag := none }
  | .ultrasonicRecv, some _ =>
    { g with distanceTag := g.ultrasonicTags.head?, ultrasonicTags := g.ultrasonicTags.tail }
  | .ultrasonicRecv, none => { g with distanceTag := none }
  | _, _ => g

def Ghost.pressed (g : Ghost) (isOpen idle : Bool) : Ghost :=
  { g with
    presses := g.presses + 1
    trigger := if idle then g.presses else g.trigger
    switchTags := if isOpen then g.switchTags ++ [g.presses] else g.switchTags }

def Ghost.measured (g : Ghost) (isOpen : Bool) : Ghost :=
  { g with ultrasonicTags := if isOpen then g.ultrasonicTags ++ [g.latched] else g.ultrasonicTags }

structure System (w : ℕ) where
  driver : Driver w
  app : App
  ghost : Ghost

inductive Button
  | switch1 | switch2 | switch3

inductive Move (w : ℕ)
  | call (cmd : Command) (opened : Bool)
  | start | judge
  | verdict (calls : List DeviceCall)
  | openTest (calls : List DeviceCall)
  | button (b : Button) (jiffies : BitVec w)
  | echo (tmpTime : ℤ) (level : Bool) (jiffies : BitVec w)
  | switchTasklet (kmalloc : Fin Switch.queueNum → Bool)
  | ultrasonicTasklet (kmalloc : Fin Switch.queueNum → Bool)

variable {w : ℕ}

def Button.isr : Button → Driver w → BitVec w → Driver w
  | .switch1 => switch1IrqIsr
  | .switch2 => switch2IrqIsr
  | .switch3 => switch3IrqIsr

def System.init (key : ℤ) : System w := ⟨.init, .init key, .init⟩

def System.isOpen (s : System w) : Bool :=
  match arrayIndex Switch.queueNum s.app.key with
  | .ok k => s.driver.queueUse k
  | .error _ => false

def System.echoEnds (s : System w) (level : Bool) : Bool :=
  s.driver.echoValidFlag = 2 && !level

inductive Step (s : System w) : Move w → System w → Prop
  | call {cmd : Command} {pc : Pc} {opened : Bool} {d : Driver w} {y : Reply w} :
      s.app.pc.call = some (cmd, pc) → libCall opened s.driver cmd s.app.key = .ok (d, y) →
      Step s (.call cmd opened) ⟨d, s.app.resume cmd y.ret pc, s.ghost.received cmd y.effect⟩
  | start : s.app.pc = .outer → Step s .start { s with app := s.app.start }
  | judge {a : App} : s.app.pc = .judge → s.app.judge = .ok a → Step s .judge { s with app := a }
  | verdict : s.app.pc = .verdict →
      Step s (.verdict s.app.verdict.2) { s with app := s.app.verdict.1 }
  | openTest : s.app.pc = .openTest →
      Step s (.openTest s.app.openTest.2) { s with app := s.app.openTest.1 }
  | button (b : Button) (jiffies : BitVec w) :
      Step s (.button b jiffies) { s with driver := b.isr s.driver jiffies }
  | echo (tmpTime : ℤ) (level : Bool) (jiffies : BitVec w) :
      Step s (.echo tmpTime level jiffies) { s with
        driver := ultrasonicIsr s.driver tmpTime level jiffies
        ghost := if s.echoEnds level then
            { s.ghost with latched := (s.ghost.trigger, centimetres s.driver.echoStart tmpTime) }
          else s.ghost }
  | switchTasklet {kmalloc : Fin Switch.queueNum → Bool} {d : Driver w} {y : Reply w} :
      s.driver.switchPending = true →
      switchTaskletFunc kmalloc { s.driver with switchPending := false } s.driver.switchDataTmp =
        .ok (d, y) →
      Step s (.switchTasklet kmalloc) { s with
        driver := d
        ghost := if y.effect.isSome then
            s.ghost.pressed s.isOpen (s.driver.echoValidFlag = 3)
          else s.ghost }
  | ultrasonicTasklet {kmalloc : Fin Switch.queueNum → Bool} {d : Driver w} {y : Reply w} :
      s.driver.ultrasonicPending = true →
      ultrasonicTaskletFunc kmalloc { s.driver with ultrasonicPending := false }
        s.driver.ultrasonicDataTmp = .ok (d, y) →
      Step s (.ultrasonicTasklet kmalloc) { s with
        driver := d, ghost := s.ghost.measured s.isOpen }

end EmbeddedSystem.Coffer
