import EmbeddedSystem.Foundations.Runs

/-! The module `simple_tasklet.c`. Its interrupt handler schedules a tasklet, which some processor
runs later, and its exit kills the tasklet before it frees the interrupt. The handler, the tasklet
and the exit take one access to the state of the tasklet a step. -/

namespace EmbeddedSystem.SimpleTasklet

structure MyData where
  year : ℤ
  month : ℤ
  day : ℤ
  deriving DecidableEq

inductive Isr
  | idle | testAndSet | enqueue
  deriving DecidableEq

inductive Action
  | testAndClear | func | unlock
  deriving DecidableEq

inductive Exit
  | loaded | killSet | killWait | killClear | freeIrq | gpioFree | returned
  deriving DecidableEq

structure System where
  data : MyData
  sched : Bool
  queued : Bool
  action : Option Action
  irq : Bool
  isr : Isr
  exit : Exit
  bug : Bool

inductive Move
  | interrupt
  | schedule (accepted : Bool)
  | enqueue
  | lock | clear | bug
  | print (year month day : ℤ)
  | unlock
  | exit | killSet | killWait | killClear | freeIrq | gpioFree
  deriving DecidableEq

def simpleTaskletInit : System where
  data := ⟨2020, 6, 14⟩
  sched := false
  queued := false
  action := none
  irq := true
  isr := .idle
  exit := .loaded
  bug := false

inductive Step (s : System) : Move → System → Prop
  | interrupt : s.irq = true → s.isr = .idle → Step s .interrupt { s with isr := .testAndSet }
  | scheduled :
      s.isr = .testAndSet → s.sched = false →
      Step s (.schedule true) { s with sched := true, isr := .enqueue }
  | scheduledBefore :
      s.isr = .testAndSet → s.sched = true → Step s (.schedule false) { s with isr := .idle }
  | enqueue : s.isr = .enqueue → Step s .enqueue { s with queued := true, isr := .idle }
  -- a processor that finds the tasklet locked puts it back into its list
  | lock :
      s.queued = true → s.action = none →
      Step s .lock { s with queued := false, action := some .testAndClear }
  | clear :
      s.action = some .testAndClear → s.sched = true →
      Step s .clear { s with sched := false, action := some .func }
  | bug :
      s.action = some .testAndClear → s.sched = false → Step s .bug { s with bug := true }
  | print :
      s.action = some .func →
      Step s (.print s.data.year s.data.month s.data.day) { s with action := some .unlock }
  | unlock : s.action = some .unlock → Step s .unlock { s with action := none }
  | exit : s.exit = .loaded → Step s .exit { s with exit := .killSet }
  | killSet :
      s.exit = .killSet → s.sched = false →
      Step s .killSet { s with sched := true, exit := .killWait }
  | killWait :
      s.exit = .killWait → s.action = none → Step s .killWait { s with exit := .killClear }
  | killClear :
      s.exit = .killClear → Step s .killClear { s with sched := false, exit := .freeIrq }
  -- `free_irq` waits for the handler
  | freeIrq :
      s.exit = .freeIrq → s.isr = .idle →
      Step s .freeIrq { s with irq := false, exit := .gpioFree }
  | gpioFree : s.exit = .gpioFree → Step s .gpioFree { s with exit := .returned }

end EmbeddedSystem.SimpleTasklet
