import EmbeddedSystem.Foundations.Runs
import EmbeddedSystem.Kernel.Ledger

/-! The module `simple_workqueue.c`. Its interrupt handler allocates an item and queues it on some
processor; one worker for each processor runs the items of its queue in order. The handler and the
workers take one statement a step, and the exit one call. -/

namespace EmbeddedSystem.SimpleWorkqueue

open Kernel

inductive Func
  | myWorkFunc | junk
  deriving DecidableEq

structure MyWork where
  func : Func
  year : ℤ
  month : ℤ
  day : ℤ
  deriving DecidableEq

inductive Wq
  | null | created | destroyed
  deriving DecidableEq

inductive Isr
  | idle | testWq | kmalloc | testWork | initWork | queueWork
  deriving DecidableEq

inductive Stmt
  | call | year | month | day | print | kfree
  deriving DecidableEq

/-- The next call of `simple_workqueue_exit`. A flush waits for the items that were queued before
it, so many for each processor. -/
inductive Life (C : Type)
  | freeIrq | gpioFree | flush
  | flushing (left : C → ℕ)
  | destroy | returned
  | faulted (e : Fault)

structure System (C A : Type) where
  heap : Ledger A MyWork
  work : Option A
  myWq : Wq
  irq : Bool
  isr : Isr
  items : C → List A
  worker : C → Stmt
  life : Life C

inductive Move (C A : Type)
  | interrupt | isr
  | queueWork (c : C) (a : A)
  | call (c : C) (a : A)
  | assign (c : C)
  | print (c : C) (year month day : ℤ)
  | kfree (c : C) (a : A)
  | exit

variable {C A : Type}

def System.init (created : Bool) (junk : A → MyWork) : System C A where
  heap := .empty junk
  work := none
  myWq := if created then .created else .null
  irq := true
  isr := .idle
  items _ := []
  worker _ := .call
  life := .freeIrq

variable [DecidableEq A]

def assign (heap : Ledger A MyWork) (a : A) (f : MyWork → MyWork) :
    Except Fault (Ledger A MyWork) := do
  let item ← heap.read a
  heap.write a (f item)

def initWorkAt (heap : Ledger A MyWork) : Option A → Except Fault (Ledger A MyWork)
  | none => throw .null
  | some a => assign heap a fun item => { item with func := .myWorkFunc }

def Isr.run (s : System C A) : Isr → Except Fault (System C A)
  | .testWq => return { s with isr := if s.myWq = .null then .idle else .kmalloc }
  | .testWork => return { s with isr := if s.work = none then .idle else .initWork }
  | .initWork => do
    let heap ← initWorkAt s.heap s.work
    return { s with heap := heap, isr := .queueWork }
  | _ => return s

def Isr.Plain : Isr → Prop
  | .testWq | .testWork | .initWork => True
  | _ => False

def Stmt.run (heap : Ledger A MyWork) (a : A) : Stmt → Except Fault (Ledger A MyWork × Stmt)
  | .call => do
    let item ← heap.read a
    match item.func with
    | .myWorkFunc => return (heap, .year)
    | .junk => throw .null
  | .year => do
    let heap ← assign heap a fun item => { item with year := 2020 }
    return (heap, .month)
  | .month => do
    let heap ← assign heap a fun item => { item with month := 6 }
    return (heap, .day)
  | .day => do
    let heap ← assign heap a fun item => { item with day := 14 }
    return (heap, .print)
  | .print => do
    let _item ← heap.read a
    return (heap, .kfree)
  | .kfree => do
    let heap ← heap.kfree a
    return (heap, .call)

def Stmt.move (c : C) (a : A) (item : MyWork) : Stmt → Move C A
  | .call => .call c a
  | .year | .month | .day => .assign c
  | .print => .print c item.year item.month item.day
  | .kfree => .kfree c a

variable [DecidableEq C]

def Life.finished (c : C) : Life C → Life C
  | .flushing left => .flushing (Function.update left c (left c - 1))
  | life => life

def queueWork (s : System C A) (c : C) (a : A) : Except Fault (System C A) := do
  if s.myWq ≠ .created then throw .freed
  let _item ← s.heap.read a
  return { s with items := Function.update s.items c (s.items c ++ [a]), isr := .idle }

def System.worked (s : System C A) (c : C) (rest : List A) (heap : Ledger A MyWork) (stmt : Stmt) :
    System C A :=
  if stmt = .call then
    { s with
      heap := heap
      items := Function.update s.items c rest
      worker := Function.update s.worker c .call
      life := s.life.finished c }
  else { s with heap := heap, worker := Function.update s.worker c stmt }

inductive Step (s : System C A) : Move C A → System C A → Prop
  | interrupt : s.irq = true → s.isr = .idle → Step s .interrupt { s with isr := .testWq }
  | kmalloc {a : A} {junk : MyWork} (ha : s.heap.live a = false) :
      s.isr = .kmalloc →
      Step s .isr { s with heap := s.heap.kmalloc a junk ha, work := some a, isr := .testWork }
  | kmallocNull : s.isr = .kmalloc → Step s .isr { s with work := none, isr := .testWork }
  | isr {t : System C A} : s.isr.Plain → s.isr.run s = .ok t → Step s .isr t
  | isrFault {e : Fault} :
      s.isr.Plain → s.isr.run s = .error e → Step s .isr { s with life := .faulted e }
  | queueWork {c : C} {a : A} {t : System C A} :
      s.isr = .queueWork → s.work = some a → queueWork s c a = .ok t → Step s (.queueWork c a) t
  | queueWorkFault {c : C} {a : A} {e : Fault} :
      s.isr = .queueWork → s.work = some a → queueWork s c a = .error e →
      Step s (.queueWork c a) { s with life := .faulted e }
  | work {c : C} {a : A} {rest : List A} {heap : Ledger A MyWork} {stmt : Stmt} :
      s.items c = a :: rest → (s.worker c).run s.heap a = .ok (heap, stmt) →
      Step s ((s.worker c).move c a (s.heap.val a)) (s.worked c rest heap stmt)
  | workFault {c : C} {a : A} {rest : List A} {e : Fault} :
      s.items c = a :: rest → (s.worker c).run s.heap a = .error e →
      Step s .exit { s with life := .faulted e }
  | freeIrq :
      s.life = .freeIrq → s.isr = .idle → Step s .exit { s with irq := false, life := .gpioFree }
  | gpioFree : s.life = .gpioFree → Step s .exit { s with life := .flush }
  | flush :
      s.life = .flush → s.myWq ≠ .null →
      Step s .exit { s with life := .flushing fun c => (s.items c).length }
  | flushNull : s.life = .flush → s.myWq = .null → Step s .exit { s with life := .faulted .null }
  | flushed {left : C → ℕ} :
      s.life = .flushing left → (∀ c, left c = 0) → Step s .exit { s with life := .destroy }
  | destroyWorkqueue :
      s.life = .destroy → (∀ c, s.items c = []) →
      Step s .exit { s with myWq := .destroyed, life := .returned }

end EmbeddedSystem.SimpleWorkqueue
