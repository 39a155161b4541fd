import EmbeddedSystem.Challenge9.Driver
import EmbeddedSystem.Kernel.Ledger

/-! The life of the module `simple_rcu.c`: its init, its exit and the calls of any number of
processes, each statement one step. `my_data` is `NULL` before the init assigns it and after the
exit has cleared it. A process may start a call from the end of `cdev_add` to the end of
`cdev_del`, and the exit does not wait for calls in progress. -/

namespace EmbeddedSystem.Challenge9.Lifecycle

open Kernel

/-- A process that has no call in progress is `read .idle`. The pointers may be `NULL`. -/
inductive Call (A : Type) (w : ℕ)
  | read (phase : ReadPhase (Option A) w)
  | write (arg : BitVec w) (phase : WritePhase (Option A))

/-- The next statement of `simple_rcu_init`, and after `running` of `simple_rcu_exit`. -/
inductive Life (A : Type)
  | cdevAdd | spinLockInit | kmalloc
  | store (data : Option A)
  | assign (data : Option A)
  | running
  | load
  | clear (data : Option A)
  | kfree (data : Option A)
  | unlock | cdevDel | unloaded
  | faulted (e : Fault)

/-- `pending p` are the sections that the grace period of the writer `p` waits for. -/
structure System (P A : Type) (w : ℕ) where
  heap : Ledger A (BitVec w)
  myData : Option A
  myLock : Bool
  call : P → Call A w
  pending : P → P → Bool
  life : Life A

variable {P A : Type} {w : ℕ}

def Call.inSection : Call A w → Bool
  | .read phase => phase.inSection
  | .write _ _ => false

def Life.device : Life A → Bool
  | .cdevAdd | .unloaded => false
  | _ => true

def System.init (junk : A → BitVec w) : System P A w :=
  ⟨.empty junk, none, false, fun _ => .read .idle, fun _ _ => false, .cdevAdd⟩

variable [DecidableEq P] [DecidableEq A]

def System.set (s : System P A w) (p : P) (c : Call A w) : System P A w :=
  { s with call := Function.update s.call p c }

inductive Step (s : System P A w) : Option P → System P A w → Prop
  | readLock {p : P} :
      s.life.device = true → s.call p = .read .idle → Step s (some p) (s.set p (.read .locked))
  | load {p : P} :
      s.call p = .read .locked → Step s (some p) (s.set p (.read (.loaded s.myData)))
  | print {p : P} {old : Option A} {data : BitVec w} :
      s.call p = .read (.loaded old) → s.heap.readAt old = .ok data →
      Step s (some p) (s.set p (.read (.printed old data)))
  | printAgain {p : P} {old : Option A} {data again : BitVec w} :
      s.call p = .read (.printed old data) → s.heap.readAt old = .ok again →
      Step s (some p) (s.set p (.read (.reprinted data again)))
  | readUnlock {p : P} {data again : BitVec w} :
      s.call p = .read (.reprinted data again) →
      Step s (some p)
        { s.set p (.read .idle) with pending := fun q => Function.update (s.pending q) p false }
  | printFault {p : P} {old : Option A} {e : Fault} :
      s.call p = .read (.loaded old) → s.heap.readAt old = .error e →
      Step s (some p) (s.set p (.read (.faulted e)))
  | printAgainFault {p : P} {old : Option A} {data : BitVec w} {e : Fault} :
      s.call p = .read (.printed old data) → s.heap.readAt old = .error e →
      Step s (some p) (s.set p (.read (.faulted e)))
  | writeLock {p : P} (arg : BitVec w) :
      s.life.device = true → s.call p = .read .idle → s.myLock = false →
      Step s (some p) { s.set p (.write arg .kmalloc) with myLock := true }
  | kmalloc {p : P} {arg : BitVec w} (new : A) (junk : BitVec w)
      (hnew : s.heap.live new = false) :
      s.call p = .write arg .kmalloc →
      Step s (some p)
        { s.set p (.write arg (.store (some new))) with heap := s.heap.kmalloc new junk hnew }
  | kmallocNull {p : P} {arg : BitVec w} :
      s.call p = .write arg .kmalloc → Step s (some p) (s.set p (.write arg (.store none)))
  | store {p : P} {arg : BitVec w} {new : Option A} {heap : Ledger A (BitVec w)} :
      s.call p = .write arg (.store new) → s.heap.writeAt arg new = .ok heap →
      Step s (some p) { s.set p (.write arg (.load new)) with heap := heap }
  | storeFault {p : P} {arg : BitVec w} {new : Option A} {e : Fault} :
      s.call p = .write arg (.store new) → s.heap.writeAt arg new = .error e →
      Step s (some p) (s.set p (.write arg (.faulted e)))
  | loadOld {p : P} {arg : BitVec w} {new : Option A} :
      s.call p = .write arg (.load new) →
      Step s (some p) (s.set p (.write arg (.assign s.myData new)))
  | assign {p : P} {arg : BitVec w} {old new : Option A} :
      s.call p = .write arg (.assign old new) →
      Step s (some p) { s.set p (.write arg (.synchronizeRcu old)) with myData := new }
  | synchronizeRcu {p : P} {arg : BitVec w} {old : Option A} :
      s.call p = .write arg (.synchronizeRcu old) →
      Step s (some p)
        { s.set p (.write arg (.waiting old)) with
          pending := Function.update s.pending p fun q => (s.call q).inSection }
  | synchronized {p : P} {arg : BitVec w} {old : Option A} :
      s.call p = .write arg (.waiting old) → (∀ q, s.pending p q = false) →
      Step s (some p) (s.set p (.write arg (.kfree old)))
  | kfree {p : P} {arg : BitVec w} {old : Option A} {heap : Ledger A (BitVec w)} :
      s.call p = .write arg (.kfree old) → s.heap.kfreeAt old = .ok heap →
      Step s (some p) { s.set p (.write arg .unlock) with heap := heap }
  | kfreeFault {p : P} {arg : BitVec w} {old : Option A} {e : Fault} :
      s.call p = .write arg (.kfree old) → s.heap.kfreeAt old = .error e →
      Step s (some p) (s.set p (.write arg (.faulted e)))
  | writeUnlock {p : P} {arg : BitVec w} :
      s.call p = .write arg .unlock →
      Step s (some p) { s.set p (.read .idle) with myLock := false }
  | unknown {p : P} :
      s.life.device = true → s.call p = .read .idle → Step s (some p) s
  | cdevAdd : s.life = .cdevAdd → Step s none { s with life := .spinLockInit }
  | spinLockInit :
      s.life = .spinLockInit → Step s none { s with myLock := false, life := .kmalloc }
  | initKmalloc (data : A) (junk : BitVec w) (hdata : s.heap.live data = false) :
      s.life = .kmalloc →
      Step s none
        { s with heap := s.heap.kmalloc data junk hdata, life := .store (some data) }
  | initKmallocNull : s.life = .kmalloc → Step s none { s with life := .store none }
  | initStore {data : Option A} {heap : Ledger A (BitVec w)} :
      s.life = .store data → s.heap.writeAt 0 data = .ok heap →
      Step s none { s with heap := heap, life := .assign data }
  | initStoreFault {data : Option A} {e : Fault} :
      s.life = .store data → s.heap.writeAt 0 data = .error e →
      Step s none { s with life := .faulted e }
  | initAssign {data : Option A} :
      s.life = .assign data → Step s none { s with myData := data, life := .running }
  | exitLock :
      s.life = .running → s.myLock = false → Step s none { s with myLock := true, life := .load }
  | exitLoad : s.life = .load → Step s none { s with life := .clear s.myData }
  | exitClear {data : Option A} :
      s.life = .clear data → Step s none { s with myData := none, life := .kfree data }
  | exitKfree {data : Option A} {heap : Ledger A (BitVec w)} :
      s.life = .kfree data → s.heap.kfreeAt data = .ok heap →
      Step s none { s with heap := heap, life := .unlock }
  | exitKfreeFault {data : Option A} {e : Fault} :
      s.life = .kfree data → s.heap.kfreeAt data = .error e →
      Step s none { s with life := .faulted e }
  | exitUnlock :
      s.life = .unlock → Step s none { s with myLock := false, life := .cdevDel }
  | cdevDel : s.life = .cdevDel → Step s none { s with life := .unloaded }

end EmbeddedSystem.Challenge9.Lifecycle
