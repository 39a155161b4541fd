import EmbeddedSystem.Kernel.Heap

/-! The drivers `simple_rcu.c` and `simple_rwlock.c`: one cell, read by `IOCTL_READ` and replaced by
`IOCTL_WRITE`. They differ in their locks, and the first one waits for a grace period before it
frees the replaced cell. Each statement is one step. A word has `w` bits. -/

namespace EmbeddedSystem.Challenge9

open Kernel

inductive Version
  | simpleRcu | simpleRwlock
  deriving DecidableEq

inductive ReadPhase (A : Type) (w : ℕ)
  | idle | locked
  | loaded (old : A)
  | printed (old : A) (data : BitVec w)
  | reprinted (data again : BitVec w)
  | faulted (e : Fault)

inductive WritePhase (A : Type)
  | kmalloc
  | store (new : A)
  | load (new : A)
  | assign (old new : A)
  | synchronizeRcu (old : A)
  | waiting (old : A)
  | kfree (old : A)
  | unlock
  | faulted (e : Fault)

structure Write (P A : Type) (w : ℕ) where
  writer : P
  arg : BitVec w
  phase : WritePhase A

/-- The lock is held by the process of `write`, and by the readers in their sections; `pending` are
the sections that a grace period waits for. -/
structure System (P A : Type) (w : ℕ) where
  heap : Heap A (BitVec w)
  myData : A
  reader : P → ReadPhase A w
  write : Option (Write P A w)
  pending : P → Bool

inductive Move (A : Type) (w : ℕ)
  | readLock | load
  | print (data : BitVec w)
  | readUnlock (data again : BitVec w)
  | writeLock (arg : BitVec w)
  | work
  | assign (old : A) (arg : BitVec w)
  | kfree (old : A)
  | writeUnlock
  | fault (e : Fault)
  | unknown

variable {P A : Type} {w : ℕ}

def ReadPhase.inSection : ReadPhase A w → Bool
  | .idle => false
  | _ => true

def Version.readLock (v : Version) (s : System P A w) : Prop :=
  match v with
  | .simpleRcu => True
  | .simpleRwlock => s.write = none

def Version.writeLock (v : Version) (s : System P A w) : Prop :=
  match v with
  | .simpleRcu => s.write = none
  | .simpleRwlock => s.write = none ∧ ∀ p, (s.reader p).inSection = false

def Version.assigned (v : Version) (old : A) : WritePhase A :=
  match v with
  | .simpleRcu => .synchronizeRcu old
  | .simpleRwlock => .kfree old

variable [DecidableEq P] [DecidableEq A]

def System.init (junk : Heap A (BitVec w)) (data : A) : System P A w :=
  ⟨junk.kmalloc data 0, data, fun _ => .idle, none, fun _ => false⟩

def System.set (s : System P A w) (p : P) (ph : ReadPhase A w) : System P A w :=
  { s with reader := Function.update s.reader p ph }

inductive Step (v : Version) (s : System P A w) : P × Move A w → System P A w → Prop
  | readLock {p : P} :
      s.reader p = .idle → (∀ u, s.write = some u → u.writer ≠ p) → v.readLock s →
      Step v s (p, .readLock) (s.set p .locked)
  | load {p : P} :
      s.reader p = .locked → Step v s (p, .load) (s.set p (.loaded s.myData))
  | print {p : P} {old : A} {data : BitVec w} :
      s.reader p = .loaded old → s.heap.read old = .ok data →
      Step v s (p, .print data) (s.set p (.printed old data))
  | printAgain {p : P} {old : A} {data again : BitVec w} :
      s.reader p = .printed old data → s.heap.read old = .ok again →
      Step v s (p, .print again) (s.set p (.reprinted data again))
  | readUnlock {p : P} {data again : BitVec w} :
      s.reader p = .reprinted data again →
      Step v s (p, .readUnlock data again)
        { s.set p .idle with pending := Function.update s.pending p false }
  | printFault {p : P} {old : A} {e : Fault} :
      s.reader p = .loaded old → s.heap.read old = .error e →
      Step v s (p, .fault e) (s.set p (.faulted e))
  | printAgainFault {p : P} {old : A} {data : BitVec w} {e : Fault} :
      s.reader p = .printed old data → s.heap.read old = .error e →
      Step v s (p, .fault e) (s.set p (.faulted e))
  | writeLock {p : P} {arg : BitVec w} :
      s.reader p = .idle → v.writeLock s →
      Step v s (p, .writeLock arg) { s with write := some ⟨p, arg, .kmalloc⟩ }
  | kmalloc {p : P} {arg junk : BitVec w} {new : A} :
      s.write = some ⟨p, arg, .kmalloc⟩ → s.heap.live new = false →
      Step v s (p, .work)
        { s with heap := s.heap.kmalloc new junk, write := some ⟨p, arg, .store new⟩ }
  | kmallocNull {p : P} {arg : BitVec w} :
      s.write = some ⟨p, arg, .kmalloc⟩ →
      Step v s (p, .fault .null) { s with write := some ⟨p, arg, .faulted .null⟩ }
  | store {p : P} {arg : BitVec w} {new : A} {heap : Heap A (BitVec w)} :
      s.write = some ⟨p, arg, .store new⟩ → s.heap.write new arg = .ok heap →
      Step v s (p, .work) { s with heap := heap, write := some ⟨p, arg, .load new⟩ }
  | loadOld {p : P} {arg : BitVec w} {new : A} :
      s.write = some ⟨p, arg, .load new⟩ →
      Step v s (p, .work) { s with write := some ⟨p, arg, .assign s.myData new⟩ }
  | assign {p : P} {arg : BitVec w} {old new : A} :
      s.write = some ⟨p, arg, .assign old new⟩ →
      Step v s (p, .assign old arg)
        { s with myData := new, write := some ⟨p, arg, v.assigned old⟩ }
  | synchronizeRcu {p : P} {arg : BitVec w} {old : A} :
      s.write = some ⟨p, arg, .synchronizeRcu old⟩ →
      Step v s (p, .work)
        { s with
          write := some ⟨p, arg, .waiting old⟩
          pending := fun q => (s.reader q).inSection }
  | synchronized {p : P} {arg : BitVec w} {old : A} :
      s.write = some ⟨p, arg, .waiting old⟩ → (∀ q, s.pending q = false) →
      Step v s (p, .work) { s with write := some ⟨p, arg, .kfree old⟩ }
  | kfree {p : P} {arg : BitVec w} {old : A} {heap : Heap A (BitVec w)} :
      s.write = some ⟨p, arg, .kfree old⟩ → s.heap.kfree old = .ok heap →
      Step v s (p, .kfree old) { s with heap := heap, write := some ⟨p, arg, .unlock⟩ }
  | writeUnlock {p : P} {arg : BitVec w} :
      s.write = some ⟨p, arg, .unlock⟩ →
      Step v s (p, .writeUnlock) { s with write := none }
  | storeFault {p : P} {arg : BitVec w} {new : A} {e : Fault} :
      s.write = some ⟨p, arg, .store new⟩ → s.heap.write new arg = .error e →
      Step v s (p, .fault e) { s with write := some ⟨p, arg, .faulted e⟩ }
  | kfreeFault {p : P} {arg : BitVec w} {old : A} {e : Fault} :
      s.write = some ⟨p, arg, .kfree old⟩ → s.heap.kfree old = .error e →
      Step v s (p, .fault e) { s with write := some ⟨p, arg, .faulted e⟩ }
  | unknown {p : P} : s.reader p = .idle → Step v s (p, .unknown) s

end EmbeddedSystem.Challenge9
