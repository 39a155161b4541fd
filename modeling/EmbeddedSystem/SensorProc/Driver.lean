import EmbeddedSystem.Foundations.Runs
import EmbeddedSystem.Kernel.Queues

/-! The module `sensor_proc.c`: each edge of the sensor appends its time to a list, and each read of
the proc file prints the list through `proc_buf`, a static buffer of all the readers. The interrupt
handler and the readers run side by side, and a statement of a reader is a step. What the handler
does under `spinlock` is one step: without the lock a reader reads only where the first link of the
list leads. -/

namespace EmbeddedSystem.SensorProc

open Kernel Foundations

variable {R A : Type}

structure Timespec where
  tvSec : ℤ
  tvNsec : ℤ
  deriving DecidableEq

abbrev Nodes (A : Type) := Lists Unit A Timespec

-- `sprintf(proc_buf, "[%d] time: %ld", index, tv_sec)`
def line (index : BitVec 32) (time : Timespec) : String :=
  "[" ++ toString index.toInt ++ "] time: " ++ toString time.tvSec

abbrev procBufSize : ℕ := 256

lemma length_toString_nat {n e : ℕ} (he : 0 < e) (hn : n < 10 ^ e) : (toString n).length ≤ e :=
  Nat.repr_length n e he hn

lemma length_toString_int {z : ℤ} {e : ℕ} (he : 0 < e) (hz : z.natAbs < 10 ^ e) :
    (toString z).length ≤ e + 1 := by
  cases z with
  | ofNat n => exact (length_toString_nat he hz).trans (Nat.le_succ e)
  | negSucc n =>
    have hn : (toString (n + 1)).length ≤ e := length_toString_nat he hz
    have hsign : "-".length = 1 := rfl
    show ("-" ++ toString (n + 1)).length ≤ e + 1
    rw [String.length_append]
    omega

lemma line_fits {index : BitVec 32} {time : Timespec} (htime : time.tvSec.natAbs ≤ 2 ^ 63) :
    (line index time).length < procBufSize := by
  have hindex : (toString index.toInt).length ≤ 11 := by
    have hlt := index.toInt_lt
    have hle := index.le_toInt
    exact length_toString_int (by norm_num) (by omega)
  have hsec : (toString time.tvSec).length ≤ 20 := length_toString_int (by norm_num) (by omega)
  have hopen : "[".length = 1 := rfl
  have hclose : "] time: ".length = 8 := rfl
  simp only [line, String.length_append, procBufSize]
  omega

-- `seq_printf(seq, "%s\n", proc_buf)`
def printed (procBuf : String) : String := procBuf ++ "\n"

inductive Show (A : Type)
  | returned (out : List String)
  | cleared
  | empty
  | copied
  | waiting
  | loop (pos q : Ptr Unit A) (index : BitVec 32) (out : List String)
  | formatted (pos q : Ptr Unit A) (index : BitVec 32) (out : List String)
  | faulted (e : Fault)

def Show.Locked : Show A → Prop
  | .loop .. | .formatted .. => True
  | _ => False

def Show.Printing : Show A → Prop
  | .formatted .. | .copied => True
  | _ => False

def Show.Returned : Show A → Prop
  | .returned _ => True
  | _ => False

def sprintf (l : Nodes A) (pos : Ptr Unit A) (index : BitVec 32) : Except Fault String := do
  let node ← pos.entry
  let time ← l.nodes.read node
  return line index time

variable [DecidableEq A]

def Show.act (l : Nodes A) (procBuf : String) : Show A → Except Fault (Show A × String)
  | .returned out => return (.returned out, procBuf)
  | .cleared => return (if l.listEmpty () then .empty else .waiting, procBuf)
  | .empty => return (.copied, "empty list\n")
  | .copied => return (.returned [printed procBuf], procBuf)
  | .waiting => do
    let pos ← l.getNext (.head ())
    let q ← l.getNext pos
    return (.loop pos q 0 [], procBuf)
  | .loop pos q index out =>
    if pos = .head () then return (.returned out, procBuf)
    else do
      let text ← sprintf l pos index
      return (.formatted pos q index out, text)
  | .formatted _ q index out => do
    let next ← l.getNext q
    return (.loop q next (index + 1) (out ++ [printed procBuf]), procBuf)
  | .faulted e => throw e

inductive Isr (A : Type)
  | idle
  | allocated (node : Option A)
  | faulted (e : Fault)

def detect (l : Nodes A) (time : Timespec) : Option A → Except Fault (Nodes A)
  | none => throw .null
  | some node => do
    let l ← l.store node time
    l.listAddTail (.node node) (.head ())

inductive Life
  | running | procRemoved | irqFreed | left
  deriving DecidableEq

structure System (R A : Type) where
  lists : Nodes A
  procBuf : String
  isr : Isr A
  reader : R → Show A
  life : Life

inductive Move (R : Type)
  | kmalloc
  | detect (time : Timespec)
  | memset (r : R)
  | read (r : R)
  | procRemove | freeIrq | free
  | fault (e : Fault)

def System.init (junk : A → Timespec) : System R A :=
  ⟨.init junk, "", .idle, fun _ => .returned [], .running⟩

def System.Unlocked (s : System R A) : Prop := ∀ r, ¬ (s.reader r).Locked

variable [DecidableEq R]

def System.set (s : System R A) (r : R) (ph : Show A) : System R A :=
  { s with reader := Function.update s.reader r ph }

def exitBody (pos : Ptr Unit A) (l : Nodes A) : Except Fault (Nodes A) := do
  let node ← pos.entry
  let _time ← l.nodes.read node
  let l ← l.listDel pos
  l.kfree node

/-- `proc_remove` returns when no read is in progress, and `free_irq` when the handler is not
running; the loop of the exit comes after both. -/
inductive Step (s : System R A) : Move R → System R A → Prop
  | kmalloc (new : s.lists.New) :
      s.life = .running ∨ s.life = .procRemoved → s.isr = .idle →
      Step s .kmalloc { s with
        lists := s.lists.kmalloc new.node new.junk new.free, isr := .allocated (some new.node) }
  | kmallocNull :
      s.life = .running ∨ s.life = .procRemoved → s.isr = .idle →
      Step s .kmalloc { s with isr := .allocated none }
  | detect {node : Option A} {time : Timespec} {l : Nodes A} :
      s.isr = .allocated node → s.Unlocked → SensorProc.detect s.lists time node = .ok l →
      Step s (.detect time) { s with lists := l, isr := .idle }
  | detectFault {node : Option A} {time : Timespec} {e : Fault} :
      s.isr = .allocated node → s.Unlocked → SensorProc.detect s.lists time node = .error e →
      Step s (.fault e) { s with isr := .faulted e }
  | memset {r : R} :
      s.life = .running → (s.reader r).Returned →
      Step s (.memset r) ({ s with procBuf := "" }.set r .cleared)
  | read {r : R} {ph : Show A} {procBuf : String} :
      ¬ (s.reader r).Returned → (s.reader r = .waiting → s.Unlocked) →
      (s.reader r).act s.lists s.procBuf = .ok (ph, procBuf) →
      Step s (.read r) ({ s with procBuf := procBuf }.set r ph)
  | readFault {r : R} {e : Fault} :
      (s.reader r = .waiting → s.Unlocked) →
      (s.reader r).act s.lists s.procBuf = .error e →
      Step s (.fault e) (s.set r (.faulted e))
  | procRemove :
      s.life = .running → (∀ r, (s.reader r).Returned) →
      Step s .procRemove { s with life := .procRemoved }
  | freeIrq :
      s.life = .procRemoved → s.isr = .idle → Step s .freeIrq { s with life := .irqFreed }
  | free {l : Nodes A} :
      s.life = .irqFreed →
      Returns (fun n => Lists.listForEachSafe id () exitBody n s.lists) l →
      Step s .free { s with lists := l, life := .left }

def detections (ms : List (Move R)) : List Timespec :=
  ms.filterMap fun
    | .detect time => some time
    | _ => none

def report (times : List Timespec) : List String :=
  times.mapIdx fun index time => printed (line (.ofNat 32 index) time)

def Show.Writes : Show A → Prop
  | .empty => True
  | .loop pos .. => pos ≠ .head ()
  | _ => False

/-- No reader writes to `proc_buf` while it holds the text of another reader. -/
def Undisturbed (s : System R A) : Move R → Prop
  | .memset r => ∀ r', r' ≠ r → ¬ (s.reader r').Printing
  | .read r => (s.reader r).Writes → ∀ r', r' ≠ r → ¬ (s.reader r').Printing
  | _ => True

end EmbeddedSystem.SensorProc
