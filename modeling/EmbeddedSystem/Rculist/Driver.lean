import EmbeddedSystem.Kernel.RcuList

/-! The driver `simple_rculist.c`: a list of five nodes, read under `rcu_read_lock` and updated
under `my_lock`. Readers take one load or one node a step, and updaters one statement a step, with
the stores of `list_replace_rcu` apart; the interleaving is arbitrary. The words of an
`unsigned long` have `w` bits. The grace period of `synchronize_rcu` ends when the read-side
sections that were open at its start have ended. -/

namespace EmbeddedSystem.Rculist

open Kernel

structure TestList (w : ℕ) where
  id : ℕ
  data : BitVec w
  deriving DecidableEq

abbrev Mem (w : ℕ) := Memory (TestList w)

structure Placement (w : ℕ) where
  addr : ℕ → Addr
  junk : Mem w
  ne_head : ∀ i, addr i ≠ listHead
  injective : Function.Injective addr

variable {w : ℕ}

def Placement.rounds (pl : Placement w) : ℕ → Mem w
  | 0 => pl.junk.initListHead
  | i + 1 => (((pl.rounds i).kmalloc (pl.addr i) pl.junk).store (pl.addr i)
      ⟨i + 1, 100⟩).listAddTailRcu (pl.addr i)

def simpleRculistInit (pl : Placement w) : Mem w := pl.rounds 5

/-- Where `list_for_each_entry_rcu` is: about to load the pointer after a node, or at a node that
may be the head. -/
inductive Cursor
  | load (cur : Addr)
  | test (pos : Addr)
  deriving DecidableEq

inductive Walk
  | loaded (pos : Addr)
  | passed (id : ℕ) (pos : Addr)
  | found (id : ℕ) (pos : Addr)
  | ended
  deriving DecidableEq

def Cursor.advance (m : Mem w) (arg : ℕ) : Cursor → Except Fault Walk
  | .load cur => do
    m.touch cur
    return .loaded (m.next cur)
  | .test pos =>
    if pos = listHead then return .ended
    else do
      m.touch pos
      if (m.val pos).id = arg then return .found (m.val pos).id pos
      else return .passed (m.val pos).id pos

inductive ReadPhase
  | idle
  | walking (arg : ℕ) (c : Cursor)
  | printing (arg : ℕ) (pos : Addr)
  | leaving
  | faulted (e : Fault)
  deriving DecidableEq

def ReadPhase.inSection : ReadPhase → Bool
  | .idle => false
  | _ => true

inductive Stmt
  | memcpy | increment | replaceCopy | replacePublish | replaceBack | replacePoison | kfree | print
  deriving DecidableEq

inductive UpdatePhase
  | walking (c : Cursor)
  | kmalloc (old : Addr)
  | doing (stmt : Stmt) (old new : Addr)
  | synchronizeRcu (old new : Addr)
  | waiting (old new : Addr)
  | spinUnlock
  | faulted (e : Fault)
  deriving DecidableEq

def Walk.searched : Walk → UpdatePhase
  | .loaded pos => .walking (.test pos)
  | .passed _ pos => .walking (.load pos)
  | .found _ pos => .kmalloc pos
  | .ended => .spinUnlock

def Stmt.run (m : Mem w) (old new : Addr) : Stmt → Except Fault (Mem w × UpdatePhase)
  | .memcpy => do
    let m ← m.memcpy new old
    return (m, .doing .increment old new)
  | .increment => do
    m.touch new
    return (m.store new { m.val new with data := (m.val new).data + 1 },
      .doing .replaceCopy old new)
  | .replaceCopy => do
    let m ← m.replaceCopy old new
    return (m, .doing .replacePublish old new)
  | .replacePublish => do
    let m ← m.replacePublish new
    return (m, .doing .replaceBack old new)
  | .replaceBack => do
    let m ← m.replaceBack new
    return (m, .doing .replacePoison old new)
  | .replacePoison => do
    let m ← m.replacePoison old
    return (m, .synchronizeRcu old new)
  | .kfree => return (m.kfree old, .doing .print old new)
  | .print => do
    m.touch new
    return (m, .spinUnlock)

structure Update (P : Type) where
  updater : P
  arg : ℕ
  phase : UpdatePhase

structure System (P : Type) (w : ℕ) where
  mem : Mem w
  reader : P → ReadPhase
  update : Option (Update P)
  pending : P → Bool

inductive Move (w : ℕ)
  | rcuReadLock (arg : ℕ)
  | load
  | visit (id : ℕ)
  | print (arg : ℕ) (data : BitVec w)
  | notFound (arg : ℕ)
  | rcuReadUnlock
  | spinLock (arg : ℕ)
  | work
  | publish (arg : ℕ)
  | spinUnlock (arg : ℕ)
  | fault (e : Fault)
  deriving DecidableEq

def Stmt.move (arg : ℕ) : Stmt → Move w
  | .replacePublish => .publish arg
  | _ => .work

variable {P : Type} [DecidableEq P]

def System.init (pl : Placement w) : System P w :=
  ⟨simpleRculistInit pl, fun _ => .idle, none, fun _ => false⟩

def System.set (s : System P w) (p : P) (ph : ReadPhase) : System P w :=
  { s with reader := Function.update s.reader p ph }

inductive Step (s : System P w) : P × Move w → System P w → Prop
  | rcuReadLock {p : P} {arg : ℕ} :
      s.reader p = .idle → (∀ u, s.update = some u → u.updater ≠ p) →
      Step s (p, .rcuReadLock arg) (s.set p (.walking arg (.load listHead)))
  | loaded {p : P} {arg : ℕ} {c : Cursor} {pos : Addr} :
      s.reader p = .walking arg c → c.advance s.mem arg = .ok (.loaded pos) →
      Step s (p, .load) (s.set p (.walking arg (.test pos)))
  | passed {p : P} {arg id : ℕ} {c : Cursor} {pos : Addr} :
      s.reader p = .walking arg c → c.advance s.mem arg = .ok (.passed id pos) →
      Step s (p, .visit id) (s.set p (.walking arg (.load pos)))
  | found {p : P} {arg id : ℕ} {c : Cursor} {pos : Addr} :
      s.reader p = .walking arg c → c.advance s.mem arg = .ok (.found id pos) →
      Step s (p, .visit id) (s.set p (.printing arg pos))
  | print {p : P} {arg : ℕ} {pos : Addr} :
      s.reader p = .printing arg pos → s.mem.touch pos = .ok () →
      Step s (p, .print arg (s.mem.val pos).data) (s.set p .leaving)
  | notFound {p : P} {arg : ℕ} {c : Cursor} :
      s.reader p = .walking arg c → c.advance s.mem arg = .ok .ended →
      Step s (p, .notFound arg) (s.set p .leaving)
  | rcuReadUnlock {p : P} :
      s.reader p = .leaving →
      Step s (p, .rcuReadUnlock)
        { s.set p .idle with pending := Function.update s.pending p false }
  | walkFault {p : P} {arg : ℕ} {c : Cursor} {e : Fault} :
      s.reader p = .walking arg c → c.advance s.mem arg = .error e →
      Step s (p, .fault e) (s.set p (.faulted e))
  | printFault {p : P} {arg : ℕ} {pos : Addr} {e : Fault} :
      s.reader p = .printing arg pos → s.mem.touch pos = .error e →
      Step s (p, .fault e) (s.set p (.faulted e))
  | spinLock {p : P} {arg : ℕ} :
      s.update = none → s.reader p = .idle →
      Step s (p, .spinLock arg) { s with update := some ⟨p, arg, .walking (.load listHead)⟩ }
  | search {p : P} {arg : ℕ} {c : Cursor} {r : Walk} :
      s.update = some ⟨p, arg, .walking c⟩ → c.advance s.mem arg = .ok r →
      Step s (p, .work) { s with update := some ⟨p, arg, r.searched⟩ }
  | kmalloc {p : P} {arg : ℕ} {old new : Addr} {junk : Mem w} :
      s.update = some ⟨p, arg, .kmalloc old⟩ → s.mem.live new = false →
      Step s (p, .work)
        { s with mem := s.mem.kmalloc new junk, update := some ⟨p, arg, .doing .memcpy old new⟩ }
  | kmallocNull {p : P} {arg : ℕ} {old : Addr} :
      s.update = some ⟨p, arg, .kmalloc old⟩ →
      Step s (p, .fault .null) { s with update := some ⟨p, arg, .faulted .null⟩ }
  | stmt {p : P} {arg : ℕ} {stmt : Stmt} {old new : Addr} {m : Mem w} {ph : UpdatePhase} :
      s.update = some ⟨p, arg, .doing stmt old new⟩ → stmt.run s.mem old new = .ok (m, ph) →
      Step s (p, stmt.move arg) { s with mem := m, update := some ⟨p, arg, ph⟩ }
  | synchronizeRcu {p : P} {arg : ℕ} {old new : Addr} :
      s.update = some ⟨p, arg, .synchronizeRcu old new⟩ →
      Step s (p, .work)
        { s with
          update := some ⟨p, arg, .waiting old new⟩
          pending := fun q => (s.reader q).inSection }
  | synchronized {p : P} {arg : ℕ} {old new : Addr} :
      s.update = some ⟨p, arg, .waiting old new⟩ → (∀ q, s.pending q = false) →
      Step s (p, .work) { s with update := some ⟨p, arg, .doing .kfree old new⟩ }
  | spinUnlock {p : P} {arg : ℕ} :
      s.update = some ⟨p, arg, .spinUnlock⟩ →
      Step s (p, .spinUnlock arg) { s with update := none }
  | searchFault {p : P} {arg : ℕ} {c : Cursor} {e : Fault} :
      s.update = some ⟨p, arg, .walking c⟩ → c.advance s.mem arg = .error e →
      Step s (p, .fault e) { s with update := some ⟨p, arg, .faulted e⟩ }
  | stmtFault {p : P} {arg : ℕ} {stmt : Stmt} {old new : Addr} {e : Fault} :
      s.update = some ⟨p, arg, .doing stmt old new⟩ → stmt.run s.mem old new = .error e →
      Step s (p, .fault e) { s with update := some ⟨p, arg, .faulted e⟩ }

end EmbeddedSystem.Rculist
