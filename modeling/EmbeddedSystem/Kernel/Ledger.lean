import EmbeddedSystem.Kernel.Heap

/-! A heap that counts, for each address, how often it was allocated and how often it was freed.
What was allocated has been freed exactly once when the counts are equal, since freeing twice is a
fault. -/

namespace EmbeddedSystem.Kernel

structure Ledger (A V : Type*) extends Heap A V where
  allocs : A → ℕ
  frees : A → ℕ
  balanced : ∀ a, allocs a = frees a + (live a).toNat

namespace Ledger

variable {A V : Type*} {h : Ledger A V} {a b : A} {v : V}

def empty (junk : A → V) : Ledger A V := ⟨⟨fun _ => false, junk⟩, 0, 0, fun _ => rfl⟩

def AllFreed (h : Ledger A V) : Prop := ∀ a, h.allocs a = h.frees a

lemma allFreed_iff : h.AllFreed ↔ ∀ a, h.live a = false := by
  apply forall_congr'
  intro a
  rw [h.balanced a]
  cases h.live a <;> simp

variable [DecidableEq A]

def kmalloc (h : Ledger A V) (a : A) (junk : V) (ha : h.live a = false) : Ledger A V where
  toHeap := h.toHeap.kmalloc a junk
  allocs := Function.update h.allocs a (h.allocs a + 1)
  frees := h.frees
  balanced := by
    intro b
    have hb := h.balanced b
    by_cases hba : b = a
    · subst hba
      simp only [Heap.kmalloc, Function.update_self, hb, ha]
      rfl
    · simpa only [Heap.kmalloc, Function.update_of_ne hba] using hb

def freed (h : Ledger A V) (a : A) (ha : h.live a = true) : Ledger A V where
  live := Function.update h.live a false
  val := h.val
  allocs := h.allocs
  frees := Function.update h.frees a (h.frees a + 1)
  balanced := by
    intro b
    have hb := h.balanced b
    by_cases hba : b = a
    · subst hba
      simp only [Function.update_self, hb, ha]
      rfl
    · simpa only [Function.update_of_ne hba] using hb

def kfree (h : Ledger A V) (a : A) : Except Fault (Ledger A V) :=
  if ha : h.live a = true then .ok (h.freed a ha) else .error .freed

def stored (h : Ledger A V) (a : A) (v : V) : Ledger A V :=
  { h with val := Function.update h.val a v }

def write (h : Ledger A V) (a : A) (v : V) : Except Fault (Ledger A V) :=
  if h.live a then .ok (h.stored a v) else .error .freed

omit [DecidableEq A] in
lemma read_of_live (ha : h.live a = true) : h.read a = .ok (h.val a) := Heap.read_of_live ha

lemma kfree_of_live (ha : h.live a = true) : h.kfree a = .ok (h.freed a ha) := dif_pos ha

lemma write_of_live (ha : h.live a = true) (v : V) : h.write a v = .ok (h.stored a v) := if_pos ha

@[simp] lemma live_kmalloc {junk : V} {ha : h.live a = false} :
    (h.kmalloc a junk ha).live = Function.update h.live a true := rfl

@[simp] lemma val_kmalloc {junk : V} {ha : h.live a = false} :
    (h.kmalloc a junk ha).val = Function.update h.val a junk := rfl

@[simp] lemma live_freed {ha : h.live a = true} :
    (h.freed a ha).live = Function.update h.live a false := rfl

@[simp] lemma val_freed {ha : h.live a = true} : (h.freed a ha).val = h.val := rfl

@[simp] lemma live_stored : (h.stored a v).live = h.live := rfl

@[simp] lemma val_stored : (h.stored a v).val = Function.update h.val a v := rfl

@[simp] lemma stored_stored {v' : V} : (h.stored a v).stored a v' = h.stored a v' := by
  simp [stored]

/-! A pointer to a cell is `none` when it is `NULL`; `kfree(NULL)` does nothing. -/

omit [DecidableEq A] in
def readAt (h : Ledger A V) : Option A → Except Fault V
  | none => .error .null
  | some a => h.read a

def writeAt (h : Ledger A V) (v : V) : Option A → Except Fault (Ledger A V)
  | none => .error .null
  | some a => h.write a v

def kfreeAt (h : Ledger A V) : Option A → Except Fault (Ledger A V)
  | none => .ok h
  | some a => h.kfree a

lemma live_writeAt {h' : Ledger A V} {p : Option A} (hw : h.writeAt v p = .ok h') :
    h'.live = h.live := by
  cases p with
  | none => cases hw
  | some a =>
    rw [writeAt, write] at hw
    split at hw
    · cases hw
      rfl
    · cases hw

end Ledger

end EmbeddedSystem.Kernel
