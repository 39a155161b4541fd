import EmbeddedSystem.Kernel.Memory

namespace EmbeddedSystem.Kernel

structure Heap (A V : Type*) where
  live : A → Bool
  val : A → V

namespace Heap

variable {A V : Type*} {h : Heap A V} {a b : A}

def read (h : Heap A V) (a : A) : Except Fault V :=
  if h.live a then .ok (h.val a) else .error .freed

lemma read_of_live (ha : h.live a = true) : h.read a = .ok (h.val a) := if_pos ha

lemma ne_of_live (ha : h.live a = true) (hb : h.live b = false) : a ≠ b := by
  rintro rfl
  rw [ha] at hb
  cases hb

variable [DecidableEq A]

def write (h : Heap A V) (a : A) (v : V) : Except Fault (Heap A V) :=
  if h.live a then .ok { h with val := Function.update h.val a v } else .error .freed

def kmalloc (h : Heap A V) (a : A) (junk : V) : Heap A V :=
  ⟨Function.update h.live a true, Function.update h.val a junk⟩

def kfree (h : Heap A V) (a : A) : Except Fault (Heap A V) :=
  if h.live a then .ok { h with live := Function.update h.live a false } else .error .freed

lemma write_of_live (ha : h.live a = true) (v : V) :
    h.write a v = .ok { h with val := Function.update h.val a v } := if_pos ha

lemma kfree_of_live (ha : h.live a = true) :
    h.kfree a = .ok { h with live := Function.update h.live a false } := if_pos ha

end Heap

end EmbeddedSystem.Kernel
