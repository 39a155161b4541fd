import Mathlib.Tactic

/-! Memory as the drivers use it: array accesses, C strings, and copies between a kernel buffer
and a user buffer. What C leaves undefined, or what would stop the kernel, is a fault: an index
out of bounds, a null pointer, a string read past its array (`overread`), a user copy past the
kernel buffer (`overcopy`), a list head taken for an entry of its own list, and an access to memory
that is not allocated. -/

namespace EmbeddedSystem.Kernel

inductive Fault
  | index | null | overread | overcopy | listHead | freed
  deriving DecidableEq, Repr

/-- What the environment decides during one call. -/
structure Outcome where
  vmalloc : Bool
  kmalloc : Bool
  uncopied : ℕ
  deriving DecidableEq

def Outcome.success : Outcome := ⟨true, true, 0⟩

lemma bind_ok {α β : Type} {x : Except Fault α} {f : α → Except Fault β} {b : β} :
    x >>= f = .ok b ↔ ∃ a, x = .ok a ∧ f a = .ok b := by
  cases x with
  | error e => simp [bind, Except.bind]
  | ok a => simp [bind, Except.bind]

lemma bind_error {α β : Type} {x : Except Fault α} {f : α → Except Fault β} {e : Fault} :
    x >>= f = .error e ↔ x = .error e ∨ ∃ a, x = .ok a ∧ f a = .error e := by
  cases x with
  | error e' => simp [bind, Except.bind]
  | ok a => simp [bind, Except.bind]

@[simp] lemma ok_bind {α β : Type} (a : α) (f : α → Except Fault β) : (.ok a >>= f) = f a := rfl

def arrayIndex (n : ℕ) (i : ℤ) : Except Fault (Fin n) :=
  if h : 0 ≤ i ∧ i < n then .ok ⟨i.toNat, by omega⟩ else .error .index

lemma arrayIndex_val {n : ℕ} {i : ℤ} {k : Fin n} (h : arrayIndex n i = .ok k) :
    i = (k.val : ℤ) := by
  unfold arrayIndex at h
  split at h
  · cases h
    simp only
    omega
  · cases h

@[simp] lemma arrayIndex_fin {n : ℕ} (k : Fin n) : arrayIndex n k.val = .ok k := by
  simp [arrayIndex]

lemma exists_arrayIndex {n : ℕ} {i : ℤ} (h : 0 ≤ i ∧ i < n) : ∃ k, arrayIndex n i = .ok k := by
  simp [arrayIndex, h]

lemma arrayIndex_error_iff {n : ℕ} {i : ℤ} {e : Fault} :
    arrayIndex n i = .error e ↔ ¬ (0 ≤ i ∧ i < n) ∧ e = .index := by
  unfold arrayIndex
  split
  · next h => simp [h]
  · next h => simp [h, eq_comm]

lemma arrayIndex_ok_iff {n : ℕ} {i : ℤ} : (∃ k, arrayIndex n i = .ok k) ↔ 0 ≤ i ∧ i < n := by
  refine ⟨?_, exists_arrayIndex⟩
  rintro ⟨k, hk⟩
  have hval := arrayIndex_val hk
  have hlt := k.isLt
  omega

def sizeT (n : ℤ) : ℕ := (n % 2 ^ 64).toNat

lemma sizeT_of_nonneg {n : ℤ} (h : 0 ≤ n) (h' : n < 2 ^ 64) : (sizeT n : ℤ) = n := by
  unfold sizeT
  rw [Int.emod_eq_of_lt h h']
  omega

-- `_IOWR(type, nr, unsigned long)`.
def iowr (type nr : ℕ) : BitVec 32 :=
  BitVec.ofNat 32 (3 <<< 30 ||| 8 <<< 16 ||| type <<< 8 ||| nr)

/-- The C library's `ioctl`: it takes a result from -4095 to -1 for an error number and returns -1;
any other `int` comes back unchanged. -/
def ioctlReturn (ret : ℤ) : ℤ := if -4095 ≤ ret ∧ ret < 0 then -1 else ret

lemma ioctlReturn_of_nonneg {ret : ℤ} (h : 0 ≤ ret) : ioctlReturn ret = ret :=
  if_neg (by omega)

lemma ioctlReturn_neg_iff (ret : ℤ) : ioctlReturn ret < 0 ↔ ret < 0 := by
  rw [ioctlReturn]
  split <;> omega

variable {n : ℕ}

def copyBytes (dst src : Fin n → UInt8) (m : ℕ) : Fin n → UInt8 :=
  fun i => if i.val < m then src i else dst i

/-- `copy_from_user` and `copy_to_user`; the number is that of the bytes left uncopied. -/
def userCopy (o : Outcome) (dst src : Fin n → UInt8) (size : ℤ) :
    Except Fault ((Fin n → UInt8) × ℤ) :=
  if sizeT size ≤ n then
    let left := min o.uncopied (sizeT size)
    .ok (copyBytes dst src (sizeT size - left), left)
  else .error .overcopy

lemma userCopy_error_iff {o : Outcome} {dst src : Fin n → UInt8} {size : ℤ} {e : Fault} :
    userCopy o dst src size = .error e ↔ n < sizeT size ∧ e = .overcopy := by
  unfold userCopy
  split
  · next h => simp [Nat.not_lt.mpr h]
  · next h => simp [Nat.not_le.mp h, eq_comm]

lemma userCopy_left {o : Outcome} {dst src bytes : Fin n → UInt8} {size left : ℤ}
    (h : userCopy o dst src size = .ok (bytes, left)) :
    left = (min o.uncopied (sizeT size) : ℕ) := by
  unfold userCopy at h
  split at h
  · exact (Prod.mk.inj (Except.ok.inj h)).2.symm
  · cases h

lemma userCopy_nonneg {o : Outcome} {dst src bytes : Fin n → UInt8} {size left : ℤ}
    (h : userCopy o dst src size = .ok (bytes, left)) : 0 ≤ left := by
  rw [userCopy_left h]
  exact Int.natCast_nonneg _

lemma userCopy_total (o : Outcome) {size : ℤ} (hs : 0 ≤ size ∧ size ≤ n) (hn : n < 2 ^ 64)
    (dst src : Fin n → UInt8) : ∃ r, userCopy o dst src size = .ok r := by
  have hle : sizeT size ≤ n := by
    have := sizeT_of_nonneg hs.1 (by omega)
    omega
  rw [userCopy, if_pos hle]
  exact ⟨_, rfl⟩

lemma userCopy_complete {o : Outcome} (ho : o.uncopied = 0) {size : ℤ}
    (hs : 0 ≤ size ∧ size ≤ n) (hn : n < 2 ^ 64) (dst src : Fin n → UInt8) :
    userCopy o dst src size = .ok (copyBytes dst src size.toNat, 0) := by
  have hsize : sizeT size = size.toNat := by
    have := sizeT_of_nonneg hs.1 (by omega)
    omega
  have hle : size.toNat ≤ n := by omega
  simp [userCopy, hsize, hle, ho]

lemma userCopy_success {size : ℤ} (hs : 0 ≤ size ∧ size ≤ n) (hn : n < 2 ^ 64)
    (dst src : Fin n → UInt8) :
    userCopy .success dst src size = .ok (copyBytes dst src size.toNat, 0) :=
  userCopy_complete rfl hs hn dst src

def textLength (s : Fin n → UInt8) : ℕ := (List.ofFn s).findIdx (· == 0)

def strlen (s : Fin n → UInt8) : Except Fault ℕ :=
  if textLength s < n then .ok (textLength s) else .error .overread

def Terminated (s : Fin n → UInt8) : Prop := ∃ i, s i = 0

instance (s : Fin n → UInt8) : Decidable (Terminated s) :=
  inferInstanceAs (Decidable (∃ i, s i = 0))

lemma textLength_eq_iff {s : Fin n → UInt8} {m : ℕ} (hm : m < n) :
    textLength s = m ↔ s ⟨m, hm⟩ = 0 ∧ ∀ j (hj : j < m), s ⟨j, hj.trans hm⟩ ≠ 0 := by
  have h := @List.findIdx_eq _ (· == 0) (List.ofFn s) m (by simpa using hm)
  rw [textLength, h]
  simp

lemma terminated_iff (s : Fin n → UInt8) : Terminated s ↔ textLength s < n := by
  have h := @List.findIdx_lt_length _ (· == 0) (List.ofFn s)
  rw [List.length_ofFn] at h
  rw [textLength, h]
  simp [Terminated]

lemma strlen_of_terminated {s : Fin n → UInt8} (h : Terminated s) :
    strlen s = .ok (textLength s) :=
  if_pos ((terminated_iff s).mp h)

lemma strlen_error_iff {s : Fin n → UInt8} {e : Fault} :
    strlen s = .error e ↔ ¬ Terminated s ∧ e = .overread := by
  rw [terminated_iff, strlen]
  split
  · next h => simp [h]
  · next h => simp [h, eq_comm]

lemma strlen_inv {s : Fin n → UInt8} {m : ℕ} (h : strlen s = .ok m) : m = textLength s := by
  unfold strlen at h
  split at h
  · exact (Except.ok.inj h).symm
  · cases h

end EmbeddedSystem.Kernel
