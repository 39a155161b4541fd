import EmbeddedSystem.Kernel.Memory

/-! The calculator driver `ch2_mod_201711395.c`, and the `ioctl` calls of the application
`ch2_app_201711395.c`. A `long` has 64 bits, an `int` and a command have 32. -/

namespace EmbeddedSystem.Challenge2

open Kernel (iowr)

def ioctlStartNum : ℕ := 0x80

def magicNum : ℕ := 0x7a

def getIoctl : BitVec 32 := iowr magicNum (ioctlStartNum + 1)

def setIoctl : BitVec 32 := iowr magicNum (ioctlStartNum + 2)

def addIoctl : BitVec 32 := iowr magicNum (ioctlStartNum + 3)

def mulIoctl : BitVec 32 := iowr magicNum (ioctlStartNum + 4)

def ch2Ioctl (result : BitVec 64) (cmd : BitVec 32) (arg : BitVec 64) : BitVec 64 × BitVec 64 :=
  if cmd = getIoctl then (result, result)
  else if cmd = setIoctl then (arg, arg)
  else if cmd = addIoctl then (result + arg, result + arg)
  else if cmd = mulIoctl then (result * arg, result * arg)
  else (result, -1)

/-- What the C library makes of the result of a driver. -/
def ioctlReturn (ret : BitVec 64) : BitVec 32 :=
  if -4095 ≤ ret.toInt ∧ ret.toInt ≤ -1 then -1 else ret.setWidth 32

def appResult (result : BitVec 64) : BitVec 64 :=
  (ioctlReturn (ch2Ioctl result getIoctl 0).2).signExtend 64

inductive Operation
  | set | add | mul
  deriving DecidableEq

def Operation.cmd : Operation → BitVec 32
  | .set => setIoctl
  | .add => addIoctl
  | .mul => mulIoctl

def request (result : BitVec 64) (r : Operation × BitVec 64) : BitVec 64 :=
  (ch2Ioctl result r.1.cmd r.2).1

def Operation.apply : Operation → ℤ → ℤ → ℤ
  | .set, _, x => x
  | .add, a, x => a + x
  | .mul, a, x => a * x

def accumulate (a : ℤ) (rs : List (Operation × BitVec 64)) : ℤ :=
  rs.foldl (fun a r => (r.1.apply a r.2.toNat).bmod (2 ^ 64)) a

lemma bmod_apply (o : Operation) (a : ℤ) (x : BitVec 64) :
    (o.apply a x.toInt).bmod (2 ^ 64) = (o.apply a x.toNat).bmod (2 ^ 64) := by
  rw [BitVec.toInt_eq_toNat_bmod]
  cases o with
  | set => rw [Operation.apply, Operation.apply, Int.bmod_bmod]
  | add => rw [Operation.apply, Operation.apply, Int.add_bmod_bmod]
  | mul => rw [Operation.apply, Operation.apply, Int.mul_bmod_bmod]

lemma request_toInt (result : BitVec 64) (r : Operation × BitVec 64) :
    (request result r).toInt = (r.1.apply result.toInt r.2.toNat).bmod (2 ^ 64) := by
  obtain ⟨o, x⟩ := r
  change (request result (o, x)).toInt = (o.apply result.toInt x.toNat).bmod (2 ^ 64)
  rw [← bmod_apply]
  cases o with
  | set =>
    have hset : request result (.set, x) = x := rfl
    have hle := x.le_two_mul_toInt
    have hlt := x.two_mul_toInt_lt
    rw [hset, Operation.apply, Int.bmod_eq_of_le_mul_two (by omega) (by omega)]
  | add => exact BitVec.toInt_add result x
  | mul => exact BitVec.toInt_mul result x

theorem result_accumulates (result : BitVec 64) (rs : List (Operation × BitVec 64)) :
    (rs.foldl request result).toInt = accumulate result.toInt rs := by
  induction rs generalizing result with
  | nil => rfl
  | cons r rs ih =>
    rw [List.foldl_cons, ih, request_toInt]
    rfl

lemma setWidth_exact_iff (x : BitVec 64) :
    ((x.setWidth 32).signExtend 64).toInt = x.toInt ↔ -2 ^ 31 ≤ x.toInt ∧ x.toInt < 2 ^ 31 := by
  rw [BitVec.toInt_signExtend_of_le (by decide), BitVec.toInt_setWidth]
  have hmod : ((x.toNat : ℤ)).bmod (2 ^ 32) = x.toInt.bmod (2 ^ 32) := by
    rw [BitVec.toInt_eq_toNat_bmod]
    exact (Int.bmod_bmod_of_dvd (by decide)).symm
  rw [hmod]
  constructor
  · intro h
    have hle := @Int.le_bmod x.toInt (2 ^ 32) (by decide)
    have hlt := @Int.bmod_lt x.toInt (2 ^ 32) (by decide)
    omega
  · rintro ⟨hle, hlt⟩
    exact Int.bmod_eq_of_le_mul_two (by omega) (by omega)

lemma appResult_exact_iff (result : BitVec 64) :
    (appResult result).toInt = result.toInt ↔
      (-2 ^ 31 ≤ result.toInt ∧ result.toInt < 2 ^ 31) ∧
        ¬ (-4095 ≤ result.toInt ∧ result.toInt ≤ -2) := by
  have hget : (ch2Ioctl result getIoctl 0).2 = result := rfl
  rw [appResult, hget, ioctlReturn]
  split
  · next herr =>
    have hone : ((-1 : BitVec 32).signExtend 64).toInt = -1 := by decide
    rw [hone]
    omega
  · next herr =>
    rw [setWidth_exact_iff]
    omega

theorem appResult_iff (result : BitVec 64) (rs : List (Operation × BitVec 64)) :
    (appResult (rs.foldl request result)).toInt = accumulate result.toInt rs ↔
      (-2 ^ 31 ≤ accumulate result.toInt rs ∧ accumulate result.toInt rs < 2 ^ 31) ∧
        ¬ (-4095 ≤ accumulate result.toInt rs ∧ accumulate result.toInt rs ≤ -2) := by
  rw [← result_accumulates]
  exact appResult_exact_iff _

theorem appResult_truncated : ¬ ∀ (result : BitVec 64) (rs : List (Operation × BitVec 64)),
    (appResult (rs.foldl request result)).toInt = accumulate result.toInt rs := by
  intro h
  have h₁ := h 0 [(.set, 2 ^ 31)]
  revert h₁
  decide

end EmbeddedSystem.Challenge2
