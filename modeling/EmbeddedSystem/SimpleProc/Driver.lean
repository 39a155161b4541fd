import EmbeddedSystem.Foundations.Runs
import EmbeddedSystem.Kernel.Scan

/-! The entry `proc_info` of `simple_proc.c`. A write copies the bytes of the user into a buffer on
the stack, which is not initialised, and scans it with the format `%d %s\n`. -/

namespace EmbeddedSystem.SimpleProc

open Kernel Kernel.Scan Foundations

abbrev bufSize : ℕ := 128

abbrev sizeofName : ℕ := 100

structure Info where
  id : BitVec 32
  name : Fin 100 → UInt8

structure Reply where
  ret : ℤ
  stored : ℕ

def Info.init : Info :=
  ⟨201711395, fun i => "Embedded_System_Software".toUTF8.data.getD i 0⟩

def procInfoShow (s : Info) : Except Fault (ℤ × List UInt8) := do
  let n ← strlen s.name
  return (s.id.toInt, (List.ofFn s.name).take n)

-- `sscanf(buf, "%d %s\n", &id, name)`.
def scanIdName (buf : List UInt8) (s : Info) : Except Fault (Info × ℕ) := do
  match ← scanInt buf with
  | none => return (s, 0)
  | some (id, str) =>
    let str ← skipSpaces str
    match ← scanString s.name str with
    | none => return (⟨id, s.name⟩, 0)
    | some (name, stored, str) =>
      let _ ← skipSpaces str
      return (⟨id, name⟩, stored)

/-- `prior` is what the stack holds, and `ubuf` the memory of the user from the address on. -/
def procInfoWrite (o : Outcome) (s : Info) (prior ubuf : Fin 128 → UInt8) (ubufLen : ℕ) :
    Except Fault (Info × Reply) := do
  if ubufLen > bufSize then
    return (s, ⟨-1, 0⟩)
  else
    let (buf, left) ← userCopy o prior ubuf ubufLen
    if left ≠ 0 then
      return (s, ⟨-1, 0⟩)
    else
      let (info, stored) ← scanIdName (List.ofFn buf) ⟨s.id, fun _ => 0⟩
      let len ← strlen buf
      return (info, ⟨len, stored⟩)

structure WriteCall where
  outcome : Outcome
  prior : Fin 128 → UInt8
  ubuf : Fin 128 → UInt8
  ubufLen : ℕ

def WriteStep (s : Info) (w : WriteCall) (t : Info) : Prop :=
  ∃ y, procInfoWrite w.outcome s w.prior w.ubuf w.ubufLen = .ok (t, y)

section Show

variable {o : Outcome} {s t : Info} {prior ubuf : Fin 128 → UInt8} {n : ℕ} {y : Reply}

lemma scanIdName_terminated {buf : List UInt8} {stored : ℕ} (hs : Terminated s.name)
    (h : scanIdName buf s = .ok (t, stored)) : Terminated t.name := by
  obtain ⟨r, -, h⟩ := bind_ok.mp h
  cases r with
  | none =>
    cases h
    exact hs
  | some r =>
    obtain ⟨id, str⟩ := r
    obtain ⟨str, -, h⟩ := bind_ok.mp h
    obtain ⟨r, hr, h⟩ := bind_ok.mp h
    cases r with
    | none =>
      cases h
      exact hs
    | some r =>
      obtain ⟨name, stored, str'⟩ := r
      obtain ⟨-, -, h⟩ := bind_ok.mp h
      cases h
      exact scanString_terminated hr

lemma write_terminated (hs : Terminated s.name)
    (h : procInfoWrite o s prior ubuf n = .ok (t, y)) : Terminated t.name := by
  rw [procInfoWrite] at h
  split at h
  · cases h
    exact hs
  · obtain ⟨⟨buf, left⟩, -, h⟩ := bind_ok.mp h
    simp only at h
    split at h
    · cases h
      exact hs
    · obtain ⟨⟨info, stored⟩, hinfo, h⟩ := bind_ok.mp h
      obtain ⟨len, -, h⟩ := bind_ok.mp h
      cases h
      exact scanIdName_terminated ⟨⟨0, by decide⟩, rfl⟩ hinfo

theorem show_total {ws : List WriteCall} (h : Run WriteStep .init ws s) :
    ∃ shown, procInfoShow s = .ok shown := by
  have hinit : Terminated Info.init.name := ⟨⟨99, by decide⟩, rfl⟩
  have hs : Terminated s.name := by
    apply h.invariant (I := fun s => Terminated s.name) _ hinit
    rintro s w t hs ⟨y, hw⟩
    exact write_terminated hs hw
  rw [procInfoShow, strlen_of_terminated hs]
  exact ⟨_, rfl⟩

end Show

end EmbeddedSystem.SimpleProc
