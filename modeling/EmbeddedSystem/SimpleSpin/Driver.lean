import EmbeddedSystem.Foundations.Sections

/-! The driver `simple_spin.c`, a mailbox for one message. A call copies or clears one byte a step
while it holds `my_lock`. A copy may stop at any byte; `copy_from_user` then clears the rest of
`kern_buf`, and `copy_to_user` leaves the rest of the caller's buffer as it was. -/

namespace EmbeddedSystem.SimpleSpin

open Foundations Foundations.Sections

abbrev StrSt := Fin 132 → UInt8

structure Vars where
  userBuf : StrSt
  ret : ℕ

/-- The commands, with the number of bytes that their copy reaches. -/
inductive Cmd
  | simpleSpinRead (reach : ℕ)
  | simpleSpinWrite (reach : ℕ)
  deriving DecidableEq

def copyBytes (is : List (Fin 132)) : List (StrSt × Vars → StrSt × Vars) :=
  is.map fun i x => (x.1, { x.2 with userBuf := Function.update x.2.userBuf i (x.1 i) })

def storeBytes (byte : Vars → StrSt) (is : List (Fin 132)) :
    List (StrSt × Vars → StrSt × Vars) :=
  is.map fun i x => (Function.update x.1 i (byte x.2 i), x.2)

def setRet (reach : ℕ) (x : StrSt × Vars) : StrSt × Vars := (x.1, { x.2 with ret := 132 - reach })

def reached (reach : ℕ) : List (Fin 132) := (List.finRange 132).filter fun i => i < reach

def notReached (reach : ℕ) : List (Fin 132) := (List.finRange 132).filter fun i => reach ≤ i

def simpleSpinRead (reach : ℕ) : List (StrSt × Vars → StrSt × Vars) :=
  copyBytes (reached reach) ++ setRet reach :: storeBytes (fun _ _ => 0) (List.finRange 132)

def simpleSpinWrite (reach : ℕ) : List (StrSt × Vars → StrSt × Vars) :=
  storeBytes Vars.userBuf (reached reach) ++ storeBytes (fun _ _ => 0) (notReached reach) ++
    [setRet reach]

def simpleSpinIoctl : Cmd → List (StrSt × Vars → StrSt × Vars)
  | .simpleSpinRead reach => simpleSpinRead reach
  | .simpleSpinWrite reach => simpleSpinWrite reach

variable {P : Type} [DecidableEq P] {s t : State P Cmd StrSt Vars} {p : P} {v v' : StrSt}
  {w w' : Vars} {reach : ℕ} {ls : List (P × Move Cmd Vars)}

section Calls

lemma copyBytes_eq (is : List (Fin 132)) (v : StrSt) (w : Vars) :
    runAll (copyBytes is) (v, w) =
      (v, { w with userBuf := fun i => if i ∈ is then v i else w.userBuf i }) := by
  induction is generalizing w with
  | nil => simp [runAll, copyBytes]
  | cons i is ih =>
    rw [copyBytes, List.map_cons, runAll_cons, ← copyBytes, ih]
    simp only [Prod.mk.injEq, Vars.mk.injEq, true_and, and_true]
    funext j
    by_cases hj : j = i
    · simp [hj]
    · simp [hj]

lemma storeBytes_eq (byte : Vars → StrSt) (is : List (Fin 132)) (v : StrSt) (w : Vars) :
    runAll (storeBytes byte is) (v, w) = (fun i => if i ∈ is then byte w i else v i, w) := by
  induction is generalizing v with
  | nil => simp [runAll, storeBytes]
  | cons i is ih =>
    rw [storeBytes, List.map_cons, runAll_cons, ← storeBytes, ih]
    simp only [Prod.mk.injEq, and_true]
    funext j
    by_cases hj : j = i
    · simp [hj]
    · simp [hj]

lemma mem_reached (i : Fin 132) : i ∈ reached reach ↔ (i : ℕ) < reach := by
  simp [reached]

lemma mem_notReached (i : Fin 132) : i ∈ notReached reach ↔ reach ≤ (i : ℕ) := by
  simp [notReached]

lemma simpleSpinRead_eq (reach : ℕ) (v : StrSt) (w : Vars) :
    runAll (simpleSpinRead reach) (v, w) =
      (fun _ => 0,
        ⟨fun i => if (i : ℕ) < reach then v i else w.userBuf i, 132 - reach⟩) := by
  rw [simpleSpinRead, runAll_append, copyBytes_eq, runAll_cons, setRet, storeBytes_eq]
  simp only [List.mem_finRange, if_true, mem_reached]

lemma simpleSpinWrite_eq (reach : ℕ) (v : StrSt) (w : Vars) :
    runAll (simpleSpinWrite reach) (v, w) =
      (fun i : Fin 132 => if (i : ℕ) < reach then w.userBuf i else 0,
        { w with ret := 132 - reach }) := by
  rw [simpleSpinWrite, runAll_append, runAll_append, storeBytes_eq, storeBytes_eq, runAll_cons,
    setRet]
  simp only [runAll, List.foldl_nil, Prod.mk.injEq, and_true, mem_reached, mem_notReached]
  funext i
  by_cases hi : (i : ℕ) < reach
  · simp [hi, not_le.mpr hi]
  · simp [hi, not_lt.mp hi]

end Calls

section Results

def kernBuf (done : List (P × Cmd × Vars × Vars)) : StrSt :=
  match done.getLast? with
  | some (_, .simpleSpinWrite reach, w, _) => fun i => if (i : ℕ) < reach then w.userBuf i else 0
  | _ => fun _ => 0

omit [DecidableEq P] in
lemma atomic_kernBuf {done : List (P × Cmd × Vars × Vars)}
    (h : Run (Atomic simpleSpinIoctl) (kernBuf ([] : List (P × Cmd × Vars × Vars))) done v) :
    v = kernBuf done := by
  apply h.induct_right (M := fun done v => v = kernBuf done) rfl
  rintro done v ⟨p, cmd, w, w'⟩ v' - - hs
  cases hs with
  | call hcall =>
    rw [kernBuf, List.getLast?_concat]
    cases cmd with
    | simpleSpinRead reach =>
      rw [simpleSpinIoctl, simpleSpinRead_eq] at hcall
      exact (congrArg Prod.fst hcall).symm
    | simpleSpinWrite reach =>
      rw [simpleSpinIoctl, simpleSpinWrite_eq] at hcall
      exact (congrArg Prod.fst hcall).symm

theorem reads_deliver (h : Run (Step simpleSpinIoctl) (.init fun _ => 0) ls s) :
    (s.lock = none → s.shared = kernBuf (ls.filterMap completed)) ∧
      ∀ p reach w w' t, Step simpleSpinIoctl s (p, .unlock (.simpleSpinRead reach) w w') t →
        (∀ i : Fin 132, w'.userBuf i = if (i : ℕ) < reach then
          kernBuf (ls.filterMap completed) i else w.userBuf i) ∧ w'.ret = 132 - reach := by
  obtain ⟨v, hrun, hpending⟩ := atomic_run h
  have hv := atomic_kernBuf hrun
  constructor
  · intro hlock
    rw [hpending.free hlock, hv]
  · intro p reach w w' t hs
    obtain ⟨-, hresult⟩ := unlock_result hpending hs
    rw [simpleSpinIoctl, simpleSpinRead_eq, hv] at hresult
    obtain ⟨-, rfl⟩ := Prod.mk.inj hresult
    exact ⟨fun _ => rfl, rfl⟩

theorem reads_deliver_written : ∃ (s t : State (Fin 2) Cmd StrSt Vars) (w w' : Vars),
    Step simpleSpinIoctl s (1, .unlock (.simpleSpinRead 132) w w') t ∧
      ∀ i, w.userBuf i = 1 ∧ w'.userBuf i = 7 := by
  have hinit : (State.init fun _ => 0 : State (Fin 2) Cmd StrSt Vars).phase 0 = .outside := rfl
  obtain ⟨ls, s, hwrite, hnone, hwriter, hother⟩ :=
    call_run simpleSpinIoctl hinit rfl (.simpleSpinWrite 132) ⟨fun _ => 7, 0⟩
  have hreader : ({ s with lock := none }.set 0 .outside).phase 1 = .outside :=
    (phase_set_of_ne _ _ (by decide)).trans (hother 1 (by decide))
  obtain ⟨ms, t, hread, hnone', hdone, -⟩ :=
    call_run simpleSpinIoctl hreader rfl (.simpleSpinRead 132) ⟨fun _ => 1, 0⟩
  have hrun := hwrite.append (.cons (.unlock hwriter) hread)
  refine ⟨t, _, _, _, .unlock hdone, fun i => ⟨rfl, ?_⟩⟩
  obtain ⟨hbuf, -⟩ := (reads_deliver hrun).2 _ _ _ _ _ (.unlock hdone)
  rw [hbuf i, if_pos i.isLt, List.filterMap_append, hnone, List.filterMap_cons, hnone']
  simp [completed, kernBuf, i.isLt]

end Results

end EmbeddedSystem.SimpleSpin
