import EmbeddedSystem.Coffer.Loop

namespace EmbeddedSystem.Coffer

open Kernel Foundations

structure Process where
  loop : Loop
  fds : Finset ℕ

inductive ProcessMove
  | switch (cmd : Switch.Command) (present : Bool) (ret : ℤ)
  | device (c : DeviceCall) (present : Bool)
  | other (m : LoopMove)
  deriving DecidableEq

/-- `open` on a device that can be opened or not: the lowest free descriptor below the limit. -/
def openFd (limit : ℕ) (fds : Finset ℕ) (present : Bool) : Option ℕ :=
  if present then (List.range limit).find? (· ∉ fds) else none

def switchLib (limit : ℕ) (fds : Finset ℕ) (present : Bool) (ret : ℤ) : Finset ℕ × ℤ :=
  match openFd limit fds present with
  | none => (fds, -1)
  | some fd => ((insert fd fds).erase fd, ioctlReturn ret)

def actuatorLib (limit : ℕ) (fds : Finset ℕ) (present : Bool) : Finset ℕ × Bool :=
  match openFd limit fds present with
  | none => (fds, false)
  | some fd => (insert fd fds, true)

def Process.init (key : ℤ) (fds : Finset ℕ) : Process := ⟨.init key, fds⟩

def LoopMove.isCall : LoopMove → Bool
  | .call _ _ | .device _ _ => true
  | _ => false

inductive ProcessStep (limit : ℕ) (s : Process) : ProcessMove → Process → Prop
  | switch {cmd : Switch.Command} {present : Bool} {ret : ℤ} {l : Loop} :
      LoopStep s.loop (.call cmd (switchLib limit s.fds present ret).2) l →
      ProcessStep limit s (.switch cmd present ret) ⟨l, (switchLib limit s.fds present ret).1⟩
  | device {c : DeviceCall} {present : Bool} {l : Loop} :
      LoopStep s.loop (.device c (actuatorLib limit s.fds present).2) l →
      ProcessStep limit s (.device c present) ⟨l, (actuatorLib limit s.fds present).1⟩
  | other {m : LoopMove} {l : Loop} :
      LoopStep s.loop m l → m.isCall = false → ProcessStep limit s (.other m) { s with loop := l }

def FramedStep (limit : ℕ) (s : Process) (m : ProcessMove) (t : Process) : Prop :=
  ProcessStep limit s m t ∧ t.fds = s.fds

def Full (limit : ℕ) (fds : Finset ℕ) : Prop := ∀ fd < limit, fd ∈ fds

instance (limit : ℕ) (fds : Finset ℕ) : Decidable (Full limit fds) :=
  inferInstanceAs (Decidable (∀ fd < limit, fd ∈ fds))

def Lacks (limit : ℕ) (s : Process) : ProcessMove → Prop
  | .switch _ present _ | .device _ present => present = true ∧ Full limit s.fds
  | .other _ => False

def Unleaking (limit : ℕ) (s : Process) : ProcessMove → Prop
  | .device _ present => present = false ∨ Full limit s.fds
  | _ => True

section Calls

variable {limit fd : ℕ} {fds : Finset ℕ} {present : Bool}

lemma openFd_some (h : openFd limit fds present = some fd) : fd < limit ∧ fd ∉ fds := by
  rw [openFd] at h
  split at h
  · have hmem := List.mem_of_find?_eq_some h
    have hfree := List.find?_some h
    exact ⟨List.mem_range.mp hmem, by simpa using hfree⟩
  · cases h

lemma openFd_none_iff : openFd limit fds present = none ↔ present = false ∨ Full limit fds := by
  rw [openFd]
  cases present with
  | false => simp
  | true => simp [Full]

lemma switchLib_fds (ret : ℤ) : (switchLib limit fds present ret).1 = fds := by
  rw [switchLib]
  split
  · rfl
  · next fd hfd => exact Finset.erase_insert (openFd_some hfd).2

lemma actuatorLib_fds : (actuatorLib limit fds present).1 = fds ↔
    present = false ∨ Full limit fds := by
  rw [← openFd_none_iff, actuatorLib]
  split
  · next hnone => exact iff_of_true rfl hnone
  · next fd hfd =>
    have hfree := (openFd_some hfd).2
    apply iff_of_false
    · exact fun hsame => hfree (Finset.insert_eq_self.mp hsame)
    · rw [hfd]
      exact Option.some_ne_none fd

end Calls

section Runs

variable {limit : ℕ} {present : Bool} {s t s₀ : Process} {m : ProcessMove} {ms : List ProcessMove}

lemma framed_iff (h : ProcessStep limit s m t) : t.fds = s.fds ↔ Unleaking limit s m := by
  cases h with
  | switch => exact iff_of_true (switchLib_fds _) trivial
  | device => exact actuatorLib_fds
  | other => exact iff_of_true rfl trivial

lemma framedStep_iff : FramedStep limit s m t ↔
    Guarded (ProcessStep limit) (Unleaking limit) s m t := and_congr_right framed_iff

lemma framed_run (h : Run (FramedStep limit) s₀ ms s) : s.fds = s₀.fds := by
  induction h with
  | nil => rfl
  | cons hs _ ih => exact ih.trans hs.2

lemma not_lacks (hfree : ¬ Full limit s.fds) (m : ProcessMove) : ¬ Lacks limit s m := by
  cases m with
  | switch | device => exact fun h => hfree h.2
  | other => exact id

lemma fds_step (h : ProcessStep limit s m t) : s.fds ⊆ t.fds := by
  cases h with
  | switch => exact (switchLib_fds _).ge
  | device =>
    simp only [actuatorLib]
    split
    · exact subset_rfl
    · exact Finset.subset_insert _ _
  | other => exact subset_rfl

theorem full_forever (hfull : Full limit s.fds) (h : Run (ProcessStep limit) s ms t) (ret : ℤ) :
    switchLib limit t.fds present ret = (t.fds, -1) ∧
      actuatorLib limit t.fds present = (t.fds, false) := by
  have hsub : s.fds ⊆ t.fds := by
    induction h with
    | nil => exact subset_rfl
    | cons hs _ ih => exact (fds_step hs).trans (ih fun fd hfd => fds_step hs (hfull fd hfd))
  have hnone : openFd limit t.fds present = none :=
    openFd_none_iff.mpr (Or.inr fun fd hfd => hsub (hfull fd hfd))
  rw [switchLib, actuatorLib, hnone]
  exact ⟨rfl, rfl⟩

theorem descriptors_kept (limit : ℕ) (key : ℤ) (fds : Finset ℕ) (ms : List ProcessMove)
    (s : Process) :
    (Run (FramedStep limit) (.init key fds) ms s ↔
      Run (Guarded (ProcessStep limit) (Unleaking limit)) (.init key fds) ms s) ∧
    (Run (Guarded (ProcessStep limit) (Unleaking limit)) (.init key fds) ms s →
      ¬ Full limit fds → ∀ m, ¬ Lacks limit s m) := by
  have hiff : Run (FramedStep limit) (.init key fds) ms s ↔
      Run (Guarded (ProcessStep limit) (Unleaking limit)) (.init key fds) ms s :=
    Run.congr (I := fun _ => True) (fun _ _ _ _ _ => trivial) (fun _ _ _ _ => framedStep_iff)
      trivial
  refine ⟨hiff, ?_⟩
  intro h hfree
  apply not_lacks
  rw [framed_run (hiff.mpr h)]
  exact hfree

def wrongAttempt (present : Bool) : List ProcessMove :=
  [.switch .queueClose true (-1), .switch .queueGet true 1, .other .start,
    .switch .switchRecv true 2, .switch .ultrasonicRecv true 20, .other .judge,
    .switch .switchRecv true (-1), .switch .ultrasonicRecv true (-1), .other .judge,
    .other .verdict, .device .speakerIncorrect present]

lemma wrongAttempt_run (present : Bool) :
    Run (ProcessStep 4) (.init 0 {0, 1, 2}) (wrongAttempt present)
      ⟨⟨⟨0, 0, 1, 1, -1, -1, .outer⟩, [], 0⟩, (actuatorLib 4 {0, 1, 2} present).1⟩ := by
  apply Run.cons (.switch (.call rfl rfl))
  apply Run.cons (.switch (.call rfl rfl))
  apply Run.cons (.other (.start rfl rfl) rfl)
  iterate 2
    apply Run.cons (.switch (.call rfl rfl))
    apply Run.cons (.switch (.call rfl rfl))
    apply Run.cons (.other (.judge rfl rfl rfl) rfl)
  apply Run.cons (.other (.verdict rfl rfl) rfl)
  cases present with
  | false => exact .cons (.device (.device rfl rfl)) .nil
  | true => exact .cons (.device (.device rfl rfl)) .nil

theorem descriptors_kept_silent : ∃ s : Process,
    Run (ProcessStep 4) (.init 0 {0, 1, 2}) (wrongAttempt false) s ∧
      ¬ Lacks 4 s (.switch .switchRecv true 1) := by
  have hrun := wrongAttempt_run false
  have hguarded := hrun.guard (C := Unleaking 4) fun js m ks t _ hsplit _ _ _ => by
    have hmem : m ∈ wrongAttempt false := by
      rw [hsplit]
      simp
    simp only [wrongAttempt, List.mem_cons, List.not_mem_nil, or_false] at hmem
    rcases hmem with rfl | rfl | rfl | rfl | rfl | rfl | rfl | rfl | rfl | rfl | rfl
    all_goals first | exact trivial | exact Or.inl rfl
  exact ⟨_, hrun, (descriptors_kept 4 0 {0, 1, 2} _ _).2 hguarded (by decide) _⟩

theorem descriptor_leaked : ¬ ∀ (ms : List ProcessMove) (s : Process),
    Run (ProcessStep 4) (.init 0 {0, 1, 2}) ms s →
      Run (FramedStep 4) (.init 0 {0, 1, 2}) ms s ∧ ¬ Lacks 4 s (.switch .switchRecv true 1) := by
  intro h
  obtain ⟨hframed, _⟩ := h _ _ (wrongAttempt_run true)
  have hsame := framed_run hframed
  exact absurd hsame (by decide)

end Runs

end EmbeddedSystem.Coffer
