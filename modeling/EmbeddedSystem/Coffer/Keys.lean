import EmbeddedSystem.Coffer.System
import EmbeddedSystem.Switch.Broadcast

namespace EmbeddedSystem.Coffer

open Kernel Foundations Switch

variable {w : ℕ}

section Driver

variable {s : Driver w} {cmd : Command} {key : ℤ} {e : Fault}

lemma indexed_error {α : Type} {f : Fin queueNum → Except Fault α} (hf : ∀ k, f k ≠ .error e) :
    arrayIndex queueNum key >>= f = .error e ↔ ¬ (0 ≤ key ∧ key < queueNum) ∧ e = .index := by
  rw [bind_error, ← arrayIndex_error_iff]
  refine ⟨?_, Or.inl⟩
  rintro (h | ⟨k, -, h⟩)
  · exact h
  · exact absurd h (hf k)

lemma switchIoctl_error_iff (hcmd : cmd ≠ .unknown) :
    switchIoctl s cmd key = .error e ↔ ¬ (0 ≤ key ∧ key < queueNum) ∧ e = .index := by
  cases cmd with
  | queueGet | queueClose | switchRecv | ultrasonicRecv =>
    refine indexed_error fun k h => ?_
    split at h <;> cases h
  | unknown => exact absurd rfl hcmd

def Indexed (s : Driver w) (cmd : Command) (key : ℤ) : Prop :=
  switchIoctl s cmd key ≠ .error .index ∧
    (¬ (0 ≤ key ∧ key < queueNum) → ∃ y, switchIoctl s cmd key = .ok (s, y) ∧ y.ret = -1)

lemma indexed_iff (hcmd : cmd ≠ .unknown) : Indexed s cmd key ↔ 0 ≤ key ∧ key < queueNum := by
  constructor
  · rintro ⟨hindex, -⟩
    by_contra hkey
    exact hindex ((switchIoctl_error_iff hcmd).mpr ⟨hkey, rfl⟩)
  · intro hkey
    refine ⟨fun hfault => ?_, fun hout => absurd hkey hout⟩
    exact ((switchIoctl_error_iff hcmd).mp hfault).1 hkey

end Driver

section App

variable {s t : System w} {m : Move w} {ms : List (Move w)} {key : ℤ}

lemma call_known {pc next : Pc} {cmd : Command} (h : pc.call = some (cmd, next)) :
    cmd ≠ .unknown := by
  rintro rfl
  cases pc <;> simp [Pc.call] at h

lemma step_key (h : Step s m t) : t.app.key = s.app.key := by
  cases h with
  | @call cmd pc _ _ y => cases cmd <;> rfl
  | start =>
    simp only [App.start]
    split <;> rfl
  | judge _ ha =>
    rw [App.judge] at ha
    split at ha
    · cases ha
      rfl
    · obtain ⟨i, -, ha⟩ := bind_ok.mp ha
      cases ha
      rfl
  | verdict =>
    simp only [App.verdict]
    split_ifs <;> rfl
  | openTest =>
    simp only [App.openTest]
    split <;> rfl
  | button | echo | switchTasklet | ultrasonicTasklet => rfl

lemma run_key (h : Run Step (.init key) ms s) : s.app.key = key :=
  h.invariant (I := fun s => s.app.key = key) (fun _ _ _ hs he => (step_key he).trans hs) rfl

theorem queues_indexed_iff (key : ℤ) :
    (∀ (s : Driver w) cmd, cmd ≠ .unknown →
      (Indexed s cmd key ↔ 0 ≤ key ∧ key < Switch.queueNum)) ∧
    ∀ ms (s : System w), Run Step (.init key) ms s → ∀ cmd pc, s.app.pc.call = some (cmd, pc) →
      (Indexed s.driver cmd s.app.key ↔ 0 ≤ key ∧ key < Switch.queueNum) := by
  constructor
  · intro s cmd hcmd
    exact indexed_iff hcmd
  · intro ms s hrun cmd pc hcall
    rw [run_key hrun]
    exact indexed_iff (call_known hcall)

theorem queues_indexed_nine : Indexed (.init : Driver 64) .queueGet 9 ∧
    Indexed (System.init 9 : System 64).driver .queueClose 9 :=
  ⟨((queues_indexed_iff 9).1 .init .queueGet (by decide)).mpr (by decide),
    ((queues_indexed_iff 9).2 [] _ .nil .queueClose .getting rfl).mpr (by decide)⟩

theorem queues_unindexed_ten :
    switchIoctl (.init : Driver 64) .queueGet 10 = .error .index ∧
    switchIoctl (.init : Driver 64) .switchRecv (-1) = .error .index ∧
    ¬ ∀ (s : Driver 64) cmd key, cmd ≠ .unknown → Indexed s cmd key := by
  refine ⟨rfl, rfl, fun h => ?_⟩
  exact (h .init .queueGet 10 (by decide)).1 rfl

end App

end EmbeddedSystem.Coffer
