import EmbeddedSystem.SimpleBlock1.WaitQueue

namespace EmbeddedSystem.SimpleBlock1

open Foundations

variable {P : Type} [DecidableEq P] {hz : ℕ} {s t : WaitSystem P} {p q : P} {m : WaitMove}
  {l : P × WaitMove} {ls : List (P × WaitMove)}

section Tests

variable {w : Wait} {myData : BitVec 64} {ret ret' : ℕ}

lemma test_returns (hstart : ret ≤ w.start hz)
    (h : w.test (decide (0 < myData.toInt)) ret = (true, ret')) :
    WaitReturns myData w (ending (decide (0 < myData.toInt))) ret' ∧ ret' ≤ max 1 (2 * hz) := by
  by_cases hd : 0 < myData.toInt
  · simp only [hd, decide_true, ending, if_true] at h ⊢
    cases w with
    | wq | wqInterruptible =>
      obtain rfl := Nat.le_zero.mp hstart
      cases h
      exact ⟨by constructor; exact hd, Nat.zero_le _⟩
    | wqInterruptibleTimeout =>
      simp only [Wait.start] at hstart
      simp only [Wait.test, waitCondTimeout, Bool.true_and, beq_iff_eq] at h
      by_cases hret : ret = 0
      · rw [if_pos hret] at h
        cases h
        exact ⟨.timeout hd Int.one_pos, le_max_left _ _⟩
      · rw [if_neg hret] at h
        cases h
        exact ⟨.timeout hd (by omega), le_max_of_le_right hstart⟩
  · simp only [hd, decide_false, ending, Bool.false_eq_true, if_false] at h ⊢
    cases w with
    | wq | wqInterruptible => cases h
    | wqInterruptibleTimeout =>
      simp only [Wait.test, waitCondTimeout, Bool.false_and, Bool.false_eq_true, if_false,
        Bool.false_or, Prod.mk.injEq, beq_iff_eq] at h
      obtain ⟨rfl, rfl⟩ := h
      exact ⟨.timedOut hd, Nat.zero_le _⟩

lemma test_false (h : w.test (decide (0 < myData.toInt)) ret = (false, ret')) :
    ¬ 0 < myData.toInt := by
  intro hd
  simp only [hd, decide_true] at h
  cases w with
  | wq | wqInterruptible => cases h
  | wqInterruptibleTimeout =>
    simp only [Wait.test, waitCondTimeout, Bool.true_and, Bool.true_or] at h
    split_ifs at h <;> cases h

lemma interrupted_returns (h : w.interruptible = true) :
    WaitReturns myData w .signalled (-erestartsys) := by
  have hneg : -erestartsys < 0 := by decide
  cases w with
  | wq => cases h
  | wqInterruptible => exact .interrupted hneg
  | wqInterruptibleTimeout => exact .timeoutInterrupted hneg

end Tests

section Queue

def CallPhase.Bounded (hz : ℕ) : CallPhase → Prop
  | .outside _ => True
  | .preparing w ret | .asleep w ret _ => ret ≤ w.start hz
  | .testing w ret signal _ => ret ≤ w.start hz ∧ (signal = true → w.interruptible = true)

def CallPhase.inside : CallPhase → Bool
  | .outside _ | .testing _ _ true _ => false
  | .preparing _ _ | .testing _ _ false _ | .asleep _ _ _ => true

structure Queued (hz : ℕ) (s : WaitSystem P) : Prop where
  bounded : ∀ p, (s.call p).Bounded hz
  dozing : ∀ p, (s.call p).dozes = true → p ∈ s.myWq
  inside : ∀ p ∈ s.myWq, (s.call p).inside = true
  nodup : s.myWq.Nodup

@[simp] lemma call_set_self (s : WaitSystem P) (p : P) (ph : CallPhase) :
    (s.set p ph).call p = ph := by
  simp [WaitSystem.set]

lemma call_set_of_ne (s : WaitSystem P) (ph : CallPhase) (h : q ≠ p) :
    (s.set p ph).call q = s.call q := by
  simp [WaitSystem.set, h]

lemma bounded_wakeUp (ph : CallPhase) : ph.wakeUp.Bounded hz ↔ ph.Bounded hz := by
  cases ph <;> rfl

lemma dozes_wakeUp (ph : CallPhase) : ph.wakeUp.dozes = false := by
  cases ph with
  | testing _ _ signal _ => cases signal <;> rfl
  | _ => rfl

lemma inside_wakeUp (ph : CallPhase) : ph.wakeUp.inside = ph.inside := by
  cases ph with
  | testing _ _ signal _ => cases signal <;> rfl
  | _ => rfl

omit [DecidableEq P] in
lemma queued_init : Queued hz (.init : WaitSystem P) := by
  refine ⟨fun _ => trivial, ?_, ?_, List.nodup_nil⟩
  · intro p hp
    cases hp
  · intro p hp
    cases hp

lemma Queued.set (h : Queued hz s) {myData : BitVec 64} {myWq : List P} {ph : CallPhase}
    (hother : ∀ q ≠ p, q ∈ myWq ↔ q ∈ s.myWq) (hnodup : myWq.Nodup) (hbounded : ph.Bounded hz)
    (hdozing : ph.dozes = true → p ∈ myWq) (hinside : p ∈ myWq → ph.inside = true) :
    Queued hz (WaitSystem.set ⟨myData, myWq, s.call⟩ p ph) := by
  constructor
  · intro q
    by_cases hqp : q = p
    · subst hqp
      rwa [call_set_self]
    · rw [call_set_of_ne _ _ hqp]
      exact h.bounded q
  · intro q hq
    by_cases hqp : q = p
    · subst hqp
      rw [call_set_self] at hq
      exact hdozing hq
    · rw [call_set_of_ne _ _ hqp] at hq
      exact (hother q hqp).mpr (h.dozing q hq)
  · intro q hq
    by_cases hqp : q = p
    · subst hqp
      rw [call_set_self]
      exact hinside hq
    · rw [call_set_of_ne _ _ hqp]
      exact h.inside q ((hother q hqp).mp hq)
  · exact hnodup

lemma Queued.outside (h : Queued hz s) {ph : Phase} {myData : BitVec 64}
    (hp : (s.call p).inside = false) :
    Queued hz ({ s with myData := myData }.set p (.outside ph)) := by
  have hnot : p ∉ s.myWq := by
    intro hmem
    rw [h.inside p hmem] at hp
    cases hp
  exact h.set (fun _ _ => Iff.rfl) h.nodup trivial (fun hd => by cases hd)
    (fun hmem => absurd hmem hnot)

lemma Queued.within (h : Queued hz s) {ph : CallPhase} (hbounded : ph.Bounded hz)
    (hdozing : ph.dozes = true → (s.call p).dozes = true) (hph : ph.inside = true) :
    Queued hz (s.set p ph) :=
  h.set (fun _ _ => Iff.rfl) h.nodup hbounded (fun hd => h.dozing p (hdozing hd)) fun _ => hph

lemma Queued.enter (h : Queued hz s) {w : Wait} {ret : ℕ} (hret : ret ≤ w.start hz) :
    Queued hz ((s.enter p).set p (.testing w ret false false)) := by
  have hbounded : (CallPhase.testing w ret false false).Bounded hz :=
    ⟨hret, fun hsignal => by cases hsignal⟩
  by_cases hmem : p ∈ s.myWq
  · rw [WaitSystem.enter, if_pos hmem]
    exact h.set (fun _ _ => Iff.rfl) h.nodup hbounded (fun _ => hmem) fun _ => rfl
  · rw [WaitSystem.enter, if_neg hmem]
    refine h.set ?_ (h.nodup.cons hmem) hbounded (fun _ => by simp) fun _ => rfl
    intro q hq
    simp [hq]

lemma Queued.leave (h : Queued hz s) {ph : CallPhase} (hbounded : ph.Bounded hz)
    (hdozing : ph.dozes = false) : Queued hz ((s.leave p).set p ph) := by
  refine h.set ?_ (h.nodup.filter _) hbounded (fun hd => ?_) (fun hmem => ?_)
  · intro q hq
    simp [hq]
  · rw [hdozing] at hd
    cases hd
  · simp at hmem

lemma Queued.wakeUp (h : Queued hz s) : Queued hz s.wakeUp := by
  constructor
  · intro q
    simp only [WaitSystem.wakeUp]
    split_ifs with hq
    · exact (bounded_wakeUp _).mpr (h.bounded q)
    · exact h.bounded q
  · intro q hq
    simp only [WaitSystem.wakeUp] at hq
    split_ifs at hq with hmem
    · rw [dozes_wakeUp] at hq
      cases hq
    · exact absurd (h.dozing q hq) hmem
  · intro q hq
    obtain ⟨hmem, -⟩ := List.mem_filter.mp hq
    simp only [WaitSystem.wakeUp, if_pos hmem, inside_wakeUp]
    exact h.inside q hmem
  · exact h.nodup.filter _

lemma wakeUp_call_outside {ph : Phase} (h : s.call p = .outside ph) :
    s.wakeUp.call p = .outside ph := by
  simp only [WaitSystem.wakeUp, h]
  split_ifs <;> rfl

lemma queued_step (h : Queued hz s) (hs : WaitStep hz s l t) : Queued hz t := by
  have hbounded : ∀ {p ph}, s.call p = ph → ph.Bounded hz := by
    rintro p _ rfl
    exact h.bounded p
  cases hs with
  | ioctl _ _ hp | enterTrue hp | interrupted hp | reduce hp | add hp | ret hp | fail hp =>
    exact h.outside (by rw [hp]; rfl)
  | enterFalse hp => exact h.within le_rfl (by simp [CallPhase.dozes]) rfl
  | prepare hp => exact h.enter (hbounded hp)
  | prepareSignal hp hw => exact h.leave ⟨hbounded hp, fun _ => hw⟩ rfl
  | testTrue => exact h.leave trivial rfl
  | @sleep _ _ _ _ woken hp =>
    refine h.within (hbounded hp).1 (fun hd => ?_) rfl
    rw [hp]
    cases woken <;> cases hd
    rfl
  | @signal _ _ ret _ hp =>
    exact h.within (show ret ≤ _ from hbounded hp) (by simp [CallPhase.dozes]) rfl
  | expire => exact h.within (Nat.zero_le _) (by simp [CallPhase.dozes]) rfl
  | resume hp hleft => exact h.within (hleft.trans (hbounded hp)) (by simp [CallPhase.dozes]) rfl
  | wakeUp hp => exact h.wakeUp.outside (by rw [wakeUp_call_outside hp]; rfl)

lemma queued_run (h : Run (WaitStep hz) (.init : WaitSystem P) ls s) : Queued hz s :=
  h.invariant (fun _ _ _ hq hs => queued_step hq hs) queued_init

end Queue

section Projection

def CallPhase.phase : CallPhase → Phase
  | .outside ph => ph
  | .preparing w _ | .testing w _ _ _ | .asleep w _ _ => .waiting w

def WaitMove.move : WaitMove → Option Move
  | .ioctl cmd arg => some (.ioctl cmd arg)
  | .ended w e r => some (.wake w e r)
  | .reduce => some .reduce
  | .add => some .add
  | .wakeUp => some .wakeUp
  | .ret myData => some (.ret myData)
  | .fail r => some (.fail r)
  | .test | .prepare _ | .sleep | .signal | .expire | .resume _ => none

def WaitSystem.system (s : WaitSystem P) : System P := ⟨s.myData, fun p => (s.call p).phase⟩

def labels (l : P × WaitMove) : Option (P × Move) := l.2.move.map (Prod.mk l.1)

lemma phase_wakeUp (ph : CallPhase) : ph.wakeUp.phase = ph.phase := by
  cases ph <;> rfl

lemma system_set (s : WaitSystem P) (p : P) (ph : CallPhase) :
    (s.set p ph).system = s.system.set p ph.phase := by
  simp only [WaitSystem.system, WaitSystem.set, System.set, System.mk.injEq, true_and]
  funext q
  by_cases hq : q = p
  · subst hq
    simp
  · simp [hq]

lemma system_set_self {ph : CallPhase} (h : ph.phase = (s.call p).phase) :
    (s.set p ph).system = s.system := by
  rw [system_set, h]
  simp only [System.set, WaitSystem.system, System.mk.injEq, true_and]
  exact Function.update_eq_self p _

lemma system_wakeUp (s : WaitSystem P) : s.wakeUp.system = s.system := by
  simp only [WaitSystem.system, WaitSystem.wakeUp, System.mk.injEq, true_and]
  funext q
  split_ifs
  · exact phase_wakeUp _
  · rfl

lemma ended_returns (h : Queued hz s) {w : Wait} {e : Ending} {ret : ℤ}
    (hs : WaitStep hz s (p, .ended w e ret) t) :
    s.system.phase p = .waiting w ∧ WaitReturns s.myData w e ret ∧
      ret ≤ (max 1 (2 * hz) : ℕ) := by
  have hbounded := h.bounded p
  cases hs with
  | enterTrue hp htest =>
    obtain ⟨hret, hle⟩ := test_returns le_rfl htest
    exact ⟨congrArg CallPhase.phase hp, hret, by exact_mod_cast hle⟩
  | testTrue hp htest =>
    rw [hp] at hbounded
    obtain ⟨hret, hle⟩ := test_returns hbounded.1 htest
    exact ⟨congrArg CallPhase.phase hp, hret, by exact_mod_cast hle⟩
  | interrupted hp =>
    rw [hp] at hbounded
    have hle : -erestartsys ≤ ((max 1 (2 * hz) : ℕ) : ℤ) := by
      exact le_trans (by decide) (Int.natCast_nonneg _)
    exact ⟨congrArg CallPhase.phase hp, interrupted_returns (hbounded.2 rfl), hle⟩

lemma waitStep_silent (h : Queued hz s) (hs : WaitStep hz s (p, m) t) :
    Silent Step s.system (labels (p, m)) t.system := by
  have hphase : ∀ {ph}, s.call p = ph → s.system.phase p = ph.phase := by
    rintro _ rfl
    rfl
  cases hs with
  | ioctl _ _ hp =>
    rw [system_set]
    exact Step.ioctl _ _ (hphase hp)
  | enterTrue hp htest =>
    rw [system_set]
    exact Step.wake (hphase hp) (ended_returns h (.enterTrue hp htest)).2.1
  | testTrue hp htest =>
    rw [system_set]
    exact Step.wake (hphase hp) (ended_returns h (.testTrue hp htest)).2.1
  | interrupted hp htest =>
    rw [system_set]
    exact Step.wake (hphase hp) (ended_returns h (.interrupted hp htest)).2.1
  | reduce hp =>
    rw [system_set]
    exact Step.reduce (hphase hp)
  | add hp =>
    rw [system_set]
    exact Step.add (hphase hp)
  | wakeUp hp =>
    rw [system_set, system_wakeUp]
    exact Step.wakeUp (hphase hp)
  | ret hp =>
    rw [system_set]
    exact Step.ret (hphase hp)
  | fail hp =>
    rw [system_set]
    exact Step.fail (hphase hp)
  | enterFalse hp | sleep hp | signal hp | expire hp | resume hp =>
    exact system_set_self (hphase hp).symm
  | prepare hp => exact @system_set_self _ _ (s.enter p) _ _ (hphase hp).symm
  | prepareSignal hp => exact @system_set_self _ _ (s.leave p) _ _ (hphase hp).symm

end Projection

section Results

theorem waits_refine (h : Run (WaitStep hz) (.init : WaitSystem P) ls s) :
    Run Step .init (ls.filterMap labels) s.system ∧
      (s.myWq.Nodup ∧ ∀ p ∈ s.myWq, ∃ w, s.system.phase p = .waiting w) ∧
      ∀ p w e ret t, WaitStep hz s (p, .ended w e ret) t →
        WaitReturns s.myData w e ret ∧ ret ≤ (max 1 (2 * hz) : ℕ) := by
  have hqueued := queued_run h
  refine ⟨?_, ⟨hqueued.nodup, ?_⟩, ?_⟩
  · have hsim : ∀ (s : WaitSystem P) l t, Queued hz s → WaitStep hz s l t →
        Silent Step s.system (labels l) t.system := by
      rintro s ⟨p, m⟩ t hq hs
      exact waitStep_silent hq hs
    exact h.project (fun _ _ _ hq hs => queued_step hq hs) hsim queued_init
  · intro p hp
    have hinside := hqueued.inside p hp
    simp only [WaitSystem.system]
    cases hph : s.call p with
    | outside ph =>
      rw [hph] at hinside
      cases hinside
    | preparing w | testing w | asleep w => exact ⟨w, rfl⟩
  · intro p w e ret t hs
    exact (ended_returns hqueued hs).2

theorem waits_refine_woken : ∃ s : WaitSystem (Fin 2), s.call 0 = .outside .reducing ∧
    Run Step .init
      [(0, .ioctl Wait.wqInterruptibleTimeout.cmd 0), (1, .ioctl wqWakeUp 1), (1, .add),
        (1, .wakeUp), (0, .wake .wqInterruptibleTimeout .observed 7)] s.system := by
  obtain ⟨s, hrun, hreducing⟩ : ∃ s : WaitSystem (Fin 2), Run (WaitStep 100) .init
      [(0, .ioctl Wait.wqInterruptibleTimeout.cmd 0), (0, .test), (0, .prepare false), (0, .sleep),
        (1, .ioctl wqWakeUp 1), (1, .add), (1, .wakeUp), (0, .resume 7), (0, .prepare false),
        (0, .ended .wqInterruptibleTimeout .observed 7)] s ∧ s.call 0 = .outside .reducing := by
    exact ⟨_, .cons (.ioctl _ _ rfl) (.cons (.enterFalse rfl rfl) (.cons (.prepare rfl)
      (.cons (.sleep rfl rfl) (.cons (.ioctl _ _ rfl) (.cons (.add rfl) (.cons (.wakeUp rfl)
      (.cons (.resume rfl (by decide)) (.cons (.prepare rfl)
      (.cons (.testTrue rfl rfl) .nil))))))))), rfl⟩
  exact ⟨s, hreducing, (waits_refine hrun).1⟩

end Results

end EmbeddedSystem.SimpleBlock1
