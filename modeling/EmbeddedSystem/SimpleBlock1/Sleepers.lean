import EmbeddedSystem.SimpleBlock1.Waits

namespace EmbeddedSystem.SimpleBlock1

open Foundations

variable {P : Type} [DecidableEq P] {hz : ℕ} {s t : WaitSystem P} {p q : P} {m : WaitMove}
  {l : P × WaitMove} {ls : List (P × WaitMove)}

def Alert (s : WaitSystem P) : Prop :=
  ∀ p w ret, s.call p = .asleep w ret false → 0 < s.myData.toInt →
    ∃ q, s.call q = .outside .updated

/-- No decrement wraps around while a process sleeps that is not about to be woken. -/
def Spares (s : WaitSystem P) (l : P × WaitMove) : Prop :=
  l.2 = .reduce → s.myData.ssubOverflow 1 = true → ∀ p w ret, s.call p = .asleep w ret false →
    ∃ q, s.call q = .outside .updated

section Alertness

lemma positive_of_overflow {x : BitVec 64} (h : x.ssubOverflow 1 = true) : 0 < (x - 1).toInt := by
  have hone : (1 : BitVec 64).toInt = 1 := by decide
  have hle := BitVec.le_toInt x
  have hlt := BitVec.toInt_lt (x := x)
  simp only [BitVec.ssubOverflow, hone, Bool.or_eq_true, decide_eq_true_eq] at h
  have hx : x.toInt = (BitVec.intMin 64).toInt := by
    have hmin : (BitVec.intMin 64).toInt = -2 ^ 63 := by decide
    rw [hmin]
    omega
  rw [BitVec.toInt_inj.mp hx]
  decide

lemma positive_of_reduced {x : BitVec 64} (h : ¬ x.ssubOverflow 1 = true)
    (hd : 0 < (x - 1).toInt) : 0 < x.toInt := by
  have hone : (1 : BitVec 64).toInt = 1 := by decide
  rw [BitVec.toInt_sub_of_not_ssubOverflow h, hone] at hd
  omega

lemma Alert.set (h : Alert s) {myWq : List P} {ph : CallPhase}
    (hupdated : s.call p ≠ .outside .updated)
    (hasleep : ∀ w ret, ph = .asleep w ret false → ¬ 0 < s.myData.toInt) :
    Alert (WaitSystem.set ⟨s.myData, myWq, s.call⟩ p ph) := by
  intro q w ret hq hd
  by_cases hqp : q = p
  · subst hqp
    rw [call_set_self] at hq
    exact absurd hd (hasleep w ret hq)
  · rw [call_set_of_ne _ _ hqp] at hq
    obtain ⟨r, hr⟩ := h q w ret hq hd
    have hrp : r ≠ p := by
      rintro rfl
      exact hupdated hr
    exact ⟨r, by rwa [call_set_of_ne _ _ hrp]⟩

lemma alert_updated (s : WaitSystem P) (p : P) : Alert (s.set p (.outside .updated)) :=
  fun _ _ _ _ _ => ⟨p, call_set_self ..⟩

lemma Queued.alert_wakeUp (h : Queued hz s) : Alert (s.wakeUp.set p (.outside .returning)) := by
  intro q w ret hq
  by_cases hqp : q = p
  · subst hqp
    rw [call_set_self] at hq
    cases hq
  · rw [call_set_of_ne _ _ hqp] at hq
    have hdozes := h.wakeUp.dozing q (by rw [hq]; rfl)
    obtain ⟨hmem, hawake⟩ := List.mem_filter.mp hdozes
    simp only [WaitSystem.wakeUp, if_pos hmem] at hq
    have hnot := dozes_wakeUp (s.call q)
    rw [hq] at hnot
    cases hnot

lemma alert_reduce (h : Alert s) (hp : s.call p = .outside .reducing) :
    Alert ({ s with myData := s.myData - 1 }.set p (.outside .returning)) ↔
      Spares s (p, .reduce) := by
  have hother : ∀ {q ph}, s.call q = ph → ph ≠ .outside .reducing → q ≠ p := by
    rintro q _ rfl hne rfl
    exact hne hp
  constructor
  · intro ha _ hover q w ret hq
    have hqp := hother hq (by simp)
    obtain ⟨r, hr⟩ := ha q w ret (by rwa [call_set_of_ne _ _ hqp]) (positive_of_overflow hover)
    have hrp : r ≠ p := by
      rintro rfl
      rw [call_set_self] at hr
      cases hr
    exact ⟨r, by rwa [call_set_of_ne _ _ hrp] at hr⟩
  · intro hspares q w ret hq hd
    have hqp : q ≠ p := by
      rintro rfl
      rw [call_set_self] at hq
      cases hq
    rw [call_set_of_ne _ _ hqp] at hq
    have hupdated : ∃ r, s.call r = .outside .updated := by
      by_cases hover : s.myData.ssubOverflow 1 = true
      · exact hspares rfl hover q w ret hq
      · exact h q w ret hq (positive_of_reduced hover hd)
    obtain ⟨r, hr⟩ := hupdated
    exact ⟨r, by rwa [call_set_of_ne _ _ (hother hr (by simp))]⟩

lemma alert_keep (hqueued : Queued hz s) (h : Alert s) (hs : WaitStep hz s l t)
    (hl : l.2 ≠ .reduce) : Alert t := by
  cases hs with
  | reduce => exact absurd rfl hl
  | add => exact alert_updated _ _
  | wakeUp => exact hqueued.alert_wakeUp
  | sleep hp htest => exact h.set (by simp [hp]) fun _ _ _ => test_false htest
  | ioctl _ _ hp | enterTrue hp | enterFalse hp | prepare hp | prepareSignal hp | testTrue hp
  | interrupted hp | signal hp | expire hp | resume hp | ret hp | fail hp =>
    exact h.set (by simp [hp]) (by simp)

lemma alert_step (hqueued : Queued hz s) (h : Alert s) (hs : WaitStep hz s l t) :
    Alert t ↔ Spares s l := by
  by_cases hl : l.2 = .reduce
  · obtain ⟨p, m⟩ := l
    obtain rfl : m = .reduce := hl
    cases hs with
    | reduce hp => exact alert_reduce h hp
  · exact iff_of_true (alert_keep hqueued h hs hl) fun hreduce => absurd hreduce hl

omit [DecidableEq P] in
lemma alert_init : Alert (.init : WaitSystem P) := by
  intro p w ret hp
  cases hp

end Alertness

section Settling

def WaitMove.external : WaitMove → Bool
  | .ioctl _ _ | .signal | .expire => true
  | _ => false

def Settled (hz : ℕ) (s : WaitSystem P) : Prop :=
  ∀ p m t, WaitStep hz s (p, m) t → m.external = true

def Unwrapped (s : WaitSystem P) (l : P × WaitMove) : Prop :=
  l.2 = .reduce → ¬ s.myData.ssubOverflow 1 = true

/-- A bound for the steps that a call of one of `n` processes takes by itself. A wake-up gives each
process at most five more. -/
def CallPhase.left (n : ℕ) : CallPhase → ℕ
  | .outside .idle | .asleep _ _ false => 0
  | .outside .returning | .outside (.failing _) => 1
  | .outside .reducing => 2
  | .testing _ _ _ false => 3
  | .preparing _ _ => 4
  | .outside (.waiting _) | .asleep _ _ true => 5
  | .testing _ _ _ true => 6
  | .outside .updated => 5 * n + 2
  | .outside (.adding _) => 5 * n + 3

variable [Fintype P]

def WaitSystem.left (s : WaitSystem P) : ℕ := ∑ p, (s.call p).left (Fintype.card P)

lemma left_set (s : WaitSystem P) (p : P) (ph : CallPhase) :
    (s.set p ph).left + (s.call p).left (Fintype.card P) =
      s.left + ph.left (Fintype.card P) := by
  have hrest : ∑ q ∈ Finset.univ.erase p, ((s.set p ph).call q).left (Fintype.card P) =
      ∑ q ∈ Finset.univ.erase p, (s.call q).left (Fintype.card P) := by
    apply Finset.sum_congr rfl
    intro q hq
    rw [call_set_of_ne _ _ (Finset.ne_of_mem_erase hq)]
  rw [WaitSystem.left, WaitSystem.left, ← Finset.add_sum_erase _ _ (Finset.mem_univ p),
    ← Finset.add_sum_erase _ _ (Finset.mem_univ p), hrest, call_set_self]
  omega

lemma left_wakeUp_le (n : ℕ) (ph : CallPhase) : ph.wakeUp.left n ≤ ph.left n + 5 := by
  cases ph with
  | outside | preparing => exact Nat.le_add_right _ _
  | testing _ _ _ woken | asleep _ _ woken =>
    cases woken <;> simp [CallPhase.wakeUp, CallPhase.left]

lemma left_wakeUp (s : WaitSystem P) : s.wakeUp.left ≤ s.left + 5 * Fintype.card P := by
  have hsum : s.left + 5 * Fintype.card P =
      ∑ p, ((s.call p).left (Fintype.card P) + 5) := by
    rw [Finset.sum_add_distrib, Finset.sum_const, Finset.card_univ, smul_eq_mul, mul_comm 5]
    rfl
  rw [hsum]
  apply Finset.sum_le_sum
  intro p _
  simp only [WaitSystem.wakeUp]
  split_ifs
  · exact left_wakeUp_le _ _
  · exact Nat.le_add_right _ _

lemma left_afterWait (n : ℕ) (w : Wait) (ret : ℤ) :
    (CallPhase.outside (afterWait w ret)).left n ≤ 2 := by
  cases w with
  | wq => exact le_rfl
  | _ =>
    simp only [afterWait]
    split_ifs <;> simp [CallPhase.left]

lemma left_step (hs : WaitStep hz s l t) (hl : l.2.external = false) : t.left < s.left := by
  have hset : ∀ {myData myWq p ph ph'}, s.call p = ph →
      ph'.left (Fintype.card P) < ph.left (Fintype.card P) →
      (WaitSystem.set ⟨myData, myWq, s.call⟩ p ph').left < s.left := by
    rintro myData myWq p _ ph' rfl hlt
    have hleft := left_set ⟨myData, myWq, s.call⟩ p ph'
    change _ + (s.call p).left _ = s.left + _ at hleft
    omega
  have hended : ∀ {w ret n}, 2 < n →
      (CallPhase.outside (afterWait w ret)).left (Fintype.card P) < n :=
    fun hn => (left_afterWait _ _ _).trans_lt hn
  cases hs with
  | ioctl | signal | expire => cases hl
  | enterTrue hp => exact hset hp (hended (by simp [CallPhase.left]))
  | @testTrue _ _ _ _ _ woken hp | @interrupted _ _ _ _ woken hp =>
    exact hset hp (hended (by cases woken <;> simp [CallPhase.left]))
  | @sleep _ _ _ _ woken hp => exact hset hp (by cases woken <;> simp [CallPhase.left])
  | enterFalse hp | prepare hp | prepareSignal hp | resume hp | reduce hp | ret hp | fail hp
  | add hp =>
    exact hset hp (by simp [CallPhase.left])
  | @wakeUp p hp =>
    have hle := left_wakeUp s
    have hleft := left_set s.wakeUp p (.outside .returning)
    rw [wakeUp_call_outside hp] at hleft
    simp only [CallPhase.left] at hleft
    omega

omit [Fintype P] in
lemma settled_of_calls
    (h : ∀ p, s.call p = .outside .idle ∨ ∃ w ret, s.call p = .asleep w ret false) :
    Settled hz s := by
  intro p m t hs
  cases hs with
  | ioctl | signal | expire => rfl
  | enterTrue hp | enterFalse hp | prepare hp | prepareSignal hp | testTrue hp | interrupted hp
  | sleep hp | resume hp | reduce hp | add hp | wakeUp hp | ret hp | fail hp =>
    obtain hidle | ⟨w, ret, hasleep⟩ := h p
    · rw [hidle] at hp
      cases hp
    · rw [hasleep] at hp
      cases hp

omit [Fintype P] in
lemma settled_call (h : Settled hz s) (p : P) :
    s.call p = .outside .idle ∨ ∃ w ret, s.call p = .asleep w ret false := by
  have hstuck : ∀ {m : WaitMove} {t : WaitSystem P}, m.external = false →
      ¬ WaitStep hz s (p, m) t := by
    intro m t hm hs
    rw [h p m t hs] at hm
    cases hm
  cases hp : s.call p with
  | outside ph =>
    cases ph with
    | idle => exact Or.inl rfl
    | waiting w =>
      cases htest : w.test s.positive (w.start hz) with
      | mk done ret =>
        cases done with
        | false => exact absurd (.enterFalse hp htest) (hstuck rfl)
        | true => exact absurd (.enterTrue hp htest) (hstuck rfl)
    | reducing => exact absurd (.reduce hp) (hstuck rfl)
    | adding => exact absurd (.add hp) (hstuck rfl)
    | updated => exact absurd (.wakeUp hp) (hstuck rfl)
    | returning => exact absurd (.ret hp) (hstuck rfl)
    | failing => exact absurd (.fail hp) (hstuck rfl)
  | preparing => exact absurd (.prepare hp) (hstuck rfl)
  | testing w ret signal woken =>
    cases htest : w.test s.positive ret with
    | mk done ret' =>
      cases done with
      | true => exact absurd (.testTrue hp htest) (hstuck rfl)
      | false =>
        cases signal with
        | true => exact absurd (.interrupted hp htest) (hstuck rfl)
        | false => exact absurd (.sleep hp htest) (hstuck rfl)
  | asleep w ret woken =>
    cases woken with
    | true => exact absurd (.resume hp le_rfl) (hstuck rfl)
    | false => exact Or.inr ⟨w, ret, rfl⟩

end Settling

section Results

lemma alert_run (h : Run (Guarded (WaitStep hz) Unwrapped) (.init : WaitSystem P) ls s) :
    Queued hz s ∧ Alert s := by
  refine h.invariant (I := fun s => Queued hz s ∧ Alert s) ?_ ⟨queued_init, alert_init⟩
  rintro s l t ⟨hqueued, ha⟩ ⟨hs, hl⟩
  refine ⟨queued_step hqueued hs, (alert_step hqueued ha hs).mpr ?_⟩
  intro hm hover
  exact absurd hover (hl hm)

theorem sleepers_iff (ls : List (P × WaitMove)) :
    (∀ js ks t, ls = js ++ ks → Run (WaitStep hz) .init js t → Alert t) ↔
      ∀ js i ks t u, ls = js ++ i :: ks → Run (WaitStep hz) .init js t → WaitStep hz t i u →
        Spares t i := by
  have hstep : ∀ (t : WaitSystem P) l u, Queued hz t ∧ Alert t → True → WaitStep hz t l u →
      (Queued hz u ∧ Alert u ↔ Spares t l) := by
    rintro t l u ⟨hqueued, ha⟩ - hs
    rw [← alert_step hqueued ha hs]
    exact and_iff_right (queued_step hqueued hs)
  have hiff : (∀ js ks t, ls = js ++ ks → Run (WaitStep hz) .init js t → Queued hz t ∧ Alert t) ↔
      _ := Run.stays_iff ⟨queued_init, alert_init⟩ hstep fun _ _ => trivial
  rw [← hiff]
  constructor
  · intro h js ks t hsplit ht
    exact ⟨queued_run ht, h js ks t hsplit ht⟩
  · intro h js ks t hsplit ht
    exact (h js ks t hsplit ht).2

theorem calls_settle [Fintype P]
    (h : Run (Guarded (WaitStep hz) Unwrapped) (.init : WaitSystem P) ls s) :
    ∃ n, ∀ ms t, Run (WaitStep hz) s ms t → (∀ l ∈ ms, l.2.external = false) →
      ms.length ≤ n ∧
        (Run (Guarded (WaitStep hz) Unwrapped) s ms t → Settled hz t →
          ∀ p, t.call p = .outside .idle ∨
            ∃ w ret, t.call p = .asleep w ret false ∧ ¬ 0 < t.myData.toInt) := by
  refine ⟨s.left, fun ms t ht hinternal => ⟨?_, fun hguarded hsettled p => ?_⟩⟩
  · have hlength := ht.length_le (V := fun l => l.2.external = false)
      (fun _ _ _ hl hs => left_step hs hl) hinternal
    omega
  · obtain hidle | ⟨w, ret, hp⟩ := settled_call hsettled p
    · exact Or.inl hidle
    · refine Or.inr ⟨w, ret, hp, fun hd => ?_⟩
      obtain ⟨q, hq⟩ := (alert_run (h.append hguarded)).2 p w ret hp hd
      obtain hidle | ⟨w', ret', hasleep⟩ := settled_call hsettled q
      · rw [hq] at hidle
        cases hidle
      · rw [hq] at hasleep
        cases hasleep

theorem calls_settle_asleep : ∃ (s t : WaitSystem (Fin 2)) (n : ℕ),
    s.call 0 = .outside (.waiting .wq) ∧
      Run (WaitStep 100) s [(0, .test), (0, .prepare false), (0, .sleep)] t ∧ 3 ≤ n ∧
      (∀ ms u, Run (WaitStep 100) s ms u → (∀ l ∈ ms, l.2.external = false) → ms.length ≤ n) ∧
      ∀ p, t.call p = .outside .idle ∨
        ∃ w ret, t.call p = .asleep w ret false ∧ ¬ 0 < t.myData.toInt := by
  have hwrap : ∀ (s : WaitSystem (Fin 2)) m, m ≠ .reduce → Unwrapped s (0, m) :=
    fun _ _ hne hm => absurd hm hne
  obtain ⟨s, t, hs, hwaiting, ht, hasleep⟩ : ∃ s t : WaitSystem (Fin 2),
      Run (Guarded (WaitStep 100) Unwrapped) .init [(0, .ioctl Wait.wq.cmd 0)] s ∧
        s.call 0 = .outside (.waiting .wq) ∧
        Run (Guarded (WaitStep 100) Unwrapped) s [(0, .test), (0, .prepare false), (0, .sleep)] t ∧
        t.call = Function.update (fun _ => .outside .idle) 0 (.asleep .wq 0 false) := by
    refine ⟨_, _, .single ⟨.ioctl _ _ rfl, hwrap _ _ (by simp)⟩, rfl,
      .cons ⟨.enterFalse rfl rfl, hwrap _ _ (by simp)⟩
        (.cons ⟨.prepare rfl, hwrap _ _ (by simp)⟩
        (.cons ⟨.sleep rfl rfl, hwrap _ _ (by simp)⟩ .nil)), ?_⟩
    simp [WaitSystem.set, WaitSystem.enter, WaitSystem.init, Wait.start]
  have hsettled : Settled 100 t := by
    apply settled_of_calls
    intro p
    rw [hasleep]
    by_cases hp : p = 0
    · subst hp
      exact Or.inr ⟨.wq, 0, by simp⟩
    · exact Or.inl (by simp [hp])
  have hinternal : ∀ l ∈ [((0 : Fin 2), WaitMove.test), (0, .prepare false), (0, .sleep)],
      l.2.external = false := by
    intro l hl
    simp only [List.mem_cons, List.not_mem_nil, or_false] at hl
    obtain rfl | rfl | rfl := hl <;> rfl
  obtain ⟨n, hn⟩ := calls_settle hs
  obtain ⟨hthree, hcalls⟩ := hn _ t ht.unguard hinternal
  exact ⟨s, t, n, hwaiting, ht.unguard, hthree, fun ms u hu hi => (hn ms u hu hi).1,
    hcalls ht hsettled⟩

end Results

end EmbeddedSystem.SimpleBlock1
