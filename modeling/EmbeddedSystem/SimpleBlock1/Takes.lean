import EmbeddedSystem.SimpleBlock1.Driver

namespace EmbeddedSystem.SimpleBlock1

open Foundations

variable {P : Type} [DecidableEq P] {s t u : System P} {p : P} {m : Move} {ls : List (P × Move)}

def lastMove (p : P) (ls : List (P × Move)) : Option Move :=
  ((ls.filter fun l => l.1 = p).getLast?).map Prod.snd

/-- A change of `my_data` is the sum of a call of `WQ_WAKE_UP`, or the decrement of a call that has
just seen `my_data > 0`. -/
def Accounted (p : P) (js : List (P × Move)) (t u : System P) : Prop :=
  (∃ arg, lastMove p js = some (.ioctl wqWakeUp arg) ∧ u.myData = t.myData + arg) ∨
    (∃ w ret, lastMove p js = some (.wake w .observed ret)) ∧ u.myData = t.myData - 1

def Known (cmd : BitVec 32) : Prop := (∃ w : Wait, cmd = w.cmd) ∨ cmd = wqWakeUp

def Sound : Move → Prop
  | .ioctl cmd _ => Known cmd
  | .wake _ e _ => e ≠ .timedOut
  | _ => True

lemma lastMove_snoc_self (p : P) (ls : List (P × Move)) (m : Move) :
    lastMove p (ls ++ [(p, m)]) = some m := by
  simp [lastMove]

lemma lastMove_snoc_of_ne {q : P} (ls : List (P × Move)) (m : Move) (h : q ≠ p) :
    lastMove p (ls ++ [(q, m)]) = lastMove p ls := by
  simp [lastMove, h]

lemma phase_set_self (s : System P) (p : P) (ph : Phase) : (s.set p ph).phase p = ph := by
  simp [System.set]

lemma phase_set_of_ne {q : P} (s : System P) (ph : Phase) (h : q ≠ p) :
    (s.set q ph).phase p = s.phase p := by
  simp [System.set, h.symm]

lemma ioctl_reducing_iff (cmd : BitVec 32) (arg : BitVec 64) :
    simpleBlock1Ioctl cmd arg = .reducing ↔ ¬ Known cmd := by
  have hknown : Known cmd ↔ cmd = Wait.wq.cmd ∨ cmd = Wait.wqInterruptible.cmd ∨
      cmd = Wait.wqInterruptibleTimeout.cmd ∨ cmd = wqWakeUp := by
    constructor
    · rintro (⟨w, rfl⟩ | rfl)
      · cases w <;> simp
      · simp
    · rintro (rfl | rfl | rfl | rfl)
      · exact Or.inl ⟨.wq, rfl⟩
      · exact Or.inl ⟨.wqInterruptible, rfl⟩
      · exact Or.inl ⟨.wqInterruptibleTimeout, rfl⟩
      · exact Or.inr rfl
  rw [hknown, simpleBlock1Ioctl]
  split_ifs <;> simp [*]

lemma ioctl_adding {cmd : BitVec 32} {arg arg' : BitVec 64}
    (h : simpleBlock1Ioctl cmd arg = .adding arg') : cmd = wqWakeUp ∧ arg' = arg := by
  rw [simpleBlock1Ioctl] at h
  split_ifs at h with _ _ _ hcmd
  cases h
  exact ⟨hcmd, rfl⟩

lemma wait_reducing_iff {myData : BitVec 64} {w : Wait} {e : Ending} {ret : ℤ}
    (h : WaitReturns myData w e ret) : afterWait w ret = .reducing ↔ e ≠ .signalled := by
  cases h with
  | wq | interruptible | timedOut => simp [afterWait]
  | interrupted hret | timeoutInterrupted hret => simp [afterWait, hret]
  | timeout _ hret => simp [afterWait, not_lt.mpr hret.le]

lemma wait_not_adding (w : Wait) (ret : ℤ) (arg : BitVec 64) : afterWait w ret ≠ .adding arg := by
  cases w with
  | wq => simp [afterWait]
  | _ => by_cases hret : ret < 0 <;> simp [afterWait, hret]

structure Remembers (ls : List (P × Move)) (s : System P) : Prop where
  reducing : ∀ p, s.phase p = .reducing → ∃ w ret, lastMove p ls = some (.wake w .observed ret)
  adding : ∀ p arg, s.phase p = .adding arg → lastMove p ls = some (.ioctl wqWakeUp arg)

lemma Remembers.set (h : Remembers ls s) {ph : Phase} {myData : BitVec 64}
    (hreducing : ph = .reducing → ∃ w ret, m = .wake w .observed ret)
    (hadding : ∀ arg, ph = .adding arg → m = .ioctl wqWakeUp arg) :
    Remembers (ls ++ [(p, m)]) ({ s with myData := myData }.set p ph) := by
  constructor
  · intro q hq
    by_cases hqp : p = q
    · subst hqp
      rw [phase_set_self] at hq
      obtain ⟨w, ret, rfl⟩ := hreducing hq
      exact ⟨w, ret, lastMove_snoc_self p ls _⟩
    · rw [phase_set_of_ne _ _ hqp] at hq
      rw [lastMove_snoc_of_ne ls m hqp]
      exact h.reducing q hq
  · intro q arg hq
    by_cases hqp : p = q
    · subst hqp
      rw [phase_set_self] at hq
      rw [lastMove_snoc_self, hadding arg hq]
    · rw [phase_set_of_ne _ _ hqp] at hq
      rw [lastMove_snoc_of_ne ls m hqp]
      exact h.adding q arg hq

lemma remembers_step (h : Remembers ls s) (hs : Step s (p, m) t) (hm : Sound m) :
    Remembers (ls ++ [(p, m)]) t := by
  cases hs with
  | ioctl cmd arg _ =>
    apply h.set
    · intro hph
      exact absurd hm ((ioctl_reducing_iff cmd arg).mp hph)
    · intro arg' hph
      obtain ⟨rfl, rfl⟩ := ioctl_adding hph
      rfl
  | @wake _ w e ret _ hret =>
    apply h.set
    · intro hph
      have he := (wait_reducing_iff hret).mp hph
      cases e with
      | observed => exact ⟨w, ret, rfl⟩
      | signalled => exact absurd rfl he
      | timedOut => exact absurd rfl hm
    · intro arg hph
      exact absurd hph (wait_not_adding w ret arg)
  | reduce | add | wakeUp | ret | fail => exact h.set nofun nofun

lemma remembers_accounted (h : Remembers ls s) (hs : Step s (p, m) t)
    (hne : t.myData ≠ s.myData) : Accounted p ls s t := by
  cases hs with
  | reduce hph => exact Or.inr ⟨h.reducing p hph, rfl⟩
  | @add _ arg hph => exact Or.inl ⟨arg, h.adding p arg hph, rfl⟩
  | _ => exact absurd rfl hne

lemma unsound_reduces (hs : Step s (p, m) t) (hm : ¬ Sound m) : t.phase p = .reducing := by
  cases hs with
  | ioctl cmd arg _ =>
    rw [phase_set_self]
    exact (ioctl_reducing_iff cmd arg).mpr hm
  | @wake _ w e ret _ hret =>
    rw [phase_set_self]
    have he : e = .timedOut := not_not.mp hm
    exact (wait_reducing_iff hret).mpr (by simp [he])
  | _ => exact absurd trivial hm

theorem takes_seen_iff (ls : List (P × Move)) :
    (∀ js ks p m t u, ls = js ++ ks → Run Step .init js t → Step t (p, m) u →
      u.myData ≠ t.myData → Accounted p js t u) ↔
      ∀ js p m ks t u, ls = js ++ (p, m) :: ks → Run Step .init js t → Step t (p, m) u →
        Sound m := by
  constructor
  · intro h js p m ks t u hsplit ht hu
    by_contra hm
    have hreduce : Step u (p, .reduce) _ := .reduce (unsound_reduces hu hm)
    have hne : u.myData - 1 ≠ u.myData := by bv_omega
    have hsplit' : ls = (js ++ [(p, m)]) ++ ks := by simp [hsplit]
    obtain ⟨arg, hlast, -⟩ | ⟨⟨w, ret, hlast⟩, -⟩ :=
      h (js ++ [(p, m)]) ks p .reduce u _ hsplit' (ht.snoc hu) hreduce hne
    · rw [lastMove_snoc_self] at hlast
      cases hlast
      exact hm (Or.inr rfl)
    · rw [lastMove_snoc_self] at hlast
      cases hlast
      exact hm Ending.noConfusion
  · intro h js ks p m t u hsplit ht hu hne
    have hremembers : Remembers js t := by
      apply ht.induct_prefix (M := Remembers) hsplit ⟨nofun, nofun⟩
      rintro as ⟨q, m⟩ bs t u hbs hat ih hu
      exact remembers_step ih hu (h as q m bs t u hbs hat hu)
    exact remembers_accounted hremembers hu hne

theorem timeout_takes : ¬ ∀ (ls : List (Fin 1 × Move)) (p : Fin 1) (m : Move)
    (t u : System (Fin 1)), Run Step .init ls t → Step t (p, m) u → u.myData ≠ t.myData →
      Accounted p ls t u := by
  intro h
  have hrun : Run Step (.init : System (Fin 1))
      [(0, .ioctl Wait.wqInterruptibleTimeout.cmd 0),
        (0, .wake .wqInterruptibleTimeout .timedOut 0)] _ :=
    .cons (.ioctl _ _ rfl) (.cons (.wake rfl (.timedOut (by decide))) .nil)
  obtain ⟨arg, hlast, -⟩ | ⟨⟨w, ret, hlast⟩, -⟩ :=
    h _ 0 .reduce _ _ hrun (.reduce rfl) (by decide)
  · cases hlast
  · cases hlast

end EmbeddedSystem.SimpleBlock1
