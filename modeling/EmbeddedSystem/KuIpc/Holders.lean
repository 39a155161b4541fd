import EmbeddedSystem.KuIpc.References

namespace EmbeddedSystem.KuIpc

open Kernel Foundations

section Card

variable {P : Type} [DecidableEq P] [Fintype P] (g : P → Fin queueNum → Bool) (p : P)
  (k j : Fin queueNum)

def holders : Finset P := Finset.univ.filter fun q => g q k = true

variable {p k j}

lemma holders_acquire : holders (Function.update g p (Function.update (g p) k true)) k =
    insert p (holders g k) := by
  ext q
  by_cases hq : q = p
  · subst hq
    simp [holders]
  · simp [holders, hq]

lemma holders_release : holders (Function.update g p (Function.update (g p) k false)) k =
    (holders g k).erase p := by
  ext q
  by_cases hq : q = p
  · subst hq
    simp [holders]
  · simp [holders, hq]

lemma holders_of_ne (b : Bool) (h : j ≠ k) :
    holders (Function.update g p (Function.update (g p) k b)) j = holders g j := by
  ext q
  by_cases hq : q = p
  · subst hq
    simp [holders, h]
  · simp [holders, hq]

end Card

section Steps

variable {P : Type} [DecidableEq P] {s t : System P} {p : P} {m : Move} {ls : List (P × Move)}

lemma acquire_unheld (h : Run (Guarded Step FlagsKnown) .init ls s) {k : Fin queueNum}
    (hs : Step s (p, m) t) (hm : m.effect = some (.counted k)) : holds ls p k = false := by
  have hacc := accounted_run h p
  obtain ⟨c, o, ret, hph, q, hreq, hk⟩ := effect_inv hs hm
  obtain rfl := Call.of_msgget hreq
  obtain ⟨i, hi, hr⟩ := hacc.entered (.msgget q.key q.msgflg) (by rw [hph]; rfl)
  obtain rfl := Except.ok.inj (hi.symm.trans hk)
  rw [hacc.held_eq (by simp [hph])]
  simpa [Call.routine, kuMsgget] using hr

lemma holds_snoc (ls : List (P × Move)) (p : P) (m : Move) :
    holds (ls ++ [(p, m)]) = Function.update (holds ls) p (afterEffect (holds ls p) m.effect) := by
  simp [holds, history, perProcess]

end Steps

section Counters

variable {P : Type} [DecidableEq P] [Fintype P]

def Counts (d : Driver) (g : P → Fin queueNum → Bool) : Prop :=
  ∀ k, d.queueReferenceCounter k = BitVec.ofNat 32 (holders g k).card

lemma Counts.changes {d d' : Driver} {g : P → Fin queueNum → Bool} {p : P} {e : Option Effect}
    (h : Counts d g) (hc : Changes d d' e) (hnew : ∀ k, e = some (.counted k) → g p k = false)
    (hold : ∀ k, e = some (.uncounted k) → g p k = true) :
    Counts d' (Function.update g p (afterEffect (g p) e)) := by
  intro k
  cases e with
  | none =>
    obtain rfl := hc
    simpa [afterEffect] using h k
  | some e =>
    cases e with
    | counted j =>
      obtain rfl := hc
      by_cases hkj : k = j
      · subst hkj
        have hmem : p ∉ holders g k := by simp [holders, hnew k rfl]
        rw [afterEffect, holders_acquire, Finset.card_insert_of_notMem hmem, BitVec.ofNat_add]
        simp [h k]
      · rw [afterEffect, holders_of_ne _ _ hkj]
        simpa [hkj] using h k
    | uncounted j =>
      obtain ⟨_, rfl⟩ := hc
      by_cases hkj : k = j
      · subst hkj
        have hmem : p ∈ holders g k := by simp [holders, hold k rfl]
        have hcard : (holders g k).card = ((holders g k).erase p).card + 1 :=
          (Finset.card_erase_add_one hmem).symm
        rw [afterEffect, holders_release, counter_setCounter, Function.update_self, h k, hcard,
          BitVec.ofNat_add]
        exact BitVec.add_sub_cancel _ _
      · rw [afterEffect, holders_of_ne _ _ hkj]
        simpa [hkj] using h k
    | queued j x =>
      obtain ⟨_, rfl⟩ := hc
      simpa [afterEffect] using h k
    | removed j x =>
      obtain ⟨_, _, rfl⟩ := hc
      simpa [afterEffect] using h k

lemma counts_run {ls : List (P × Move)} {s : System P}
    (h : Run (Guarded Step FlagsKnown) .init ls s) : Counts s.driver (holds ls) := by
  refine h.induct_right (M := fun ls s => Counts s.driver (holds ls)) ?_ ?_
  · intro k
    simp [holders, holds, history, System.init, Driver.init]
  · rintro ls s ⟨p, m⟩ t hrun ih ⟨hs, hf⟩
    rw [holds_snoc]
    exact ih.changes (step_changes hs) (fun k hk => acquire_unheld hrun hs hk)
      fun k hk => release_held hrun hs hk

lemma counter_toInt {ls : List (P × Move)} {s : System P} (hP : Fintype.card P < 2 ^ 31)
    (h : Run (Guarded Step FlagsKnown) .init ls s) (k : Fin queueNum) :
    (s.driver.queueReferenceCounter k).toInt = (holders (holds ls) k).card := by
  have hle := (holders (holds ls) k).card_le_univ
  rw [counts_run h k, BitVec.toInt_eq_toNat_of_lt, BitVec.toNat_ofNat, Nat.mod_eq_of_lt (by omega)]
  rw [BitVec.toNat_ofNat, Nat.mod_eq_of_lt (by omega)]
  omega

lemma counter_eq_zero_iff {ls : List (P × Move)} {s : System P} (hP : Fintype.card P < 2 ^ 31)
    (h : Run (Guarded Step FlagsKnown) .init ls s) (k : Fin queueNum) :
    s.driver.queueReferenceCounter k = 0 ↔ ∀ q, holds ls q k = false := by
  have hzero : s.driver.queueReferenceCounter k = 0 ↔ (holders (holds ls) k).card = 0 := by
    have hint := counter_toInt hP h k
    constructor
    · intro h0
      rw [h0] at hint
      simpa using hint.symm
    · intro hcard
      rw [hcard] at hint
      exact BitVec.eq_of_toInt_eq (by simpa using hint)
  rw [hzero, Finset.card_eq_zero, holders, Finset.filter_eq_empty_iff]
  simp

end Counters

section Closing

variable {P : Type} [DecidableEq P] [Fintype P] {s t : System P} {p : P} {ls : List (P × Move)}
  {msqid : ℤ}

def Faithful (s : System P) (l : P × Move) : Prop := FlagsKnown s l ∧ l.2 ≠ .openDev false

def Closes (msqid : ℤ) (ph : Phase) : Prop :=
  ph = .opening (.msgclose msqid) ∨ ph = .calling (.msgclose msqid) ∨
    (∃ buf, ph = .testing (.msgclose msqid) 0 buf) ∨
    (∃ buf, ph = .closing (.msgclose msqid) 0 buf) ∨ ph = .idle

lemma close_counted (hP : Fintype.card P < 2 ^ 31) (h : Run (Guarded Step FlagsKnown) .init ls s)
    (hph : (s.process p).phase = .calling (.msgclose msqid)) :
    ∃ k, arrayIndex queueNum msqid = .ok k ∧ s.driver.queueReferenceCounter k ≠ 0 := by
  have hacc := accounted_run h p
  obtain ⟨k, hk, hr⟩ := hacc.entered (.msgclose msqid) (by rw [hph]; rfl)
  refine ⟨k, hk, ?_⟩
  have huse : holds ls p k = true := by
    rw [hacc.held_eq (by simp [hph])]
    simpa [Call.routine, kuMsgclose] using hr
  intro hzero
  rw [(counter_eq_zero_iff hP h k).mp hzero p] at huse
  cases huse

lemma closes_step (hP : Fintype.card P < 2 ^ 31) (h : Run (Guarded Step FlagsKnown) .init ls s)
    (hc : Closes msqid (s.process p).phase) {l : P × Move} (hs : Guarded Step Faithful s l t)
    (hl : ∀ c, l ≠ (p, .call c)) : Closes msqid (t.process p).phase := by
  obtain ⟨q, m⟩ := l
  by_cases hq : p = q
  · subst hq
    obtain ⟨hstep, hf⟩ := hs
    cases hstep with
    | refused | call => exact absurd rfl (hl _)
    | unopened => exact absurd rfl hf.2
    | @opened _ c hph =>
      rw [process_set_self]
      rw [hph] at hc
      obtain hc | hc | ⟨_, hc⟩ | ⟨_, hc⟩ | hc := hc <;> cases hc
      exact Or.inr (Or.inl rfl)
    | @ioctl _ c o d y hph hd =>
      rw [process_set_self]
      have hcall := hph
      rw [hph] at hc
      obtain hc | hc | ⟨_, hc⟩ | ⟨_, hc⟩ | hc := hc <;> cases hc
      obtain ⟨k, hk, hne⟩ := close_counted hP h hcall
      obtain ⟨j, hj, ⟨hzero, _⟩ | ⟨_, _, rfl⟩⟩ := kuIpcMsgclose_cases hd
      · obtain rfl := Except.ok.inj (hk.symm.trans hj)
        exact absurd hzero hne
      · exact Or.inr (Or.inr (Or.inl ⟨_, rfl⟩))
    | @test _ c ret buf v hph hv =>
      rw [process_set_self]
      rw [hph] at hc
      obtain hc | hc | ⟨_, hc⟩ | ⟨_, hc⟩ | hc := hc <;> cases hc
      obtain ⟨i, _, hv⟩ := bind_ok.mp hv
      cases hv
      exact Or.inr (Or.inr (Or.inr (Or.inl ⟨_, rfl⟩)))
    | @ret _ c ret buf hph =>
      rw [process_set_self]
      exact Or.inr (Or.inr (Or.inr (Or.inr rfl)))
  · rw [hs.1.others hq]
    exact hc

lemma closes_progress (hP : Fintype.card P < 2 ^ 31) (h : Run (Guarded Step FlagsKnown) .init ls s)
    (hc : Closes msqid (s.process p).phase) (hidle : (s.process p).phase ≠ .idle) :
    ∃ m t, Guarded Step Faithful s (p, m) t := by
  have hacc := accounted_run h p
  have hquiet : ∀ m, (∀ o y, m ≠ .ioctl o y) → FlagsKnown s (p, m) :=
    fun m hm o y _ _ he => absurd he (hm o y)
  obtain hph | hph | ⟨buf, hph⟩ | ⟨buf, hph⟩ | hph := hc
  · exact ⟨_, _, .opened hph, hquiet _ (by simp), by simp⟩
  · obtain ⟨k, hk, _⟩ := close_counted hP h hph
    obtain ⟨d, y, hd⟩ := kuIpcMsgclose_total (s := s.driver) hk
    refine ⟨.ioctl .success y, _, .ioctl hph hd, ?_, by simp⟩
    intro _ _ key flg _ hget
    rw [hph] at hget
    cases hget
  · obtain ⟨i, hi, _⟩ := hacc.entered (.msgclose msqid) (by rw [hph]; rfl)
    have htest : (kuMsgclose msqid).test (s.process p).queueUse 0 buf =
        .ok (.done 0 (Function.update (s.process p).queueUse i false)) := by
      have hidx : arrayIndex queueNum msqid = .ok i := hi
      simp only [kuMsgclose, hidx, ok_bind]
      rfl
    exact ⟨_, _, .test hph htest, hquiet _ (by simp), by simp⟩
  · exact ⟨_, _, .ret hph, hquiet _ (by simp), by simp⟩
  · exact absurd hph hidle

lemma close_succeeds (hP : Fintype.card P < 2 ^ 31) (h : Run (Guarded Step FlagsKnown) .init ls s)
    {k : Fin queueNum} (hk : arrayIndex queueNum msqid = .ok k) (hheld : holds ls p k = true)
    {ls' : List (P × Move)}
    (hr : Run (Guarded Step Faithful) s ((p, .call (.msgclose msqid)) :: ls') t)
    (hcall : ∀ l ∈ ls', ∀ c, l ≠ (p, .call c)) :
    Closes msqid (t.process p).phase ∧
      ((t.process p).phase ≠ .idle → ∃ m u, Guarded Step Faithful t (p, m) u) := by
  cases hr with
  | @cons _ s₁ _ _ _ hfirst hrest =>
    have hopen : Closes msqid (s₁.process p).phase := by
      cases hfirst.1 with
      | @refused _ _ i hph hi hrefuses =>
        have hacc := accounted_run h p
        obtain rfl := Except.ok.inj (hk.symm.trans hi)
        rw [hacc.held_eq (by simp [hph])] at hheld
        simp [Call.routine, kuMsgclose, hheld] at hrefuses
      | call =>
        rw [process_set_self]
        exact Or.inl rfl
    have hrun₁ := h.snoc ⟨hfirst.1, hfirst.2.1⟩
    have hall : Run (Guarded Step FlagsKnown) .init
          ((ls ++ [(p, .call (.msgclose msqid))]) ++ ls') t ∧
        ((∀ l ∈ ls', ∀ c, l ≠ (p, .call c)) → Closes msqid (t.process p).phase) := by
      refine hrest.induct_right (M := fun js u => Run (Guarded Step FlagsKnown) .init
          ((ls ++ [(p, .call (.msgclose msqid))]) ++ js) u ∧
        ((∀ l ∈ js, ∀ c, l ≠ (p, .call c)) → Closes msqid (u.process p).phase)) ?_ ?_
      · exact ⟨by simpa using hrun₁, fun _ => hopen⟩
      · rintro js u l v _ ⟨hu, hcl⟩ hstep
        refine ⟨?_, ?_⟩
        · rw [← List.append_assoc]
          exact hu.snoc ⟨hstep.1, hstep.2.1⟩
        · intro hjs
          exact closes_step hP hu (hcl fun l' hl' => hjs l' (by simp [hl'])) hstep
            (hjs l (by simp))
    exact ⟨hall.2 hcall, closes_progress hP hall.1 (hall.2 hcall)⟩

end Closing

section Holders

variable {P : Type} [DecidableEq P] [Fintype P]

/-- The ioctl of a `ku_msgget` or `ku_msgclose` takes effect exactly if it succeeds, and that of a
transfer counts nothing. -/
def Call.TakesEffect (y : Reply) : Call → Prop
  | .msgget key _ => ∃ k, arrayIndex queueNum key = .ok k ∧
      y.effect = if 0 ≤ y.ret then some (.counted k) else none
  | .msgclose msqid => ∃ k, arrayIndex queueNum msqid = .ok k ∧
      y.effect = if 0 ≤ y.ret then some (.uncounted k) else none
  | _ => ∀ k, y.effect ≠ some (.counted k) ∧ y.effect ≠ some (.uncounted k)

lemma takesEffect_ioctl {o : Outcome} {d d' : Driver} {y : Reply} {c : Call}
    (h : kuIpcIoctl o d c.routine.request = .ok (d', y))
    (hflg : ∀ key flg, c = .msgget key flg → KnownFlag flg) : c.TakesEffect y := by
  cases c with
  | msgget key flg =>
    rcases kuIpcMsgget_cases h with ⟨hx, hc, _⟩ | ⟨k, hk, ⟨_, _, _, rfl⟩ | ⟨_, _, rfl⟩⟩
    · rcases hflg key flg rfl with rfl | rfl
      · exact absurd rfl hc
      · exact absurd rfl hx
    · exact ⟨k, hk, rfl⟩
    · have hval : key = k.val := arrayIndex_val hk
      exact ⟨k, hk, (if_pos (by simp only; omega)).symm⟩
  | msgclose msqid =>
    obtain ⟨k, hk, ⟨_, _, rfl⟩ | ⟨_, _, rfl⟩⟩ := kuIpcMsgclose_cases h
    · exact ⟨k, hk, rfl⟩
    · exact ⟨k, hk, rfl⟩
  | msgsnd msqid msgp msgsz msgflg =>
    intro k
    obtain ⟨_, _, ⟨_, _, rfl⟩ | ⟨_, _, _, _, _, rfl⟩⟩ := kuIpcMsgsnd_cases h <;> simp
  | msgrcv msqid msgp msgsz msgtyp msgflg =>
    intro k
    obtain ⟨_, _, ⟨_, _, rfl⟩ | ⟨_, _, rfl⟩ | ⟨_, _, _, _, _, _, _, _, _, rfl⟩⟩ :=
      kuIpcMsgrcv_cases h <;> simp

theorem counter_counts_holders (hP : Fintype.card P < 2 ^ 31) {ls : List (P × Move)} {s : System P}
    (h : Run (Guarded Step Faithful) .init ls s) :
    (∀ k, (s.driver.queueReferenceCounter k).toInt = (holders (holds ls) k).card) ∧
    (∀ p key k o y t, (s.process p).phase = .calling (.msgget key (kuIpcCreat ||| kuIpcExcl)) →
      arrayIndex queueNum key = .ok k → Step s (p, .ioctl o y) t →
        (0 ≤ y.ret ↔ ∀ q, holds ls q k = false)) ∧
    (∀ p msqid k ls' t, arrayIndex queueNum msqid = .ok k → holds ls p k = true →
      Run (Guarded Step Faithful) s ((p, .call (.msgclose msqid)) :: ls') t →
      (∀ l ∈ ls', ∀ c, l ≠ (p, .call c)) →
        Closes msqid (t.process p).phase ∧
          ((t.process p).phase ≠ .idle → ∃ m u, Guarded Step Faithful t (p, m) u)) ∧
    ∀ p c o y t, (s.process p).phase = .calling c → Guarded Step Faithful s (p, .ioctl o y) t →
      c.TakesEffect y := by
  have hflags : Run (Guarded Step FlagsKnown) .init ls s :=
    h.mono fun _ _ _ he => ⟨he.1, he.2.1⟩
  refine ⟨counter_toInt hP hflags, ?_, ?_, ?_⟩
  · intro p key k o y t hph hk hs
    cases hs with
    | @ioctl _ c o d y hph' hd =>
      rw [hph] at hph'
      cases hph'
      rw [← counter_eq_zero_iff hP hflags k]
      rcases kuIpcMsgget_cases hd with ⟨hx, _⟩ | ⟨j, hj, ⟨_, hne, _, rfl⟩ | ⟨hzero, _, rfl⟩⟩
      · exact absurd rfl hx
      · obtain rfl := Except.ok.inj (hk.symm.trans hj)
        exact iff_of_false (by decide) hne
      · obtain rfl := Except.ok.inj (hk.symm.trans hj)
        have hkey : key = k.val := arrayIndex_val hk
        refine iff_of_true (by simp only; omega) ?_
        rcases hzero with ⟨_, hzero⟩ | hcreat
        · exact hzero
        · have hne : kuIpcCreat ||| kuIpcExcl ≠ kuIpcCreat := by decide
          exact absurd hcreat hne
  · intro p msqid k ls' t hk hheld hr hcall
    exact close_succeeds hP hflags hk hheld hr hcall
  · rintro p c o y t hph ⟨hs, hf, -⟩
    cases hs with
    | @ioctl _ c' o d y hph' hd =>
      cases hph.symm.trans hph'
      exact takesEffect_ioctl hd fun key flg hc => hf o y key flg rfl (by rw [hph, hc])

theorem counter_counts_holders_creat :
    ((Driver.init.setCounter 1 1).queueReferenceCounter 1).toInt = (holders (holds
      [((0 : Fin 2), .call (.msgget 1 kuIpcCreat)), (0, .openDev true),
        (0, .ioctl .success ⟨1, some (.counted 1), none⟩)]) 1).card := by
  have hrun : Run (Guarded Step Faithful) (.init : System (Fin 2))
      [(0, .call (.msgget 1 kuIpcCreat)), (0, .openDev true),
        (0, .ioctl .success ⟨1, some (.counted 1), none⟩)] _ :=
    .cons ⟨.call (i := 1) rfl rfl rfl, by simp [Faithful, FlagsKnown]⟩
      (.cons ⟨.opened rfl, by simp [Faithful, FlagsKnown]⟩
        (.cons ⟨.ioctl rfl rfl, by rintro o y key flg - ⟨⟩; exact Or.inl rfl, by simp⟩ .nil))
  exact (counter_counts_holders (by decide) hrun).1 1

end Holders

end EmbeddedSystem.KuIpc
