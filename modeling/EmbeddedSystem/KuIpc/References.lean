import EmbeddedSystem.KuIpc.Library

namespace EmbeddedSystem.KuIpc

open Kernel Foundations

def afterEffect (held : Fin queueNum → Bool) : Option Effect → Fin queueNum → Bool
  | some (.counted k) => Function.update held k true
  | some (.uncounted k) => Function.update held k false
  | _ => held

def afterAcquire (acq : Fin queueNum → Bool) : Move → Fin queueNum → Bool
  | .ioctl _ ⟨_, some (.counted k), _⟩ => Function.update acq k true
  | .ret (.msgclose msqid) ret _ =>
    if 0 ≤ ret then fun k => if (k.val : ℤ) = msqid then false else acq k else acq
  | _ => acq

section

variable {P : Type} [DecidableEq P]

/-- A process holds a queue from its counted `MSGGET` ioctl to its counted `MSGCLOSE` ioctl. -/
def holds (ls : List (P × Move)) : P → Fin queueNum → Bool :=
  history (fun held m => afterEffect held m.effect) (fun _ => false) ls

/-- A process has acquired a queue from its counted `MSGGET` ioctl to the success of its
`ku_msgclose`. -/
def acquired (ls : List (P × Move)) : P → Fin queueNum → Bool :=
  history afterAcquire (fun _ => false) ls

end

def Process.settled (p : Process) : Fin queueNum → Bool :=
  match p.phase with
  | .testing c ret buf =>
    match c.routine.test p.queueUse ret buf with
    | .ok (.done _ use) => use
    | _ => p.queueUse
  | _ => p.queueUse

def Phase.call : Phase → Option Call
  | .idle => none
  | .opening c => some c
  | .calling c => some c
  | .testing c _ _ => some c
  | .closing c _ _ => some c

def KnownFlag (flg : BitVec 32) : Prop := flg = kuIpcCreat ∨ flg = kuIpcCreat ||| kuIpcExcl

section Settled

variable {use : Fin queueNum → Bool} {c : Call} {ret : ℤ} {buf : Msgbuf}

lemma settled_testing_done {use' : Fin queueNum → Bool} {r : ℤ}
    (h : c.routine.test use ret buf = .ok (.done r use')) :
    (⟨use, .testing c ret buf⟩ : Process).settled = use' := by
  simp only [Process.settled, h]

lemma settled_msgsnd (msqid : ℤ) (msgp : Msgbuf) (msgsz : ℤ) (msgflg : BitVec 32) :
    (⟨use, .testing (.msgsnd msqid msgp msgsz msgflg) ret buf⟩ : Process).settled = use := by
  simp only [Process.settled, Call.routine, kuMsgsnd]
  split_ifs <;> rfl

lemma settled_msgrcv (msqid : ℤ) (msgp : Msgbuf) (msgsz : ℤ) (msgtyp : BitVec 64)
    (msgflg : BitVec 32) :
    (⟨use, .testing (.msgrcv msqid msgp msgsz msgtyp msgflg) ret buf⟩ : Process).settled = use := by
  have hsize : (match receivedSize use buf with
      | .ok (.done _ use') => use'
      | _ => use) = use := by
    unfold receivedSize
    cases strlen buf.text <;> rfl
  simp only [Process.settled, Call.routine, kuMsgrcv]
  split_ifs
  · rfl
  · rfl
  · exact hsize
  · rfl
  · rfl
  · exact hsize

lemma settled_ioctl {o : Outcome} {d d' : Driver} {y : Reply}
    (h : kuIpcIoctl o d c.routine.request = .ok (d', y))
    (hflg : ∀ key flg, c = .msgget key flg → KnownFlag flg) :
    (⟨use, .testing c (ioctlReturn y.ret) buf⟩ : Process).settled = afterEffect use y.effect := by
  cases c with
  | msgget key flg =>
    rcases kuIpcMsgget_cases h with ⟨hx, hc, _, _⟩ | ⟨k, hk, ⟨_, _, _, rfl⟩ | ⟨_, _, rfl⟩⟩
    · rcases hflg key flg rfl with rfl | rfl
      · exact absurd rfl hc
      · exact absurd rfl hx
    · rfl
    · have hkey : key = k.val := arrayIndex_val hk
      have hret : ioctlReturn key = k.val := by
        simp only [ioctlReturn]
        rw [if_neg (by omega), hkey]
      refine settled_testing_done (r := k.val) ?_
      simp only [hret, Call.routine, kuMsgget, arrayIndex_fin, ok_bind]
      rw [if_neg (by omega)]
      rfl
  | msgclose msqid =>
    obtain ⟨k, hk, ⟨_, _, rfl⟩ | ⟨_, _, rfl⟩⟩ := kuIpcMsgclose_cases h
    · rfl
    · refine settled_testing_done (r := 0) ?_
      simp only [Call.routine, kuMsgclose, hk, ok_bind]
      rfl
  | msgsnd msqid msgp msgsz msgflg =>
    rw [settled_msgsnd]
    obtain ⟨k, _, ⟨_, _, rfl⟩ | ⟨_, _, _, _, _, rfl⟩⟩ := kuIpcMsgsnd_cases h <;> rfl
  | msgrcv msqid msgp msgsz msgtyp msgflg =>
    rw [settled_msgrcv]
    obtain ⟨k, _, ⟨_, _, rfl⟩ | ⟨_, _, rfl⟩ | ⟨_, _, _, _, _, _, _, _, _, rfl⟩⟩ :=
      kuIpcMsgrcv_cases h <;> rfl

end Settled

def Phase.pending : Phase → Option Call
  | .opening c => some c
  | .calling c => some c
  | .testing c _ _ => some c
  | _ => none

def Process.Entered (p : Process) : Prop :=
  ∀ c, p.phase.pending = some c →
    ∃ i, arrayIndex queueNum c.routine.key = .ok i ∧ c.routine.refuses (p.queueUse i) = false

structure Accounted (p : Process) (held acq : Fin queueNum → Bool) : Prop where
  settled : held = p.settled
  entered : p.Entered
  using_acquired : ∀ k, p.queueUse k = true → acq k = true
  held_acquired : ∀ k, held k = true → acq k = true
  closed : ∀ msqid ret buf, p.phase = .closing (.msgclose msqid) ret buf → 0 ≤ ret →
    ∀ k : Fin queueNum, (k.val : ℤ) = msqid → p.queueUse k = false

def FlagsKnown {P : Type} (s : System P) (l : P × Move) : Prop :=
  ∀ o y key flg, l.2 = .ioctl o y → (s.process l.1).phase = .calling (.msgget key flg) →
    KnownFlag flg

lemma Accounted.held_eq {p : Process} {held acq : Fin queueNum → Bool}
    (h : Accounted p held acq) (hph : ∀ c ret buf, p.phase ≠ .testing c ret buf) :
    held = p.queueUse := by
  rw [h.settled]
  unfold Process.settled
  split
  · next c ret buf heq => exact absurd heq (hph c ret buf)
  · rfl

lemma accounted_test {p : Process} {held acq : Fin queueNum → Bool} {c : Call} {ret : ℤ}
    {buf : Msgbuf} {v : Verdict} (h : Accounted p held acq) (hph : p.phase = .testing c ret buf)
    (hv : c.routine.test p.queueUse ret buf = .ok v) :
    Accounted ⟨(v.next c buf p.queueUse).1, (v.next c buf p.queueUse).2⟩ held acq := by
  have hset := h.settled
  cases v with
  | again =>
    have heq : held = p.queueUse := by simpa [Process.settled, hph, hv] using hset
    refine ⟨heq, ?_, h.using_acquired, h.held_acquired, by simp [Verdict.next]⟩
    intro c' hc
    cases hc
    exact h.entered c (by rw [hph]; rfl)
  | done r use' =>
    have heq : held = use' := by simpa [Process.settled, hph, hv] using hset
    refine ⟨heq, by simp [Process.Entered, Verdict.next, Phase.pending], ?_, h.held_acquired, ?_⟩
    · intro k hk
      exact h.held_acquired k (by rw [heq]; exact hk)
    · rintro msqid r' buf' hcl hr k hk
      cases hcl
      simp only [Call.routine, kuMsgclose] at hv
      split at hv
      · cases hv
        omega
      · obtain ⟨i, hi, hv⟩ := bind_ok.mp hv
        cases hv
        have hki : k = i := by
          have := arrayIndex_val hi
          omega
        simp [Verdict.next, hki]

section Steps

variable {P : Type} [DecidableEq P] {s t : System P} {p : P} {m : Move}
  {held acq : Fin queueNum → Bool}

lemma afterAcquire_ioctl (o : Outcome) (y : Reply) {k : Fin queueNum} (h : acq k = true) :
    afterAcquire acq (.ioctl o y) k = true := by
  obtain ⟨ret, e, buf⟩ := y
  cases e with
  | none => exact h
  | some e =>
    cases e with
    | counted j =>
      by_cases hk : k = j
      · subst hk
        simp [afterAcquire]
      · simpa [afterAcquire, hk] using h
    | _ => exact h

lemma afterEffect_acquired (o : Outcome) (y : Reply) (h : ∀ k, held k = true → acq k = true)
    {k : Fin queueNum} (hk : afterEffect held y.effect k = true) :
    afterAcquire acq (.ioctl o y) k = true := by
  obtain ⟨ret, e, buf⟩ := y
  cases e with
  | none => exact h k hk
  | some e =>
    cases e with
    | counted j =>
      by_cases hkj : k = j
      · subst hkj
        simp [afterAcquire]
      · simp only [afterEffect, Function.update_of_ne hkj] at hk
        simpa [afterAcquire, hkj] using h k hk
    | uncounted j =>
      by_cases hkj : k = j
      · subst hkj
        simp [afterEffect] at hk
      · simp only [afterEffect, Function.update_of_ne hkj] at hk
        exact h k hk
    | queued j x => exact h k hk
    | removed j x => exact h k hk

lemma accounted_step (h : Accounted (s.process p) held acq) (hs : Step s (p, m) t)
    (hf : FlagsKnown s (p, m)) :
    Accounted (t.process p) (afterEffect held m.effect) (afterAcquire acq m) := by
  cases hs with
  | @refused _ c i hph hi hr =>
    have heq := h.held_eq (by simp [hph])
    rw [process_set_self]
    refine ⟨heq, by simp [Process.Entered, Phase.pending], h.using_acquired, h.held_acquired, ?_⟩
    rintro msqid ret buf hcl hret
    cases hcl
    omega
  | @call _ c i hph hi hr =>
    have heq := h.held_eq (by simp [hph])
    rw [process_set_self]
    refine ⟨heq, ?_, h.using_acquired, h.held_acquired, by simp⟩
    intro c' hc
    cases hc
    exact ⟨i, hi, hr⟩
  | @opened _ c hph =>
    have heq := h.held_eq (by simp [hph])
    rw [process_set_self]
    refine ⟨heq, ?_, h.using_acquired, h.held_acquired, by simp⟩
    intro c' hc
    cases hc
    exact h.entered c (by rw [hph]; rfl)
  | @unopened _ c hph =>
    have heq := h.held_eq (by simp [hph])
    rw [process_set_self]
    refine ⟨heq, by simp [Process.Entered, Phase.pending], h.using_acquired, h.held_acquired, ?_⟩
    rintro msqid ret buf hcl hret
    cases hcl
    omega
  | @ioctl _ c o d y hph hd =>
    have heq := h.held_eq (by simp [hph])
    have hset := @settled_ioctl (s.process p).queueUse c (y.buf.getD c.buf) o s.driver d y hd
      fun key flg hc => hf o y key flg rfl (by rw [hph, hc])
    rw [process_set_self]
    refine ⟨by rw [heq]; exact hset.symm, ?_, ?_, ?_, by simp⟩
    · intro c' hc
      cases hc
      exact h.entered c (by rw [hph]; rfl)
    · exact fun k hk => afterAcquire_ioctl o y (h.using_acquired k hk)
    · exact fun k hk => afterEffect_acquired o y h.held_acquired hk
  | @test _ c ret buf v hph hv =>
    rw [process_set_self]
    exact accounted_test h hph hv
  | @ret _ c ret buf hph =>
    have heq := h.held_eq (by simp [hph])
    have hkeep : ∀ k, (s.process p).queueUse k = true →
        afterAcquire acq (.ret c ret buf) k = true := by
      intro k hk
      cases c with
      | msgclose msqid =>
        simp only [afterAcquire]
        split_ifs with hret
        · have hne : (k.val : ℤ) ≠ msqid := by
            intro hkm
            rw [h.closed msqid ret buf hph hret k hkm] at hk
            cases hk
          simpa [hne] using h.using_acquired k hk
        · exact h.using_acquired k hk
      | _ => exact h.using_acquired k hk
    rw [process_set_self]
    refine ⟨heq, by simp [Process.Entered, Phase.pending], hkeep, ?_, by simp⟩
    intro k hk
    exact hkeep k (by rw [← heq]; exact hk)

def Quiet (s t : System P) : Prop :=
  t.driver = s.driver ∧ ∀ q, (t.process q).queueUse = (s.process q).queueUse

lemma quiet_set (s : System P) (p : P) (ph : Phase) :
    Quiet s (s.set p (s.process p).queueUse ph) := by
  refine ⟨rfl, ?_⟩
  intro q
  by_cases hq : q = p
  · subst hq
    rw [process_set_self]
  · rw [process_set_of_ne _ _ _ hq]

lemma step_quiet (hs : Step s (p, m) t)
    (hm : (∀ c, (s.process p).phase ≠ .calling c) ∧
      ∀ c ret buf, (s.process p).phase ≠ .testing c ret buf) : Quiet s t := by
  cases hs with
  | ioctl hph _ => exact absurd hph (hm.1 _)
  | test hph _ => exact absurd hph (hm.2 _ _ _)
  | _ => exact quiet_set s p _

end Steps

section Owned

variable {P : Type} [DecidableEq P] {s t : System P} {p : P} {m : Move} {ls : List (P × Move)}

def Process.Declined (p : Process) : Prop :=
  ∀ key flg, ¬ KnownFlag flg → (∀ ret buf, p.phase ≠ .testing (.msgget key flg) ret buf) ∧
    ∀ ret buf, p.phase = .closing (.msgget key flg) ret buf → ret < 0

lemma declined_step (h : (s.process p).Declined) (hs : Step s (p, m) t) (hf : FlagsKnown s (p, m)) :
    (t.process p).Declined := by
  intro key flg hflg
  cases hs with
  | @ioctl _ c o d y hph hd =>
    rw [process_set_self]
    refine ⟨?_, by simp⟩
    rintro ret buf hc
    cases hc
    exact hflg (hf o y key flg rfl hph)
  | @test _ c ret buf v hph hv =>
    have hc : c ≠ .msgget key flg := by
      rintro rfl
      exact (h key flg hflg).1 ret buf hph
    rw [process_set_self]
    cases v with
    | again => simp [Verdict.next]
    | done r use => simp [Verdict.next, hc]
  | refused | unopened =>
    rw [process_set_self]
    refine ⟨by simp, ?_⟩
    rintro ret buf hc
    cases hc
    decide
  | call | opened | ret =>
    rw [process_set_self]
    simp

lemma accounted_run (h : Run (Guarded Step FlagsKnown) .init ls s) (p : P) :
    Accounted (s.process p) (holds ls p) (acquired ls p) := by
  have hpair := history_invariant (L := fun q x => Accounted q x.1 x.2)
    (f := fun x m => (afterEffect x.1 m.effect, afterAcquire x.2 m))
    (x := (fun _ => false, fun _ => false)) (C := FlagsKnown)
    (fun s p m t x hx hs hf => accounted_step hx hs hf) ?_ h p
  · rw [history_prod (fun held m => afterEffect held m.effect) afterAcquire] at hpair
    exact hpair
  · exact ⟨rfl, by simp [Process.Entered, Phase.pending], by simp, by simp, by simp⟩

lemma declined_run (h : Run (Guarded Step FlagsKnown) .init ls s) (p : P) :
    (s.process p).Declined :=
  history_invariant (L := fun q (_ : Unit) => q.Declined) (f := fun x _ => x) (x := ())
    (fun _ _ _ _ _ hx hs hf => declined_step hx hs hf) (by simp [Process.Declined]) h p

lemma effect_inv {e : Effect} (hs : Step s (p, m) t) (hm : m.effect = some e) :
    ∃ c o ret, (s.process p).phase = .calling c ∧ c.routine.request.Causes o ret e := by
  cases hs with
  | @ioctl _ c o d y hph hd => exact ⟨c, o, y.ret, hph, kuIpcIoctl_causes hd hm⟩
  | _ => cases hm

lemma release_held (h : Run (Guarded Step FlagsKnown) .init ls s) {k : Fin queueNum}
    (hs : Step s (p, m) t) (hm : m.effect = some (.uncounted k)) : holds ls p k = true := by
  have hacc := accounted_run h p
  obtain ⟨c, o, ret, hph, msqid, hreq, hk⟩ := effect_inv hs hm
  obtain rfl := Call.of_msgclose hreq
  obtain ⟨i, hi, hr⟩ := hacc.entered (.msgclose msqid) (by rw [hph]; rfl)
  obtain rfl := Except.ok.inj (hi.symm.trans hk)
  rw [hacc.held_eq (by simp [hph])]
  simpa [Call.routine, kuMsgclose] using hr

lemma unknown_quiet (h : Run (Guarded Step FlagsKnown) .init ls s)
    (hs : Guarded Step FlagsKnown s (p, m) t) {key : ℤ} {flg : BitVec 32}
    (hc : m = .call (.msgget key flg) ∨ (s.process p).phase.call = some (.msgget key flg))
    (hflg : ¬ KnownFlag flg) : Quiet s t := by
  rcases hc with rfl | hc
  · cases hs.1 with
    | refused hph | call hph => exact step_quiet hs.1 (by simp [hph])
  refine step_quiet hs.1 ⟨?_, ?_⟩
  · intro c hph
    rw [hph] at hc
    cases hc
    cases hs.1 with
    | ioctl => exact hflg (hs.2 _ _ key flg rfl hph)
    | refused hidle | call hidle => simp [hidle] at hph
    | opened hop | unopened hop => simp [hop] at hph
    | test hte => simp [hte] at hph
    | ret hcl => simp [hcl] at hph
  · intro c ret buf hph
    rw [hph] at hc
    cases hc
    exact (declined_run h p key flg hflg).1 ret buf hph

lemma unknown_succeeds {u : System P} {o : Outcome} {y : Reply} {key : ℤ} {flg : BitVec 32}
    (hc : (s.process p).phase = .calling (.msgget key flg)) (hflg : ¬ KnownFlag flg)
    (hs : Step s (p, .ioctl o y) t) (ht : Step t (p, .test) u) :
    u.driver = s.driver ∧ (u.process p).queueUse 0 = true ∧
      ∃ buf, (u.process p).phase = .closing (.msgget key flg) 0 buf := by
  cases hs with
  | @ioctl _ c o d y hph hd =>
    rw [hc] at hph
    cases hph
    have hzero : d = s.driver ∧ y = ⟨0, none, none⟩ := by
      rcases kuIpcMsgget_cases hd with ⟨_, _, hd', hy⟩ | ⟨k, _, ⟨hx, _⟩ | ⟨hx, _⟩⟩
      · exact ⟨hd', hy⟩
      · exact absurd (Or.inr hx) hflg
      · exact absurd (hx.elim (fun hx => Or.inr hx.1) Or.inl) hflg
    obtain ⟨rfl, rfl⟩ := hzero
    cases ht with
    | @test _ c' ret buf v hph' hv =>
      rw [process_set_self] at hph' hv
      cases hph'
      cases hv
      refine ⟨rfl, ?_, ?_⟩
      · rw [process_set_self]
        rfl
      · rw [process_set_self]
        exact ⟨_, rfl⟩

theorem references_owned (h : Run (Guarded Step FlagsKnown) (.init : System P) ls s) :
    (∀ p k, (s.process p).queueUse k = true → acquired ls p k = true) ∧
    (∀ p m t k, Step s (p, m) t → m.effect = some (.uncounted k) → holds ls p k = true) ∧
    (∀ p key flg ret buf, (s.process p).phase = .closing (.msgget key flg) ret buf →
      ¬ KnownFlag flg → ret < 0) ∧
    (∀ p m t key flg, Guarded Step FlagsKnown s (p, m) t →
      m = .call (.msgget key flg) ∨ (s.process p).phase.call = some (.msgget key flg) →
      ¬ KnownFlag flg → Quiet s t) ∧
    ∀ p o y t u key flg, (s.process p).phase = .calling (.msgget key flg) → ¬ KnownFlag flg →
      Step s (p, .ioctl o y) t → Step t (p, .test) u →
        u.driver = s.driver ∧ (u.process p).queueUse 0 = true ∧
          ∃ buf, (u.process p).phase = .closing (.msgget key flg) 0 buf := by
  refine ⟨?_, ?_, ?_, ?_, ?_⟩
  · exact fun p k hk => (accounted_run h p).using_acquired k hk
  · exact fun p m t k hs hm => release_held h hs hm
  · exact fun p key flg ret buf hph hflg => (declined_run h p key flg hflg).2 ret buf hph
  · exact fun p m t key flg hs hc hflg => unknown_quiet h hs hc hflg
  · exact fun p o y t u key flg hc hflg hs ht => unknown_succeeds hc hflg hs ht

theorem references_owned_creat :
    acquired [(0, .call (.msgget 1 kuIpcCreat)), (0, .openDev true),
      (0, .ioctl .success ⟨1, some (.counted 1), none⟩), (0, .test)] (0 : Fin 2) 1 = true := by
  have hrun : Run (Guarded Step FlagsKnown) (.init : System (Fin 2))
      [(0, .call (.msgget 1 kuIpcCreat)), (0, .openDev true),
        (0, .ioctl .success ⟨1, some (.counted 1), none⟩), (0, .test)] _ :=
    .cons ⟨.call (i := 1) rfl rfl rfl, by simp [FlagsKnown]⟩
      (.cons ⟨.opened rfl, by simp [FlagsKnown]⟩
        (.cons ⟨.ioctl rfl rfl, by rintro o y key flg - ⟨⟩; exact Or.inl rfl⟩
          (.cons ⟨.test rfl rfl, by simp [FlagsKnown]⟩ .nil)))
  exact (references_owned hrun).1 0 1 rfl

theorem references_unowned :
    ¬ ∀ (ls : List (Fin 2 × Move)) (s : System (Fin 2)), Run Step .init ls s →
      ∀ p k, (s.process p).queueUse k = true → acquired ls p k = true := by
  intro h
  have hrun : Run Step (.init : System (Fin 2))
      [(0, .call (.msgget 3 0)), (0, .openDev true), (0, .ioctl .success ⟨0, none, none⟩),
        (0, .test)] _ :=
    .cons (.call (i := 3) rfl rfl rfl) (.cons (.opened rfl) (.cons (.ioctl rfl rfl)
      (.cons (.test rfl rfl) .nil)))
  have hacq := h _ _ hrun 0 0 rfl
  cases hacq

end Owned

end EmbeddedSystem.KuIpc
