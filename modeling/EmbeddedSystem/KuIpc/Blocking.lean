import EmbeddedSystem.KuIpc.Library

namespace EmbeddedSystem.KuIpc

open Kernel Foundations Foundations.SelectiveFifo

def receive (c : MsgConfig) : Call := .msgrcv c.key c.msg c.msgsz c.msgtyp c.msgflg

def Blocking (msgflg : BitVec 32) : Prop :=
  msgflg &&& kuIpcNowait = 0 ∧ msgflg &&& kuMsgNoerror = 0

instance (msgflg : BitVec 32) : Decidable (Blocking msgflg) := inferInstanceAs (Decidable (_ ∧ _))

def Lacks (d : Driver) (c : MsgConfig) : Prop :=
  ∃ k, arrayIndex queueNum c.key = .ok k ∧ ∀ m ∈ d.msgQueue k, m.type ≠ c.msgtyp

def TooLarge (d : Driver) (c : MsgConfig) : Prop :=
  ∃ k m rest, arrayIndex queueNum c.key = .ok k ∧ Takes Msgbuf.type (d.msgQueue k) m rest ∧
    m.type = c.msgtyp ∧ sizeT c.msgsz < m.volume

section Search

variable {o : Outcome} {d d' : Driver} {y : Reply} {c : MsgConfig}

lemma short_of_tooLarge (h : kuIpcMsgrcv o d c = .ok (d', y)) (hc : c.msgflg &&& kuMsgNoerror = 0)
    (hlarge : TooLarge d c) : d' = d ∧ y = ⟨-2, none, none⟩ := by
  obtain ⟨j, m, rest, hj, ht, hm, hlt⟩ := hlarge
  obtain ⟨k, hk, hcases⟩ := kuIpcMsgrcv_cases h
  obtain rfl := Except.ok.inj (hk.symm.trans hj)
  obtain ⟨habsent, _⟩ | ⟨_, hd, hy⟩ | ⟨m', rest', _, _, ht', hm', hfits, _⟩ := hcases
  · exact absurd hm (habsent m ht.mem)
  · exact ⟨hd, hy⟩
  · obtain rfl := ht.unique ht' (hm.trans hm'.symm)
    have hle := hfits hc
    omega

lemma lacks_or_removes (h : kuIpcMsgrcv o d c = .ok (d', y)) (hsized : ¬ TooLarge d c) :
    Lacks d c ∨ 0 ≤ y.ret := by
  obtain ⟨k, hk, hcases⟩ := kuIpcMsgrcv_cases h
  obtain ⟨habsent, _⟩ | ⟨⟨m, rest, ht, hm, hfits⟩, _⟩ | ⟨_, _, _, _, _, _, _, hcopy, _, rfl⟩ :=
    hcases
  · exact Or.inl ⟨k, hk, habsent⟩
  · refine absurd ⟨k, m, rest, hk, ht, hm, ?_⟩ hsized
    by_contra hle
    exact hfits fun _ => not_lt.mp hle
  · exact Or.inr (userCopy_nonneg hcopy)

end Search

section Finished

variable {P : Type} [DecidableEq P] {s t u : System P} {p : P} {c : MsgConfig}

def Finished (c : MsgConfig) : Phase → Prop
  | .idle => True
  | .testing call ret _ => call = receive c ∧ 0 ≤ ret
  | .closing _ _ _ => True
  | _ => False

lemma received_test {use : Fin queueNum → Bool} {ret : ℤ} (hret : 0 ≤ ret) (buf : Msgbuf) :
    (receive c).routine.test use ret buf = receivedSize use buf := by
  have hlacks : ¬ ret = -1 := by omega
  have hshort : ¬ ret = -2 := by omega
  simp only [receive, Call.routine, kuMsgrcv, if_neg hlacks, if_neg hshort, ite_self]

lemma received_inv {use : Fin queueNum → Bool} {ret : ℤ} {buf : Msgbuf} {v : Verdict}
    (hret : 0 ≤ ret) (h : (receive c).routine.test use ret buf = .ok v) :
    ∃ n, strlen buf.text = .ok n ∧ v = .done (sizeofLong + n + 1) use := by
  rw [received_test hret] at h
  obtain ⟨n, hn, hv⟩ := bind_ok.mp h
  cases hv
  exact ⟨n, hn, rfl⟩

lemma finished_step {m : Move} (h : Finished c (s.process p).phase) (hs : Step s (p, m) t)
    (hm : ∀ call, m ≠ .call call) :
    Finished c (t.process p).phase ∧ ∀ o y, m ≠ .ioctl o y := by
  cases hs with
  | refused | call => exact absurd rfl (hm _)
  | opened hph | unopened hph | ioctl hph _ =>
    rw [hph] at h
    cases h
  | @test _ call ret buf v hph hv =>
    rw [hph] at h
    obtain ⟨rfl, hret⟩ := h
    obtain ⟨n, -, rfl⟩ := received_inv hret hv
    rw [process_set_self]
    exact ⟨trivial, by simp⟩
  | ret =>
    rw [process_set_self]
    exact ⟨trivial, by simp⟩

lemma finished_run {ls : List (P × Move)} (h : Run Step t ls u)
    (hf : Finished c (t.process p).phase) (hcall : ∀ call, (p, .call call) ∉ ls) :
    ∀ o y, (p, .ioctl o y) ∉ ls := by
  induction h with
  | nil => simp
  | @cons s t u l ls hs _ ih =>
    obtain ⟨q, m⟩ := l
    have hrest : ∀ call, (p, .call call) ∉ ls := fun call hmem => hcall call (by simp [hmem])
    by_cases hq : p = q
    · subst hq
      have hm : ∀ call, m ≠ .call call := by
        rintro call rfl
        exact hcall call (by simp)
      obtain ⟨hf', hio⟩ := finished_step hf hs hm
      intro o y hmem
      rcases List.mem_cons.mp hmem with heq | hmem
      · exact hio o y (Prod.mk.inj heq).2.symm
      · exact ih hf' hrest o y hmem
    · rw [← hs.others hq] at hf
      intro o y hmem
      rcases List.mem_cons.mp hmem with heq | hmem
      · exact hq (Prod.mk.inj heq).1
      · exact ih hf hrest o y hmem

end Finished

section GivesUp

variable {P : Type} [DecidableEq P] {s t u : System P} {p : P} {c : MsgConfig} {o : Outcome}
  {y : Reply}

/-- After an ioctl in the state `s` the call issues another one only if there was no message of
its type, and none, but returns -1, if the first message was too large. -/
def GivesUp (s t : System P) (p : P) (c : MsgConfig) : Prop :=
  ∀ ls u, Run Step t ls u → (∀ call, (p, .call call) ∉ ls) →
    ((∃ o y, (p, .ioctl o y) ∈ ls) → Lacks s.driver c) ∧
    (TooLarge s.driver c → (∀ o y, (p, .ioctl o y) ∉ ls) ∧
      ∀ call ret buf, (p, .ret call ret buf) ∈ ls → ret = -1)

lemma receive_inv (hph : (s.process p).phase = .calling (receive c))
    (hs : Step s (p, .ioctl o y) t) : ∃ d, kuIpcMsgrcv o s.driver c = .ok (d, y) ∧
      t = { s with driver := d }.set p (s.process p).queueUse
        (.testing (receive c) (ioctlReturn y.ret) (y.buf.getD c.msg)) := by
  cases hs with
  | @ioctl _ call o d y hph' hd =>
    rw [hph] at hph'
    cases hph'
    exact ⟨d, hd, rfl⟩

lemma givesUp_of_sized (hph : (s.process p).phase = .calling (receive c))
    (hs : Step s (p, .ioctl o y) t) (hsized : ¬ TooLarge s.driver c) :
    GivesUp s t p c := by
  obtain ⟨d, hd, rfl⟩ := receive_inv hph hs
  intro ls u hrun hcall
  refine ⟨?_, fun hlarge => absurd hlarge hsized⟩
  rintro ⟨o', y', hmem⟩
  rcases lacks_or_removes hd hsized with hlacks | hret
  · exact hlacks
  · refine absurd hmem (finished_run (c := c) hrun ?_ hcall o' y')
    rw [process_set_self]
    exact ⟨rfl, by rw [ioctlReturn, if_neg (by omega)]; exact hret⟩

lemma tooLarge_again (hph : (s.process p).phase = .calling (receive c))
    (hb : Blocking c.msgflg) (hs : Step s (p, .ioctl o y) t) (hlarge : TooLarge s.driver c) :
    ∃ u, Run Step t [(p, .test), (p, .ioctl o y)] u := by
  obtain ⟨d, hd, rfl⟩ := receive_inv hph hs
  obtain ⟨rfl, rfl⟩ := short_of_tooLarge hd hb.2 hlarge
  have htest : (receive c).routine.test (s.process p).queueUse (-1) c.msg = .ok .again := by
    have hnowait : ¬ c.msgflg &&& kuIpcNowait ≠ 0 := not_not.mpr hb.1
    simp only [receive, Call.routine, kuMsgrcv, if_neg hnowait]
    rfl
  -- the wrapper hides the -2 from the test for it
  have hret : ioctlReturn (-2) = -1 := rfl
  simp only [hret, Option.getD_none]
  set t := ({ s with driver := s.driver } : System P).set p (s.process p).queueUse
    (.testing (receive c) (-1) c.msg) with ht
  have hpt : t.process p = ⟨(s.process p).queueUse, .testing (receive c) (-1) c.msg⟩ := by
    rw [ht, process_set_self]
  have hstep : Step t (p, .test) (t.set p (s.process p).queueUse (.calling (receive c))) := by
    have hv := Step.test (s := t) (p := p) (v := .again) (by rw [hpt]) (by rw [hpt]; exact htest)
    rw [hpt] at hv
    exact hv
  refine ⟨_, .cons hstep (.cons (.ioctl (c := receive c) ?_ hd) .nil)⟩
  rw [process_set_self]

lemma givesUp_iff (hph : (s.process p).phase = .calling (receive c))
    (hb : Blocking c.msgflg) (hs : Step s (p, .ioctl o y) t) :
    GivesUp s t p c ↔ ¬ TooLarge s.driver c := by
  refine ⟨?_, givesUp_of_sized hph hs⟩
  intro h hlarge
  obtain ⟨u, hrun⟩ := tooLarge_again hph hb hs hlarge
  exact ((h _ u hrun (by simp)).2 hlarge).1 o y (by simp)

/-- No blocking receive issues its ioctl while the first message of its type is too large. -/
def Sized (s : System P) (l : P × Move) : Prop :=
  ∀ o y c, l.2 = .ioctl o y → (s.process l.1).phase = .calling (receive c) →
    Blocking c.msgflg → ¬ TooLarge s.driver c

theorem receives_give_up_iff {ls : List (P × Move)} (h : Run Step (.init : System P) ls s) :
    (∀ ls₁ p o y ls₂ s₁ t₁ c, ls = ls₁ ++ (p, .ioctl o y) :: ls₂ → Run Step .init ls₁ s₁ →
      Step s₁ (p, .ioctl o y) t₁ → (s₁.process p).phase = .calling (receive c) →
        Blocking c.msgflg → GivesUp s₁ t₁ p c) ↔
      Run (Guarded Step Sized) .init ls s := by
  constructor
  · intro hgives
    apply h.guard
    rintro ls₁ ⟨p, m⟩ ls₂ s₁ t₁ rfl hbefore hs - o y c rfl hph hb
    exact (givesUp_iff hph hb hs).mp (hgives ls₁ p o y ls₂ s₁ t₁ c rfl hbefore hs hph hb)
  · rintro hsized ls₁ p o y ls₂ s₁ t₁ c rfl hbefore hs hph hb
    apply (givesUp_iff hph hb hs).mpr
    obtain ⟨s₂, hbefore', hrest⟩ := hsized.split
    obtain rfl := hbefore.unique (fun _ _ _ _ hs hs' => hs.deterministic hs') hbefore'.unguard
    cases hrest with
    | cons hs' _ => exact hs'.2 o y c rfl hph hb

end GivesUp

section Instances

def emptyReceive : MsgConfig := ⟨0, .zero, 136, 1, 0⟩

theorem receives_give_up_empty :
    ∃ s t : System (Fin 1), (s.process 0).phase = .calling (receive emptyReceive) ∧
      Step s (0, .ioctl .success ⟨-1, none, none⟩) t ∧ GivesUp s t 0 emptyReceive := by
  have hquiet : ∀ (s : System (Fin 1)) m, (∀ o y, m ≠ .ioctl o y) → Sized s (0, m) :=
    fun s m hm o y _ he => absurd he (hm o y)
  obtain ⟨s, t, hbefore, hph, hs⟩ : ∃ s t : System (Fin 1),
      Run (Guarded Step Sized) .init [(0, .call (.msgget 0 kuIpcCreat)), (0, .openDev true),
        (0, .ioctl .success ⟨0, some (.counted 0), none⟩), (0, .test),
        (0, .ret (.msgget 0 kuIpcCreat) 0 .zero), (0, .call (receive emptyReceive)),
        (0, .openDev true)] s ∧ (s.process 0).phase = .calling (receive emptyReceive) ∧
      Guarded Step Sized s (0, .ioctl .success ⟨-1, none, none⟩) t := by
    refine ⟨_, _, .cons ⟨.call (i := 0) rfl rfl rfl, hquiet _ _ (by simp)⟩
      (.cons ⟨.opened rfl, hquiet _ _ (by simp)⟩
      (.cons ⟨.ioctl rfl rfl, by rintro o y c - ⟨⟩⟩
      (.cons ⟨.test rfl rfl, hquiet _ _ (by simp)⟩
      (.cons ⟨.ret rfl, hquiet _ _ (by simp)⟩
      (.cons ⟨.call (i := 0) rfl rfl rfl, hquiet _ _ (by simp)⟩
      (.cons ⟨.opened rfl, hquiet _ _ (by simp)⟩ .nil)))))), rfl, .ioctl rfl rfl, ?_⟩
    rintro o y c - - - ⟨k, m, rest, -, ht, -⟩
    cases ht.mem
  have hsized := hbefore.snoc hs
  exact ⟨s, t, hph, hs.1, (receives_give_up_iff hsized.unguard).mpr hsized _ 0 _ _ [] s t
    emptyReceive rfl hbefore.unguard hs.1 hph (by decide)⟩

def hello : Msgbuf := .make 1 [104, 101, 108, 108, 111]

def shortReceive : MsgConfig := ⟨0, .zero, 8, 1, 0⟩

theorem receive_never_gives_up :
    ¬ ∀ (ls : List (Fin 1 × Move)) (s : System (Fin 1)), Run Step .init ls s →
      ∀ p o y t c, Step s (p, .ioctl o y) t → (s.process p).phase = .calling (receive c) →
        Blocking c.msgflg → GivesUp s t p c := by
  intro h
  obtain ⟨s, t, hrun, hph, hlarge, hs⟩ : ∃ s t : System (Fin 1),
      Run Step .init [(0, .call (.msgget 0 kuIpcCreat)), (0, .openDev true),
        (0, .ioctl .success ⟨0, some (.counted 0), none⟩), (0, .test),
        (0, .ret (.msgget 0 kuIpcCreat) 0 .zero), (0, .call (.msgsnd 0 hello 136 0)),
        (0, .openDev true),
        (0, .ioctl .success ⟨0, some (.queued 0 (MsgConfig.stored ⟨0, hello, 136, 0, 0⟩)), none⟩),
        (0, .test), (0, .ret (.msgsnd 0 hello 136 0) 0 hello), (0, .call (receive shortReceive)),
        (0, .openDev true)] s ∧ (s.process 0).phase = .calling (receive shortReceive) ∧
      TooLarge s.driver shortReceive ∧ Step s (0, .ioctl .success ⟨-2, none, none⟩) t := by
    refine ⟨_, _, .cons (.call (i := 0) rfl rfl rfl) (.cons (.opened rfl) (.cons (.ioctl rfl rfl)
      (.cons (.test rfl rfl) (.cons (.ret rfl) (.cons (.call (i := 0) rfl rfl rfl)
      (.cons (.opened rfl) (.cons (.ioctl rfl rfl) (.cons (.test rfl rfl) (.cons (.ret rfl)
      (.cons (.call (i := 0) rfl rfl rfl) (.cons (.opened rfl) .nil))))))))))), rfl, ?_,
      .ioctl rfl rfl⟩
    exact ⟨0, MsgConfig.stored ⟨0, hello, 136, 0, 0⟩, [], rfl, takes_head _ _, by decide +kernel,
      by decide +kernel⟩
  exact (givesUp_iff hph (by decide) hs).mp (h _ s hrun 0 _ _ t shortReceive hs hph (by decide))
    hlarge

end Instances

end EmbeddedSystem.KuIpc
