import EmbeddedSystem.KuIpc.Delivery
import EmbeddedSystem.KuIpc.ExactlyOnce
import EmbeddedSystem.KuIpc.Terminators

namespace EmbeddedSystem.KuIpc

open Kernel Foundations Foundations.SelectiveFifo

section Buffers

variable {o : Outcome} {c : MsgConfig} {m m' : Msgbuf} {msgtyp : BitVec 64} {text : List UInt8}

def Msgbuf.Carries (m : Msgbuf) (msgtyp : BitVec 64) (text : List UInt8) : Prop :=
  m.type = msgtyp ∧ ∀ i : Fin 128, i.val ≤ text.length → m.text i = text.getD i.val 0

def AgreeTo (n : ℕ) (m m' : Msgbuf) : Prop := ∀ i : Fin 136, i.val < n → m.bytes i = m'.bytes i

lemma Msgbuf.Carries.length (h : m.Carries msgtyp text) (htext : 0 ∉ text)
    (hlen : text.length ≤ 127) : textLength m.text = text.length := by
  apply (textLength_eq_iff (by omega)).mpr
  refine ⟨?_, ?_⟩
  · rw [h.2 _ le_rfl]
    simp
  · intro j hj
    rw [h.2 _ hj.le]
    have hget : text.getD j 0 = text[j] := by simp [hj]
    rw [hget]
    exact fun hzero => htext (hzero ▸ List.getElem_mem hj)

lemma received_agree (o : Outcome) (c : MsgConfig) (m : Msgbuf) :
    AgreeTo (c.copied o) (c.receivedWith o m) m :=
  fun _ hi => if_pos hi

lemma copied_complete (ho : o.uncopied = 0) (hsz : 0 ≤ c.msgsz ∧ c.msgsz ≤ sizeofMsgbuf) :
    (c.copied o : ℤ) = c.msgsz := by
  have hsize := sizeT_of_nonneg hsz.1 (hsz.2.trans_lt (by decide))
  rw [MsgConfig.copied, ho, Nat.zero_min, Nat.sub_zero]
  exact hsize

lemma received_volume (hm : Terminated m.text) (hle : m.volume ≤ c.copied o) :
    (c.receivedWith o m).volume = m.volume := by
  have hlen := (terminated_iff _).mp hm
  obtain ⟨hnul, hbefore⟩ := (textLength_eq_iff hlen).mp rfl
  simp only [Msgbuf.volume, sizeofLong] at hle
  have hagree : ∀ i : Fin 128, i.val ≤ textLength m.text →
      (c.receivedWith o m).text i = m.text i := by
    intro i hi
    exact received_agree o c m (Fin.natAdd 8 i) (by simp only [Fin.val_natAdd]; omega)
  have htext : textLength (c.receivedWith o m).text = textLength m.text := by
    apply (textLength_eq_iff hlen).mpr
    refine ⟨(hagree _ le_rfl).trans hnul, ?_⟩
    intro j hj
    rw [hagree _ hj.le]
    exact hbefore j hj
  rw [Msgbuf.volume, Msgbuf.volume, htext]

lemma received_cut (hm : Terminated m.text) (hcut : c.copied o < m.volume)
    (hbuf : Terminated (c.receivedWith o m).text) :
    c.copied o < (c.receivedWith o m).volume := by
  have hlen := (terminated_iff _).mp hm
  have hlen' := (terminated_iff _).mp hbuf
  obtain ⟨-, hbefore⟩ := (textLength_eq_iff hlen).mp rfl
  obtain ⟨hnul, -⟩ := (textLength_eq_iff hlen').mp rfl
  simp only [Msgbuf.volume, sizeofLong] at hcut ⊢
  by_contra hshort
  have hagree := received_agree o c m (Fin.natAdd 8 ⟨_, hlen'⟩)
    (by simp only [Fin.val_natAdd]; omega)
  exact hbefore _ (by omega) (hagree.symm.trans hnul)

end Buffers

section Size

variable {o : Outcome} {c : MsgConfig} {m : Msgbuf} {use : Fin queueNum → Bool} {ret : ℤ}

lemma receivedSize_iff (buf : Msgbuf) (v : Verdict) :
    receivedSize use buf = .ok v ↔ Terminated buf.text ∧ v = .done buf.volume use := by
  have hvolume : (buf.volume : ℤ) = sizeofLong + textLength buf.text + 1 := by
    simp [Msgbuf.volume]
  constructor
  · intro h
    obtain ⟨n, hn, hv⟩ := bind_ok.mp h
    cases hv
    obtain rfl := strlen_inv hn
    refine ⟨?_, by rw [hvolume]⟩
    by_contra hterm
    rw [terminated_iff] at hterm
    rw [strlen, if_neg hterm] at hn
    cases hn
  · rintro ⟨hterm, rfl⟩
    rw [receivedSize, strlen_of_terminated hterm, hvolume]
    rfl

lemma reported_iff (hret : 0 ≤ ret) (hm : Terminated m.text)
    (hsz : 0 ≤ c.msgsz ∧ c.msgsz ≤ sizeofMsgbuf) (ho : o.uncopied = 0) :
    (receive c).routine.test use ret (c.receivedWith o m) =
      .ok (.done (min c.msgsz m.volume) use) ↔ m.volume ≤ c.msgsz := by
  have hcopied := copied_complete ho hsz
  rw [received_test hret, receivedSize_iff]
  constructor
  · rintro ⟨hbuf, hv⟩
    by_contra hcut
    have hlonger := received_cut (o := o) (c := c) hm (by omega) hbuf
    have hmin : min c.msgsz m.volume = (c.receivedWith o m).volume := (Verdict.done.inj hv).1
    omega
  · intro hle
    have hle' : m.volume ≤ c.copied o := by omega
    refine ⟨(receivedWith_terminated_iff hm).mpr (Or.inl hle'), ?_⟩
    rw [received_volume hm hle', min_eq_right hle]

end Size

section Reported

variable {P : Type} [DecidableEq P] {s t u : System P} {p : P} {ls : List (P × Move)}
  {o : Outcome} {y : Reply} {c : MsgConfig} {k : Fin queueNum} {m : Msgbuf}

lemma others_run (h : Run Step s ls t) (hothers : ∀ l ∈ ls, l.1 ≠ p) :
    t.process p = s.process p := by
  induction h with
  | nil => rfl
  | @cons s t u l ls hs _ ih =>
    have hl : p ≠ l.1 := (hothers l (by simp)).symm
    have hrest : ∀ l ∈ ls, l.1 ≠ p := fun l hl => hothers l (by simp [hl])
    rw [ih hrest, hs.others hl]

lemma removed_inv (hph : (s.process p).phase = .calling (receive c))
    (hs : Step s (p, .ioctl o y) t) (hm : y.effect = some (.removed k m)) :
    m ∈ s.driver.msgQueue k ∧ y.ret = (min o.uncopied (sizeT c.msgsz) : ℕ) ∧
      t.process p =
        ⟨(s.process p).queueUse,
          .testing (receive c) (ioctlReturn y.ret) (c.receivedWith o m)⟩ := by
  obtain ⟨d, hd, rfl⟩ := receive_inv hph hs
  obtain ⟨j, _, ⟨_, _, rfl⟩ | ⟨_, _, rfl⟩ | ⟨x, rest, bytes, ret, ht, _, _, hcopy, _, rfl⟩⟩ :=
    kuIpcMsgrcv_cases hd
  · cases hm
  · cases hm
  · cases hm
    obtain rfl := userCopy_copied hcopy
    exact ⟨ht.mem, userCopy_left hcopy, process_set_self _ _ _ _⟩

lemma reports_iff (hph : (s.process p).phase = .calling (receive c))
    (hs : Step s (p, .ioctl o y) t) (hm : y.effect = some (.removed k m)) (hret : y.ret = 0)
    (hq : TerminatedAll (s.driver.msgQueue k))
    (hsz : sizeofLong ≤ c.msgsz ∧ c.msgsz ≤ sizeofMsgbuf) (hu : u.process p = t.process p) :
    (∃ v buf, Step u (p, .test) v ∧
        (v.process p).phase = .closing (receive c) (min c.msgsz m.volume) buf) ↔
      m.volume ≤ c.msgsz := by
  obtain ⟨hmem, hleft, hproc⟩ := removed_inv hph hs hm
  have hsz' : 0 ≤ c.msgsz ∧ c.msgsz ≤ sizeofMsgbuf := ⟨by omega, hsz.2⟩
  have ho : o.uncopied = 0 := by
    have hsize := sizeT_of_nonneg hsz'.1 (hsz'.2.trans_lt (by decide))
    have hlong : sizeofLong = 8 := rfl
    omega
  rw [hret, ← hu] at hproc
  have hreported : (receive c).routine.test (s.process p).queueUse (ioctlReturn 0)
      (c.receivedWith o m) = .ok (.done (min c.msgsz m.volume) (s.process p).queueUse) ↔
        m.volume ≤ c.msgsz :=
    reported_iff (by decide) (hq m hmem) hsz' ho
  rw [← hreported]
  constructor
  · rintro ⟨v, buf, htest, hv⟩
    cases htest with
    | @test _ c' ret' buf' verdict hph' htest =>
      rw [hproc] at hph' htest
      cases hph'
      rw [process_set_self] at hv
      have hsize := htest
      rw [received_test (by decide), receivedSize_iff] at hsize
      obtain ⟨-, rfl⟩ := hsize
      obtain ⟨-, hvolume, -⟩ := Phase.closing.inj hv
      rw [← hvolume]
      exact htest
  · intro htest
    refine ⟨_, c.receivedWith o m, .test (by rw [hproc]) (by rw [hproc]; exact htest), ?_⟩
    rw [process_set_self]
    rfl

theorem received_size_iff (hph : (s.process p).phase = .calling (receive c))
    (hs : Step s (p, .ioctl o y) t) (hm : y.effect = some (.removed k m)) (hret : y.ret = 0)
    (hq : TerminatedAll (s.driver.msgQueue k))
    (hsz : sizeofLong ≤ c.msgsz ∧ c.msgsz ≤ sizeofMsgbuf) (hrun : Run Step t ls u)
    (hothers : ∀ l ∈ ls, l.1 ≠ p) :
    (∃ v buf, Step u (p, .test) v ∧
        (v.process p).phase = .closing (receive c) (min c.msgsz m.volume) buf) ↔
      m.volume ≤ c.msgsz :=
  reports_iff hph hs hm hret hq hsz (others_run hrun hothers)

def receiveInto (msgsz : ℤ) : MsgConfig := ⟨0, .zero, msgsz, 1, kuIpcNowait ||| kuMsgNoerror⟩

def received (msgsz : ℤ) : Reply :=
  ⟨0, some (.removed 0 hello), some ((receiveInto msgsz).receivedWith .success hello)⟩

def beforeReceive (msgsz : ℤ) : System (Fin 1) :=
  ⟨Driver.init.setQueue 0 [hello], fun _ => ⟨fun _ => true, .calling (receive (receiveInto msgsz))⟩⟩

lemma beforeReceive_terminated (msgsz : ℤ) :
    TerminatedAll ((beforeReceive msgsz).driver.msgQueue 0) := by
  intro m hm
  obtain rfl := List.mem_singleton.mp hm
  exact ⟨5, by decide⟩

theorem received_size_whole : ∃ t v buf,
    Step (beforeReceive 136) (0, .ioctl .success (received 136)) t ∧ Step t (0, .test) v ∧
      (v.process 0).phase = .closing (receive (receiveInto 136)) (min 136 hello.volume) buf := by
  obtain ⟨t, hs⟩ : ∃ t, Step (beforeReceive 136) (0, .ioctl .success (received 136)) t :=
    ⟨_, .ioctl rfl rfl⟩
  obtain ⟨v, buf, htest, hv⟩ := (received_size_iff rfl hs rfl rfl (beforeReceive_terminated 136)
    (by decide) .nil (by simp)).mpr (by decide +kernel)
  exact ⟨t, v, buf, hs, htest, hv⟩

theorem received_size_cut : ¬ ∀ (s t : System (Fin 1)) (c : MsgConfig) (o : Outcome) (y : Reply)
    (k : Fin queueNum) (m : Msgbuf), (s.process 0).phase = .calling (receive c) →
      Step s (0, .ioctl o y) t → y.effect = some (.removed k m) → y.ret = 0 →
      TerminatedAll (s.driver.msgQueue k) → sizeofLong ≤ c.msgsz ∧ c.msgsz ≤ sizeofMsgbuf →
        ∃ v buf, Step t (0, .test) v ∧
          (v.process 0).phase = .closing (receive c) (min c.msgsz m.volume) buf := by
  intro h
  obtain ⟨t, hs⟩ : ∃ t, Step (beforeReceive 10) (0, .ioctl .success (received 10)) t :=
    ⟨_, .ioctl rfl rfl⟩
  have hreturns := h _ t _ _ _ _ _ rfl hs rfl rfl (beforeReceive_terminated 10) (by decide)
  have hwhole := (reports_iff rfl hs rfl rfl (beforeReceive_terminated 10) (by decide) rfl).mp
    hreturns
  exact absurd hwhole (by decide +kernel)

end Reported

section Calls

variable {P : Type} [DecidableEq P] {s t : System P} {p : P} {m : Move} {ls : List (P × Move)}

end Calls

section RoundTrip

variable {P : Type} [DecidableEq P] {s t : System P} {p q : P} {k : Fin queueNum} {m : Msgbuf}
  {o : Outcome} {y : Reply} {ls as bs : List (P × Move)}

def effectLog (ls : List (P × Move)) : List Effect := ls.filterMap fun l => l.2.effect

omit [DecidableEq P] in
lemma effectLog_append (ls as : List (P × Move)) :
    effectLog (ls ++ as) = effectLog ls ++ effectLog as :=
  List.filterMap_append ..

lemma delivers_run (h : Run Step .init ls s) : Delivers (s.driver, effectLog ls) := by
  apply h.induct_right (M := fun ls s => Delivers (s.driver, effectLog ls))
  · exact delivers_init
  · rintro ls s ⟨p, m⟩ t - ih hs
    have hlog : effectLog (ls ++ [(p, m)]) = effectLog ls ++ m.effect.toList := by
      rw [effectLog_append]
      cases he : m.effect <;> simp [effectLog, he]
    rw [hlog]
    exact ih.changes (step_changes hs)

end RoundTrip

end EmbeddedSystem.KuIpc
