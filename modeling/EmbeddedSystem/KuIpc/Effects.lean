import EmbeddedSystem.Foundations.SelectiveFifo
import EmbeddedSystem.KuIpc.Driver

namespace EmbeddedSystem.KuIpc

open Kernel Foundations.SelectiveFifo

def Msgbuf.volume (m : Msgbuf) : ℕ := sizeofLong + textLength m.text + 1

def volume (q : List Msgbuf) : ℕ := (q.map Msgbuf.volume).sum

@[simp] lemma volume_nil : volume [] = 0 := rfl

@[simp] lemma volume_cons (m : Msgbuf) (q : List Msgbuf) :
    volume (m :: q) = m.volume + volume q := by
  simp [volume]

@[simp] lemma volume_append (q r : List Msgbuf) : volume (q ++ r) = volume q + volume r := by
  simp [volume]

def Full (q : List Msgbuf) : Prop :=
  kuipcMaxvol < volume q + sizeofInt ∨ kuipcMaxmsg ≤ q.length

instance (q : List Msgbuf) : Decidable (Full q) := inferInstanceAs (Decidable (_ ∨ _))

def TerminatedAll (q : List Msgbuf) : Prop := ∀ m ∈ q, Terminated m.text

lemma countMessages_ok {q : List Msgbuf} (hq : TerminatedAll q) (num vol : ℕ) :
    countMessages q num vol = .ok (num + q.length, vol + volume q) := by
  induction q generalizing num vol with
  | nil => rfl
  | cons m q ih =>
    have hm : strlen m.text = .ok (textLength m.text) := strlen_of_terminated (hq m (by simp))
    have hrest : TerminatedAll q := fun x hx => hq x (by simp [hx])
    simp only [countMessages, hm, ok_bind, ih hrest, volume_cons, Msgbuf.volume, List.length_cons]
    congr 2 <;> omega

lemma countMessages_inv {q : List Msgbuf} {num vol : ℕ} {r : ℕ × ℕ}
    (h : countMessages q num vol = .ok r) : r = (num + q.length, vol + volume q) := by
  induction q generalizing num vol with
  | nil =>
    cases h
    rfl
  | cons m q ih =>
    simp only [countMessages, bind_ok] at h
    obtain ⟨n, hn, hr⟩ := h
    rw [ih hr, volume_cons, Msgbuf.volume, List.length_cons, strlen_inv hn]
    congr 1 <;> omega

def MsgConfig.Fits (c : MsgConfig) (m : Msgbuf) : Prop :=
  c.msgflg &&& kuMsgNoerror = 0 → m.volume ≤ sizeT c.msgsz

def Search.Finds (c : MsgConfig) (q : List Msgbuf) : Search → Prop
  | .absent => ∀ m ∈ q, m.type ≠ c.msgtyp
  | .short => ∃ m rest, Takes Msgbuf.type q m rest ∧ m.type = c.msgtyp ∧ ¬ c.Fits m
  | .found m rest => Takes Msgbuf.type q m rest ∧ m.type = c.msgtyp ∧ c.Fits m

lemma Search.Finds.past {c : MsgConfig} {q : List Msgbuf} {m : Msgbuf} {r : Search}
    (hm : c.msgtyp ≠ m.type) (h : r.Finds c q) : (r.past m).Finds c (m :: q) := by
  cases r with
  | absent =>
    intro x hx
    rcases List.mem_cons.mp hx with rfl | hx
    · exact hm.symm
    · exact h x hx
  | short =>
    obtain ⟨x, rest, ht, hx, hf⟩ := h
    exact ⟨x, m :: rest, ht.cons (by rw [hx]; exact hm.symm), hx, hf⟩
  | found x rest =>
    obtain ⟨ht, hx, hf⟩ := h
    exact ⟨ht.cons (by rw [hx]; exact hm.symm), hx, hf⟩

lemma findMessage_inv {c : MsgConfig} {q : List Msgbuf} {r : Search}
    (h : findMessage c q = .ok r) : r.Finds c q := by
  induction q generalizing r with
  | nil =>
    cases h
    simp [Search.Finds]
  | cons m q ih =>
    by_cases hm : c.msgtyp = m.type
    · have ht : Takes Msgbuf.type (m :: q) m q := takes_head m q
      rw [findMessage, if_pos hm] at h
      by_cases hflg : c.msgflg &&& kuMsgNoerror = 0
      · rw [if_pos hflg] at h
        simp only [bind_ok] at h
        obtain ⟨n, hn, h⟩ := h
        obtain rfl := strlen_inv hn
        split at h
        · next hs =>
          cases h
          exact ⟨m, q, ht, hm.symm, fun hf => absurd (hf hflg) (by unfold Msgbuf.volume; omega)⟩
        · next hs =>
          cases h
          exact ⟨ht, hm.symm, fun _ => by unfold Msgbuf.volume; omega⟩
      · rw [if_neg hflg] at h
        cases h
        exact ⟨ht, hm.symm, fun hf => absurd hf hflg⟩
    · rw [findMessage, if_neg hm, bind_ok] at h
      obtain ⟨r', hr', h⟩ := h
      cases h
      exact (ih hr').past hm

lemma findMessage_total {c : MsgConfig} {q : List Msgbuf} (hq : TerminatedAll q) :
    ∃ r, findMessage c q = .ok r := by
  induction q with
  | nil => exact ⟨.absent, rfl⟩
  | cons m q ih =>
    by_cases hm : c.msgtyp = m.type
    · have hlen : strlen m.text = .ok (textLength m.text) := strlen_of_terminated (hq m (by simp))
      rw [findMessage, if_pos hm]
      simp only [hlen, ok_bind]
      split_ifs <;> exact ⟨_, rfl⟩
    · obtain ⟨r, hr⟩ := ih fun x hx => hq x (by simp [hx])
      exact ⟨r.past m, by rw [findMessage, if_neg hm, hr]; rfl⟩

section Cases

variable {o : Outcome} {s t : Driver} {y : Reply}

lemma kuIpcMsgget_cases {q : Qid} (h : kuIpcMsgget s q = .ok (t, y)) :
    (q.msgflg ≠ kuIpcCreat ||| kuIpcExcl ∧ q.msgflg ≠ kuIpcCreat ∧ t = s ∧ y = ⟨0, none, none⟩) ∨
    ∃ k, arrayIndex queueNum q.key = .ok k ∧
      (q.msgflg = kuIpcCreat ||| kuIpcExcl ∧ s.queueReferenceCounter k ≠ 0 ∧
          t = s ∧ y = ⟨-1, none, none⟩ ∨
        (q.msgflg = kuIpcCreat ||| kuIpcExcl ∧ s.queueReferenceCounter k = 0 ∨
          q.msgflg = kuIpcCreat) ∧
          t = s.setCounter k (s.queueReferenceCounter k + 1) ∧
          y = ⟨q.key, some (.counted k), none⟩) := by
  unfold kuIpcMsgget at h
  split at h
  · next hx =>
    obtain ⟨k, hk, h⟩ := bind_ok.mp h
    refine Or.inr ⟨k, hk, ?_⟩
    split at h
    · next hc =>
      cases h
      exact Or.inl ⟨hx, hc, rfl, rfl⟩
    · next hc =>
      cases h
      exact Or.inr ⟨Or.inl ⟨hx, not_not.mp hc⟩, rfl, rfl⟩
  · next hx =>
    split at h
    · next hc =>
      obtain ⟨k, hk, h⟩ := bind_ok.mp h
      cases h
      exact Or.inr ⟨k, hk, Or.inr ⟨Or.inr hc, rfl, rfl⟩⟩
    · next hc =>
      cases h
      exact Or.inl ⟨hx, hc, rfl, rfl⟩

lemma kuIpcMsgclose_cases {msqid : ℤ} (h : kuIpcMsgclose s msqid = .ok (t, y)) :
    ∃ k, arrayIndex queueNum msqid = .ok k ∧
      (s.queueReferenceCounter k = 0 ∧ t = s ∧ y = ⟨-1, none, none⟩ ∨
        s.queueReferenceCounter k ≠ 0 ∧ t = s.setCounter k (s.queueReferenceCounter k - 1) ∧
          y = ⟨0, some (.uncounted k), none⟩) := by
  obtain ⟨k, hk, h⟩ := bind_ok.mp h
  have hrange : ¬ (msqid < 0 ∨ msqid ≥ queueNum) := by
    have := arrayIndex_val hk
    omega
  refine ⟨k, hk, ?_⟩
  split at h
  · next hc =>
    cases h
    exact Or.inl ⟨hc.resolve_right hrange, rfl, rfl⟩
  · next hc =>
    cases h
    exact Or.inr ⟨fun h0 => hc (Or.inl h0), rfl, rfl⟩

lemma kuIpcMsgsnd_cases {c : MsgConfig} (h : kuIpcMsgsnd o s c = .ok (t, y)) :
    ∃ k, arrayIndex queueNum c.key = .ok k ∧
      (Full (s.msgQueue k) ∧ t = s ∧ y = ⟨-1, none, none⟩ ∨
        ¬ Full (s.msgQueue k) ∧ ∃ bytes ret,
          userCopy o Msgbuf.zero.bytes c.msg.bytes c.msgsz = .ok (bytes, ret) ∧
          t = s.setQueue k (s.msgQueue k ++ [⟨bytes⟩]) ∧
          y = ⟨ret, some (.queued k ⟨bytes⟩), none⟩) := by
  obtain ⟨k, hk, h⟩ := bind_ok.mp h
  obtain ⟨⟨num, vol⟩, hn, h⟩ := bind_ok.mp h
  obtain ⟨rfl, rfl⟩ := Prod.mk.inj (countMessages_inv hn)
  refine ⟨k, hk, ?_⟩
  simp only [Nat.zero_add] at h
  split at h
  · next hf =>
    cases h
    exact Or.inl ⟨hf, rfl, rfl⟩
  · next hf =>
    refine Or.inr ⟨hf, ?_⟩
    cases hv : o.vmalloc with
    | false => simp [hv] at h; cases h
    | true =>
      simp only [hv] at h
      obtain ⟨-, -, h⟩ := bind_ok.mp h
      obtain ⟨⟨bytes, ret⟩, hcopy, h⟩ := bind_ok.mp h
      cases hm : o.kmalloc with
      | false => simp [hm] at h; cases h
      | true =>
        simp only [hm] at h
        cases h
        exact ⟨bytes, ret, hcopy, rfl, rfl⟩

lemma kuIpcMsgrcv_cases {c : MsgConfig} (h : kuIpcMsgrcv o s c = .ok (t, y)) :
    ∃ k, arrayIndex queueNum c.key = .ok k ∧
      ((∀ m ∈ s.msgQueue k, m.type ≠ c.msgtyp) ∧ t = s ∧ y = ⟨-1, none, none⟩ ∨
        (∃ m rest, Takes Msgbuf.type (s.msgQueue k) m rest ∧ m.type = c.msgtyp ∧ ¬ c.Fits m) ∧
          t = s ∧ y = ⟨-2, none, none⟩ ∨
        ∃ m rest bytes ret, Takes Msgbuf.type (s.msgQueue k) m rest ∧ m.type = c.msgtyp ∧
          c.Fits m ∧ userCopy o c.msg.bytes m.bytes c.msgsz = .ok (bytes, ret) ∧
          t = s.setQueue k rest ∧ y = ⟨ret, some (.removed k m), some ⟨bytes⟩⟩) := by
  obtain ⟨k, hk, h⟩ := bind_ok.mp h
  obtain ⟨r, hr, h⟩ := bind_ok.mp h
  refine ⟨k, hk, ?_⟩
  have hfinds := findMessage_inv hr
  cases r with
  | absent =>
    cases h
    exact Or.inl ⟨hfinds, rfl, rfl⟩
  | short =>
    cases h
    exact Or.inr (Or.inl ⟨hfinds, rfl, rfl⟩)
  | found m rest =>
    obtain ⟨⟨bytes, ret⟩, hcopy, h⟩ := bind_ok.mp h
    cases h
    obtain ⟨ht, hm, hf⟩ := hfinds
    exact Or.inr (Or.inr ⟨m, rest, bytes, ret, ht, hm, hf, hcopy, rfl, rfl⟩)

def Changes (s t : Driver) : Option Effect → Prop
  | none => t = s
  | some (.counted k) => t = s.setCounter k (s.queueReferenceCounter k + 1)
  | some (.uncounted k) => s.queueReferenceCounter k ≠ 0 ∧
      t = s.setCounter k (s.queueReferenceCounter k - 1)
  | some (.queued k m) => ¬ Full (s.msgQueue k) ∧ t = s.setQueue k (s.msgQueue k ++ [m])
  | some (.removed k m) => ∃ rest, Takes Msgbuf.type (s.msgQueue k) m rest ∧ t = s.setQueue k rest

lemma kuIpcIoctl_changes {r : Request} (h : kuIpcIoctl o s r = .ok (t, y)) :
    Changes s t y.effect := by
  cases r with
  | msgget q =>
    rcases kuIpcMsgget_cases h with ⟨_, _, rfl, rfl⟩ | ⟨k, _, ⟨_, _, rfl, rfl⟩ | ⟨_, rfl, rfl⟩⟩
    · rfl
    · rfl
    · rfl
  | msgclose msqid =>
    obtain ⟨k, _, ⟨_, rfl, rfl⟩ | ⟨hc, rfl, rfl⟩⟩ := kuIpcMsgclose_cases h
    · rfl
    · exact ⟨hc, rfl⟩
  | msgrcv c =>
    obtain ⟨k, _, ⟨_, rfl, rfl⟩ | ⟨_, rfl, rfl⟩ | ⟨m, rest, _, _, ht, _, _, _, rfl, rfl⟩⟩ :=
      kuIpcMsgrcv_cases h
    · rfl
    · rfl
    · exact ⟨rest, ht, rfl⟩
  | msgsnd c =>
    obtain ⟨k, _, ⟨_, rfl, rfl⟩ | ⟨hf, _, _, _, rfl, rfl⟩⟩ := kuIpcMsgsnd_cases h
    · rfl
    · exact ⟨hf, rfl⟩
  | unknown =>
    cases h
    rfl

def Request.Causes (o : Outcome) (ret : ℤ) (r : Request) : Effect → Prop
  | .counted k => ∃ q, r = .msgget q ∧ arrayIndex queueNum q.key = .ok k
  | .uncounted k => ∃ msqid, r = .msgclose msqid ∧ arrayIndex queueNum msqid = .ok k
  | .queued k m => ∃ c, r = .msgsnd c ∧ arrayIndex queueNum c.key = .ok k ∧
      userCopy o Msgbuf.zero.bytes c.msg.bytes c.msgsz = .ok (m.bytes, ret)
  | .removed k m => ∃ c, r = .msgrcv c ∧ arrayIndex queueNum c.key = .ok k ∧ m.type = c.msgtyp

lemma kuIpcIoctl_causes {r : Request} {e : Effect} (h : kuIpcIoctl o s r = .ok (t, y))
    (he : y.effect = some e) : r.Causes o y.ret e := by
  cases r with
  | msgget q =>
    rcases kuIpcMsgget_cases h with ⟨_, _, _, rfl⟩ | ⟨k, hk, ⟨_, _, _, rfl⟩ | ⟨_, _, rfl⟩⟩
    · cases he
    · cases he
    · cases he
      exact ⟨q, rfl, hk⟩
  | msgclose msqid =>
    obtain ⟨k, hk, ⟨_, _, rfl⟩ | ⟨_, _, rfl⟩⟩ := kuIpcMsgclose_cases h
    · cases he
    · cases he
      exact ⟨msqid, rfl, hk⟩
  | msgrcv c =>
    obtain ⟨k, hk, ⟨_, _, rfl⟩ | ⟨_, _, rfl⟩ | ⟨_, _, _, _, _, hm, _, _, _, rfl⟩⟩ :=
      kuIpcMsgrcv_cases h
    · cases he
    · cases he
    · cases he
      exact ⟨c, rfl, hk, hm⟩
  | msgsnd c =>
    obtain ⟨k, hk, ⟨_, _, rfl⟩ | ⟨_, _, _, hcopy, _, rfl⟩⟩ := kuIpcMsgsnd_cases h
    · cases he
    · cases he
      exact ⟨c, rfl, hk, hcopy⟩
  | unknown =>
    cases h
    cases he

end Cases

section Total

def Request.Valid : Request → Prop
  | .msgget q => 0 ≤ q.key ∧ q.key < queueNum
  | .msgclose msqid => 0 ≤ msqid ∧ msqid < queueNum
  | .msgrcv c => (0 ≤ c.key ∧ c.key < queueNum) ∧ 0 ≤ c.msgsz ∧ c.msgsz ≤ sizeofMsgbuf
  | .msgsnd c => (0 ≤ c.key ∧ c.key < queueNum) ∧ (0 ≤ c.msgsz ∧ c.msgsz ≤ sizeofMsgbuf) ∧
      Terminated c.msg.text
  | .unknown => True

def MsgConfig.stored (c : MsgConfig) : Msgbuf :=
  ⟨copyBytes Msgbuf.zero.bytes c.msg.bytes c.msgsz.toNat⟩

lemma MsgConfig.stored_text (c : MsgConfig) (i : Fin 128) :
    c.stored.text i = if 8 + i.val < c.msgsz.toNat then c.msg.text i else 0 := rfl

lemma MsgConfig.stored_terminated {c : MsgConfig} (h : Terminated c.msg.text) :
    Terminated c.stored.text := by
  by_cases hsz : 136 ≤ c.msgsz.toNat
  · obtain ⟨i, hi⟩ := h
    refine ⟨i, ?_⟩
    rw [c.stored_text, if_pos (by omega)]
    exact hi
  · -- the last byte is not copied
    refine ⟨⟨127, by decide⟩, ?_⟩
    rw [c.stored_text, if_neg (by simp only; omega)]

lemma MsgConfig.stored_volume {c : MsgConfig} (h : Terminated c.msg.text)
    (hsz : c.msgsz = c.msg.volume) : c.stored.volume = c.msg.volume := by
  have hlen := (terminated_iff _).mp h
  obtain ⟨hnul, hbefore⟩ := (textLength_eq_iff hlen).mp rfl
  have hlt : ∀ i, i ≤ textLength c.msg.text → 8 + i < c.msgsz.toNat := by
    intro i hi
    rw [hsz]
    simp only [Msgbuf.volume, sizeofLong]
    omega
  have htext : textLength c.stored.text = textLength c.msg.text := by
    refine (textLength_eq_iff hlen).mpr ⟨?_, ?_⟩
    · rw [c.stored_text, if_pos (hlt _ le_rfl)]
      exact hnul
    · intro j hj
      rw [c.stored_text, if_pos (hlt _ hj.le)]
      exact hbefore j hj
  simp only [Msgbuf.volume, htext]

variable {s : Driver}

lemma kuIpcMsgsnd_full {o : Outcome} {c : MsgConfig} {k : Fin queueNum}
    (hk : arrayIndex queueNum c.key = .ok k) (hq : TerminatedAll (s.msgQueue k))
    (hf : Full (s.msgQueue k)) : kuIpcMsgsnd o s c = .ok (s, ⟨-1, none, none⟩) := by
  simp only [kuIpcMsgsnd, hk, countMessages_ok hq, ok_bind, Nat.zero_add]
  rw [if_pos (by simpa [Full] using hf)]
  rfl

lemma kuIpcMsgsnd_total {c : MsgConfig} {k : Fin queueNum} (hk : arrayIndex queueNum c.key = .ok k)
    (hsz : 0 ≤ c.msgsz ∧ c.msgsz ≤ sizeofMsgbuf) (hq : TerminatedAll (s.msgQueue k)) :
    kuIpcMsgsnd .success s c = .ok
      (if Full (s.msgQueue k) then (s, ⟨-1, none, none⟩)
      else (s.setQueue k (s.msgQueue k ++ [c.stored]), ⟨0, some (.queued k c.stored), none⟩)) := by
  have hcopy := userCopy_success (n := 136) hsz (by decide) Msgbuf.zero.bytes c.msg.bytes
  by_cases hf : Full (s.msgQueue k)
  · rw [if_pos hf]
    exact kuIpcMsgsnd_full hk hq hf
  · simp only [kuIpcMsgsnd, hk, countMessages_ok hq, ok_bind, Nat.zero_add]
    rw [if_neg hf, if_neg (by simpa [Full] using hf)]
    simp only [Outcome.success] at hcopy
    simp only [Outcome.success, hcopy]
    rfl

lemma kuIpcMsgrcv_total (o : Outcome) {c : MsgConfig} {k : Fin queueNum}
    (hk : arrayIndex queueNum c.key = .ok k) (hsz : 0 ≤ c.msgsz ∧ c.msgsz ≤ sizeofMsgbuf)
    (hq : TerminatedAll (s.msgQueue k)) : ∃ x, kuIpcMsgrcv o s c = .ok x := by
  obtain ⟨r, hr⟩ := findMessage_total (c := c) hq
  simp only [kuIpcMsgrcv, hk, hr, ok_bind]
  cases r with
  | absent => exact ⟨_, rfl⟩
  | short => exact ⟨_, rfl⟩
  | found m rest =>
    obtain ⟨⟨bytes, ret⟩, hcopy⟩ :=
      userCopy_total (n := 136) o hsz (by decide) c.msg.bytes m.bytes
    simp only [hcopy, ok_bind]
    exact ⟨_, rfl⟩

lemma kuIpcMsgclose_total {msqid : ℤ} {k : Fin queueNum}
    (hk : arrayIndex queueNum msqid = .ok k) : ∃ t y, kuIpcMsgclose s msqid = .ok (t, y) := by
  simp only [kuIpcMsgclose, hk, ok_bind]
  split_ifs <;> exact ⟨_, _, rfl⟩

lemma kuIpcIoctl_total {r : Request} (hr : r.Valid) (hq : ∀ k, TerminatedAll (s.msgQueue k)) :
    ∃ t y, kuIpcIoctl .success s r = .ok (t, y) := by
  cases r with
  | msgget q =>
    obtain ⟨k, hk⟩ := exists_arrayIndex hr
    simp only [kuIpcIoctl, kuIpcMsgget, hk, ok_bind]
    split_ifs <;> exact ⟨_, _, rfl⟩
  | msgclose msqid =>
    obtain ⟨k, hk⟩ := exists_arrayIndex hr
    exact kuIpcMsgclose_total hk
  | msgrcv c =>
    obtain ⟨k, hk⟩ := exists_arrayIndex hr.1
    obtain ⟨⟨t, y⟩, hx⟩ := kuIpcMsgrcv_total .success hk hr.2 (hq k)
    exact ⟨t, y, hx⟩
  | msgsnd c =>
    obtain ⟨k, hk⟩ := exists_arrayIndex hr.1
    exact ⟨_, _, kuIpcMsgsnd_total hk hr.2.1 (hq k)⟩
  | unknown => exact ⟨_, _, rfl⟩

lemma changes_terminated {t : Driver} {e : Option Effect} (h : Changes s t e)
    (hq : ∀ k, TerminatedAll (s.msgQueue k))
    (he : ∀ k m, e = some (.queued k m) → Terminated m.text) :
    ∀ k, TerminatedAll (t.msgQueue k) := by
  intro k
  cases e with
  | none =>
    obtain rfl := h
    exact hq k
  | some e =>
    cases e with
    | counted j =>
      obtain rfl := h
      exact hq k
    | uncounted j =>
      obtain ⟨_, rfl⟩ := h
      exact hq k
    | queued j m =>
      obtain ⟨_, rfl⟩ := h
      by_cases hkj : k = j
      · subst hkj
        intro x hx
        simp only [msgQueue_setQueue, Function.update_self, List.mem_append,
          List.mem_singleton] at hx
        rcases hx with hx | rfl
        · exact hq k x hx
        · exact he k x rfl
      · simpa only [msgQueue_setQueue, Function.update_of_ne hkj] using hq k
    | removed j m =>
      obtain ⟨rest, ht, rfl⟩ := h
      by_cases hkj : k = j
      · subst hkj
        intro x hx
        rw [msgQueue_setQueue, Function.update_self] at hx
        exact hq k x (ht.subset hx)
      · simpa only [msgQueue_setQueue, Function.update_of_ne hkj] using hq k

lemma terminated_step {r : Request} {t : Driver} {y : Reply} (hr : r.Valid)
    (hq : ∀ k, TerminatedAll (s.msgQueue k)) (h : kuIpcIoctl .success s r = .ok (t, y)) :
    ∀ k, TerminatedAll (t.msgQueue k) := by
  refine changes_terminated (kuIpcIoctl_changes h) hq ?_
  intro k m he
  obtain ⟨c, rfl, _, hcopy⟩ := kuIpcIoctl_causes h he
  rw [userCopy_success (n := 136) hr.2.1 (by decide)] at hcopy
  obtain ⟨hbytes, -⟩ := Prod.mk.inj (Except.ok.inj hcopy)
  have hm : c.stored = m := congrArg Msgbuf.mk hbytes
  rw [← hm]
  exact MsgConfig.stored_terminated hr.2.2

end Total

end EmbeddedSystem.KuIpc
