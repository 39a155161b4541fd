import EmbeddedSystem.KuIpc.Blocking

namespace EmbeddedSystem.KuIpc

open Kernel Foundations Foundations.SelectiveFifo

section Copies

variable {o : Outcome} {c : MsgConfig}

def MsgConfig.copied (o : Outcome) (c : MsgConfig) : ℕ :=
  sizeT c.msgsz - min o.uncopied (sizeT c.msgsz)

def MsgConfig.storedWith (o : Outcome) (c : MsgConfig) : Msgbuf :=
  ⟨copyBytes Msgbuf.zero.bytes c.msg.bytes (c.copied o)⟩

def MsgConfig.receivedWith (o : Outcome) (c : MsgConfig) (m : Msgbuf) : Msgbuf :=
  ⟨copyBytes c.msg.bytes m.bytes (c.copied o)⟩

lemma userCopy_copied {dst src bytes : Fin 136 → UInt8} {ret : ℤ}
    (h : userCopy o dst src c.msgsz = .ok (bytes, ret)) :
    bytes = copyBytes dst src (c.copied o) := by
  unfold userCopy at h
  split at h
  · cases h
    rfl
  · cases h

lemma copied_le (o : Outcome) (hsz : 0 ≤ c.msgsz ∧ c.msgsz ≤ sizeofMsgbuf) :
    c.copied o ≤ sizeofMsgbuf := by
  have hsize := sizeT_of_nonneg hsz.1 (hsz.2.trans_lt (by decide))
  have hmax := hsz.2
  rw [MsgConfig.copied]
  omega

lemma terminated_copyBytes (dst src : Msgbuf) (n : ℕ) :
    Terminated (Msgbuf.text ⟨copyBytes dst.bytes src.bytes n⟩) ↔
      (∃ i : Fin 128, 8 + i.val < n ∧ src.text i = 0) ∨
        ∃ i : Fin 128, n ≤ 8 + i.val ∧ dst.text i = 0 := by
  have htext : ∀ i, Msgbuf.text ⟨copyBytes dst.bytes src.bytes n⟩ i =
      if 8 + i.val < n then src.text i else dst.text i := fun _ => rfl
  constructor
  · rintro ⟨i, hi⟩
    rw [htext] at hi
    split at hi
    · next hlt => exact Or.inl ⟨i, hlt, hi⟩
    · next hge => exact Or.inr ⟨i, not_lt.mp hge, hi⟩
  · rintro (⟨i, hlt, hi⟩ | ⟨i, hge, hi⟩)
    · exact ⟨i, by rw [htext, if_pos hlt, hi]⟩
    · exact ⟨i, by rw [htext, if_neg (not_lt.mpr hge), hi]⟩

lemma storedWith_terminated_iff (hsz : 0 ≤ c.msgsz ∧ c.msgsz ≤ sizeofMsgbuf) :
    Terminated (c.storedWith o).text ↔ c.copied o < sizeofMsgbuf ∨ Terminated c.msg.text := by
  have hle := copied_le o hsz
  rw [MsgConfig.storedWith, terminated_copyBytes]
  constructor
  · rintro (⟨i, _, hi⟩ | ⟨i, hge, _⟩)
    · exact Or.inr ⟨i, hi⟩
    · have hlast : 8 + i.val < sizeofMsgbuf := by simp only [sizeofMsgbuf]; omega
      exact Or.inl (hge.trans_lt hlast)
  · rintro (hlt | ⟨i, hi⟩)
    · -- the last byte is not copied
      exact Or.inr ⟨⟨127, by decide⟩, Nat.le_of_lt_succ hlt, rfl⟩
    · by_cases hlt : 8 + i.val < c.copied o
      · exact Or.inl ⟨i, hlt, hi⟩
      · exact Or.inr ⟨i, not_lt.mp hlt, rfl⟩

lemma volume_le_iff {m : Msgbuf} (hm : Terminated m.text) (n : ℕ) :
    m.volume ≤ n ↔ ∃ i : Fin 128, 8 + i.val < n ∧ m.text i = 0 := by
  have hlen := (terminated_iff _).mp hm
  obtain ⟨hnul, hbefore⟩ := (textLength_eq_iff hlen).mp rfl
  simp only [Msgbuf.volume, sizeofLong]
  constructor
  · intro hle
    exact ⟨⟨_, hlen⟩, by simp only; omega, hnul⟩
  · rintro ⟨i, hlt, hi⟩
    have hlate : textLength m.text ≤ i.val := by
      by_contra hearly
      exact hbefore i.val (by omega) hi
    omega

lemma receivedWith_terminated_iff {m : Msgbuf} (hm : Terminated m.text) :
    Terminated (c.receivedWith o m).text ↔
      m.volume ≤ c.copied o ∨ ∃ i : Fin 128, c.copied o ≤ 8 + i.val ∧ c.msg.text i = 0 := by
  rw [volume_le_iff hm]
  exact terminated_copyBytes c.msg m (c.copied o)

end Copies

def Request.InRange : Request → Prop
  | .msgget q => 0 ≤ q.key ∧ q.key < queueNum
  | .msgclose msqid => 0 ≤ msqid ∧ msqid < queueNum
  | .msgrcv c | .msgsnd c =>
    (0 ≤ c.key ∧ c.key < queueNum) ∧ 0 ≤ c.msgsz ∧ c.msgsz ≤ sizeofMsgbuf
  | .unknown => True

def Ioctl (s : Driver) (i : Outcome × Request) (t : Driver) : Prop :=
  ∃ y, kuIpcIoctl i.1 s i.2 = .ok (t, y)

/-- Neither the ioctl nor, after a receive, the library reads past a text. -/
def Readable (s : Driver) (i : Outcome × Request) : Prop :=
  kuIpcIoctl i.1 s i.2 ≠ .error .overread ∧
    ∀ c t y use, i.2 = .msgrcv c → kuIpcIoctl i.1 s i.2 = .ok (t, y) →
      (receive c).routine.test use (ioctlReturn y.ret) (y.buf.getD c.msg) ≠ .error .overread

/-- A message that a send stores leaves the last byte to the zero fill or has a NUL of its own. -/
def Terminating (s : Driver) (i : Outcome × Request) : Prop :=
  ∀ c k, i.2 = .msgsnd c → arrayIndex queueNum c.key = .ok k → ¬ Full (s.msgQueue k) →
    i.1.vmalloc = true → i.1.kmalloc = true →
      c.copied i.1 < sizeofMsgbuf ∨ Terminated c.msg.text

/-- A message is received with its NUL, or into a buffer with a NUL behind the copied bytes. -/
def Delivering (s : Driver) (i : Outcome × Request) : Prop :=
  ∀ c k m rest, i.2 = .msgrcv c → arrayIndex queueNum c.key = .ok k →
    Takes Msgbuf.type (s.msgQueue k) m rest → m.type = c.msgtyp → c.Fits m →
      m.volume ≤ c.copied i.1 ∨ ∃ j : Fin 128, c.copied i.1 ≤ 8 + j.val ∧ c.msg.text j = 0

section Ioctls

variable {o : Outcome} {s t : Driver} {y : Reply} {c : MsgConfig} {k : Fin queueNum} {r : Request}
  {i : Outcome × Request}

lemma terminated_setQueue (hq : ∀ k, TerminatedAll (s.msgQueue k)) (q : List Msgbuf) :
    (∀ j, TerminatedAll ((s.setQueue k q).msgQueue j)) ↔ TerminatedAll q := by
  constructor
  · intro h
    simpa using h k
  · intro h j
    by_cases hj : j = k
    · subst hj
      simpa using h
    · simpa [hj] using hq j

lemma kuIpcMsgsnd_stores (hk : arrayIndex queueNum c.key = .ok k)
    (hsz : 0 ≤ c.msgsz ∧ c.msgsz ≤ sizeofMsgbuf) (hq : TerminatedAll (s.msgQueue k))
    (hf : ¬ Full (s.msgQueue k)) (hv : o.vmalloc = true) (hm : o.kmalloc = true) :
    ∃ y, kuIpcMsgsnd o s c =
      .ok (s.setQueue k (s.msgQueue k ++ [c.storedWith o]), y) := by
  obtain ⟨⟨bytes, ret⟩, hcopy⟩ :=
    userCopy_total (n := 136) o hsz (by decide) Msgbuf.zero.bytes c.msg.bytes
  refine ⟨⟨ret, some (.queued k (c.storedWith o)), none⟩, ?_⟩
  simp only [kuIpcMsgsnd, hk, countMessages_ok hq, ok_bind, Nat.zero_add]
  rw [if_neg (by simpa [Full] using hf)]
  simp only [hv, hm, hcopy]
  rw [MsgConfig.storedWith, ← userCopy_copied hcopy]
  rfl

lemma kuIpcMsgrcv_receives (hk : arrayIndex queueNum c.key = .ok k)
    (hsz : 0 ≤ c.msgsz ∧ c.msgsz ≤ sizeofMsgbuf) (hq : TerminatedAll (s.msgQueue k))
    {m : Msgbuf} {rest : List Msgbuf} (ht : Takes Msgbuf.type (s.msgQueue k) m rest)
    (hm : m.type = c.msgtyp) (hfits : c.Fits m) :
    ∃ t y, kuIpcMsgrcv o s c = .ok (t, y) ∧ 0 ≤ y.ret ∧ y.buf = some (c.receivedWith o m) := by
  obtain ⟨⟨t, y⟩, hrcv⟩ := kuIpcMsgrcv_total o hk hsz hq
  refine ⟨t, y, hrcv, ?_⟩
  obtain ⟨j, hj, hcases⟩ := kuIpcMsgrcv_cases hrcv
  obtain rfl := Except.ok.inj (hj.symm.trans hk)
  obtain ⟨habsent, _⟩ | ⟨⟨m', rest', ht', hm', hshort⟩, _⟩ |
    ⟨m', rest', bytes, ret, ht', hm', _, hcopy, _, rfl⟩ := hcases
  · exact absurd hm (habsent m ht.mem)
  · obtain rfl := ht.unique ht' (hm.trans hm'.symm)
    exact absurd hfits hshort
  · obtain rfl := ht.unique ht' (hm.trans hm'.symm)
    refine ⟨userCopy_nonneg hcopy, ?_⟩
    rw [MsgConfig.receivedWith, ← userCopy_copied hcopy]

lemma kuIpcMsgsnd_readable (hk : arrayIndex queueNum c.key = .ok k)
    (hsz : 0 ≤ c.msgsz ∧ c.msgsz ≤ sizeofMsgbuf) (hq : TerminatedAll (s.msgQueue k)) :
    kuIpcMsgsnd o s c ≠ .error .overread := by
  obtain ⟨⟨bytes, ret⟩, hcopy⟩ :=
    userCopy_total (n := 136) o hsz (by decide) Msgbuf.zero.bytes c.msg.bytes
  simp only [kuIpcMsgsnd, hk, countMessages_ok hq, ok_bind, Nat.zero_add]
  split
  · rintro ⟨⟩
  · cases hv : o.vmalloc with
    | false => rintro ⟨⟩
    | true =>
      cases hm : o.kmalloc with
      | false =>
        simp only [hcopy]
        rintro ⟨⟩
      | true =>
        simp only [hcopy]
        rintro ⟨⟩

lemma kuIpcMsgsnd_allocated (h : kuIpcMsgsnd o s c = .ok (t, y))
    (hk : arrayIndex queueNum c.key = .ok k) (hf : ¬ Full (s.msgQueue k)) :
    o.vmalloc = true ∧ o.kmalloc = true := by
  obtain ⟨j, hj, h⟩ := bind_ok.mp h
  obtain rfl := Except.ok.inj (hj.symm.trans hk)
  obtain ⟨⟨num, vol⟩, hn, h⟩ := bind_ok.mp h
  obtain ⟨rfl, rfl⟩ := Prod.mk.inj (countMessages_inv hn)
  simp only [Nat.zero_add] at h
  rw [if_neg (by simpa [Full] using hf)] at h
  cases hv : o.vmalloc with
  | false =>
    simp only [hv] at h
    cases h
  | true =>
    simp only [hv] at h
    obtain ⟨-, -, h⟩ := bind_ok.mp h
    obtain ⟨⟨bytes, ret⟩, _, h⟩ := bind_ok.mp h
    cases hm : o.kmalloc with
    | false =>
      simp only [hm] at h
      cases h
    | true => exact ⟨rfl, rfl⟩

lemma terminated_send_iff (hq : ∀ k, TerminatedAll (s.msgQueue k))
    (hr : (Request.msgsnd c).InRange) (h : kuIpcMsgsnd o s c = .ok (t, y)) :
    (∀ k, TerminatedAll (t.msgQueue k)) ↔ Terminating s (o, .msgsnd c) := by
  obtain ⟨k, hk⟩ := exists_arrayIndex hr.1
  by_cases hf : Full (s.msgQueue k)
  · obtain ⟨j, hj, ⟨_, rfl, _⟩ | ⟨hroom, _⟩⟩ := kuIpcMsgsnd_cases h
    · apply iff_of_true hq
      rintro c' j' ⟨⟩ hj' hroom
      obtain rfl := Except.ok.inj (hk.symm.trans hj')
      exact absurd hf hroom
    · obtain rfl := Except.ok.inj (hk.symm.trans hj)
      exact absurd hf hroom
  · obtain ⟨hv, hm⟩ := kuIpcMsgsnd_allocated h hk hf
    obtain ⟨y', hstores⟩ := kuIpcMsgsnd_stores hk hr.2 (hq k) hf hv hm
    obtain ⟨rfl, -⟩ := Prod.mk.inj (Except.ok.inj (hstores.symm.trans h))
    rw [terminated_setQueue hq]
    have hstored := storedWith_terminated_iff (o := o) hr.2
    constructor
    · rintro hall c' j ⟨⟩ - - - -
      exact hstored.mp (hall _ (by simp))
    · intro hterm m hm'
      obtain hm' | hm' := List.mem_append.mp hm'
      · exact hq k m hm'
      · obtain rfl := List.mem_singleton.mp hm'
        exact hstored.mpr (hterm c k rfl hk hf hv hm)

lemma terminated_ioctl_iff (hq : ∀ k, TerminatedAll (s.msgQueue k)) (hr : i.2.InRange)
    (h : Ioctl s i t) : (∀ k, TerminatedAll (t.msgQueue k)) ↔ Terminating s i := by
  obtain ⟨o, r⟩ := i
  obtain ⟨y, h⟩ := h
  cases r with
  | msgsnd c => exact terminated_send_iff hq hr h
  | msgget | msgclose | msgrcv | unknown =>
    apply iff_of_true
    · apply changes_terminated (kuIpcIoctl_changes h) hq
      intro k m he
      obtain ⟨c, hc, _⟩ := kuIpcIoctl_causes h he
      cases hc
    · rintro c k ⟨⟩

lemma kuIpcMsgrcv_readable (hq : ∀ k, TerminatedAll (s.msgQueue k))
    (hr : (Request.msgrcv c).InRange) : kuIpcMsgrcv o s c ≠ .error .overread := by
  obtain ⟨k, hk⟩ := exists_arrayIndex hr.1
  obtain ⟨x, hx⟩ := kuIpcMsgrcv_total o hk hr.2 (hq k)
  rw [hx]
  rintro ⟨⟩

lemma failed_readable {use : Fin queueNum → Bool} {buf : Msgbuf} :
    (receive c).routine.test use (-1) buf ≠ .error .overread := by
  simp only [receive, Call.routine, kuMsgrcv]
  split
  · rintro ⟨⟩
  · rintro ⟨⟩

lemma received_readable_iff {use : Fin queueNum → Bool} {ret : ℤ} {buf : Msgbuf} (hret : 0 ≤ ret) :
    (receive c).routine.test use ret buf ≠ .error .overread ↔ Terminated buf.text := by
  rw [received_test hret, terminated_iff, receivedSize, strlen]
  split
  · next hlt => simp [hlt]
  · next hge =>
    apply iff_of_false _ hge
    exact not_not.mpr rfl

lemma readable_receive_iff (hq : ∀ k, TerminatedAll (s.msgQueue k))
    (hr : (Request.msgrcv c).InRange) :
    Readable s (o, .msgrcv c) ↔ Delivering s (o, .msgrcv c) := by
  constructor
  · rintro ⟨-, hread⟩ c' k m rest ⟨⟩ hk ht hm hfits
    obtain ⟨t, y, hrcv, hret, hbuf⟩ := kuIpcMsgrcv_receives (o := o) hk hr.2 (hq k) ht hm hfits
    have htest := hread c t y (fun _ => true) rfl hrcv
    rw [ioctlReturn_of_nonneg hret, received_readable_iff hret, hbuf] at htest
    exact (receivedWith_terminated_iff (hq k m ht.mem)).mp htest
  · intro hdeliver
    refine ⟨kuIpcMsgrcv_readable hq hr, ?_⟩
    rintro c' t y use ⟨⟩ h
    obtain ⟨k, hk, ⟨_, _, rfl⟩ | ⟨_, _, rfl⟩ | htaken⟩ := kuIpcMsgrcv_cases h
    · exact failed_readable
    · exact failed_readable
    · obtain ⟨m, rest, bytes, ret, ht, hm, hfits, hcopy, _, rfl⟩ := htaken
      have hret : 0 ≤ ret := userCopy_nonneg hcopy
      rw [ioctlReturn_of_nonneg hret, received_readable_iff hret]
      obtain rfl := userCopy_copied hcopy
      apply (receivedWith_terminated_iff (hq k m ht.mem)).mpr
      exact hdeliver c k m rest rfl hk ht hm hfits

lemma readable_other (hne : ∀ c, i.2 ≠ .msgrcv c)
    (hno : kuIpcIoctl i.1 s i.2 ≠ .error .overread) : Readable s i ↔ Delivering s i := by
  apply iff_of_true
  · exact ⟨hno, fun c _ _ _ hc => absurd hc (hne c)⟩
  · exact fun c _ _ _ hc => absurd hc (hne c)

lemma readable_iff (hq : ∀ k, TerminatedAll (s.msgQueue k)) (hr : i.2.InRange) :
    Readable s i ↔ Delivering s i := by
  obtain ⟨o, r⟩ := i
  cases r with
  | msgrcv c => exact readable_receive_iff hq hr
  | msgsnd c =>
    obtain ⟨k, hk⟩ := exists_arrayIndex hr.1
    exact readable_other (by simp) (kuIpcMsgsnd_readable hk hr.2 (hq k))
  | msgget q =>
    apply readable_other (by simp)
    obtain ⟨t, y, h⟩ := kuIpcIoctl_total (r := .msgget q) hr hq
    exact ne_of_eq_of_ne h (by simp)
  | msgclose msqid =>
    apply readable_other (by simp)
    obtain ⟨t, y, h⟩ := kuIpcIoctl_total (r := .msgclose msqid) hr hq
    exact ne_of_eq_of_ne h (by simp)
  | unknown =>
    apply readable_other (by simp)
    rintro ⟨⟩

end Ioctls

section Runs

theorem texts_terminated_iff (rs : List (Outcome × Request)) (hv : ∀ i ∈ rs, i.2.InRange) :
    (∀ js ks s, rs = js ++ ks → Run Ioctl .init js s →
      (∀ k, TerminatedAll (s.msgQueue k)) ∧ ∀ i is, ks = i :: is → Readable s i) ↔
      ∀ js i ks s, rs = js ++ i :: ks → Run Ioctl .init js s →
        Terminating s i ∧ Delivering s i := by
  have hinit : ∀ k, TerminatedAll (Driver.init.msgQueue k) := by
    rintro k m ⟨⟩
  have hstep : ∀ (t : Driver) (i : Outcome × Request) (u : Driver),
      (∀ k, TerminatedAll (t.msgQueue k)) → i.2.InRange → Ioctl t i u →
        ((∀ k, TerminatedAll (u.msgQueue k)) ↔ Terminating t i) :=
    fun t i u hq hi hstep => terminated_ioctl_iff hq hi hstep
  have hstays : (∀ js ks s, rs = js ++ ks → Run Ioctl .init js s →
      ∀ k, TerminatedAll (s.msgQueue k)) ↔
        ∀ js i ks s t, rs = js ++ i :: ks → Run Ioctl .init js s → Ioctl s i t → Terminating s i :=
    Run.stays_iff hinit hstep hv
  constructor
  · intro h js i ks s hsplit hjs
    obtain ⟨hq, hread⟩ := h js (i :: ks) s hsplit hjs
    have hi : i.2.InRange := hv i (by simp [hsplit])
    refine ⟨?_, (readable_iff hq hi).mp (hread i ks rfl)⟩
    have hterm := hstays.mp fun js ks s hsplit hjs => (h js ks s hsplit hjs).1
    obtain ⟨o, r⟩ := i
    rintro c k rfl hk hf hvmalloc hkmalloc
    obtain ⟨y, hsend⟩ := kuIpcMsgsnd_stores hk hi.2 (hq k) hf hvmalloc hkmalloc
    exact hterm js _ ks s _ hsplit hjs ⟨y, hsend⟩ c k rfl hk hf hvmalloc hkmalloc
  · intro h js ks s hsplit hjs
    have hq := hstays.mpr (fun js i ks s _ hsplit hjs _ => (h js i ks s hsplit hjs).1) js ks s
      hsplit hjs
    refine ⟨hq, ?_⟩
    rintro i is rfl
    exact (readable_iff hq (hv i (by simp [hsplit]))).mpr (h js i is s hsplit hjs).2

theorem texts_terminated_two :
    let rs : List (Outcome × Request) :=
      [(.success, .msgsnd ⟨1, .make 1 [104, 105], 11, 0, 0⟩),
        (.success, .msgrcv ⟨1, .zero, 136, 1, 0⟩)]
    (∀ js ks s, rs = js ++ ks → Run Ioctl .init js s →
      (∀ k, TerminatedAll (s.msgQueue k)) ∧ ∀ i is, ks = i :: is → Readable s i) ↔
      ∀ js i ks s, rs = js ++ i :: ks → Run Ioctl .init js s →
        Terminating s i ∧ Delivering s i := by
  apply texts_terminated_iff
  rintro i hi
  obtain rfl | hi := List.mem_cons.mp hi
  · exact ⟨by decide, by decide⟩
  · obtain rfl := List.mem_singleton.mp hi
    exact ⟨by decide, by decide⟩

theorem text_unterminated : ¬ ∀ (rs : List (Outcome × Request)) (s : Driver),
    (∀ i ∈ rs, i.2.InRange) → Run Ioctl .init rs s → ∀ k, TerminatedAll (s.msgQueue k) := by
  intro h
  let c : MsgConfig := ⟨0, ⟨fun _ => 97⟩, 136, 0, 0⟩
  have hrange : (Request.msgsnd c).InRange := ⟨by decide, by decide⟩
  obtain ⟨y, hsend⟩ := kuIpcMsgsnd_stores (o := .success) (s := .init) (c := c) (k := 0) rfl
    hrange.2 (fun m hm => by cases hm) (by decide) rfl rfl
  have hrun : Run Ioctl .init [(.success, .msgsnd c)] _ := .single ⟨y, hsend⟩
  have hall := h _ _ (by simpa using hrange) hrun 0 (c.storedWith .success) (by simp)
  obtain hlt | ⟨i, hi⟩ := (storedWith_terminated_iff hrange.2).mp hall
  · exact absurd hlt (by decide)
  · exact absurd hi (by simp [c, Msgbuf.text])

end Runs

end EmbeddedSystem.KuIpc
