import EmbeddedSystem.KuIpc.Failures
import EmbeddedSystem.KuIpc.References

namespace EmbeddedSystem.KuIpc

open Kernel Foundations Foundations.SelectiveFifo

section Faults

variable {o : Outcome} {d : Driver} {c : MsgConfig} {e : Fault} {q : List Msgbuf}

lemma countMessages_error {num vol : ℕ} (h : countMessages q num vol = .error e) :
    e = .overread := by
  induction q generalizing num vol with
  | nil => cases h
  | cons m q ih =>
    obtain h | ⟨n, -, h⟩ := bind_error.mp h
    · exact (strlen_error_iff.mp h).2
    · exact ih h

lemma findMessage_error (h : findMessage c q = .error e) : e = .overread := by
  induction q with
  | nil => cases h
  | cons m q ih =>
    rw [findMessage] at h
    split at h
    · split at h
      · obtain h | ⟨n, -, h⟩ := bind_error.mp h
        · exact (strlen_error_iff.mp h).2
        · split at h <;> cases h
      · cases h
    · obtain h | ⟨r, -, h⟩ := bind_error.mp h
      · exact ih h
      · cases h

lemma kuIpcMsgsnd_error (h : kuIpcMsgsnd o d c = .error e) :
    ¬ (0 ≤ c.key ∧ c.key < queueNum) ∧ e = .index ∨ e = .overread ∨ e = .null ∨
      sizeofMsgbuf < sizeT c.msgsz ∧ e = .overcopy := by
  obtain h | ⟨k, -, h⟩ := bind_error.mp h
  · exact Or.inl (arrayIndex_error_iff.mp h)
  · obtain h | ⟨⟨num, vol⟩, -, h⟩ := bind_error.mp h
    · exact Or.inr (Or.inl (countMessages_error h))
    · simp only at h
      split at h
      · cases h
      · cases hv : o.vmalloc with
        | false =>
          simp only [hv] at h
          cases h
          exact Or.inr (Or.inr (Or.inl rfl))
        | true =>
          simp only [hv] at h
          obtain h | ⟨⟨bytes, ret⟩, -, h⟩ := bind_error.mp h
          · exact Or.inr (Or.inr (Or.inr (userCopy_error_iff.mp h)))
          · cases hm : o.kmalloc with
            | false =>
              simp only [hm] at h
              cases h
              exact Or.inr (Or.inr (Or.inl rfl))
            | true =>
              simp only [hm] at h
              cases h

lemma kuIpcMsgrcv_error (h : kuIpcMsgrcv o d c = .error e) :
    ¬ (0 ≤ c.key ∧ c.key < queueNum) ∧ e = .index ∨ e = .overread ∨
      sizeofMsgbuf < sizeT c.msgsz ∧ e = .overcopy := by
  obtain h | ⟨k, -, h⟩ := bind_error.mp h
  · exact Or.inl (arrayIndex_error_iff.mp h)
  · obtain h | ⟨r, -, h⟩ := bind_error.mp h
    · exact Or.inr (Or.inl (findMessage_error h))
    · cases r with
      | absent | short => cases h
      | found m rest =>
        obtain h | ⟨⟨bytes, ret⟩, -, h⟩ := bind_error.mp h
        · exact Or.inr (Or.inr (userCopy_error_iff.mp h))
        · cases h

lemma findMessage_absent (h : ∀ m ∈ q, m.type ≠ c.msgtyp) : findMessage c q = .ok .absent := by
  induction q with
  | nil => rfl
  | cons m q ih =>
    have hm : ¬ c.msgtyp = m.type := fun hm => h m (by simp) hm.symm
    rw [findMessage, if_neg hm, ih fun x hx => h x (by simp [hx])]
    rfl

lemma volume_le (m : Msgbuf) : m.volume ≤ sizeofMsgbuf + 1 := by
  have hle : textLength m.text ≤ (List.ofFn m.text).length := List.findIdx_le_length
  rw [List.length_ofFn] at hle
  simp only [Msgbuf.volume, sizeofLong, sizeofMsgbuf]
  omega

end Faults

section Sizes

variable {d : Driver} {c : MsgConfig} {k : Fin queueNum}

/-- Whatever the environment does, no byte outside a message is copied, and a size that would need
one is rejected. -/
def Contained (d : Driver) (r : Request) (msgsz : ℤ) : Prop :=
  ∀ o, kuIpcIoctl o d r ≠ .error .overcopy ∧
    (¬ (0 ≤ msgsz ∧ msgsz ≤ sizeofMsgbuf) → ∃ y, kuIpcIoctl o d r = .ok (d, y) ∧ y.ret < 0)

def Int32 (n : ℤ) : Prop := -2 ^ 31 ≤ n ∧ n < 2 ^ 31

lemma overcopy_iff {n : ℤ} (hn : Int32 n) :
    sizeofMsgbuf < sizeT n ↔ ¬ (0 ≤ n ∧ n ≤ sizeofMsgbuf) := by
  obtain ⟨hlow, hhigh⟩ := hn
  simp only [sizeT, sizeofMsgbuf]
  omega

lemma userCopy_bound {o : Outcome} {dst src : Fin 136 → UInt8} {n : ℤ} {r : (Fin 136 → UInt8) × ℤ}
    (h : userCopy o dst src n = .ok r) : ¬ sizeofMsgbuf < sizeT n := by
  intro hlt
  rw [userCopy_error_iff.mpr ⟨hlt, rfl⟩] at h
  cases h

lemma send_contained_iff (hk : arrayIndex queueNum c.key = .ok k) (hn : Int32 c.msgsz) :
    Contained d (.msgsnd c) c.msgsz ↔ (0 ≤ c.msgsz ∧ c.msgsz ≤ sizeofMsgbuf) ∨
      Full (d.msgQueue k) ∧ TerminatedAll (d.msgQueue k) := by
  have hover := overcopy_iff hn
  constructor
  · intro h
    rw [or_iff_not_imp_left]
    intro hout
    obtain ⟨y, hsend, -⟩ := (h .success).2 hout
    obtain ⟨j, hj, hcases⟩ := kuIpcMsgsnd_cases hsend
    obtain rfl := Except.ok.inj (hj.symm.trans hk)
    obtain ⟨hf, -⟩ | ⟨-, bytes, ret, hcopy, -⟩ := hcases
    · refine ⟨hf, ?_⟩
      by_contra hterm
      simp only [kuIpcIoctl, kuIpcMsgsnd, hk, ok_bind, countMessages_unterminated hterm] at hsend
      cases hsend
    · exact absurd (hover.mpr hout) (userCopy_bound hcopy)
  · rintro (hin | ⟨hf, hterm⟩) o
    · refine ⟨?_, fun hout => absurd hin hout⟩
      intro hfault
      obtain ⟨-, ⟨⟩⟩ | ⟨⟨⟩⟩ | ⟨⟨⟩⟩ | ⟨hlt, -⟩ := kuIpcMsgsnd_error hfault
      exact hover.mp hlt hin
    · have hsend : kuIpcIoctl o d (.msgsnd c) = .ok (d, ⟨-1, none, none⟩) :=
        kuIpcMsgsnd_full hk hterm hf
      rw [hsend]
      exact ⟨by simp, fun _ => ⟨_, rfl, by decide⟩⟩

lemma receive_contained_iff (hk : arrayIndex queueNum c.key = .ok k) (hn : Int32 c.msgsz) :
    Contained d (.msgrcv c) c.msgsz ↔ (0 ≤ c.msgsz ∧ c.msgsz ≤ sizeofMsgbuf) ∨
      ∀ m ∈ d.msgQueue k, m.type ≠ c.msgtyp := by
  have hover := overcopy_iff hn
  constructor
  · intro h
    rw [or_iff_not_imp_left]
    intro hout
    obtain ⟨y, hrcv, -⟩ := (h .success).2 hout
    obtain ⟨j, hj, hcases⟩ := kuIpcMsgrcv_cases hrcv
    obtain rfl := Except.ok.inj (hj.symm.trans hk)
    obtain ⟨habsent, -⟩ | ⟨⟨m, rest, -, -, hfits⟩, -⟩ | ⟨m, rest, bytes, ret, -, -, -, hcopy, -⟩ :=
      hcases
    · exact habsent
    · refine absurd (fun _ => ?_) hfits
      have hlarge := hover.mpr hout
      have hvolume := volume_le m
      omega
    · exact absurd (hover.mpr hout) (userCopy_bound hcopy)
  · rintro (hin | habsent) o
    · refine ⟨?_, fun hout => absurd hin hout⟩
      intro hfault
      obtain ⟨-, ⟨⟩⟩ | ⟨⟨⟩⟩ | ⟨hlt, -⟩ := kuIpcMsgrcv_error hfault
      exact hover.mp hlt hin
    · have hrcv : kuIpcIoctl o d (.msgrcv c) = .ok (d, ⟨-1, none, none⟩) := by
        simp only [kuIpcIoctl, kuIpcMsgrcv, hk, ok_bind, findMessage_absent habsent]
        rfl
      rw [hrcv]
      exact ⟨by simp, fun _ => ⟨_, rfl, by decide⟩⟩

end Sizes

section Runs

variable {P : Type} [DecidableEq P] {s t : System P} {p : P} {c : Call}
  {l : (P × Move) ⊕ (Outcome × Request)} {ls : List ((P × Move) ⊕ (Outcome × Request))}

inductive Mixed (s : System P) : (P × Move) ⊕ (Outcome × Request) → System P → Prop
  | library {l : P × Move} {t : System P} : Step s l t → Mixed s (.inl l) t
  | raw {i : Outcome × Request} {d : Driver} : Ioctl s.driver i d →
      Mixed s (.inr i) { s with driver := d }

structure Process.Indexed (q : Process) : Prop where
  key : ∀ c, q.phase.pending = some c → ∃ i, arrayIndex queueNum c.routine.key = .ok i
  got : ∀ key flg ret buf, q.phase = .testing (.msgget key flg) ret buf → 0 ≤ ret →
    ∃ i, arrayIndex queueNum ret = .ok i

lemma got_index {d d' : Driver} {y : Reply} {q : Qid} (h : kuIpcMsgget d q = .ok (d', y))
    (hret : 0 ≤ ioctlReturn y.ret) : ∃ i, arrayIndex queueNum (ioctlReturn y.ret) = .ok i := by
  obtain ⟨-, -, -, rfl⟩ | ⟨k, hk, ⟨-, -, -, rfl⟩ | ⟨-, -, rfl⟩⟩ := kuIpcMsgget_cases h
  · exact ⟨0, rfl⟩
  · exact absurd hret (by decide)
  · have hkey := arrayIndex_val hk
    have hkeep : ioctlReturn q.key = q.key := ioctlReturn_of_nonneg (by omega)
    exact ⟨k, by rw [hkeep]; exact hk⟩

lemma indexed_step {m : Move} (h : (s.process p).Indexed) (hs : Step s (p, m) t) :
    (t.process p).Indexed := by
  cases hs with
  | call hph hi hr =>
    rw [process_set_self]
    refine ⟨?_, by simp⟩
    rintro c' ⟨⟩
    exact ⟨_, hi⟩
  | @opened _ c hph =>
    rw [process_set_self]
    refine ⟨?_, by simp⟩
    rintro c' ⟨⟩
    exact h.key c (by rw [hph]; rfl)
  | @ioctl _ c o d y hph hd =>
    have hkey := h.key c (by rw [hph]; rfl)
    rw [process_set_self]
    refine ⟨?_, ?_⟩
    · rintro c' ⟨⟩
      exact hkey
    · rintro key flg ret buf ⟨⟩ hret
      exact got_index hd hret
  | @test _ c ret buf v hph hv =>
    rw [process_set_self]
    cases v with
    | again =>
      refine ⟨?_, by simp [Verdict.next]⟩
      rintro c' ⟨⟩
      exact h.key c (by rw [hph]; rfl)
    | done r use => exact ⟨by rintro c' ⟨⟩, by simp [Verdict.next]⟩
  | refused | unopened | ret =>
    rw [process_set_self]
    exact ⟨by rintro c' ⟨⟩, by simp⟩

lemma indexed_run (h : Run Mixed (.init : System P) ls s) (p : P) : (s.process p).Indexed := by
  refine h.invariant (I := fun s => ∀ p, (s.process p).Indexed) ?_ ?_ p
  · intro s l t hall hs p
    cases hs with
    | @library l t hstep =>
      obtain ⟨q, m⟩ := l
      by_cases hq : p = q
      · subst hq
        exact indexed_step (hall p) hstep
      · rw [hstep.others hq]
        exact hall p
    | raw => exact hall p
  · exact fun p => ⟨by rintro c ⟨⟩, by rintro key flg ret buf ⟨⟩⟩

def send (c : MsgConfig) : Call := .msgsnd c.key c.msg c.msgsz c.msgflg

theorem sizes_contained_iff (h : Run Mixed (.init : System P) ls s) (c : MsgConfig)
    (hn : Int32 c.msgsz) :
    ((s.process p).phase = .calling (send c) → ∃ k, arrayIndex queueNum c.key = .ok k ∧
      (Contained s.driver (send c).routine.request c.msgsz ↔
        (0 ≤ c.msgsz ∧ c.msgsz ≤ sizeofMsgbuf) ∨
          Full (s.driver.msgQueue k) ∧ TerminatedAll (s.driver.msgQueue k))) ∧
    ((s.process p).phase = .calling (receive c) → ∃ k, arrayIndex queueNum c.key = .ok k ∧
      (Contained s.driver (receive c).routine.request c.msgsz ↔
        (0 ≤ c.msgsz ∧ c.msgsz ≤ sizeofMsgbuf) ∨
          ∀ m ∈ s.driver.msgQueue k, m.type ≠ c.msgtyp)) := by
  constructor
  · intro hph
    obtain ⟨k, hk⟩ := (indexed_run h p).key (send c) (by rw [hph]; rfl)
    exact ⟨k, hk, send_contained_iff (c := { c with msgtyp := 0 }) hk hn⟩
  · intro hph
    obtain ⟨k, hk⟩ := (indexed_run h p).key (receive c) (by rw [hph]; rfl)
    exact ⟨k, hk, receive_contained_iff hk hn⟩

def oversized : MsgConfig := ⟨0, .zero, 137, 0, 0⟩

def oversizedRun (p q : P) (k : Fin queueNum) : List (P × Move) :=
  [(p, .call (.msgget 0 kuIpcCreat)), (p, .openDev true),
    (p, .ioctl .success ⟨0, some (.counted k), none⟩), (p, .test),
    (p, .ret (.msgget 0 kuIpcCreat) 0 .zero), (q, .call (.msgget 0 kuIpcCreat)),
    (q, .openDev true), (q, .ioctl .success ⟨0, some (.counted k), none⟩), (q, .test),
    (q, .ret (.msgget 0 kuIpcCreat) 0 .zero), (p, .call (send oversized)), (p, .openDev true),
    (q, .call (receive oversized)), (q, .openDev true)]

lemma oversized_run : ∃ s : System (Fin 2),
    Run Mixed .init ((oversizedRun (0 : Fin 2) 1 0).map .inl) s ∧
      (s.process 0).phase = .calling (send oversized) ∧
      (s.process 1).phase = .calling (receive oversized) ∧ ∀ k, s.driver.msgQueue k = [] := by
  refine ⟨_, .cons (.library (.call (i := 0) rfl rfl rfl)) (.cons (.library (.opened rfl))
    (.cons (.library (.ioctl rfl rfl)) (.cons (.library (.test rfl rfl))
    (.cons (.library (.ret rfl)) (.cons (.library (.call (i := 0) rfl rfl rfl))
    (.cons (.library (.opened rfl)) (.cons (.library (.ioctl rfl rfl))
    (.cons (.library (.test rfl rfl)) (.cons (.library (.ret rfl))
    (.cons (.library (.call (i := 0) rfl rfl rfl)) (.cons (.library (.opened rfl))
    (.cons (.library (.call (i := 0) rfl rfl rfl)) (.cons (.library (.opened rfl))
    .nil))))))))))))), rfl, rfl, fun _ => rfl⟩

theorem sizes_contained_two : ∃ s : System (Fin 2),
    (s.process 0).phase = .calling (send oversized) ∧
    (s.process 1).phase = .calling (receive oversized) ∧
    (∃ k, arrayIndex queueNum oversized.key = .ok k ∧
      (Contained s.driver (send oversized).routine.request oversized.msgsz ↔
        (0 ≤ oversized.msgsz ∧ oversized.msgsz ≤ sizeofMsgbuf) ∨
          Full (s.driver.msgQueue k) ∧ TerminatedAll (s.driver.msgQueue k))) ∧
    ∃ k, arrayIndex queueNum oversized.key = .ok k ∧
      (Contained s.driver (receive oversized).routine.request oversized.msgsz ↔
        (0 ≤ oversized.msgsz ∧ oversized.msgsz ≤ sizeofMsgbuf) ∨
          ∀ m ∈ s.driver.msgQueue k, m.type ≠ oversized.msgtyp) := by
  obtain ⟨s, hrun, hsend, hrcv, -⟩ := oversized_run
  have hn : Int32 oversized.msgsz := ⟨by decide, by decide⟩
  exact ⟨s, hsend, hrcv, (sizes_contained_iff hrun oversized hn).1 hsend,
    (sizes_contained_iff hrun oversized hn).2 hrcv⟩

theorem size_uncontained : ¬ ∀ (ls : List ((Fin 2 × Move) ⊕ (Outcome × Request)))
    (s : System (Fin 2)) (p : Fin 2) (c : MsgConfig), Run Mixed .init ls s → Int32 c.msgsz →
      (s.process p).phase = .calling (send c) →
        Contained s.driver (send c).routine.request c.msgsz := by
  intro h
  obtain ⟨s, hrun, hsend, -, hempty⟩ := oversized_run
  have hn : Int32 oversized.msgsz := ⟨by decide, by decide⟩
  have hcontained := h _ s 0 oversized hrun hn hsend
  obtain hin | ⟨hf, -⟩ := (send_contained_iff (c := { oversized with msgtyp := 0 }) (k := 0) rfl
    hn).mp hcontained
  · exact absurd hin.2 (by decide)
  · rw [hempty] at hf
    exact absurd hf (by decide)

def Request.key : Request → Option ℤ
  | .msgget myQid => some myQid.key
  | .msgclose myKey => some myKey
  | .msgrcv myMsg | .msgsnd myMsg => some myMsg.key
  | .unknown => none

/-- An ioctl keeps to the arrays, and rejects a key that would lead out of them. -/
def KeepsArrays (o : Outcome) (d : Driver) (r : Request) (key : ℤ) : Prop :=
  kuIpcIoctl o d r ≠ .error .index ∧
    (¬ (0 ≤ key ∧ key < queueNum) → ∃ y, kuIpcIoctl o d r = .ok (d, y) ∧ y.ret < 0)

def OutOfBounds (s : System P) (p : P) (c : Call) : Prop :=
  (s.process p).phase = .idle ∧ arrayIndex queueNum c.routine.key = .error .index ∨
    (s.process p).phase = .calling c ∧
      (∃ o, kuIpcIoctl o s.driver c.routine.request = .error .index) ∨
    ∃ ret buf, (s.process p).phase = .testing c ret buf ∧
      c.routine.test (s.process p).queueUse ret buf = .error .index

def CallKeepsArrays (s : System P) (p : P) (c : Call) : Prop :=
  ¬ OutOfBounds s p c ∧ (¬ (0 ≤ c.routine.key ∧ c.routine.key < queueNum) →
    (s.process p).phase = .idle → ∃ t ret, Step s (p, .call c) t ∧ t.driver = s.driver ∧
      (t.process p).phase = .closing c ret c.buf ∧ ret < 0)

section Keys

variable {o : Outcome} {d : Driver} {r : Request} {key : ℤ}

lemma index_error (hout : ¬ (0 ≤ key ∧ key < queueNum)) :
    arrayIndex queueNum key = .error .index := arrayIndex_error_iff.mpr ⟨hout, rfl⟩

lemma kuIpcIoctl_inside (hr : r.key = some key) (hin : 0 ≤ key ∧ key < queueNum) :
    kuIpcIoctl o d r ≠ .error .index := by
  obtain ⟨k, hk⟩ := exists_arrayIndex hin
  cases r with
  | msgget q =>
    cases hr
    simp only [kuIpcIoctl, kuIpcMsgget, hk, ok_bind]
    split_ifs <;> rintro ⟨⟩
  | msgclose msqid =>
    cases hr
    obtain ⟨t, y, hclose⟩ := kuIpcMsgclose_total (s := d) hk
    simp only [kuIpcIoctl, hclose]
    rintro ⟨⟩
  | msgrcv c =>
    cases hr
    intro hfault
    obtain ⟨hout, -⟩ | ⟨⟨⟩⟩ | ⟨-, ⟨⟩⟩ := kuIpcMsgrcv_error hfault
    exact hout hin
  | msgsnd c =>
    cases hr
    intro hfault
    obtain ⟨hout, -⟩ | ⟨⟨⟩⟩ | ⟨⟨⟩⟩ | ⟨-, ⟨⟩⟩ := kuIpcMsgsnd_error hfault
    exact hout hin
  | unknown => cases hr

lemma kuIpcIoctl_outside (hr : r.key = some key) (hout : ¬ (0 ≤ key ∧ key < queueNum)) :
    kuIpcIoctl o d r = .error .index ∨ kuIpcIoctl o d r = .ok (d, ⟨0, none, none⟩) := by
  have hindex := index_error hout
  cases r with
  | msgget q =>
    cases hr
    simp only [kuIpcIoctl, kuIpcMsgget, hindex]
    split_ifs
    · exact Or.inl rfl
    · exact Or.inl rfl
    · exact Or.inr rfl
  | msgclose msqid =>
    cases hr
    left
    simp only [kuIpcIoctl, kuIpcMsgclose, hindex]
    rfl
  | msgrcv c =>
    cases hr
    left
    simp only [kuIpcIoctl, kuIpcMsgrcv, hindex]
    rfl
  | msgsnd c =>
    cases hr
    left
    simp only [kuIpcIoctl, kuIpcMsgsnd, hindex]
    rfl
  | unknown => cases hr

lemma keepsArrays_iff (hr : r.key = some key) :
    KeepsArrays o d r key ↔ 0 ≤ key ∧ key < queueNum := by
  constructor
  · rintro ⟨hinside, hrejects⟩
    by_contra hout
    obtain hfault | hzero := kuIpcIoctl_outside (o := o) (d := d) hr hout
    · exact hinside hfault
    · obtain ⟨y, hok, hneg⟩ := hrejects hout
      obtain ⟨-, rfl⟩ := Prod.mk.inj (Except.ok.inj (hzero.symm.trans hok))
      exact absurd hneg (by decide)
  · exact fun hin => ⟨kuIpcIoctl_inside hr hin, fun hout => absurd hin hout⟩

lemma request_key (c : Call) : c.routine.request.key = some c.routine.key := by
  cases c <;> rfl

end Keys

lemma receivedSize_inside {use : Fin queueNum → Bool} {buf : Msgbuf} :
    receivedSize use buf ≠ .error .index := by
  intro h
  obtain h | ⟨n, -, h⟩ := bind_error.mp h
  · cases (strlen_error_iff.mp h).2
  · cases h

lemma test_inside {q : Process} (h : q.Indexed) {use : Fin queueNum → Bool} {ret : ℤ}
    {buf : Msgbuf} (hph : q.phase = .testing c ret buf) :
    c.routine.test use ret buf ≠ .error .index := by
  obtain ⟨i, hi⟩ := h.key c (by rw [hph]; rfl)
  cases c with
  | msgget key flg =>
    simp only [Call.routine, kuMsgget]
    split
    · rintro ⟨⟩
    · next hret =>
      obtain ⟨j, hj⟩ := h.got key flg ret buf hph (not_lt.mp hret)
      rw [hj]
      rintro ⟨⟩
  | msgclose msqid =>
    have hi : arrayIndex queueNum msqid = .ok i := hi
    simp only [Call.routine, kuMsgclose, hi]
    split <;> rintro ⟨⟩
  | msgsnd =>
    simp only [Call.routine, kuMsgsnd]
    split_ifs <;> rintro ⟨⟩
  | msgrcv =>
    simp only [Call.routine, kuMsgrcv]
    split_ifs <;> first | exact receivedSize_inside | rintro ⟨⟩

lemma callKeepsArrays_iff (h : (s.process p).Indexed)
    (hph : (s.process p).phase = .idle ∨ (s.process p).phase.pending = some c) :
    CallKeepsArrays s p c ↔ 0 ≤ c.routine.key ∧ c.routine.key < queueNum := by
  constructor
  · rintro ⟨hinside, -⟩
    obtain hidle | hpending := hph
    · by_contra hout
      exact hinside (Or.inl ⟨hidle, index_error hout⟩)
    · exact arrayIndex_ok_iff.mp (h.key c hpending)
  · intro hin
    refine ⟨?_, fun hout => absurd hin hout⟩
    rintro (⟨-, hindex⟩ | ⟨-, o, hfault⟩ | ⟨ret, buf, htesting, hfault⟩)
    · exact (arrayIndex_error_iff.mp hindex).1 hin
    · exact kuIpcIoctl_inside (request_key c) hin hfault
    · exact test_inside h htesting hfault

theorem keys_contained_iff (h : Run Mixed (.init : System P) ls s) :
    (∀ o r key, Request.key r = some key →
      (KeepsArrays o s.driver r key ↔ 0 ≤ key ∧ key < queueNum)) ∧
    ∀ p c, (s.process p).phase = .idle ∨ (s.process p).phase.pending = some c →
      (CallKeepsArrays s p c ↔ 0 ≤ c.routine.key ∧ c.routine.key < queueNum) :=
  ⟨fun _ _ _ hr => keepsArrays_iff hr, fun p _ hph => callKeepsArrays_iff (indexed_run h p) hph⟩

theorem keys_contained_two : ∃ s : System (Fin 2),
    Run Mixed .init ((oversizedRun (0 : Fin 2) 1 0).map .inl) s ∧
      KeepsArrays .success s.driver (.msgclose 3) 3 ∧
      ¬ KeepsArrays .success s.driver (.msgclose 10) 10 ∧ CallKeepsArrays s 0 (send oversized) := by
  obtain ⟨s, hrun, hsend, -⟩ := oversized_run
  refine ⟨s, hrun, ?_, ?_, ?_⟩
  · exact ((keys_contained_iff hrun).1 .success (.msgclose 3) 3 rfl).mpr (by decide)
  · intro hkeeps
    exact absurd (((keys_contained_iff hrun).1 _ _ 10 rfl).mp hkeeps).2 (by decide)
  · exact ((keys_contained_iff hrun).2 0 _ (Or.inr (by rw [hsend]; rfl))).mpr (by decide)

theorem key_uncontained : ¬ ∀ (ls : List ((Fin 1 × Move) ⊕ (Outcome × Request)))
    (s : System (Fin 1)), Run Mixed .init ls s → ∀ o r key, Request.key r = some key →
      KeepsArrays o s.driver r key := by
  intro h
  have hkeeps := h [] .init .nil .success (.msgclose 10) 10 rfl
  exact absurd ((keepsArrays_iff rfl).mp hkeeps).2 (by decide)

end Runs

end EmbeddedSystem.KuIpc
