import EmbeddedSystem.KuIpc.Library

namespace EmbeddedSystem.KuIpc

open Kernel Foundations

def afterMove (es : List Effect) : Move → List Effect
  | .call _ => []
  | .ioctl _ y => es ++ y.effect.toList
  | _ => es

def effects {P : Type} [DecidableEq P] (ls : List (P × Move)) : P → List Effect :=
  history afterMove [] ls

def Call.Agrees (ret : ℤ) (buf : Msgbuf) (es : List Effect) : Call → Prop
  | .msgsnd msqid msgp msgsz msgflg => ∃ k, arrayIndex queueNum msqid = .ok k ∧
      (0 ≤ ret ∧ es = [.queued k (MsgConfig.stored ⟨msqid, msgp, msgsz, 0, msgflg⟩)] ∨
        ret = -1 ∧ es = [])
  | .msgrcv msqid msgp msgsz _ _ => ∃ k, arrayIndex queueNum msqid = .ok k ∧
      (0 ≤ ret ∧ (∃ m, es = [.removed k m] ∧
          buf = ⟨copyBytes msgp.bytes m.bytes msgsz.toNat⟩) ∨ ret = -1 ∧ es = [])
  | _ => True

def Call.Waits : Call → Prop
  | .msgsnd _ _ _ msgflg => msgflg &&& kuIpcNowait = 0
  | _ => False

def Call.Sized : Call → Prop
  | .msgsnd _ _ msgsz _ => 0 ≤ msgsz ∧ msgsz ≤ sizeofMsgbuf
  | .msgrcv _ _ msgsz _ _ => 0 ≤ msgsz ∧ msgsz ≤ sizeofMsgbuf
  | _ => True

def Call.Transfers : Call → Prop
  | .msgsnd .. => True
  | .msgrcv .. => True
  | _ => False

/-- Opens and user copies succeed, and a transfer is of a held queue and fits a buffer. -/
def Granted {P : Type} (s : System P) : P × Move → Prop
  | (p, .call c) => c.Sized ∧ (c.Transfers → ∀ k, arrayIndex queueNum c.routine.key = .ok k →
      (s.process p).queueUse k = true)
  | (_, .openDev success) => success = true
  | (_, .ioctl o _) => o.uncopied = 0
  | _ => True

def Process.Exact (q : Process) (es : List Effect) : Prop :=
  match q.phase with
  | .idle => True
  | .opening c => es = [] ∧ c.Sized
  | .calling c => es = [] ∧ c.Sized
  | .testing c ret buf => c.Agrees ret buf es ∧ c.Sized
  | .closing c ret buf => c.Agrees ret buf es ∧ (c.Waits → 0 ≤ ret)

section Calls

variable {o : Outcome} {d d' : Driver} {y : Reply} {c : Call}

lemma agrees_ioctl (ho : o.uncopied = 0) (hc : c.Sized)
    (h : kuIpcIoctl o d c.routine.request = .ok (d', y)) :
    c.Agrees (ioctlReturn y.ret) (y.buf.getD c.buf) y.effect.toList := by
  cases c with
  | msgget | msgclose => trivial
  | msgsnd msqid msgp msgsz msgflg =>
    obtain ⟨k, hk, ⟨_, _, rfl⟩ | ⟨_, bytes, ret, hcopy, _, rfl⟩⟩ := kuIpcMsgsnd_cases h
    · exact ⟨k, hk, Or.inr ⟨rfl, rfl⟩⟩
    · rw [userCopy_complete (n := 136) ho hc (by decide)] at hcopy
      cases hcopy
      exact ⟨k, hk, Or.inl ⟨le_rfl, rfl⟩⟩
  | msgrcv msqid msgp msgsz msgtyp msgflg =>
    obtain ⟨k, hk, ⟨_, _, rfl⟩ | ⟨_, _, rfl⟩ | ⟨m, rest, bytes, ret, _, _, _, hcopy, _, rfl⟩⟩ :=
      kuIpcMsgrcv_cases h
    · exact ⟨k, hk, Or.inr ⟨rfl, rfl⟩⟩
    · exact ⟨k, hk, Or.inr ⟨rfl, rfl⟩⟩
    · rw [userCopy_complete (n := 136) ho hc (by decide)] at hcopy
      cases hcopy
      exact ⟨k, hk, Or.inl ⟨le_rfl, m, rfl, rfl⟩⟩

lemma agrees_received {use : Fin queueNum → Bool} {ret : ℤ} {buf : Msgbuf} {es : List Effect}
    {v : Verdict} {msqid : ℤ} {msgp : Msgbuf} {msgsz : ℤ} {msgtyp : BitVec 64} {msgflg : BitVec 32}
    (ha : (Call.msgrcv msqid msgp msgsz msgtyp msgflg).Agrees ret buf es) (hret : ret ≠ -1)
    (h : receivedSize use buf = .ok v) :
    Process.Exact ⟨(v.next (.msgrcv msqid msgp msgsz msgtyp msgflg) buf use).1,
      (v.next (.msgrcv msqid msgp msgsz msgtyp msgflg) buf use).2⟩ es := by
  obtain ⟨n, -, hv⟩ := bind_ok.mp h
  cases hv
  obtain ⟨k, hk, ⟨_, hes⟩ | ⟨hneg, _⟩⟩ := ha
  · exact ⟨⟨k, hk, Or.inl ⟨by omega, hes⟩⟩, False.elim⟩
  · exact absurd hneg hret

lemma agrees_test {use : Fin queueNum → Bool} {ret : ℤ} {buf : Msgbuf} {es : List Effect}
    {v : Verdict} (ha : c.Agrees ret buf es) (hc : c.Sized)
    (h : c.routine.test use ret buf = .ok v) :
    Process.Exact ⟨(v.next c buf use).1, (v.next c buf use).2⟩ es := by
  cases c with
  | msgget key flg =>
    simp only [Call.routine, kuMsgget] at h
    split_ifs at h
    · cases h
      exact ⟨trivial, False.elim⟩
    · obtain ⟨i, -, hv⟩ := bind_ok.mp h
      cases hv
      exact ⟨trivial, False.elim⟩
  | msgclose msqid =>
    simp only [Call.routine, kuMsgclose] at h
    split_ifs at h
    · cases h
      exact ⟨trivial, False.elim⟩
    · obtain ⟨i, -, hv⟩ := bind_ok.mp h
      cases hv
      exact ⟨trivial, False.elim⟩
  | msgsnd msqid msgp msgsz msgflg =>
    simp only [Call.routine, kuMsgsnd] at h
    split_ifs at h with hnowait hret
    · cases h
      exact ⟨ha, fun hw => absurd hw hnowait⟩
    · cases h
      obtain ⟨k, hk, ⟨hle, _⟩ | ⟨_, hes⟩⟩ := ha
      · omega
      · exact ⟨hes, hc⟩
    · cases h
      exact ⟨ha, fun _ => not_lt.mp hret⟩
  | msgrcv msqid msgp msgsz msgtyp msgflg =>
    have hshort : ret ≠ -2 := by
      obtain ⟨k, hk, ⟨hle, _⟩ | ⟨hneg, _⟩⟩ := ha <;> omega
    simp only [Call.routine, kuMsgrcv, if_neg hshort] at h
    split_ifs at h with hnowait hlacks hlacks
    · cases h
      exact ⟨ha, False.elim⟩
    · exact agrees_received ha hlacks h
    · cases h
      obtain ⟨k, hk, ⟨hle, _⟩ | ⟨_, hes⟩⟩ := ha
      · omega
      · exact ⟨hes, hc⟩
    · exact agrees_received ha hlacks h

end Calls

section Runs

variable {P : Type} [DecidableEq P] {s t : System P} {p : P} {ls : List (P × Move)}

lemma agrees_refused {c : Call} (hc : ¬ c.Transfers) (ret : ℤ) (buf : Msgbuf) :
    c.Agrees ret buf [] ∧ (c.Waits → 0 ≤ ret) := by
  cases c with
  | msgget | msgclose => exact ⟨trivial, False.elim⟩
  | msgsnd | msgrcv => exact absurd trivial hc

lemma exact_step {m : Move} {es : List Effect} (h : (s.process p).Exact es)
    (hs : Step s (p, m) t) (hg : Granted s (p, m)) : (t.process p).Exact (afterMove es m) := by
  cases hs with
  | @refused _ c i hph hi hr =>
    rw [process_set_self]
    apply agrees_refused
    intro hc
    have huse := hg.2 hc i hi
    cases c with
    | msgget | msgclose => exact hc
    | msgsnd | msgrcv => simp [Call.routine, kuMsgsnd, kuMsgrcv, huse] at hr
  | call =>
    rw [process_set_self]
    exact ⟨rfl, hg.1⟩
  | opened hph =>
    rw [process_set_self]
    simp only [Process.Exact, hph] at h
    exact h
  | unopened => cases hg
  | @ioctl _ c o d y hph hd =>
    simp only [Process.Exact, hph] at h
    obtain ⟨rfl, hc⟩ := h
    rw [process_set_self]
    exact ⟨agrees_ioctl hg hc hd, hc⟩
  | @test _ c ret buf v hph hv =>
    simp only [Process.Exact, hph] at h
    rw [process_set_self]
    exact agrees_test h.1 h.2 hv
  | ret =>
    rw [process_set_self]
    trivial

lemma exact_run (h : Run (Guarded Step Granted) .init ls s) (p : P) :
    (s.process p).Exact (effects ls p) :=
  history_invariant (L := Process.Exact) (fun _ _ _ _ _ hx hs hg => exact_step hx hs hg)
    trivial h p

theorem calls_take_effect_once (h : Run (Guarded Step Granted) (.init : System P) ls s) :
    (∀ p m t, Step s (p, m) t → Changes s.driver t.driver m.effect) ∧
    (∀ p msqid msgp msgsz msgflg ret buf t,
      Step s (p, .ret (.msgsnd msqid msgp msgsz msgflg) ret buf) t →
        (∃ k, arrayIndex queueNum msqid = .ok k ∧
          (0 ≤ ret ∧ effects ls p = [.queued k (MsgConfig.stored ⟨msqid, msgp, msgsz, 0, msgflg⟩)] ∨
            ret < 0 ∧ effects ls p = [])) ∧
        (msgflg &&& kuIpcNowait = 0 → 0 ≤ ret)) ∧
    ∀ p msqid msgp msgsz msgtyp msgflg ret buf t,
      Step s (p, .ret (.msgrcv msqid msgp msgsz msgtyp msgflg) ret buf) t →
        ∃ k, arrayIndex queueNum msqid = .ok k ∧
          (0 ≤ ret ∧ (∃ m, effects ls p = [.removed k m] ∧
              buf = ⟨copyBytes msgp.bytes m.bytes msgsz.toNat⟩) ∨
            ret < 0 ∧ effects ls p = []) := by
  refine ⟨fun p m t hs => step_changes hs, ?_, ?_⟩
  · intro p msqid msgp msgsz msgflg ret buf t hs
    have hexact := exact_run h p
    cases hs with
    | ret hph =>
      simp only [Process.Exact, hph] at hexact
      obtain ⟨⟨k, hk, hret⟩, hwaits⟩ := hexact
      refine ⟨⟨k, hk, ?_⟩, hwaits⟩
      obtain hret | ⟨rfl, hes⟩ := hret
      · exact Or.inl hret
      · exact Or.inr ⟨by decide, hes⟩
  · intro p msqid msgp msgsz msgtyp msgflg ret buf t hs
    have hexact := exact_run h p
    cases hs with
    | ret hph =>
      simp only [Process.Exact, hph] at hexact
      obtain ⟨⟨k, hk, hret⟩, -⟩ := hexact
      refine ⟨k, hk, ?_⟩
      obtain hret | ⟨rfl, hes⟩ := hret
      · exact Or.inl hret
      · exact Or.inr ⟨by decide, hes⟩

theorem calls_take_effect_once_two :
    ∃ k, arrayIndex queueNum 0 = .ok k ∧ effects (P := Fin 2)
      [(0, .call (.msgget 0 kuIpcCreat)), (0, .openDev true),
        (0, .ioctl .success ⟨0, some (.counted 0), none⟩), (0, .test),
        (0, .ret (.msgget 0 kuIpcCreat) 0 .zero), (0, .call (.msgsnd 0 .zero 136 0)),
        (0, .openDev true),
        (0, .ioctl .success ⟨0, some (.queued 0 (MsgConfig.stored ⟨0, .zero, 136, 0, 0⟩)), none⟩),
        (0, .test)] 0 = [.queued k (MsgConfig.stored ⟨0, .zero, 136, 0, 0⟩)] := by
  obtain ⟨s, t, hrun, hs⟩ : ∃ s t : System (Fin 2), Run (Guarded Step Granted) .init
      [(0, .call (.msgget 0 kuIpcCreat)), (0, .openDev true),
        (0, .ioctl .success ⟨0, some (.counted 0), none⟩), (0, .test),
        (0, .ret (.msgget 0 kuIpcCreat) 0 .zero), (0, .call (.msgsnd 0 .zero 136 0)),
        (0, .openDev true),
        (0, .ioctl .success ⟨0, some (.queued 0 (MsgConfig.stored ⟨0, .zero, 136, 0, 0⟩)), none⟩),
        (0, .test)] s ∧ Step s (0, .ret (.msgsnd 0 .zero 136 0) 0 .zero) t := by
    refine ⟨_, _, .cons ⟨.call (i := 0) rfl rfl rfl, trivial, False.elim⟩
      (.cons ⟨.opened rfl, rfl⟩ (.cons ⟨.ioctl rfl rfl, rfl⟩ (.cons ⟨.test rfl rfl, trivial⟩
      (.cons ⟨.ret rfl, trivial⟩ (.cons ⟨.call (i := 0) rfl rfl rfl, ?_⟩
      (.cons ⟨.opened rfl, rfl⟩ (.cons ⟨.ioctl rfl rfl, rfl⟩
      (.cons ⟨.test rfl rfl, trivial⟩ .nil)))))))), .ret rfl⟩
    refine ⟨⟨by decide, by decide⟩, ?_⟩
    rintro - k hk
    cases hk
    rfl
  obtain ⟨⟨k, hk, ⟨_, hes⟩ | ⟨hneg, _⟩⟩, _⟩ :=
    (calls_take_effect_once hrun).2.1 0 0 .zero 136 0 0 .zero t hs
  · exact ⟨k, hk, hes⟩
  · exact absurd hneg (by decide)

end Runs

end EmbeddedSystem.KuIpc
