import EmbeddedSystem.KuIpc.Delivery

namespace EmbeddedSystem.KuIpc

open Kernel Foundations Foundations.SelectiveFifo

/-- The queue takes the message of the request, though its volume then exceeds the limit. -/
def Overfills (q : List Msgbuf) (c : MsgConfig) : Prop :=
  ¬ Full q ∧ kuipcMaxvol < volume q + c.stored.volume

def Accepts (s : Driver) (c : MsgConfig) : Prop :=
  ∃ t y, kuIpcMsgsnd .success s c = .ok (t, y) ∧ 0 ≤ y.ret

lemma accepts_iff {s : Driver} {c : MsgConfig} {k : Fin queueNum}
    (hk : arrayIndex queueNum c.key = .ok k) (hsz : 0 ≤ c.msgsz ∧ c.msgsz ≤ sizeofMsgbuf)
    (hq : TerminatedAll (s.msgQueue k)) : Accepts s c ↔ ¬ Full (s.msgQueue k) := by
  rw [Accepts, kuIpcMsgsnd_total hk hsz hq]
  by_cases hf : Full (s.msgQueue k)
  · simp [hf]
  · simp [hf]

lemma volume_removed {q rest : List Msgbuf} {m : Msgbuf} (h : Takes Msgbuf.type q m rest) :
    volume rest ≤ volume q := by
  obtain ⟨before, after, rfl, rfl, _⟩ := h
  simp only [volume_append, volume_cons]
  omega

def Driver.Bounded (s : Driver) : Prop := ∀ k, volume (s.msgQueue k) ≤ kuipcMaxvol

def Driver.Spares (s : Driver) : Request → Prop
  | .msgsnd c => ∀ k, arrayIndex queueNum c.key = .ok k → ¬ Overfills (s.msgQueue k) c
  | _ => True

lemma bounded_setQueue {s : Driver} (hs : s.Bounded) (k : Fin queueNum) (q : List Msgbuf) :
    (s.setQueue k q).Bounded ↔ volume q ≤ kuipcMaxvol := by
  constructor
  · intro h
    simpa using h k
  · intro hq j
    by_cases hj : j = k
    · subst hj
      simpa using hq
    · simpa [hj] using hs j

lemma bounded_step {s : Driver} (hs : s.Bounded) {r : Request} (hr : r.Valid)
    (hq : ∀ k, TerminatedAll (s.msgQueue k)) {t : Driver} {y : Reply}
    (h : kuIpcIoctl .success s r = .ok (t, y)) : t.Bounded ↔ s.Spares r := by
  cases r with
  | msgget q =>
    refine iff_of_true ?_ trivial
    rcases kuIpcMsgget_cases h with ⟨_, _, rfl, _⟩ | ⟨k, _, ⟨_, _, rfl, _⟩ | ⟨_, rfl, _⟩⟩
    · exact hs
    · exact hs
    · exact hs
  | msgclose msqid =>
    refine iff_of_true ?_ trivial
    obtain ⟨k, _, ⟨_, rfl, _⟩ | ⟨_, rfl, _⟩⟩ := kuIpcMsgclose_cases h <;> exact hs
  | msgrcv c =>
    refine iff_of_true ?_ trivial
    obtain ⟨k, _, ⟨_, rfl, _⟩ | ⟨_, rfl, _⟩ | ⟨m, rest, _, _, ht, _, _, _, rfl, _⟩⟩ :=
      kuIpcMsgrcv_cases h
    · exact hs
    · exact hs
    · exact (bounded_setQueue hs k rest).mpr ((volume_removed ht).trans (hs k))
  | msgsnd c =>
    obtain ⟨k, hk⟩ := exists_arrayIndex hr.1
    have hspares : s.Spares (.msgsnd c) ↔ ¬ Overfills (s.msgQueue k) c := by
      simp [Driver.Spares, hk]
    rw [hspares]
    have hsend : kuIpcMsgsnd .success s c = .ok (t, y) := h
    rw [kuIpcMsgsnd_total hk hr.2.1 (hq k)] at hsend
    by_cases hf : Full (s.msgQueue k)
    · rw [if_pos hf] at hsend
      cases hsend
      exact iff_of_true hs fun ho => ho.1 hf
    · rw [if_neg hf] at hsend
      cases hsend
      rw [bounded_setQueue hs, volume_append, Overfills]
      simp [hf]
  | unknown =>
    cases h
    exact iff_of_true hs trivial

def BoundedThroughout (rs : List Request) : Prop :=
  ∀ rs₁ rs₂ x, rs = rs₁ ++ rs₂ → session rs₁ = .ok x → ∀ k, volume (x.1.msgQueue k) ≤ kuipcMaxvol

def SparingThroughout (rs : List Request) : Prop :=
  ∀ rs₁ c rs₂ x k, rs = rs₁ ++ .msgsnd c :: rs₂ → session rs₁ = .ok x →
    arrayIndex queueNum c.key = .ok k → ¬ Overfills (x.1.msgQueue k) c

def DecidedByLimits (s : Driver) (c : MsgConfig) (k : Fin queueNum) : Prop :=
  Accepts s c ↔ (s.msgQueue k).length < kuipcMaxmsg ∧
    volume (s.msgQueue k) + c.msg.volume ≤ kuipcMaxvol

lemma accepts_fits_iff {s : Driver} {c : MsgConfig} {k : Fin queueNum}
    (hk : arrayIndex queueNum c.key = .ok k) (hc : (Request.msgsnd c).Valid)
    (hq : TerminatedAll (s.msgQueue k)) (hsz : c.msgsz = c.msg.volume) :
    DecidedByLimits s c k ↔ ¬ Overfills (s.msgQueue k) c := by
  rw [DecidedByLimits, accepts_iff hk hc.2.1 hq, Overfills, c.stored_volume hc.2.2 hsz]
  have hvol : sizeofInt ≤ c.msg.volume := by
    simp only [Msgbuf.volume, sizeofInt, sizeofLong]
    omega
  unfold Full
  omega

theorem volume_limit_iff (rs : List Request) (hv : ∀ r ∈ rs, r.Valid) :
    (BoundedThroughout rs ↔ SparingThroughout rs) ∧
      ∀ x, session rs = .ok x → ∀ c k, (Request.msgsnd c).Valid →
        arrayIndex queueNum c.key = .ok k → c.msgsz = c.msg.volume →
          (DecidedByLimits x.1 c k ↔ ¬ Overfills (x.1.msgQueue k) c) := by
  constructor
  · have hstays := foldlM_stays_iff (f := sessionStep)
      (I := fun x => ∀ k, TerminatedAll (x.1.msgQueue k)) (P := fun x => x.1.Bounded)
      (V := Request.Valid) (C := fun x r => x.1.Spares r) ?_ (s := (Driver.init, []))
      (fun k m hm => by cases hm) (fun k => Nat.zero_le _) hv
    · constructor
      · intro h rs₁ c rs₂ x k hsplit hx hk
        exact hstays.mp h rs₁ (.msgsnd c) rs₂ x hsplit hx k hk
      · intro h
        refine hstays.mpr ?_
        intro rs₁ r rs₂ x hsplit hx
        cases r with
        | msgsnd c => exact fun k hk => h rs₁ c rs₂ x k hsplit hx hk
        | _ => trivial
    · rintro ⟨s, log⟩ r hq hb hr
      obtain ⟨t, y, h⟩ := kuIpcIoctl_total hr hq
      refine ⟨(t, log ++ [⟨s, r, y⟩]), ?_, terminated_step hr hq h, bounded_step hb hr hq h⟩
      simp only [sessionStep, h, ok_bind]
      rfl
  · intro x hx c k hc hk hsz
    obtain ⟨s, log, hs, -, hq⟩ := session_total hv
    obtain rfl := Except.ok.inj (hx.symm.trans hs)
    exact accepts_fits_iff hk hc (hq k) hsz

theorem volume_limit_iff_one :
    let rs : List Request := [.msgsnd ⟨1, .make 1 [104, 105], 11, 0, 0⟩]
    (BoundedThroughout rs ↔ SparingThroughout rs) ∧
      ∀ x, session rs = .ok x → ∀ c k, (Request.msgsnd c).Valid →
        arrayIndex queueNum c.key = .ok k → c.msgsz = c.msg.volume →
          (DecidedByLimits x.1 c k ↔ ¬ Overfills (x.1.msgQueue k) c) := by
  refine volume_limit_iff _ ?_
  intro r hr
  obtain rfl := List.mem_singleton.mp hr
  exact ⟨by decide, by decide, 2, rfl⟩

theorem volume_limit_exceeded :
    ¬ ∀ rs : List Request, (∀ r ∈ rs, r.Valid) → ∀ x, session rs = .ok x →
      ∀ k, volume (x.1.msgQueue k) ≤ kuipcMaxvol := by
  intro h
  let c : MsgConfig := ⟨0, .make 1 (List.replicate 127 97), 136, 0, 0⟩
  have hvalid : (Request.msgsnd c).Valid := ⟨by decide, by decide, ⟨127, by decide⟩, by decide⟩
  have hempty : ∀ k, TerminatedAll (Driver.init.msgQueue k) := fun k m hm => by cases hm
  have hsend := kuIpcMsgsnd_total (s := .init) (c := c) (k := 0) rfl (by decide) (hempty 0)
  rw [if_neg (by decide)] at hsend
  have hsession : session [.msgsnd c] =
      .ok (Driver.init.setQueue 0 [c.stored],
        [⟨.init, .msgsnd c, ⟨0, some (.queued 0 c.stored), none⟩⟩]) := by
    simp only [session, List.foldlM_cons, sessionStep, kuIpcIoctl, hsend, ok_bind]
    rfl
  have hbound := h [.msgsnd c] (by simpa using hvalid) _ hsession 0
  have hvolume : c.stored.volume = 136 := by decide +kernel
  simp [hvolume, kuipcMaxvol] at hbound

end EmbeddedSystem.KuIpc
