import EmbeddedSystem.KuIpc.Terminators

namespace EmbeddedSystem.KuIpc

open Kernel Foundations.SelectiveFifo

section Receipts

variable {o o' : Outcome} {c c' : MsgConfig} {k k' : Fin queueNum} {q q₁ q₂ rest : List Msgbuf}
  {m : Msgbuf} {y y' : Reply}

def delivery (o : Outcome) (c : MsgConfig) (k : Fin queueNum) (m : Msgbuf) : Reply :=
  ⟨(min o.uncopied (sizeT c.msgsz) : ℕ), some (.removed k m), some (c.receivedWith o m)⟩

inductive Receipt (o : Outcome) (c : MsgConfig) (k : Fin queueNum) (q : List Msgbuf) :
    List Msgbuf → Reply → Prop
  | absent : (∀ m ∈ q, m.type ≠ c.msgtyp) → Receipt o c k q q ⟨-1, none, none⟩
  | short {m : Msgbuf} {rest : List Msgbuf} :
      Takes Msgbuf.type q m rest → m.type = c.msgtyp → ¬ c.Fits m →
      Receipt o c k q q ⟨-2, none, none⟩
  | found {m : Msgbuf} {rest : List Msgbuf} :
      Takes Msgbuf.type q m rest → m.type = c.msgtyp → c.Fits m →
      Receipt o c k q rest (delivery o c k m)

lemma exists_receipt (o : Outcome) (c : MsgConfig) (k : Fin queueNum) (q : List Msgbuf) :
    ∃ q' y, Receipt o c k q q' y := by
  obtain habsent | ⟨m, rest, ht, hm⟩ := absent_or_takes Msgbuf.type c.msgtyp q
  · exact ⟨q, _, .absent habsent⟩
  · by_cases hfits : c.Fits m
    · exact ⟨rest, _, .found ht hm hfits⟩
    · exact ⟨q, _, .short ht hm hfits⟩

lemma Receipt.unique (h : Receipt o c k q q₁ y) (h' : Receipt o c k q q₂ y') :
    q₁ = q₂ ∧ y = y' := by
  cases h with
  | absent habsent =>
    cases h' with
    | absent => exact ⟨rfl, rfl⟩
    | short ht hm | found ht hm => exact absurd hm (habsent _ ht.mem)
  | short ht hm hfits =>
    cases h' with
    | absent habsent => exact absurd hm (habsent _ ht.mem)
    | short => exact ⟨rfl, rfl⟩
    | found ht' hm' hfits' =>
      obtain rfl := ht.unique ht' (hm.trans hm'.symm)
      exact absurd hfits' hfits
  | found ht hm hfits =>
    cases h' with
    | absent habsent => exact absurd hm (habsent _ ht.mem)
    | short ht' hm' hfits' =>
      obtain rfl := ht.unique ht' (hm.trans hm'.symm)
      exact absurd hfits hfits'
    | found ht' hm' =>
      obtain rfl := ht.unique ht' (hm.trans hm'.symm)
      exact ⟨ht.rest_unique ht', rfl⟩

lemma Receipt.subset (h : Receipt o c k q q₁ y) (hm : m ∈ q₁) : m ∈ q := by
  cases h with
  | absent | short => exact hm
  | found ht => exact ht.subset hm

lemma Receipt.skip (h : Receipt o c k q q₁ y) (hx : Takes Msgbuf.type q m rest)
    (hne : m.type ≠ c.msgtyp) :
    ∃ last, Receipt o c k rest last y ∧ Takes Msgbuf.type q₁ m last := by
  cases h with
  | absent habsent => exact ⟨rest, .absent fun z hz => habsent z (hx.subset hz), hx⟩
  | short ht hm hfits =>
    obtain ⟨last, hlast, -⟩ := hx.comm ht (by rwa [hm])
    exact ⟨rest, .short hlast hm hfits, hx⟩
  | found ht hm hfits =>
    obtain ⟨last, hlast, hx'⟩ := hx.comm ht (by rwa [hm])
    exact ⟨last, .found hlast hm hfits, hx'⟩

lemma Receipt.comm (h : Receipt o c k q q₁ y) (h' : Receipt o' c' k' q q₂ y')
    (hne : c.msgtyp ≠ c'.msgtyp) :
    ∃ last, Receipt o' c' k' q₁ last y' ∧ Receipt o c k q₂ last y := by
  cases h' with
  | found hx hm hfits =>
    obtain ⟨last, hlast, hx'⟩ := h.skip hx (by rw [hm]; exact hne.symm)
    exact ⟨last, .found hx' hm hfits, hlast⟩
  | absent habsent => exact ⟨q₁, .absent fun z hz => habsent z (h.subset hz), h⟩
  | short hx hm hfits =>
    obtain ⟨last, -, hx'⟩ := h.skip hx (by rw [hm]; exact hne.symm)
    exact ⟨q₁, .short hx' hm hfits, h⟩

end Receipts

section Calls

variable {o o' : Outcome} {s : Driver} {c c' : MsgConfig} {k k' : Fin queueNum}
  {q : List Msgbuf} {y : Reply}

lemma setQueue_self (s : Driver) (k : Fin queueNum) : s.setQueue k (s.msgQueue k) = s := by
  simp [Driver.setQueue]

lemma kuIpcMsgrcv_receipt {t : Driver} (h : kuIpcMsgrcv o s c = .ok (t, y)) :
    ∃ k q, arrayIndex queueNum c.key = .ok k ∧ Receipt o c k (s.msgQueue k) q y ∧
      t = s.setQueue k q := by
  obtain ⟨k, hk, ⟨habsent, rfl, rfl⟩ | ⟨⟨m, rest, ht, hm, hfits⟩, rfl, rfl⟩ | hfound⟩ :=
    kuIpcMsgrcv_cases h
  · exact ⟨k, _, hk, .absent habsent, (setQueue_self t k).symm⟩
  · exact ⟨k, _, hk, .short ht hm hfits, (setQueue_self t k).symm⟩
  · obtain ⟨m, rest, bytes, ret, ht, hm, hfits, hcopy, rfl, rfl⟩ := hfound
    obtain rfl := userCopy_left hcopy
    obtain rfl := userCopy_copied hcopy
    exact ⟨k, rest, hk, .found ht hm hfits, rfl⟩

lemma kuIpcMsgrcv_eq (hk : arrayIndex queueNum c.key = .ok k)
    (hsz : 0 ≤ c.msgsz ∧ c.msgsz ≤ sizeofMsgbuf) (hq : TerminatedAll (s.msgQueue k))
    (h : Receipt o c k (s.msgQueue k) q y) : kuIpcMsgrcv o s c = .ok (s.setQueue k q, y) := by
  obtain ⟨⟨t, y'⟩, hrcv⟩ := kuIpcMsgrcv_total o hk hsz hq
  obtain ⟨j, q', hj, h', rfl⟩ := kuIpcMsgrcv_receipt hrcv
  obtain rfl := Except.ok.inj (hj.symm.trans hk)
  obtain ⟨rfl, rfl⟩ := h.unique h'
  exact hrcv

lemma terminated_receipt (hq : ∀ j, TerminatedAll (s.msgQueue j))
    (h : Receipt o c k (s.msgQueue k) q y) (j : Fin queueNum) :
    TerminatedAll ((s.setQueue k q).msgQueue j) := by
  apply (terminated_setQueue hq q).mpr
  exact fun m hm => hq k m (h.subset hm)

lemma setQueue_comm (s : Driver) {k k' : Fin queueNum} (hk : k ≠ k') (q q' : List Msgbuf) :
    (s.setQueue k q).setQueue k' q' = (s.setQueue k' q').setQueue k q := by
  simp only [Driver.setQueue, Function.update_comm hk]

lemma setQueue_setQueue (s : Driver) (k : Fin queueNum) (q q' : List Msgbuf) :
    (s.setQueue k q).setQueue k q' = s.setQueue k q' := by
  simp [Driver.setQueue]

end Calls

section Results

variable {o o' : Outcome} {s : Driver} {c c' : MsgConfig} {k : Fin queueNum}

/-- The message does not fit into `msgsz` bytes, and may not be cut off. -/
def Short (c : MsgConfig) (m : Msgbuf) : Prop :=
  c.msgflg &&& kuMsgNoerror = 0 ∧ c.msgsz < sizeofLong + textLength m.text + 1

lemma short_iff (hsz : 0 ≤ c.msgsz ∧ c.msgsz ≤ sizeofMsgbuf) (m : Msgbuf) :
    Short c m ↔ ¬ c.Fits m := by
  have hsize := sizeT_of_nonneg hsz.1 (hsz.2.trans_lt (by decide))
  have hfits : m.volume ≤ sizeT c.msgsz ↔ (sizeofLong : ℤ) + textLength m.text + 1 ≤ c.msgsz := by
    simp only [Msgbuf.volume]
    omega
  rw [Short, MsgConfig.Fits, hfits, Classical.not_imp, not_le]

lemma delivery_bytes (hsz : 0 ≤ c.msgsz ∧ c.msgsz ≤ sizeofMsgbuf) (m : Msgbuf) (i : Fin 136) :
    (c.receivedWith o m).bytes i =
      if (i.val : ℤ) < c.msgsz - (delivery o c k m).ret then m.bytes i else c.msg.bytes i := by
  have hsize := sizeT_of_nonneg hsz.1 (hsz.2.trans_lt (by decide))
  have hcopied : i.val < c.copied o ↔ (i.val : ℤ) < c.msgsz - (delivery o c k m).ret := by
    simp only [MsgConfig.copied, delivery]
    omega
  simp only [MsgConfig.receivedWith, copyBytes, hcopied]

theorem msgrcv_spec (hq : ∀ j, TerminatedAll (s.msgQueue j)) (hc : (Request.msgrcv c).InRange)
    (hk : c.key = k.val) : ∃ t y, kuIpcMsgrcv o s c = .ok (t, y) ∧
      t.queueReferenceCounter = s.queueReferenceCounter ∧
      (∀ j, j ≠ k → t.msgQueue j = s.msgQueue j) ∧
      ((∀ m ∈ s.msgQueue k, m.type ≠ c.msgtyp) → t = s ∧ y.ret = -1 ∧ y.buf = none) ∧
      ∀ before m after, s.msgQueue k = before ++ m :: after → m.type = c.msgtyp →
        (∀ x ∈ before, x.type ≠ c.msgtyp) →
          (Short c m → t = s ∧ y.ret = -2 ∧ y.buf = none) ∧
          (¬ Short c m → t.msgQueue k = before ++ after ∧ y.ret = min (o.uncopied : ℤ) c.msgsz ∧
            ∃ buf, y.buf = some buf ∧ ∀ i, buf.bytes i =
              if (i.val : ℤ) < c.msgsz - y.ret then m.bytes i else c.msg.bytes i) := by
  have hk' : arrayIndex queueNum c.key = .ok k := by
    rw [hk]
    exact arrayIndex_fin k
  obtain ⟨q, y, hreceipt⟩ := exists_receipt o c k (s.msgQueue k)
  refine ⟨s.setQueue k q, y, kuIpcMsgrcv_eq hk' hc.2 (hq k) hreceipt, rfl, ?_, ?_, ?_⟩
  · intro j hj
    rw [msgQueue_setQueue, Function.update_of_ne hj]
  · intro habsent
    obtain ⟨rfl, rfl⟩ := hreceipt.unique (.absent habsent)
    exact ⟨setQueue_self s k, rfl, rfl⟩
  · intro before m after hsplit hm hbefore
    have ht : Takes Msgbuf.type (s.msgQueue k) m (before ++ after) :=
      ⟨before, after, hsplit, rfl, fun x hx => by rw [hm]; exact hbefore x hx⟩
    refine ⟨?_, ?_⟩
    · intro hshort
      obtain ⟨rfl, rfl⟩ := hreceipt.unique (.short ht hm ((short_iff hc.2 m).mp hshort))
      exact ⟨setQueue_self s k, rfl, rfl⟩
    · intro hshort
      have hfits : c.Fits m := not_not.mp fun hfits => hshort ((short_iff hc.2 m).mpr hfits)
      obtain ⟨rfl, rfl⟩ := hreceipt.unique (.found ht hm hfits)
      have hsize := sizeT_of_nonneg hc.2.1 (hc.2.2.trans_lt (by decide))
      refine ⟨?_, ?_, _, rfl, delivery_bytes hc.2 m⟩
      · rw [msgQueue_setQueue, Function.update_self]
      · rw [← hsize]
        simp [delivery]

def Driver.greeting (k : Fin queueNum) : Driver := Driver.init.setQueue k [hello]

lemma greeting_terminated (k j : Fin queueNum) :
    TerminatedAll ((Driver.greeting k).msgQueue j) := by
  have hhello : TerminatedAll [hello] := by
    intro m hm
    obtain rfl := List.mem_singleton.mp hm
    exact ⟨5, by decide⟩
  apply (terminated_setQueue _ [hello]).mpr hhello
  rintro i m ⟨⟩

theorem msgrcv_spec_greeting :
    let c : MsgConfig := ⟨0, .zero, 14, 1, 0⟩
    (∀ j, TerminatedAll ((Driver.greeting 0).msgQueue j)) ∧ (Request.msgrcv c).InRange ∧
      ∃ t y, kuIpcMsgrcv .success (.greeting 0) c = .ok (t, y) ∧
      t.queueReferenceCounter = (Driver.greeting 0).queueReferenceCounter ∧
      (∀ j, j ≠ 0 → t.msgQueue j = (Driver.greeting 0).msgQueue j) ∧
      ((∀ m ∈ (Driver.greeting 0).msgQueue 0, m.type ≠ c.msgtyp) →
        t = .greeting 0 ∧ y.ret = -1 ∧ y.buf = none) ∧
      ∀ before m after, (Driver.greeting 0).msgQueue 0 = before ++ m :: after → m.type = c.msgtyp →
        (∀ x ∈ before, x.type ≠ c.msgtyp) →
          (Short c m → t = .greeting 0 ∧ y.ret = -2 ∧ y.buf = none) ∧
          (¬ Short c m → t.msgQueue 0 = before ++ after ∧
            y.ret = min (Outcome.success.uncopied : ℤ) c.msgsz ∧
            ∃ buf, y.buf = some buf ∧ ∀ i, buf.bytes i =
              if (i.val : ℤ) < c.msgsz - y.ret then m.bytes i else c.msg.bytes i) := by
  intro c
  have hc : (Request.msgrcv c).InRange := ⟨by decide, by decide⟩
  exact ⟨greeting_terminated 0, hc, msgrcv_spec (greeting_terminated 0) hc rfl⟩

theorem receives_commute (hq : ∀ j, TerminatedAll (s.msgQueue j))
    (hc : (Request.msgrcv c).InRange) (hc' : (Request.msgrcv c').InRange)
    (hne : c.key ≠ c'.key ∨ c.msgtyp ≠ c'.msgtyp) : ∃ s₁ s₂ t y y',
      kuIpcMsgrcv o s c = .ok (s₁, y) ∧ kuIpcMsgrcv o' s₁ c' = .ok (t, y') ∧
      kuIpcMsgrcv o' s c' = .ok (s₂, y') ∧ kuIpcMsgrcv o s₂ c = .ok (t, y) := by
  obtain ⟨k, hk⟩ := exists_arrayIndex hc.1
  obtain ⟨k', hk'⟩ := exists_arrayIndex hc'.1
  obtain ⟨q₁, y, h⟩ := exists_receipt o c k (s.msgQueue k)
  obtain ⟨q₂, y', h'⟩ := exists_receipt o' c' k' (s.msgQueue k')
  have hq₁ := terminated_receipt hq h
  have hq₂ := terminated_receipt hq h'
  refine ⟨s.setQueue k q₁, s.setQueue k' q₂, ?_⟩
  by_cases hkk : k = k'
  · subst hkk
    have htype : c.msgtyp ≠ c'.msgtyp := by
      apply hne.resolve_left
      rw [arrayIndex_val hk, arrayIndex_val hk']
      exact fun hkey => hkey rfl
    obtain ⟨last, hlast', hlast⟩ := h.comm h' htype
    refine ⟨s.setQueue k last, y, y', kuIpcMsgrcv_eq hk hc.2 (hq k) h, ?_,
      kuIpcMsgrcv_eq hk' hc'.2 (hq k) h', ?_⟩
    · rw [← setQueue_setQueue s k q₁ last]
      apply kuIpcMsgrcv_eq hk' hc'.2 (hq₁ k)
      rwa [msgQueue_setQueue, Function.update_self]
    · rw [← setQueue_setQueue s k q₂ last]
      apply kuIpcMsgrcv_eq hk hc.2 (hq₂ k)
      rwa [msgQueue_setQueue, Function.update_self]
  · refine ⟨(s.setQueue k q₁).setQueue k' q₂, y, y', kuIpcMsgrcv_eq hk hc.2 (hq k) h, ?_,
      kuIpcMsgrcv_eq hk' hc'.2 (hq k') h', ?_⟩
    · apply kuIpcMsgrcv_eq hk' hc'.2 (hq₁ k')
      rwa [msgQueue_setQueue, Function.update_of_ne (Ne.symm hkk)]
    · rw [setQueue_comm s hkk]
      apply kuIpcMsgrcv_eq hk hc.2 (hq₂ k)
      rwa [msgQueue_setQueue, Function.update_of_ne hkk]

theorem receives_commute_greeting :
    let c : MsgConfig := ⟨0, .zero, 14, 1, 0⟩
    let c' : MsgConfig := ⟨0, .zero, 14, 2, 0⟩
    ∃ s₁ s₂ t y y', kuIpcMsgrcv .success (.greeting 0) c = .ok (s₁, y) ∧
      kuIpcMsgrcv .success s₁ c' = .ok (t, y') ∧
      kuIpcMsgrcv .success (.greeting 0) c' = .ok (s₂, y') ∧
      kuIpcMsgrcv .success s₂ c = .ok (t, y) := by
  intro c c'
  exact receives_commute (greeting_terminated 0) ⟨by decide, by decide⟩ ⟨by decide, by decide⟩
    (.inr (by decide))

end Results

end EmbeddedSystem.KuIpc
