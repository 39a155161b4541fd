import EmbeddedSystem.KuIpc.Lifetime
import EmbeddedSystem.KuIpc.Receives
import EmbeddedSystem.KuIpc.RoundTrip

namespace EmbeddedSystem.KuIpc

open Kernel Foundations Foundations.SelectiveFifo

lemma full_of_unterminated {q : List Msgbuf} (h : ¬ TerminatedAll q) : Full q := by
  simp only [TerminatedAll, not_forall] at h
  obtain ⟨m, hm, hterm⟩ := h
  rw [terminated_iff, not_lt] at hterm
  have hle : m.volume ≤ volume q := List.single_le_sum (by simp) _ (List.mem_map_of_mem hm)
  left
  simp only [Msgbuf.volume, kuipcMaxvol, sizeofLong, sizeofInt] at hle ⊢
  omega

lemma countMessages_unterminated {q : List Msgbuf} (h : ¬ TerminatedAll q) (num vol : ℕ) :
    countMessages q num vol = .error .overread := by
  induction q generalizing num vol with
  | nil =>
    refine absurd ?_ h
    rintro m ⟨⟩
  | cons m q ih =>
    by_cases hm : Terminated m.text
    · have hrest : ¬ TerminatedAll q := by
        intro hq
        apply h
        intro x hx
        obtain rfl | hx := List.mem_cons.mp hx
        · exact hm
        · exact hq x hx
      rw [countMessages, strlen_of_terminated hm, ok_bind]
      exact ih hrest _ _
    · rw [terminated_iff] at hm
      rw [countMessages, strlen, if_neg hm]
      rfl

namespace Memory

variable {A B : Type} [DecidableEq A] [DecidableEq B]

section Sends

variable {m t : System A B} {q : Fin queueNum → List A} {xs : List A} {a : A} {k : Fin queueNum}
  {o : Outcome} {c : MsgConfig} {y : Reply} {new : Fresh m}

def Untouched (m t : System A B) : Prop :=
  (∀ q, m.Linked q → t.Linked q ∧ ∀ k, t.contents (q k) = m.contents (q k)) ∧
    t.lists.nodes.live = m.lists.nodes.live ∧ t.bufs.live = m.bufs.live

/-- A send that does not return 0 leaves everything as it was, and never follows a null pointer. -/
def AllOrNothing (o : Outcome) (m : System A B) (new : Fresh m) (c : MsgConfig) : Prop :=
  ∀ n, (kuIpcMsgsnd n o m new c).run ≠ .error .null ∧
    ∀ t y, kuIpcMsgsnd n o m new c = pure (t, y) → y.ret ≠ 0 → Untouched m t

def Completes (o : Outcome) (c : MsgConfig) : Prop :=
  o.vmalloc = true ∧ o.kmalloc = true ∧ (o.uncopied = 0 ∨ c.msgsz = 0)

omit [DecidableEq A] [DecidableEq B] in
lemma untouched_self (m : System A B) : Untouched m m :=
  ⟨fun _ hq => ⟨hq, fun _ => rfl⟩, rfl, rfl⟩

lemma touched_appended (new : Fresh m) (k : Fin queueNum) (v : Msgbuf) :
    ¬ Untouched m (m.appended new k v) := by
  rintro ⟨-, -, hbufs⟩
  have hbuf := congrFun hbufs new.buf
  rw [new.buf_free] at hbuf
  simp [Messages.appended] at hbuf

lemma append_returns (h : m.Linked q) (new : Fresh m) (k : Fin queueNum)
    (hsz : 0 ≤ c.msgsz ∧ c.msgsz ≤ sizeofMsgbuf) (hv : o.vmalloc = true) (hm : o.kmalloc = true) :
    append o m new k c = .ok (m.appended new k (c.storedWith o),
      ⟨(min o.uncopied (sizeT c.msgsz) : ℕ), some (.queued k (c.storedWith o)), none⟩) := by
  obtain ⟨⟨bytes, ret⟩, hcopy⟩ :=
    userCopy_total (n := 136) o hsz (by decide) Msgbuf.zero.bytes c.msg.bytes
  obtain rfl := userCopy_left hcopy
  obtain rfl := userCopy_copied hcopy
  exact append_eq h new k hv hm hcopy

lemma append_null (new : Fresh m) (k : Fin queueNum)
    (hsz : 0 ≤ c.msgsz ∧ c.msgsz ≤ sizeofMsgbuf)
    (hfails : ¬ (o.vmalloc = true ∧ o.kmalloc = true)) : append o m new k c = .error .null := by
  cases hv : o.vmalloc with
  | false =>
    simp only [append, hv]
    rfl
  | true =>
    have hm : o.kmalloc = false := by
      cases hm : o.kmalloc with
      | false => rfl
      | true => exact absurd ⟨hv, hm⟩ hfails
    have hbuf := Messages.live_new_buf new
    obtain ⟨⟨bytes, ret⟩, hcopy⟩ :=
      userCopy_total (n := 136) o hsz (by decide) Msgbuf.zero.bytes c.msg.bytes
    simp only [append, hv, hm, Bool.not_true, Bool.false_eq_true, if_false]
    rw [Ledger.write_of_live hbuf, ok_bind, Ledger.read_of_live (by simp), ok_bind]
    simp only [Ledger.val_stored, Function.update_self, hcopy, ok_bind]
    rw [Ledger.write_of_live (by simp), ok_bind]
    rfl

lemma sendTo_inv (h : m.Linked q) (hsz : 0 ≤ c.msgsz ∧ c.msgsz ≤ sizeofMsgbuf)
    {msgs : List Msgbuf} (hsent : sendTo o m new k c msgs = .ok (t, y)) :
    Full msgs ∧ t = m ∧ y = ⟨-1, none, none⟩ ∨
      ¬ Full msgs ∧ (o.vmalloc = true ∧ o.kmalloc = true) ∧
        t = m.appended new k (c.storedWith o) ∧ y = ⟨(min o.uncopied (sizeT c.msgsz) : ℕ),
          some (.queued k (c.storedWith o)), none⟩ := by
  by_cases hterm : TerminatedAll msgs
  · by_cases hf : Full msgs
    · rw [sendTo_full o new k c hterm hf] at hsent
      cases hsent
      exact Or.inl ⟨hf, rfl, rfl⟩
    · rw [sendTo_room o new k c hterm hf] at hsent
      by_cases hallocs : o.vmalloc = true ∧ o.kmalloc = true
      · rw [append_returns h new k hsz hallocs.1 hallocs.2] at hsent
        cases hsent
        exact Or.inr ⟨hf, hallocs, rfl, rfl⟩
      · rw [append_null new k hsz hallocs] at hsent
        cases hsent
  · rw [sendTo, countMessages_unterminated hterm] at hsent
    cases hsent

lemma send_full (h : m.Linked q) (hk : arrayIndex queueNum c.key = .ok k) (o : Outcome)
    (new : Fresh m) (hf : Full (m.contents (q k))) :
    Stops (fun n => kuIpcMsgsnd n o m new c) (.ok (m, ⟨-1, none, none⟩)) ∨
      Stops (fun n => kuIpcMsgsnd n o m new c) (.error .overread) := by
  have hstops := kuIpcMsgsnd_stops h hk o new
  by_cases hterm : TerminatedAll (m.contents (q k))
  · left
    rwa [sendTo_full o new k c hterm hf] at hstops
  · right
    rwa [sendTo, countMessages_unterminated hterm] at hstops

lemma send_room (h : m.Linked q) (hk : arrayIndex queueNum c.key = .ok k) (o : Outcome)
    (new : Fresh m) (hf : ¬ Full (m.contents (q k))) :
    Stops (fun n => kuIpcMsgsnd n o m new c) (append o m new k c) := by
  have hterm := not_not.mp (mt full_of_unterminated hf)
  have hstops := kuIpcMsgsnd_stops h hk o new
  rwa [sendTo_room o new k c hterm hf] at hstops

lemma completes_iff (hsz : 0 ≤ c.msgsz ∧ c.msgsz ≤ sizeofMsgbuf) :
    Completes o c ↔
      (o.vmalloc = true ∧ o.kmalloc = true) ∧ min o.uncopied (sizeT c.msgsz) = 0 := by
  have hsize := sizeT_of_nonneg hsz.1 (hsz.2.trans_lt (by decide))
  have hzero : sizeT c.msgsz = 0 ↔ c.msgsz = 0 := by omega
  rw [Completes, and_assoc, Nat.min_eq_zero_iff, hzero]

lemma allOrNothing_full (h : m.Linked q) (hk : arrayIndex queueNum c.key = .ok k) (new : Fresh m)
    (hf : Full (m.contents (q k))) : AllOrNothing o m new c := by
  intro n
  obtain hstops | hstops := send_full h hk o new hf
  · refine ⟨?_, ?_⟩
    · intro hnull
      cases hstops.eq_of_run (z := .error .null) hnull
    · intro t y hreturn _
      obtain ⟨rfl, -⟩ := Prod.mk.inj ((returns_iff.mpr hstops).eq_of_run hreturn)
      exact untouched_self t
  · refine ⟨?_, ?_⟩
    · intro hnull
      cases hstops.eq_of_run (z := .error .null) hnull
    · intro t y hreturn
      cases hstops.eq_of_run (z := .ok (t, y)) hreturn

lemma allOrNothing_appended {left : ℕ} {e : Option Effect} {buf : Option Msgbuf}
    (hstops : Stops (fun n => kuIpcMsgsnd n o m new c)
      (.ok (m.appended new k (c.storedWith o), ⟨left, e, buf⟩))) :
    AllOrNothing o m new c ↔ left = 0 := by
  constructor
  · intro hall
    obtain ⟨n, hn⟩ := hstops.run
    by_contra hleft
    apply touched_appended new k (c.storedWith o)
    exact (hall n).2 _ _ hn fun hret => hleft (Int.natCast_eq_zero.mp hret)
  · intro hleft n
    refine ⟨?_, ?_⟩
    · intro hnull
      cases hstops.eq_of_run (z := .error .null) hnull
    · intro t y hreturn hret
      obtain ⟨-, rfl⟩ := Prod.mk.inj ((returns_iff.mpr hstops).eq_of_run hreturn)
      simp [hleft] at hret

lemma allOrNothing_iff (h : m.Linked q) (hk : arrayIndex queueNum c.key = .ok k)
    (hsz : 0 ≤ c.msgsz ∧ c.msgsz ≤ sizeofMsgbuf) (new : Fresh m) :
    AllOrNothing o m new c ↔ Full (m.contents (q k)) ∨ Completes o c := by
  by_cases hf : Full (m.contents (q k))
  · exact iff_of_true (allOrNothing_full h hk new hf) (Or.inl hf)
  · have hstops := send_room h hk o new hf
    rw [completes_iff hsz, or_iff_right hf]
    by_cases hallocs : o.vmalloc = true ∧ o.kmalloc = true
    · rw [append_returns h new k hsz hallocs.1 hallocs.2] at hstops
      rw [and_iff_right hallocs]
      exact allOrNothing_appended hstops
    · apply iff_of_false
      · intro hall
        rw [append_null new k hsz hallocs] at hstops
        obtain ⟨n, hn⟩ := hstops.run
        exact (hall n).1 hn
      · exact fun hcompletes => hallocs hcompletes.1

end Sends

section Runs

variable {m t : System A B} {q : Fin queueNum → List A} {xs : List A} {a : A} {k : Fin queueNum}
  {o : Outcome} {c : MsgConfig} {y : Reply} {new : Fresh m}

def Served (m : System A B) (l : Outcome × Call) (t : System A B) : Prop :=
  l.2.request.InRange ∧ ∃ (new : Fresh m) (y : Reply) (n : ℕ),
    kuIpcIoctl n l.1 m new l.2 = pure (t, y)

lemma linked_send (h : m.Linked q) (hc : (Request.msgsnd c).InRange) {n : ℕ}
    (hcall : kuIpcMsgsnd n o m new c = pure (t, y)) : ∃ q', t.Linked q' := by
  obtain ⟨k, hk⟩ := exists_arrayIndex hc.1
  have hsent := (kuIpcMsgsnd_stops h hk o new).eq_of_run (z := .ok (t, y)) hcall
  obtain ⟨-, rfl, -⟩ | ⟨-, -, rfl, -⟩ := sendTo_inv h hc.2 hsent.symm
  · exact ⟨q, h⟩
  · exact ⟨_, h.appended new k (c.storedWith o)⟩

lemma receive_walk_inv {w : Receive A B}
    (h : forIn xs ⟨m, none⟩ (receiveBody o k c) = .ok w) :
    w.memory = m ∨ ∃ ys a zs y, xs = ys ++ a :: zs ∧ take o m k c a = .ok (w.memory, y) := by
  induction xs with
  | nil =>
    cases h
    exact Or.inl rfl
  | cons x xs ih =>
    rw [List.forIn_cons] at h
    obtain ⟨b, hb, h⟩ := bind_ok.mp h
    obtain rfl | rfl | ⟨t, y, htake, rfl⟩ := receiveBody_inv hb
    · obtain hsame | ⟨ys, a, zs, y, rfl, htake⟩ := ih h
      · exact Or.inl hsame
      · exact Or.inr ⟨x :: ys, a, zs, y, rfl, htake⟩
    · cases h
      exact Or.inl rfl
    · cases h
      exact Or.inr ⟨[], x, xs, y, rfl, htake⟩

lemma linked_take {ys zs : List A} (h : m.Linked q) (hsplit : q k = ys ++ a :: zs)
    {j : Fin queueNum} (htake : take o m j c a = .ok (t, y)) :
    t.Linked (Function.update q k (ys ++ zs)) := by
  have ha : m.lists.nodes.live a = true := h.live_of_mem (k := k) (by simp [hsplit])
  have hb := Messages.live_buf h.bufs ha
  rw [take, Ledger.read_of_live ha, ok_bind, Ledger.read_of_live hb, ok_bind] at htake
  obtain ⟨⟨bytes, ret⟩, -, hremove⟩ := bind_ok.mp htake
  have hremoved := (h.removed_eq hsplit ha hb fun m => (m, _)).symm.trans hremove
  obtain ⟨rfl, -⟩ := Prod.mk.inj (Except.ok.inj hremoved)
  exact h.removed hsplit

lemma linked_receive (h : m.Linked q) (hc : (Request.msgrcv c).InRange) {n : ℕ}
    (hcall : kuIpcMsgrcv n o m c = pure (t, y)) : ∃ q', t.Linked q' := by
  obtain ⟨k, hk⟩ := exists_arrayIndex hc.1
  obtain ⟨w, hw, hreply⟩ := bind_ok.mp ((kuIpcMsgrcv_stops h hk o).eq_of_run
    (z := .ok (t, y)) hcall).symm
  cases hreply
  obtain hsame | ⟨ys, a, zs, y', hsplit, htake⟩ := receive_walk_inv hw
  · exact ⟨q, by rwa [hsame]⟩
  · exact ⟨_, linked_take h hsplit htake⟩

variable {junk : A → B} {junkBuf : B → Msgbuf} {ls : List (Outcome × Call)}

lemma linked_run (h : Run Served (.init junk junkBuf) ls m) : ∃ q, m.Linked q := by
  refine h.invariant (I := fun m => ∃ q, m.Linked q) ?_ ⟨_, Messages.linked_init junk junkBuf⟩
  rintro m ⟨o, c⟩ t ⟨q, hq⟩ ⟨hc, new, y, n, hcall⟩
  cases c with
  | msgsnd c => exact linked_send hq hc hcall
  | msgrcv c => exact linked_receive hq hc hcall

theorem send_all_or_nothing_iff (h : Run Served (.init junk junkBuf) ls m)
    (hc : (Request.msgsnd c).InRange) (hk : c.key = k.val) (o : Outcome) (new : Fresh m) :
    ∃ q, m.Linked q ∧
      (AllOrNothing o m new c ↔ Full (m.contents (q k)) ∨ Completes o c) := by
  obtain ⟨q, hq⟩ := linked_run h
  have hk' : arrayIndex queueNum c.key = .ok k := by
    rw [hk]
    exact arrayIndex_fin k
  exact ⟨q, hq, allOrNothing_iff hq hk' hc.2 new⟩

theorem send_all_or_nothing_blank :
    ∃ q, blank.Linked q ∧
      (AllOrNothing ⟨true, true, 1⟩ blank firstAlloc shortMessage ↔
        Full (blank.contents (q 0)) ∨ Completes ⟨true, true, 1⟩ shortMessage) :=
  send_all_or_nothing_iff .nil ⟨by decide, by decide⟩ rfl _ _

theorem send_partial : ¬ ∀ (ls : List (Outcome × Call)) (m : System ℕ ℕ) (c : MsgConfig)
    (o : Outcome) (new : Fresh m), Run Served blank ls m → (Request.msgsnd c).InRange →
      AllOrNothing o m new c := by
  intro h
  have hc : (Request.msgsnd shortMessage).InRange := ⟨by decide, by decide⟩
  have hlinked : blank.Linked fun _ => [] := Messages.linked_init _ _
  have hall := h [] blank shortMessage ⟨true, true, 1⟩ firstAlloc .nil hc
  have hfull : ¬ Full (blank.contents []) := by decide
  obtain hf | ⟨-, -, hleft⟩ := (allOrNothing_iff (k := 0) hlinked rfl hc.2 firstAlloc).mp hall
  · exact hfull hf
  · exact absurd hleft (by decide)

end Runs

end Memory

section Receives

variable {P : Type} [DecidableEq P] {s t u v : System P} {p : P} {ls : List (P × Move)}
  {o : Outcome} {y : Reply} {c : MsgConfig} {k : Fin queueNum} {m : Msgbuf}
  {q before rest : List Msgbuf}

lemma terminated_of_volume (h : m.volume ≤ sizeofMsgbuf) : Terminated m.text := by
  apply (terminated_iff _).mpr
  simp only [Msgbuf.volume, sizeofLong, sizeofMsgbuf] at h
  omega

lemma findMessage_of_takes (hsz : 0 ≤ c.msgsz ∧ c.msgsz ≤ sizeofMsgbuf)
    (ht : Takes Msgbuf.type q m rest) (hm : m.type = c.msgtyp) (hfits : c.Fits m) :
    findMessage c q = .ok (.found m rest) := by
  have hsize := sizeT_of_nonneg hsz.1 (hsz.2.trans_lt (by decide))
  obtain ⟨before, after, rfl, rfl, hbefore⟩ := ht
  induction before with
  | nil =>
    simp only [List.nil_append]
    rw [findMessage, if_pos hm.symm]
    by_cases hflg : c.msgflg &&& kuMsgNoerror = 0
    · have hvolume := hfits hflg
      have hterm := terminated_of_volume (m := m) (by omega)
      have hlong : ¬ sizeT c.msgsz < sizeofLong + textLength m.text + 1 := by
        simp only [Msgbuf.volume] at hvolume
        omega
      simp only [if_pos hflg, strlen_of_terminated hterm, ok_bind, if_neg hlong]
      rfl
    · rw [if_neg hflg]
      rfl
  | cons x before ih =>
    have hx : ¬ c.msgtyp = x.type := by
      rw [← hm]
      exact (hbefore x (by simp)).symm
    rw [List.cons_append, findMessage, if_neg hx, ih fun z hz => hbefore z (by simp [hz])]
    rfl

lemma kuIpcMsgrcv_takes {d : Driver} (hk : arrayIndex queueNum c.key = .ok k)
    (hsz : 0 ≤ c.msgsz ∧ c.msgsz ≤ sizeofMsgbuf) (ht : Takes Msgbuf.type (d.msgQueue k) m rest)
    (hm : m.type = c.msgtyp) (hfits : c.Fits m) :
    kuIpcMsgrcv o d c = .ok (d.setQueue k rest, delivery o c k m) := by
  obtain ⟨⟨bytes, ret⟩, hcopy⟩ := userCopy_total (n := 136) o hsz (by decide) c.msg.bytes m.bytes
  rw [kuIpcMsgrcv, hk, ok_bind, findMessage_of_takes hsz ht hm hfits, ok_bind]
  simp only [hcopy, ok_bind]
  obtain rfl := userCopy_left hcopy
  obtain rfl := userCopy_copied hcopy
  rfl

/-- A receive that does not return 0 keeps the queues, and the library reports a size only if all
the bytes that were asked for have been copied. -/
def Undamaged (o : Outcome) (s : System P) (c : MsgConfig) : Prop :=
  (∀ t y, kuIpcMsgrcv o s.driver c = .ok (t, y) → y.ret ≠ 0 → t.msgQueue = s.driver.msgQueue) ∧
    ∀ p y t ls u v ret buf, (s.process p).phase = .calling (receive c) →
      Step s (p, .ioctl o y) t → Run Step t ls u → (∀ l ∈ ls, l.1 ≠ p) → Step u (p, .test) v →
        (v.process p).phase = .closing (receive c) ret buf → 0 ≤ ret → (c.copied o : ℤ) = c.msgsz

def DeliversWhole (o : Outcome) (d : Driver) (c : MsgConfig) : Prop :=
  ∀ k m rest, arrayIndex queueNum c.key = .ok k → Takes Msgbuf.type (d.msgQueue k) m rest →
    m.type = c.msgtyp → c.Fits m → o.uncopied = 0 ∨ c.msgsz = 0

lemma copied_iff (hsz : 0 ≤ c.msgsz ∧ c.msgsz ≤ sizeofMsgbuf) :
    (c.copied o : ℤ) = c.msgsz ↔ o.uncopied = 0 ∨ c.msgsz = 0 := by
  have hsize := sizeT_of_nonneg hsz.1 (hsz.2.trans_lt (by decide))
  rw [MsgConfig.copied]
  omega

lemma failed_test {use : Fin queueNum → Bool} {buf : Msgbuf} {w : Verdict}
    (h : (receive c).routine.test use (-1) buf = .ok w) : w = .again ∨ w = .done (-1) use := by
  simp only [receive, Call.routine, kuMsgrcv] at h
  split at h
  · cases h
    exact Or.inr rfl
  · cases h
    exact Or.inl rfl

lemma delivered_inv (hph : (s.process p).phase = .calling (receive c))
    (hs : Step s (p, .ioctl o y) t) (hrun : Run Step t ls u) (hothers : ∀ l ∈ ls, l.1 ≠ p)
    (htest : Step u (p, .test) v) {ret : ℤ} {buf : Msgbuf}
    (hclosing : (v.process p).phase = .closing (receive c) ret buf) (hret : 0 ≤ ret) :
    ∃ k m rest, arrayIndex queueNum c.key = .ok k ∧
      Takes Msgbuf.type (s.driver.msgQueue k) m rest ∧ m.type = c.msgtyp ∧ c.Fits m := by
  obtain ⟨d, hd, rfl⟩ := receive_inv hph hs
  obtain ⟨k, q, hk, hreceipt, -⟩ := kuIpcMsgrcv_receipt hd
  have hphase := others_run hrun hothers
  rw [process_set_self] at hphase
  have hfailed : ∀ use, ¬ u.process p = ⟨use, .testing (receive c) (-1) c.msg⟩ := by
    intro use hu
    cases htest with
    | @test _ _ _ _ w hph' hw =>
      rw [hu] at hph' hw hclosing
      cases hph'
      rw [process_set_self] at hclosing
      obtain rfl | rfl := failed_test hw
      · cases hclosing
      · cases hclosing
        exact absurd hret (by decide)
  cases hreceipt with
  | absent | short => exact absurd hphase (hfailed _)
  | found ht hm hfits => exact ⟨k, _, _, hk, ht, hm, hfits⟩

theorem receive_undamaged_iff (s : System P) (hc : (Request.msgrcv c).InRange) (o : Outcome) :
    Undamaged o s c ↔ DeliversWhole o s.driver c := by
  constructor
  · rintro ⟨hkeeps, -⟩ k m rest hk ht hm hfits
    have hrcv := kuIpcMsgrcv_takes (o := o) hk hc.2 ht hm hfits
    have hsize := sizeT_of_nonneg hc.2.1 (hc.2.2.trans_lt (by decide))
    by_contra hleft
    have hret : (delivery o c k m).ret ≠ 0 := by
      simp only [delivery]
      omega
    have hqueue := congrFun (hkeeps _ _ hrcv hret) k
    rw [msgQueue_setQueue, Function.update_self] at hqueue
    have hlength := ht.length
    rw [hqueue] at hlength
    omega
  · intro hdelivers
    refine ⟨?_, ?_⟩
    · intro t y hrcv hret
      obtain ⟨k, q, hk, hreceipt, rfl⟩ := kuIpcMsgrcv_receipt hrcv
      cases hreceipt with
      | absent | short => rw [setQueue_self]
      | found ht hm hfits =>
        refine absurd ?_ hret
        have hleft := hdelivers k _ _ hk ht hm hfits
        have hsize := sizeT_of_nonneg hc.2.1 (hc.2.2.trans_lt (by decide))
        simp only [delivery]
        omega
    · intro p y t ls u v ret buf hph hs hrun hothers htest hclosing hret
      obtain ⟨k, m, rest, hk, ht, hm, hfits⟩ :=
        delivered_inv hph hs hrun hothers htest hclosing hret
      exact (copied_iff hc.2).mpr (hdelivers k m rest hk ht hm hfits)

def wholeReceive : MsgConfig := ⟨0, .zero, 14, 1, 0⟩

def helloStored : Msgbuf := MsgConfig.storedWith .success ⟨0, hello, 14, 0, 0⟩

lemma hello_queued : ∃ (ls : List (Fin 1 × Move)) (s : System (Fin 1)),
    Run Step .init ls s ∧ s.driver.msgQueue 0 = [helloStored] := by
  refine ⟨[(0, .call (.msgget 0 kuIpcCreat)), (0, .openDev true),
    (0, .ioctl .success ⟨0, some (.counted 0), none⟩), (0, .test),
    (0, .ret (.msgget 0 kuIpcCreat) 0 .zero), (0, .call (.msgsnd 0 hello 14 0)),
    (0, .openDev true), (0, .ioctl .success ⟨0, some (.queued 0 helloStored), none⟩)], _,
    .cons (.call (i := 0) rfl rfl rfl) (.cons (.opened rfl) (.cons (.ioctl rfl rfl)
      (.cons (.test rfl rfl) (.cons (.ret rfl) (.cons (.call (i := 0) rfl rfl rfl)
      (.cons (.opened rfl) (.cons (.ioctl rfl rfl) .nil))))))), rfl⟩

lemma hello_taken {q : List Msgbuf} (hq : q = [helloStored]) :
    Takes Msgbuf.type q helloStored [] ∧ helloStored.type = wholeReceive.msgtyp ∧
      wholeReceive.Fits helloStored := by
  subst hq
  exact ⟨takes_head _ [], by decide +kernel, fun _ => by decide +kernel⟩

theorem receive_undamaged_hello : ∃ (ls : List (Fin 1 × Move)) (s : System (Fin 1)),
    Run Step .init ls s ∧ s.driver.msgQueue 0 = [helloStored] ∧
      Undamaged .success s wholeReceive ∧ ¬ Undamaged ⟨true, true, 6⟩ s wholeReceive := by
  obtain ⟨ls, s, hrun, hqueue⟩ := hello_queued
  obtain ⟨htakes, htype, hfits⟩ := hello_taken hqueue
  have hc : (Request.msgrcv wholeReceive).InRange := ⟨by decide, by decide⟩
  refine ⟨ls, s, hrun, hqueue, ?_, ?_⟩
  · exact (receive_undamaged_iff s hc .success).mpr fun _ _ _ _ _ _ _ => Or.inl rfl
  · intro hundamaged
    have hwhole := (receive_undamaged_iff s hc _).mp hundamaged 0 _ _ rfl htakes htype hfits
    exact absurd hwhole (by decide)

theorem receive_partial : ¬ ∀ (ls : List (Fin 1 × Move)) (s : System (Fin 1)) (c : MsgConfig)
    (o : Outcome), Run Step .init ls s → (Request.msgrcv c).InRange → Undamaged o s c := by
  intro h
  obtain ⟨ls, s, hrun, hqueue⟩ := hello_queued
  obtain ⟨htakes, htype, hfits⟩ := hello_taken hqueue
  have hc : (Request.msgrcv wholeReceive).InRange := ⟨by decide, by decide⟩
  have hrcv := kuIpcMsgrcv_takes (o := ⟨true, true, 6⟩) (c := wholeReceive) (k := 0) rfl hc.2 htakes
    htype hfits
  have hkeeps := (h _ s wholeReceive ⟨true, true, 6⟩ hrun hc).1 _ _ hrcv (by decide)
  have hlost := congrFun hkeeps 0
  rw [hqueue] at hlost
  simp at hlost

end Receives

end EmbeddedSystem.KuIpc
