import EmbeddedSystem.Foundations.Runs
import EmbeddedSystem.KuIpc.Effects

/-! Every queue of `ku_ipc.c` delivers the messages of each type once and in order. What was sent
to a queue and what was taken from it is read off the requests and their results. -/

namespace EmbeddedSystem.KuIpc

open Kernel Foundations Foundations.SelectiveFifo

def Effect.queuedIn (k : Fin queueNum) : Effect → Option Msgbuf
  | .queued j m => if j = k then some m else none
  | _ => none

def Effect.removedFrom (k : Fin queueNum) : Effect → Option Msgbuf
  | .removed j m => if j = k then some m else none
  | _ => none

def accepted (k : Fin queueNum) (log : List Effect) : List Msgbuf :=
  log.filterMap (Effect.queuedIn k)

def removed (k : Fin queueNum) (log : List Effect) : List Msgbuf :=
  log.filterMap (Effect.removedFrom k)

section Log

variable (k : Fin queueNum) (log log' : List Effect)

@[simp] lemma accepted_append : accepted k (log ++ log') = accepted k log ++ accepted k log' :=
  List.filterMap_append

@[simp] lemma removed_append : removed k (log ++ log') = removed k log ++ removed k log' :=
  List.filterMap_append

@[simp] lemma accepted_singleton (e : Effect) : accepted k [e] = (e.queuedIn k).toList := by
  cases h : e.queuedIn k <;> simp [accepted, h]

@[simp] lemma removed_singleton (e : Effect) : removed k [e] = (e.removedFrom k).toList := by
  cases h : e.removedFrom k <;> simp [removed, h]

end Log

structure Delivers (x : Driver × List Effect) : Prop where
  balanced : ∀ k, Balanced Msgbuf.type (accepted k x.2) (removed k x.2) (x.1.msgQueue k)
  bounded : ∀ k, (x.1.msgQueue k).length ≤ kuipcMaxmsg

lemma delivers_init : Delivers (.init, []) :=
  ⟨fun _ => balanced_nil, fun _ => Nat.zero_le _⟩

lemma Delivers.changes {s t : Driver} {log : List Effect} {e : Option Effect}
    (h : Delivers (s, log)) (hc : Changes s t e) : Delivers (t, log ++ e.toList) := by
  obtain ⟨hbal, hlen⟩ := h
  cases e with
  | none =>
    obtain rfl := hc
    exact ⟨by simpa using hbal, hlen⟩
  | some e =>
    cases e with
    | counted j =>
      obtain rfl := hc
      exact ⟨by simpa [Effect.queuedIn, Effect.removedFrom] using hbal, hlen⟩
    | uncounted j =>
      obtain ⟨_, rfl⟩ := hc
      exact ⟨by simpa [Effect.queuedIn, Effect.removedFrom] using hbal, hlen⟩
    | queued j m =>
      obtain ⟨hfull, rfl⟩ := hc
      constructor
      · intro k
        by_cases hkj : k = j
        · subst hkj
          simpa [Effect.queuedIn, Effect.removedFrom] using (hbal k).arrive m
        · simpa [Effect.queuedIn, Effect.removedFrom, Ne.symm hkj, hkj] using hbal k
      · intro k
        by_cases hkj : k = j
        · subst hkj
          have hroom : (s.msgQueue k).length < kuipcMaxmsg := by
            unfold Full at hfull
            omega
          simpa using hroom
        · simpa [hkj] using hlen k
    | removed j m =>
      obtain ⟨rest, ht, rfl⟩ := hc
      constructor
      · intro k
        by_cases hkj : k = j
        · subst hkj
          simpa [Effect.queuedIn, Effect.removedFrom] using (hbal k).depart ht
        · simpa [Effect.queuedIn, Effect.removedFrom, Ne.symm hkj, hkj] using hbal k
      · intro k
        by_cases hkj : k = j
        · subst hkj
          have hbefore := hlen k
          have hrest := ht.length
          simp only [msgQueue_setQueue, Function.update_self] at hbefore ⊢
          omega
        · simpa [hkj] using hlen k

structure Served where
  before : Driver
  request : Request
  reply : Reply

def Served.sent (k : Fin queueNum) (x : Served) : Option Msgbuf :=
  match x.request with
  | .msgsnd c => if c.key = k.val ∧ 0 ≤ x.reply.ret then some c.stored else none
  | _ => none

def Served.taken (k : Fin queueNum) (x : Served) : Option Msgbuf :=
  match x.request with
  | .msgrcv c =>
    if c.key = k.val ∧ 0 ≤ x.reply.ret then
      (x.before.msgQueue k).find? fun m => m.type = c.msgtyp
    else none
  | _ => none

/-- A send is refused exactly by a full queue; a receive fails without a first message of its type
that fits, and otherwise puts the first `msgsz` bytes of that message into the caller's buffer. -/
def Served.Answered (x : Served) : Prop :=
  match x.request with
  | .msgsnd c => ∃ k : Fin queueNum, c.key = k.val ∧
      x.reply.ret = if Full (x.before.msgQueue k) then -1 else 0
  | .msgrcv c => ∃ k : Fin queueNum, c.key = k.val ∧
      (x.reply.ret < 0 ∧
          (∀ m, (x.before.msgQueue k).find? (fun m => m.type = c.msgtyp) = some m → ¬ c.Fits m) ∨
        x.reply.ret = 0 ∧ ∃ m, x.taken k = some m ∧
          x.reply.buf = some ⟨copyBytes c.msg.bytes m.bytes c.msgsz.toNat⟩)
  | _ => True

def sent (k : Fin queueNum) (log : List Served) : List Msgbuf :=
  log.filterMap (Served.sent k)

def taken (k : Fin queueNum) (log : List Served) : List Msgbuf :=
  log.filterMap (Served.taken k)

def sessionStep (x : Driver × List Served) (r : Request) : Except Fault (Driver × List Served) := do
  let (t, y) ← kuIpcIoctl .success x.1 r
  return (t, x.2 ++ [⟨x.1, r, y⟩])

def session (rs : List Request) : Except Fault (Driver × List Served) :=
  rs.foldlM sessionStep (.init, [])

lemma sent_snoc (k : Fin queueNum) (log : List Served) (x : Served) :
    sent k (log ++ [x]) = sent k log ++ (x.sent k).toList := by
  cases h : x.sent k <;> simp [sent, h]

lemma taken_snoc (k : Fin queueNum) (log : List Served) (x : Served) :
    taken k (log ++ [x]) = taken k log ++ (x.taken k).toList := by
  cases h : x.taken k <;> simp [taken, h]

section Served

variable {s t : Driver} {r : Request} {y : Reply}

lemma key_eq_iff {key : ℤ} {j : Fin queueNum} (hj : arrayIndex queueNum key = .ok j)
    (k : Fin queueNum) : key = k.val ↔ j = k := by
  rw [arrayIndex_val hj, Int.natCast_inj, Fin.val_inj]

lemma served_sent (hr : r.Valid) (h : kuIpcIoctl .success s r = .ok (t, y))
    (k : Fin queueNum) :
    (⟨s, r, y⟩ : Served).sent k = y.effect.bind (Effect.queuedIn k) := by
  cases r with
  | msgget q =>
    rcases kuIpcMsgget_cases h with ⟨_, _, _, rfl⟩ | ⟨j, _, ⟨_, _, _, rfl⟩ | ⟨_, _, rfl⟩⟩ <;> rfl
  | msgclose msqid =>
    obtain ⟨j, _, ⟨_, _, rfl⟩ | ⟨_, _, rfl⟩⟩ := kuIpcMsgclose_cases h <;> rfl
  | msgrcv c =>
    obtain ⟨j, _, ⟨_, _, rfl⟩ | ⟨_, _, rfl⟩ | ⟨_, _, _, _, _, _, _, _, _, rfl⟩⟩ :=
      kuIpcMsgrcv_cases h <;> rfl
  | msgsnd c =>
    obtain ⟨j, hj, ⟨_, _, rfl⟩ | ⟨_, bytes, ret, hcopy, _, rfl⟩⟩ := kuIpcMsgsnd_cases h
    · exact if_neg (by simp)
    · rw [userCopy_success (n := 136) hr.2.1 (by decide)] at hcopy
      cases hcopy
      simp only [Served.sent, le_refl, and_true, key_eq_iff hj]
      rfl
  | unknown =>
    cases h
    rfl

lemma served_taken (hr : r.Valid) (h : kuIpcIoctl .success s r = .ok (t, y))
    (k : Fin queueNum) :
    (⟨s, r, y⟩ : Served).taken k = y.effect.bind (Effect.removedFrom k) := by
  cases r with
  | msgget q =>
    rcases kuIpcMsgget_cases h with ⟨_, _, _, rfl⟩ | ⟨j, _, ⟨_, _, _, rfl⟩ | ⟨_, _, rfl⟩⟩ <;> rfl
  | msgclose msqid =>
    obtain ⟨j, _, ⟨_, _, rfl⟩ | ⟨_, _, rfl⟩⟩ := kuIpcMsgclose_cases h <;> rfl
  | msgsnd c =>
    obtain ⟨j, _, ⟨_, _, rfl⟩ | ⟨_, _, _, _, _, rfl⟩⟩ := kuIpcMsgsnd_cases h <;> rfl
  | msgrcv c =>
    obtain ⟨j, hj, ⟨_, _, rfl⟩ | ⟨_, _, rfl⟩ | ⟨m, rest, bytes, ret, ht, hm, _, hcopy, _, rfl⟩⟩ :=
      kuIpcMsgrcv_cases h
    · exact if_neg (by simp)
    · exact if_neg (by simp)
    · rw [userCopy_success (n := 136) hr.2 (by decide)] at hcopy
      cases hcopy
      simp only [Served.taken, le_refl, and_true, key_eq_iff hj, ← hm]
      by_cases hjk : j = k
      · subst hjk
        simpa [Effect.removedFrom] using ht.find?
      · simp [Effect.removedFrom, hjk]
  | unknown =>
    cases h
    rfl

lemma served_answered (hr : r.Valid) (h : kuIpcIoctl .success s r = .ok (t, y)) :
    (⟨s, r, y⟩ : Served).Answered := by
  cases r with
  | msgget | msgclose | unknown => trivial
  | msgsnd c =>
    obtain ⟨j, hj, ⟨hf, _, rfl⟩ | ⟨hf, bytes, ret, hcopy, _, rfl⟩⟩ := kuIpcMsgsnd_cases h
    · exact ⟨j, arrayIndex_val hj, (if_pos hf).symm⟩
    · rw [userCopy_success (n := 136) hr.2.1 (by decide)] at hcopy
      cases hcopy
      exact ⟨j, arrayIndex_val hj, (if_neg hf).symm⟩
  | msgrcv c =>
    have htaken := served_taken hr h
    obtain ⟨j, hj, ⟨hno, _, rfl⟩ | ⟨⟨m, rest, ht, hm, hfit⟩, _, rfl⟩ |
      ⟨m, rest, bytes, ret, _, _, _, hcopy, _, rfl⟩⟩ := kuIpcMsgrcv_cases h
    · refine ⟨j, arrayIndex_val hj, Or.inl ⟨neg_one_lt_zero, ?_⟩⟩
      intro m hm
      exact absurd (by simpa using List.find?_some hm) (hno m (List.mem_of_find?_eq_some hm))
    · refine ⟨j, arrayIndex_val hj, Or.inl ⟨by simp, ?_⟩⟩
      intro m' hm'
      rw [← hm, ht.find?] at hm'
      cases hm'
      exact hfit
    · rw [userCopy_success (n := 136) hr.2 (by decide)] at hcopy
      cases hcopy
      exact ⟨j, arrayIndex_val hj, Or.inr ⟨rfl, m, by simp [htaken, Effect.removedFrom], rfl⟩⟩

end Served

structure Serves (s : Driver) (log : List Served) : Prop where
  delivers : ∃ es, Delivers (s, es) ∧ ∀ k, sent k log = accepted k es ∧ taken k log = removed k es
  answered : ∀ x ∈ log, x.Answered

lemma serves_init : Serves .init [] :=
  ⟨⟨[], delivers_init, fun _ => ⟨rfl, rfl⟩⟩, by simp⟩

lemma Serves.serve {s t : Driver} {log : List Served} {r : Request} {y : Reply}
    (h : Serves s log) (hr : r.Valid) (hi : kuIpcIoctl .success s r = .ok (t, y)) :
    Serves t (log ++ [⟨s, r, y⟩]) := by
  obtain ⟨es, hd, hes⟩ := h.delivers
  refine ⟨⟨es ++ y.effect.toList, hd.changes (kuIpcIoctl_changes hi), fun k => ?_⟩, ?_⟩
  · obtain ⟨hsent, htaken⟩ := hes k
    rw [sent_snoc, taken_snoc, served_sent hr hi, served_taken hr hi, hsent, htaken,
      accepted_append, removed_append]
    cases y.effect with
    | none => simp [accepted, removed]
    | some e => simp
  · intro x hx
    rcases List.mem_append.mp hx with hx | hx
    · exact h.answered x hx
    · obtain rfl := List.mem_singleton.mp hx
      exact served_answered hr hi

lemma session_total {rs : List Request} (hv : ∀ r ∈ rs, r.Valid) :
    ∃ s log, session rs = .ok (s, log) ∧ Serves s log ∧ ∀ k, TerminatedAll (s.msgQueue k) := by
  have hstep : ∀ (x : Driver × List Served) (r : Request),
      (Serves x.1 x.2 ∧ ∀ k, TerminatedAll (x.1.msgQueue k)) → r.Valid →
        ∃ z, sessionStep x r = .ok z ∧
          (Serves z.1 z.2 ∧ ∀ k, TerminatedAll (z.1.msgQueue k)) := by
    rintro ⟨s, log⟩ r ⟨hd, hq⟩ hr
    obtain ⟨t, y, h⟩ := kuIpcIoctl_total hr hq
    refine ⟨(t, log ++ [⟨s, r, y⟩]), ?_, hd.serve hr h, terminated_step hr hq h⟩
    simp only [sessionStep, h, ok_bind]
    rfl
  have hempty : ∀ k, TerminatedAll (Driver.init.msgQueue k) := by
    intro k m hm
    cases hm
  obtain ⟨⟨s, log⟩, h, hd, hq⟩ := foldlM_total hstep (s := (.init, [])) ⟨serves_init, hempty⟩ hv
  exact ⟨s, log, h, hd, hq⟩

lemma session_requests {rs : List Request} {x y : Driver × List Served}
    (h : rs.foldlM sessionStep x = .ok y) :
    y.2.map Served.request = x.2.map Served.request ++ rs := by
  induction rs generalizing x with
  | nil =>
    cases h
    simp
  | cons r rs ih =>
    obtain ⟨z, hz, h⟩ := bind_ok.mp h
    obtain ⟨⟨t, reply⟩, -, hz⟩ := bind_ok.mp hz
    cases hz
    rw [ih h]
    simp

theorem session_delivers_per_type (rs : List Request) (hv : ∀ r ∈ rs, r.Valid) :
    ∃ s log, session rs = .ok (s, log) ∧ log.map Served.request = rs ∧ (∀ x ∈ log, x.Answered) ∧
      ∀ k : Fin queueNum,
        (∀ t : BitVec 64, (sent k log).filter (fun m => m.type = t) =
          (taken k log).filter (fun m => m.type = t) ++
            (s.msgQueue k).filter fun m => m.type = t) ∧
        (s.msgQueue k).length ≤ kuipcMaxmsg := by
  obtain ⟨s, log, h, hs, -⟩ := session_total hv
  obtain ⟨es, hd, hes⟩ := hs.delivers
  refine ⟨s, log, h, session_requests h, hs.answered, fun k => ?_⟩
  rw [(hes k).1, (hes k).2]
  exact ⟨hd.balanced k, hd.bounded k⟩

theorem session_delivers_per_type_two :
    ∃ s log, session [.msgsnd ⟨1, .make 1 [104, 105], 11, 0, 0⟩, .msgrcv ⟨1, .zero, 136, 1, 0⟩] =
        .ok (s, log) ∧ log.map Served.request =
          [.msgsnd ⟨1, .make 1 [104, 105], 11, 0, 0⟩, .msgrcv ⟨1, .zero, 136, 1, 0⟩] ∧
      (∀ x ∈ log, x.Answered) ∧ ∀ k : Fin queueNum,
        (∀ t : BitVec 64, (sent k log).filter (fun m => m.type = t) =
          (taken k log).filter (fun m => m.type = t) ++
            (s.msgQueue k).filter fun m => m.type = t) ∧
        (s.msgQueue k).length ≤ kuipcMaxmsg := by
  refine session_delivers_per_type _ ?_
  intro r hr
  rcases List.mem_cons.mp hr with rfl | hr
  · exact ⟨by decide, by decide, 2, rfl⟩
  · obtain rfl := List.mem_singleton.mp hr
    exact ⟨by decide, by decide⟩

end EmbeddedSystem.KuIpc
