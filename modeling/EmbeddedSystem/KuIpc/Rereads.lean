import EmbeddedSystem.KuIpc.Failures

/-! Sends and receives whose caller rewrites its `struct msg_config` while the driver reads it. Each
read of a field has a value of its own. A head of `msg_queue_head` that is taken for an entry has a
null `msg`, so the walk stops there with a fault. -/

namespace EmbeddedSystem.KuIpc.Memory

open Kernel Foundations

variable {A B : Type} [DecidableEq A] [DecidableEq B]

/-- What the reads of a send return: those of `key` for the head of the walk, for each end test and
for the insertion, and one read each of `msg` and `msgsz`. -/
structure SendReads where
  key : ℕ → Fin queueNum
  msg : Msgbuf
  msgsz : ℤ

def SendReads.config (r : SendReads) : MsgConfig := ⟨(r.key 0).val, r.msg, r.msgsz, 0, 0⟩

def sendRereading (fuel : ℕ) (o : Outcome) (m : System A B) (new : Fresh m) (r : SendReads) :
    OptionT (Except Fault) (System A B × Reply) := do
  let (passed, msgNum, msgVol) ← Lists.listForEachReread (fun _ => m.lists) r.key
    (fun _ => countBody m) fuel ((0, 0) : ℕ × ℕ)
  if msgVol + sizeofInt > kuipcMaxvol ∨ msgNum ≥ kuipcMaxmsg then
    return (m, ⟨-1, none, none⟩)
  else
    -- after the read for the head and those for the end tests
    append o m new (r.key (passed + 2)) r.config

/-- What the reads of a receive return: those of `key`, those of `msgtyp` for each node, and those
for the node that is found, where `msgsz` is compared and read again for the copy. -/
structure ReceiveReads where
  key : ℕ → Fin queueNum
  msgtyp : ℕ → BitVec 64
  msgflg : BitVec 32
  msgsz : ℤ
  msg : Msgbuf
  copied : ℤ

def ReceiveReads.config (r : ReceiveReads) : MsgConfig := ⟨(r.key 0).val, r.msg, r.copied, 0, 0⟩

def rereadBody (o : Outcome) (r : ReceiveReads) (i : ℕ) (tmp : A) (s : Receive A B) :
    Except Fault (ForInStep (Receive A B)) := do
  let msg ← s.memory.lists.nodes.read tmp
  let buf ← s.memory.bufs.read msg
  if r.msgtyp i = buf.type then
    if r.msgflg &&& kuMsgNoerror = 0 then
      let n ← strlen buf.text
      if sizeT r.msgsz < sizeofLong + n + 1 then
        return .done ⟨s.memory, some ⟨-2, none, none⟩⟩
    let (memory, reply) ← take o s.memory (r.key 0) r.config tmp
    return .done ⟨memory, some reply⟩
  else
    return .yield s

def receiveRereading (fuel : ℕ) (o : Outcome) (m : System A B) (r : ReceiveReads) :
    OptionT (Except Fault) (System A B × Reply) := do
  let (_, s) ← Lists.listForEachReread (fun s => s.memory.lists) r.key (rereadBody o r) fuel
    (⟨m, none⟩ : Receive A B)
  return (s.memory, s.reply.getD ⟨-1, none, none⟩)

inductive Rereading
  | msgsnd (r : SendReads)
  | msgrcv (r : ReceiveReads)

def Rereading.InRange : Rereading → Prop
  | .msgsnd r => 0 ≤ r.msgsz ∧ r.msgsz ≤ sizeofMsgbuf
  | .msgrcv r => (0 ≤ r.msgsz ∧ r.msgsz ≤ sizeofMsgbuf) ∧ 0 ≤ r.copied ∧ r.copied ≤ sizeofMsgbuf

def ioctlRereading (fuel : ℕ) (o : Outcome) (m : System A B) (new : Fresh m) :
    Rereading → OptionT (Except Fault) (System A B × Reply)
  | .msgsnd r => sendRereading fuel o m new r
  | .msgrcv r => receiveRereading fuel o m r

def Reread (m : System A B) (l : Outcome × Rereading) (t : System A B) : Prop :=
  l.2.InRange ∧ ∃ (new : Fresh m) (y : Reply) (n : ℕ), ioctlRereading n l.1 m new l.2 = pure (t, y)

section Unchanged

variable {k : Fin queueNum} {c : MsgConfig}

lemma sendRereading_const (hk : arrayIndex queueNum c.key = .ok k) (n : ℕ) (o : Outcome)
    (m : System A B) (new : Fresh m) :
    sendRereading n o m new ⟨fun _ => k, c.msg, c.msgsz⟩ = kuIpcMsgsnd n o m new c := by
  rw [kuIpcMsgsnd, hk]
  change _ = Lists.listForEachEntry (fun _ => m.lists) k (countBody m) n (0, 0) >>= _
  rw [← Lists.listForEachReread_const, bind_map_left]
  rfl

lemma receiveRereading_const (hk : arrayIndex queueNum c.key = .ok k) (n : ℕ) (o : Outcome)
    (m : System A B) :
    receiveRereading n o m ⟨fun _ => k, fun _ => c.msgtyp, c.msgflg, c.msgsz, c.msg, c.msgsz⟩ =
      kuIpcMsgrcv n o m c := by
  rw [kuIpcMsgrcv, hk]
  change _ = Lists.listForEachEntry (fun s => s.memory.lists) k (receiveBody o k c) n
    (⟨m, none⟩ : Receive A B) >>= _
  rw [← Lists.listForEachReread_const, bind_map_left]
  rfl

end Unchanged

section Sends

variable {m t : System A B} {q : Fin queueNum → List A} {xs : List A} {k : Fin queueNum}
  {o : Outcome} {r : SendReads} {y : Reply} {new : Fresh m}

def collect (a : A) (xs : List A) : Except Fault (ForInStep (List A)) := .ok (.yield (xs ++ [a]))

def countedNodes (fuel : ℕ) (m : System A B) (r : SendReads) :
    OptionT (Except Fault) (ℕ × List A) :=
  Lists.listForEachReread (fun _ => m.lists) r.key (fun _ => collect) fuel []

def EntersCounted (m : System A B) : Outcome × Rereading → Prop
  | (o, .msgsnd r) => ∀ new n t y k msg, sendRereading n o m new r = pure (t, y) →
      y.effect = some (.queued k msg) →
        ∀ q n' i xs, m.Linked q → countedNodes n' m r = pure (i, xs) → xs = q k
  | (_, .msgrcv _) => True

/-- The walk ends at another head, or finds its queue full, or the allocations fail, or the key is
the same when it is read for the insertion; two empty queues may stand for each other. -/
def SameQueue (m : System A B) : Outcome × Rereading → Prop
  | (o, .msgsnd r) => ∀ q, m.Linked q →
      r.key ((q (r.key 0)).length + 1) ≠ r.key 0 ∨ Full (m.contents (q (r.key 0))) ∨
      ¬ (o.vmalloc = true ∧ o.kmalloc = true) ∨
      r.key ((q (r.key 0)).length + 2) = r.key 0 ∨
      q (r.key 0) = [] ∧ q (r.key ((q (r.key 0)).length + 2)) = []
  | (_, .msgrcv _) => True

omit [DecidableEq A] [DecidableEq B] in
lemma countBody_yields {a : A} {s s' : ℕ × ℕ} : countBody m a s ≠ .ok (.done s') := by
  intro h
  obtain ⟨msg, -, h⟩ := bind_ok.mp h
  obtain ⟨buf, -, h⟩ := bind_ok.mp h
  obtain ⟨n, -, h⟩ := bind_ok.mp h
  cases h

omit [DecidableEq A] in
lemma forIn_collect (xs acc : List A) : forIn xs acc collect = .ok (acc ++ xs) := by
  induction xs generalizing acc with
  | nil =>
    rw [List.append_nil]
    rfl
  | cons a xs ih =>
    rw [List.forIn_cons, List.append_cons]
    exact ih (acc ++ [a])

omit [DecidableEq B] in
lemma countedNodes_stops (h : m.Linked q) (r : SendReads) :
    Stops (fun n => countedNodes n m r)
      (if r.key ((q (r.key 0)).length + 1) = r.key 0 then
        .ok ((q (r.key 0)).length, q (r.key 0))
      else .error .listHead) := by
  have hlive : ∀ a ∈ q (r.key 0), m.lists.nodes.live a = true := fun a ha => h.live_of_mem ha
  have hwalk := (h.ring (r.key 0)).stops_forEachReread (s := ([] : List A))
    (f := fun _ => collect) (fun _ => m.lists) hlive (fun _ _ _ _ _ => rfl)
  rw [rereadList_yields (by rintro a s s' ⟨⟩), forIn_collect, ok_bind] at hwalk
  simp only [Nat.zero_add, List.nil_append] at hwalk
  exact hwalk

omit [DecidableEq B] in
lemma countWalk_stops (h : m.Linked q) (r : SendReads) :
    Stops (fun n => Lists.listForEachReread (fun _ => m.lists) r.key (fun _ => countBody m) n
      ((0, 0) : ℕ × ℕ)) (do
        let s ← countMessages (m.contents (q (r.key 0))) 0 0
        if r.key ((q (r.key 0)).length + 1) = r.key 0 then return ((q (r.key 0)).length, s)
        else .error Fault.listHead) := by
  have hlive : ∀ a ∈ q (r.key 0), m.lists.nodes.live a = true := fun a ha => h.live_of_mem ha
  have hwalk := (h.ring (r.key 0)).stops_forEachReread (s := ((0, 0) : ℕ × ℕ))
    (f := fun _ => countBody m) (fun _ => m.lists) hlive (fun _ _ _ _ _ => rfl)
  rw [rereadList_yields (fun _ _ _ => countBody_yields), count_walk h.bufs hlive] at hwalk
  simpa only [Nat.zero_add] using hwalk

lemma sendRereading_stops (h : m.Linked q) (o : Outcome) (new : Fresh m)
    (hend : r.key ((q (r.key 0)).length + 1) = r.key 0) :
    Stops (fun n => sendRereading n o m new r)
      (sendTo o m new (r.key ((q (r.key 0)).length + 2)) r.config
        (m.contents (q (r.key 0)))) := by
  have hwalk := countWalk_stops h r
  simp only [if_pos hend] at hwalk
  rw [sendTo]
  cases hcount : countMessages (m.contents (q (r.key 0))) 0 0 with
  | error e =>
    rw [hcount] at hwalk
    exact hwalk.error
  | ok count =>
    rw [hcount] at hwalk
    apply hwalk.bind
    simp only [ok_bind]
    split
    · exact Stops.done (.ok _)
    · exact Stops.done _

lemma sendRereading_elsewhere (h : m.Linked q)
    (hend : r.key ((q (r.key 0)).length + 1) ≠ r.key 0) (n : ℕ) :
    sendRereading n o m new r ≠ pure (t, y) := by
  have hwalk := countWalk_stops h r
  simp only [if_neg hend] at hwalk
  obtain ⟨e, herror⟩ : ∃ e, (do
      let _ ← countMessages (m.contents (q (r.key 0))) 0 0
      .error Fault.listHead) = (.error e : Except Fault (ℕ × ℕ × ℕ)) := by
    cases countMessages (m.contents (q (r.key 0))) 0 0 with
    | error e => exact ⟨e, rfl⟩
    | ok count => exact ⟨.listHead, rfl⟩
  rw [herror] at hwalk
  intro hcall
  have hsend : Stops (fun n => sendRereading n o m new r) (.error e) := hwalk.error
  cases hsend.eq_of_run (z := .ok (t, y)) hcall

lemma sendRereading_cases (h : m.Linked q) (hr : (Rereading.msgsnd r).InRange) {n : ℕ}
    (hcall : sendRereading n o m new r = pure (t, y)) :
    r.key ((q (r.key 0)).length + 1) = r.key 0 ∧
      (Full (m.contents (q (r.key 0))) ∧ t = m ∧ y = ⟨-1, none, none⟩ ∨
        ¬ Full (m.contents (q (r.key 0))) ∧ (o.vmalloc = true ∧ o.kmalloc = true) ∧
          t = m.appended new (r.key ((q (r.key 0)).length + 2)) (r.config.storedWith o) ∧
          y = ⟨(min o.uncopied (sizeT r.msgsz) : ℕ), some (.queued
            (r.key ((q (r.key 0)).length + 2)) (r.config.storedWith o)), none⟩) := by
  have hend : r.key ((q (r.key 0)).length + 1) = r.key 0 := by
    by_contra hend
    exact sendRereading_elsewhere h hend n hcall
  have hsent := (sendRereading_stops h o new hend).eq_of_run (z := .ok (t, y)) hcall
  exact ⟨hend, sendTo_inv (c := r.config) h hr hsent.symm⟩

omit [DecidableEq A] [DecidableEq B] in
lemma eq_or_empty (h : m.Linked q) {k' : Fin queueNum} (hq : q k = q k') :
    k' = k ∨ q k = [] ∧ q k' = [] := by
  cases hk : q k with
  | nil => exact Or.inr ⟨rfl, by rw [← hq, hk]⟩
  | cons a xs =>
    left
    exact h.disjoint k' k a (by rw [← hq, hk]; simp) (by rw [hk]; simp)

lemma entersCounted_iff (hr : (Rereading.msgsnd r).InRange) (new : Fresh m) :
    EntersCounted m (o, .msgsnd r) ↔ SameQueue m (o, .msgsnd r) := by
  constructor
  · intro henters q hq
    by_cases hend : r.key ((q (r.key 0)).length + 1) = r.key 0
    · by_cases hf : Full (m.contents (q (r.key 0)))
      · exact Or.inr (Or.inl hf)
      · by_cases hallocs : o.vmalloc = true ∧ o.kmalloc = true
        · right; right; right
          have hsend := sendRereading_stops hq o new hend
          have hterm := not_not.mp (mt full_of_unterminated hf)
          rw [sendTo_room o new _ _ hterm hf,
            append_returns (c := r.config) hq new _ hr hallocs.1 hallocs.2] at hsend
          have hwalk := countedNodes_stops hq r
          rw [if_pos hend] at hwalk
          obtain ⟨n, hn⟩ := hsend.run
          obtain ⟨n', hn'⟩ := hwalk.run
          exact eq_or_empty hq (henters new n _ _ _ _ hn rfl q n' _ _ hq hn')
        · exact Or.inr (Or.inr (Or.inl hallocs))
    · exact Or.inl hend
  · intro hsame new n t y k msg hcall heffect q n' i xs hq hwalk
    obtain ⟨hend, ⟨-, -, rfl⟩ | ⟨hf, hallocs, -, rfl⟩⟩ := sendRereading_cases hq hr hcall
    · cases heffect
    · cases heffect
      have hnodes := countedNodes_stops hq r
      rw [if_pos hend] at hnodes
      obtain ⟨-, rfl⟩ := Prod.mk.inj ((returns_iff.mpr hnodes).eq_of_run hwalk)
      obtain hend' | hf' | hallocs' | hkey | ⟨hempty, hempty'⟩ := hsame q hq
      · exact absurd hend hend'
      · exact absurd hf' hf
      · exact absurd hallocs hallocs'
      · rw [hkey]
      · exact hempty.trans hempty'.symm

end Sends

section Runs

variable {m t : System A B} {q : Fin queueNum → List A} {xs : List A} {a : A} {k : Fin queueNum}
  {o : Outcome} {y : Reply} {new : Fresh m} {l : Outcome × Rereading}

def Bounded (m : System A B) : Prop := ∃ q, m.Linked q ∧ ∀ k, (q k).length ≤ kuipcMaxmsg

lemma rereadBody_inv {r : ReceiveReads} {i : ℕ} {w : Receive A B} {b : ForInStep (Receive A B)}
    (h : rereadBody o r i a w = .ok b) :
    b = .yield w ∨ b = .done ⟨w.memory, some ⟨-2, none, none⟩⟩ ∨
      ∃ t y, take o w.memory (r.key 0) r.config a = .ok (t, y) ∧ b = .done ⟨t, some y⟩ := by
  obtain ⟨msg, -, h⟩ := bind_ok.mp h
  obtain ⟨buf, -, h⟩ := bind_ok.mp h
  split at h
  · split at h
    · obtain ⟨n, -, h⟩ := bind_ok.mp h
      split at h
      · cases h
        exact Or.inr (Or.inl rfl)
      · exact Or.inr (Or.inr (done_inv h))
    · exact Or.inr (Or.inr (done_inv h))
  · cases h
    exact Or.inl rfl

lemma rereadList_inv {r : ReceiveReads} {i i' : ℕ} {w : Receive A B}
    (h : rereadList r.key k (rereadBody o r) i xs ⟨m, none⟩ = .ok (i', w)) :
    w.memory = m ∨
      ∃ ys a zs y, xs = ys ++ a :: zs ∧ take o m (r.key 0) r.config a = .ok (w.memory, y) := by
  induction xs generalizing i with
  | nil =>
    rw [rereadList] at h
    split at h
    · cases h
      exact Or.inl rfl
    · cases h
  | cons x xs ih =>
    obtain ⟨b, hb, h⟩ := bind_ok.mp h
    obtain rfl | rfl | ⟨t, y, htake, rfl⟩ := rereadBody_inv hb
    · obtain hsame | ⟨ys, a, zs, y, rfl, htake⟩ := ih h
      · exact Or.inl hsame
      · exact Or.inr ⟨x :: ys, a, zs, y, rfl, htake⟩
    · cases h
      exact Or.inl rfl
    · cases h
      exact Or.inr ⟨[], x, xs, y, rfl, htake⟩

lemma rereadBody_yield {r : ReceiveReads} {i : ℕ} {w w' : Receive A B}
    (h : rereadBody o r i a w = .ok (.yield w')) : w' = w := by
  obtain hyield | hdone | ⟨t, y, -, hdone⟩ := rereadBody_inv h
  · cases hyield
    rfl
  · cases hdone
  · cases hdone

lemma receiveRereading_cases {r : ReceiveReads} (h : m.Linked q) {n : ℕ}
    (hcall : receiveRereading n o m r = pure (t, y)) :
    t = m ∨ ∃ ys a zs, q (r.key 0) = ys ++ a :: zs ∧
      t.Linked (Function.update q (r.key 0) (ys ++ zs)) := by
  have hlive : ∀ a ∈ q (r.key 0), m.lists.nodes.live a = true := fun a ha => h.live_of_mem ha
  have hwalk := (h.ring (r.key 0)).stops_forEachReread (s := (⟨m, none⟩ : Receive A B))
    (f := rereadBody o r) (fun s => s.memory.lists) hlive
    fun _ _ _ _ hw => by rw [rereadBody_yield hw]
  have hstops := hwalk.followed (β := System A B × Reply)
    (g := fun _ (_, s) => return (s.memory, s.reply.getD ⟨-1, none, none⟩))
    (y := fun (_, s) => return (s.memory, s.reply.getD ⟨-1, none, none⟩))
    fun _ _ => Stops.done (.ok _)
  obtain ⟨⟨i, w⟩, hw, hreply⟩ := bind_ok.mp (hstops.eq_of_run (z := .ok (t, y)) hcall).symm
  cases hreply
  obtain hsame | ⟨ys, a, zs, y', hsplit, htake⟩ := rereadList_inv hw
  · exact Or.inl hsame
  · exact Or.inr ⟨ys, a, zs, hsplit, linked_take h hsplit htake⟩

omit [DecidableEq A] [DecidableEq B] in
lemma bounded_update {k : Fin queueNum} {xs : List A} (h : t.Linked (Function.update q k xs))
    (hle : ∀ j, (q j).length ≤ kuipcMaxmsg) (hxs : xs.length ≤ kuipcMaxmsg) : Bounded t := by
  refine ⟨_, h, fun j => ?_⟩
  rw [Function.update_apply]
  split
  · exact hxs
  · exact hle j

lemma bounded_step (h : Bounded m) (hs : Reread m l t) (hl : SameQueue m l) : Bounded t := by
  obtain ⟨q, hq, hle⟩ := h
  obtain ⟨o, r⟩ := l
  obtain ⟨hr, new, y, n, hcall⟩ := hs
  cases r with
  | msgsnd r =>
    obtain ⟨hend, ⟨-, rfl, -⟩ | ⟨hf, hallocs, rfl, -⟩⟩ := sendRereading_cases hq hr hcall
    · exact ⟨q, hq, hle⟩
    · apply bounded_update (hq.appended new _ _) hle
      rw [List.length_append, List.length_singleton]
      have hroom : (q (r.key 0)).length < kuipcMaxmsg := by
        have hlength : (m.contents (q (r.key 0))).length = (q (r.key 0)).length :=
          List.length_map _
        simp only [Full, not_or, not_le] at hf
        omega
      obtain hend' | hf' | hallocs' | hkey | ⟨-, hempty⟩ := hl q hq
      · exact absurd hend hend'
      · exact absurd hf' hf
      · exact absurd hallocs hallocs'
      · rw [hkey]
        omega
      · rw [hempty, List.length_nil]
        omega
  | msgrcv r =>
    obtain rfl | ⟨ys, a, zs, hsplit, hlinked⟩ := receiveRereading_cases hq hcall
    · exact ⟨q, hq, hle⟩
    · apply bounded_update hlinked hle
      have hlength := hle (r.key 0)
      rw [hsplit, List.length_append, List.length_cons] at hlength
      rw [List.length_append]
      omega

variable {junk : A → B} {junkBuf : B → Msgbuf} {ls : List (Outcome × Rereading)}

lemma bounded_run (h : Run (Guarded Reread SameQueue) (.init junk junkBuf) ls m) : Bounded m := by
  refine h.invariant (fun _ _ _ hm hs => bounded_step hm hs.1 hs.2) ?_
  exact ⟨_, Messages.linked_init junk junkBuf, by simp⟩

lemma enters_iff (hs : Reread m l t) : EntersCounted m l ↔ SameQueue m l := by
  obtain ⟨o, r⟩ := l
  obtain ⟨hr, new, y, n, hcall⟩ := hs
  cases r with
  | msgsnd r => exact entersCounted_iff hr new
  | msgrcv r => exact Iff.rfl

theorem sends_counted_iff :
    (Run (Guarded Reread EntersCounted) (.init junk junkBuf) ls m ∧ Bounded m) ↔
      Run (Guarded Reread SameQueue) (.init junk junkBuf) ls m := by
  constructor
  · rintro ⟨henters, -⟩
    exact henters.mono fun s l t hs => ⟨hs.1, (enters_iff hs.1).mp hs.2⟩
  · intro hsame
    exact ⟨hsame.mono fun s l t hs => ⟨hs.1, (enters_iff hs.1).mpr hs.2⟩, bounded_run hsame⟩

def switchedSend (k k' : Fin queueNum) : SendReads := ⟨fun i => if i = 2 then k' else k, .zero, 9⟩

lemma switched_run (n : ℕ) : ∃ m q, Run Reread blank
    (List.replicate n (.success, .msgsnd (switchedSend 0 1))) m ∧ m.Linked q ∧ q 0 = [] ∧
      (q 1).length = n ∧ ∀ a, n ≤ a → m.lists.nodes.live a = false ∧ m.bufs.live a = false := by
  induction n with
  | zero =>
    exact ⟨blank, fun _ => [], .nil, Messages.linked_init _ _, rfl, rfl, fun _ _ => ⟨rfl, rfl⟩⟩
  | succ n ih =>
    obtain ⟨m, q, hrun, hq, hempty, hlength, hfree⟩ := ih
    obtain ⟨hnode, hbuf⟩ := hfree n le_rfl
    let new : Fresh m := ⟨n, n, ⟨.poison1, .poison2, 0⟩, .zero, hnode, hbuf⟩
    have hkey : (switchedSend 0 1).key 0 = 0 := rfl
    have hstops := sendRereading_stops (r := switchedSend 0 1) hq .success new
      (by rw [hkey, hempty]; rfl)
    have hsize : 0 ≤ (switchedSend 0 1).config.msgsz ∧
        (switchedSend 0 1).config.msgsz ≤ sizeofMsgbuf := ⟨by decide, by decide⟩
    have hroom : ¬ Full (m.contents []) := by
      rw [Messages.contents, List.map_nil]
      decide
    rw [hkey, hempty, sendTo_room .success new _ _ (by rintro x ⟨⟩) hroom,
      append_returns hq new _ hsize rfl rfl] at hstops
    obtain ⟨fuel, hcall⟩ := hstops.run
    have hq' := hq.appended new 1 ((switchedSend 0 1).config.storedWith .success)
    refine ⟨_, _, ?_, hq', ?_, ?_, ?_⟩
    · rw [List.replicate_succ']
      exact hrun.snoc ⟨hsize, new, _, fuel, hcall⟩
    · rw [Function.update_of_ne (by decide), hempty]
    · rw [Function.update_self, List.length_append, hlength]
      rfl
    · intro a ha
      obtain ⟨hfreeNode, hfreeBuf⟩ := hfree a (by omega)
      have hne : a ≠ n := by omega
      simp [Messages.appended, Messages.appendedLists, Lists.addedTail, new, hne, hfreeNode,
        hfreeBuf]

theorem queue_overfull : ¬ ∀ (ls : List (Outcome × Rereading)) (m : System ℕ ℕ),
    Run Reread blank ls m → Bounded m := by
  intro h
  obtain ⟨m, q, hrun, hq, -, hlength, -⟩ := switched_run 6
  obtain ⟨q', hq', hle⟩ := h _ m hrun
  obtain rfl := hq.unique hq'
  have hbound := hle 1
  rw [hlength] at hbound
  exact absurd hbound (by decide)

end Runs

end EmbeddedSystem.KuIpc.Memory
