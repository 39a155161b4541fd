import EmbeddedSystem.KuIpc.Memory
import EmbeddedSystem.KuIpc.Terminators

namespace EmbeddedSystem.KuIpc.Memory

open Kernel Foundations

variable {A B : Type} [DecidableEq A] [DecidableEq B]

section Calls

variable {m : System A B} {q : Fin queueNum → List A} {xs ys : List A} {a : A} {k : Fin queueNum}
  {o : Outcome} {c : MsgConfig} {bytes : Fin 136 → UInt8} {ret : ℤ} {s t : Driver} {y : Reply}
  {new : Fresh m}

def Represents (m : System A B) (s : Driver) : Prop :=
  ∃ q, m.Linked q ∧ ∀ k, m.contents (q k) = s.msgQueue k

lemma append_eq (h : m.Linked q) (new : Fresh m) (k : Fin queueNum) (hv : o.vmalloc = true)
    (hm : o.kmalloc = true)
    (hcopy : userCopy o Msgbuf.zero.bytes c.msg.bytes c.msgsz = .ok (bytes, ret)) :
    append o m new k c = .ok (m.appended new k ⟨bytes⟩, ⟨ret, some (.queued k ⟨bytes⟩), none⟩) := by
  have hbuf := Messages.live_new_buf new
  have hnode := Messages.live_new_node new
  simp only [append, hv, hm, Bool.not_true, Bool.false_eq_true, if_false]
  apply bind_ok.mpr
  refine ⟨_, Ledger.write_of_live hbuf _, ?_⟩
  apply bind_ok.mpr
  refine ⟨Msgbuf.zero, ?_, ?_⟩
  · rw [Ledger.read_of_live (by simp)]
    simp
  apply bind_ok.mpr
  refine ⟨_, hcopy, ?_⟩
  apply bind_ok.mpr
  refine ⟨_, Ledger.write_of_live (by simp) _, ?_⟩
  apply bind_ok.mpr
  refine ⟨_, Lists.store_of_live hnode _, ?_⟩
  apply bind_ok.mpr
  refine ⟨_, h.listAddTail new k, ?_⟩
  rw [Ledger.stored_stored]
  rfl

lemma take_eq (h : m.Linked q) (hk : q k = xs ++ a :: ys) (ha : m.lists.nodes.live a = true)
    (hb : m.bufs.live (m.lists.nodes.val a) = true)
    (hcopy : userCopy o c.msg.bytes (m.bufs.val (m.lists.nodes.val a)).bytes c.msgsz =
      .ok (bytes, ret)) :
    take o m k c a = .ok (m.removed a ha hb,
      ⟨ret, some (.removed k (m.bufs.val (m.lists.nodes.val a))), some ⟨bytes⟩⟩) := by
  rw [take, Ledger.read_of_live ha, ok_bind, Ledger.read_of_live hb, ok_bind, hcopy, ok_bind]
  exact h.removed_eq hk ha hb fun m => (m, _)

omit [DecidableEq A] [DecidableEq B] in
lemma countBody_eq (h : Owned m.bufs.live m.bufOf) (ha : m.lists.nodes.live a = true)
    (num vol : ℕ) :
    countBody m a (num, vol) =
      (do let n ← strlen (m.bufs.val (m.lists.nodes.val a)).text
          return .yield (num + 1, vol + (sizeofLong + n + 1))) := by
  rw [countBody, Ledger.read_of_live ha, ok_bind, Ledger.read_of_live (Messages.live_buf h ha),
    ok_bind]

omit [DecidableEq A] [DecidableEq B] in
lemma count_walk (h : Owned m.bufs.live m.bufOf) (hxs : ∀ a ∈ xs, m.lists.nodes.live a = true)
    (num vol : ℕ) :
    forIn xs (num, vol) (countBody m) = countMessages (m.contents xs) num vol := by
  induction xs generalizing num vol with
  | nil => rfl
  | cons a xs ih =>
    rw [List.forIn_cons, countBody_eq h (hxs a (by simp)), Messages.contents, List.map_cons,
      countMessages]
    cases strlen (m.bufs.val (m.lists.nodes.val a)).text with
    | error e => rfl
    | ok n => exact ih (fun b hb => hxs b (by simp [hb])) _ _

def sendTo (o : Outcome) (m : System A B) (new : Fresh m) (k : Fin queueNum) (c : MsgConfig)
    (q : List Msgbuf) : Except Fault (System A B × Reply) := do
  let (msgNum, msgVol) ← countMessages q 0 0
  if msgVol + sizeofInt > kuipcMaxvol ∨ msgNum ≥ kuipcMaxmsg then
    return (m, ⟨-1, none, none⟩)
  else
    append o m new k c

lemma kuIpcMsgsnd_stops (h : m.Linked q) (hk : arrayIndex queueNum c.key = .ok k) (o : Outcome)
    (new : Fresh m) :
    Stops (fun n => kuIpcMsgsnd n o m new c) (sendTo o m new k c (m.contents (q k))) := by
  have hlive : ∀ a ∈ q k, m.lists.nodes.live a = true := fun a ha => h.live_of_mem ha
  have hwalk := (h.ring k).stops_forEachEntry (s := ((0, 0) : ℕ × ℕ)) (f := countBody m)
    (fun _ => m.lists) hlive (fun _ _ _ _ => rfl)
  rw [count_walk h.bufs hlive] at hwalk
  apply (Stops.lift hk).bind
  apply hwalk.followed
  rintro ⟨num, vol⟩ -
  simp only
  split
  · exact Stops.done (.ok _)
  · exact Stops.done _

lemma sendTo_full (o : Outcome) (new : Fresh m) (k : Fin queueNum) (c : MsgConfig)
    {msgs : List Msgbuf} (hq : TerminatedAll msgs) (hf : Full msgs) :
    sendTo o m new k c msgs = .ok (m, ⟨-1, none, none⟩) := by
  rw [sendTo, countMessages_ok hq, ok_bind]
  simp only [Nat.zero_add]
  rw [if_pos (by simpa [Full] using hf)]
  rfl

lemma sendTo_room (o : Outcome) (new : Fresh m) (k : Fin queueNum) (c : MsgConfig)
    {msgs : List Msgbuf} (hq : TerminatedAll msgs) (hf : ¬ Full msgs) :
    sendTo o m new k c msgs = append o m new k c := by
  rw [sendTo, countMessages_ok hq, ok_bind]
  simp only [Nat.zero_add]
  rw [if_neg (by simpa [Full] using hf)]

lemma kuIpcMsgsnd_represents (h : Represents m s) (new : Fresh m)
    (hcall : KuIpc.kuIpcMsgsnd o s c = .ok (t, y)) :
    ∃ u, Returns (fun n => kuIpcMsgsnd n o m new c) (u, y) ∧ Represents u t := by
  obtain ⟨q, hq, hlist⟩ := h
  obtain ⟨k, hk, hcases⟩ := kuIpcMsgsnd_cases hcall
  obtain ⟨k', hk', hcount⟩ := bind_ok.mp hcall
  obtain rfl := Except.ok.inj (hk.symm.trans hk')
  obtain ⟨r, hr, -⟩ := bind_ok.mp hcount
  have hstops := kuIpcMsgsnd_stops hq hk o new
  rw [hlist, sendTo, hr] at hstops
  obtain rfl := countMessages_inv hr
  have htest : (volume (s.msgQueue k) + sizeofInt > kuipcMaxvol ∨
      (s.msgQueue k).length ≥ kuipcMaxmsg) ↔ Full (s.msgQueue k) := Iff.rfl
  simp only [ok_bind, Nat.zero_add, htest] at hstops
  obtain ⟨hfull, rfl, rfl⟩ | ⟨hroom, bytes, ret, hcopy, rfl, rfl⟩ := hcases
  · rw [if_pos hfull] at hstops
    exact ⟨m, returns_iff.mpr hstops, q, hq, hlist⟩
  · obtain ⟨hv, hm⟩ := kuIpcMsgsnd_allocated hcall hk hroom
    rw [if_neg hroom, append_eq hq new k hv hm hcopy] at hstops
    refine ⟨m.appended new k ⟨bytes⟩, returns_iff.mpr hstops, _, hq.appended new k ⟨bytes⟩, ?_⟩
    intro j
    by_cases hj : j = k
    · subst hj
      rw [Function.update_self, Messages.contents_append, hq.contents_appended,
        Messages.contents_new, hlist, msgQueue_setQueue, Function.update_self]
    · rw [Function.update_of_ne hj, hq.contents_appended, hlist, msgQueue_setQueue,
        Function.update_of_ne hj]

def Found (o : Outcome) (m : System A B) (k : Fin queueNum) (c : MsgConfig) (xs : List A) :
    Search → Prop
  | .absent => forIn xs ⟨m, none⟩ (receiveBody o k c) = .ok ⟨m, none⟩
  | .short => forIn xs ⟨m, none⟩ (receiveBody o k c) = .ok ⟨m, some ⟨-2, none, none⟩⟩
  | .found msg rest => ∃ ys a zs, xs = ys ++ a :: zs ∧ m.lists.nodes.live a = true ∧
      msg = m.bufs.val (m.lists.nodes.val a) ∧ rest = m.contents (ys ++ zs) ∧
      forIn xs ⟨m, none⟩ (receiveBody o k c) =
        (do let (memory, reply) ← take o m k c a
            return ⟨memory, some reply⟩)

lemma found_cons {r : Search} {x : A} (hx : receiveBody o k c x ⟨m, none⟩ = .ok (.yield ⟨m, none⟩))
    (h : Found o m k c xs r) :
    Found o m k c (x :: xs) (r.past (m.bufs.val (m.lists.nodes.val x))) := by
  have hwalk : forIn (x :: xs) ⟨m, none⟩ (receiveBody o k c) =
      forIn xs ⟨m, none⟩ (receiveBody o k c) := by
    rw [List.forIn_cons, hx]
    rfl
  cases r with
  | absent => exact hwalk.trans h
  | short => exact hwalk.trans h
  | found msg rest =>
    obtain ⟨ys, a, zs, rfl, ha, hmsg, rfl, hfor⟩ := h
    exact ⟨x :: ys, a, zs, rfl, ha, hmsg, rfl, hwalk.trans hfor⟩

lemma found_head (ha : m.lists.nodes.live a = true)
    (hbody : receiveBody o k c a ⟨m, none⟩ =
      (do let (memory, reply) ← take o m k c a
          return .done ⟨memory, some reply⟩)) :
    Found o m k c (a :: xs) (.found (m.bufs.val (m.lists.nodes.val a)) (m.contents xs)) := by
  refine ⟨[], a, xs, rfl, ha, rfl, rfl, ?_⟩
  rw [List.forIn_cons, hbody]
  cases take o m k c a <;> rfl

lemma receive_walk (h : Owned m.bufs.live m.bufOf) (hxs : ∀ a ∈ xs, m.lists.nodes.live a = true)
    {r : Search} (hr : findMessage c (m.contents xs) = .ok r) : Found o m k c xs r := by
  induction xs generalizing r with
  | nil =>
    cases hr
    rfl
  | cons a xs ih =>
    have ha := hxs a (by simp)
    have hb := Messages.live_buf h ha
    have hread := Ledger.read_of_live ha
    have hbuf := Ledger.read_of_live hb
    rw [Messages.contents, List.map_cons, findMessage] at hr
    by_cases htype : c.msgtyp = (m.bufs.val (m.lists.nodes.val a)).type
    · rw [if_pos htype] at hr
      by_cases hflg : c.msgflg &&& kuMsgNoerror = 0
      · rw [if_pos hflg] at hr
        simp only [bind_ok] at hr
        obtain ⟨n, hn, hr⟩ := hr
        by_cases hshort : sizeT c.msgsz < sizeofLong + n + 1
        · rw [if_pos hshort] at hr
          cases hr
          have hbody : receiveBody o k c a ⟨m, none⟩ = .ok (.done ⟨m, some ⟨-2, none, none⟩⟩) := by
            simp only [receiveBody, hread, hbuf, ok_bind, if_pos htype, if_pos hflg, hn,
              if_pos hshort]
            rfl
          change forIn (a :: xs) _ _ = _
          rw [List.forIn_cons, hbody]
          rfl
        · rw [if_neg hshort] at hr
          cases hr
          apply found_head ha
          simp only [receiveBody, hread, hbuf, ok_bind, if_pos htype, if_pos hflg, hn,
            if_neg hshort]
      · rw [if_neg hflg] at hr
        cases hr
        apply found_head ha
        simp only [receiveBody, hread, hbuf, ok_bind, if_pos htype, if_neg hflg]
    · rw [if_neg htype] at hr
      obtain ⟨r', hr', hr⟩ := bind_ok.mp hr
      cases hr
      apply found_cons _ (ih (fun b hb => hxs b (by simp [hb])) hr')
      simp only [receiveBody, hread, hbuf, ok_bind, if_neg htype]
      rfl

omit [DecidableEq A] [DecidableEq B] in
lemma done_inv {x : Except Fault (System A B × Reply)} {b : ForInStep (Receive A B)}
    (h : (do let (memory, reply) ← x
             return .done ⟨memory, some reply⟩) = Except.ok (ε := Fault) b) :
    ∃ t y, x = .ok (t, y) ∧ b = .done ⟨t, some y⟩ := by
  obtain ⟨⟨t, y⟩, hx, h⟩ := bind_ok.mp h
  cases h
  exact ⟨t, y, hx, rfl⟩

lemma receiveBody_inv {w : Receive A B} {b : ForInStep (Receive A B)}
    (h : receiveBody o k c a w = .ok b) :
    b = .yield w ∨ b = .done ⟨w.memory, some ⟨-2, none, none⟩⟩ ∨
      ∃ t y, take o w.memory k c a = .ok (t, y) ∧ b = .done ⟨t, some y⟩ := by
  obtain ⟨msg, -, h⟩ := bind_ok.mp h
  obtain ⟨buf, -, h⟩ := bind_ok.mp h
  split at h
  · split at h
    · obtain ⟨n, -, h⟩ := bind_ok.mp h
      split at h
      · cases h
        exact Or.inr (Or.inl rfl)
      · exact Or.inr (Or.inr (done_inv h))
    · exact Or.inr (Or.inr (done_inv h))
  · cases h
    exact Or.inl rfl

lemma receiveBody_yield {w w' : Receive A B}
    (h : receiveBody o k c a w = .ok (.yield w')) : w' = w := by
  obtain hyield | hdone | ⟨t, y, -, hdone⟩ := receiveBody_inv h
  · cases hyield
    rfl
  · cases hdone
  · cases hdone

lemma kuIpcMsgrcv_stops (h : m.Linked q) (hk : arrayIndex queueNum c.key = .ok k) (o : Outcome) :
    Stops (fun n => kuIpcMsgrcv n o m c) (do
      let w ← forIn (q k) ⟨m, none⟩ (receiveBody o k c)
      return (w.memory, w.reply.getD ⟨-1, none, none⟩)) := by
  have hlive : ∀ a ∈ q k, m.lists.nodes.live a = true := fun a ha => h.live_of_mem ha
  apply (Stops.lift hk).bind
  refine Stops.followed ?_ fun w _ => Stops.done (.ok _)
  apply Lists.Ring.stops_forEachEntry (s := (⟨m, none⟩ : Receive A B)) (fun s => s.memory.lists)
    (h.ring k) hlive
  intro a w w' hw
  rw [receiveBody_yield hw]

lemma kuIpcMsgrcv_represents (h : Represents m s)
    (hcall : KuIpc.kuIpcMsgrcv o s c = .ok (t, y)) :
    ∃ u, Returns (fun n => kuIpcMsgrcv n o m c) (u, y) ∧ Represents u t := by
  obtain ⟨q, hq, hlist⟩ := h
  obtain ⟨k, hk, hcall⟩ := bind_ok.mp hcall
  obtain ⟨r, hr, hcall⟩ := bind_ok.mp hcall
  have hlive : ∀ a ∈ q k, m.lists.nodes.live a = true := fun a ha => hq.live_of_mem ha
  have hwalk : ∀ w, forIn (q k) ⟨m, none⟩ (receiveBody o k c) = .ok w →
      Returns (fun n => kuIpcMsgrcv n o m c) (w.memory, w.reply.getD ⟨-1, none, none⟩) := by
    intro w hw
    have hstops := kuIpcMsgrcv_stops hq hk o
    rw [hw] at hstops
    exact returns_iff.mpr hstops
  rw [← hlist] at hr
  have hfound := receive_walk (o := o) (k := k) hq.bufs hlive hr
  cases r with
  | absent =>
    cases hcall
    exact ⟨m, hwalk _ hfound, q, hq, hlist⟩
  | short =>
    cases hcall
    exact ⟨m, hwalk _ hfound, q, hq, hlist⟩
  | found msg rest =>
    obtain ⟨⟨bytes, ret⟩, hcopy, hcall⟩ := bind_ok.mp hcall
    cases hcall
    obtain ⟨ys, a, zs, hsplit, ha, rfl, rfl, hfor⟩ := hfound
    have hb := Messages.live_buf hq.bufs ha
    rw [take_eq hq hsplit ha hb hcopy] at hfor
    refine ⟨_, hwalk _ hfor, _, hq.removed hsplit, ?_⟩
    intro j
    by_cases hj : j = k
    · subst hj
      rw [Function.update_self, msgQueue_setQueue, Function.update_self]
      rfl
    · rw [Function.update_of_ne hj, msgQueue_setQueue, Function.update_of_ne hj, ← hlist]
      rfl

end Calls

section Exit

variable {m s : System A B} {q : Fin queueNum → List A} {later : A → Prop} {xs : List A} {a : A}

lemma exitBody_eq (ha : s.lists.nodes.live a = true)
    (hb : s.bufs.live (s.lists.nodes.val a) = true) :
    exitBody (.node a) s = .ok (s.freed a ha hb) := by
  rw [exitBody, Ptr.entry, ok_bind, Ledger.read_of_live ha, ok_bind, Ledger.kfree_of_live hb,
    ok_bind, Lists.kfree_of_live ha]
  rfl

lemma exitBody_inv {t : System A B} (h : exitBody (.node a) s = .ok t) :
    t.lists.next = s.lists.next ∧ t.lists.prev = s.lists.prev ∧
      ∀ b, b ≠ a → t.lists.nodes.live b = s.lists.nodes.live b := by
  obtain ⟨tmp, htmp, h⟩ := bind_ok.mp h
  cases htmp
  obtain ⟨msg, -, h⟩ := bind_ok.mp h
  obtain ⟨bufs, -, h⟩ := bind_ok.mp h
  obtain ⟨lists, hfree, h⟩ := bind_ok.mp h
  cases h
  exact Lists.kfree_inv hfree

structure Left (m : System A B) (later : A → Prop) (xs : List A) (s : System A B) : Prop where
  next : s.lists.next = m.lists.next
  prev : s.lists.prev = m.lists.prev
  nodup : xs.Nodup
  apart : ∀ a ∈ xs, ¬ later a
  live : ∀ a, s.lists.nodes.live a = true ↔ a ∈ xs ∨ later a
  bufs : Owned s.bufs.live s.bufOf

lemma Left.free (h : Left m later (a :: xs) s) :
    ∃ t, exitBody (.node a) s = .ok t ∧ Left m later xs t := by
  have ha : s.lists.nodes.live a = true := (h.live a).mpr (Or.inl List.mem_cons_self)
  obtain ⟨hout, hnodup⟩ := List.nodup_cons.mp h.nodup
  refine ⟨_, exitBody_eq ha (Messages.live_buf h.bufs ha), h.next, h.prev, hnodup, ?_, ?_,
    Messages.owned_freed h.bufs⟩
  · exact fun b hb => h.apart b (List.mem_cons_of_mem _ hb)
  · intro b
    by_cases hba : b = a
    · subst hba
      simp [Messages.freed, hout, h.apart b List.mem_cons_self]
    · simp [Messages.freed, hba, h.live]

def LeftIn (m : System A B) (q : Fin queueNum → List A) (is : List (Fin queueNum))
    (s : System A B) : Prop :=
  is.Nodup ∧ Left m (fun a => ∃ k ∈ is, a ∈ q k) [] s

lemma LeftIn.free (h : m.Linked q) {i : Fin queueNum} {is : List (Fin queueNum)}
    (hs : LeftIn m q (i :: is) s) :
    ∃ t, Returns (fun n => Lists.listForEachSafe Messages.lists i exitBody n s) t ∧
      LeftIn m q is t := by
  obtain ⟨his, hs⟩ := hs
  obtain ⟨hout, his⟩ := List.nodup_cons.mp his
  have hleft : Left m (fun a => ∃ k ∈ is, a ∈ q k) (q i) s := by
    refine ⟨hs.next, hs.prev, h.nodup i, ?_, ?_, hs.bufs⟩
    · rintro a hi ⟨k, hk, ha⟩
      obtain rfl := h.disjoint i k a hi ha
      exact hout hk
    · intro a
      rw [hs.live]
      simp
  obtain ⟨t, ht, hleft'⟩ := foldlM_left (Left m _) (fun _ _ _ hs => hs.free) hleft
  refine ⟨t, ?_, his, hleft'⟩
  have hring : s.lists.Ring i (q i) := by
    apply (h.ring i).congr
    · exact fun _ _ => congrFun hs.next _
    · exact fun _ _ => congrFun hs.prev _
  apply hring.returns_forEachSafe Messages.lists _ (h.nodup i) (fun _ _ _ => exitBody_inv) ht
  exact fun a ha => (hleft.live a).mpr (Or.inl ha)

lemma kuIpcExit_returns (h : m.Linked q) :
    ∃ t, Returns (fun n => kuIpcExit n m) t ∧ t.AllFreed := by
  have hstart : LeftIn m q (List.finRange queueNum) m := by
    refine ⟨List.nodup_finRange _, rfl, rfl, List.nodup_nil, ?_, ?_, h.bufs⟩
    · rintro a ⟨⟩
    · intro a
      rw [h.live]
      simp
  obtain ⟨t, ht, -, hleft⟩ := Returns.foldlM_left (LeftIn m q) (fun _ _ _ hs => hs.free h) hstart
  have hnodes : t.lists.nodes.AllFreed := by
    rw [Ledger.allFreed_iff]
    intro a
    simpa using (hleft.live a).not
  exact ⟨t, ht, hnodes, (Messages.bufs_freed_iff hleft.bufs).mpr hnodes⟩

end Exit

section Runs

variable {m : System A B} {s : Driver} {o : Outcome} {c : Call} {ls : List (Outcome × Call)}
  {junk : A → B} {junkBuf : B → Msgbuf}

def Allowed (l : Outcome × Call) : Prop :=
  l.1.vmalloc = true ∧ l.1.kmalloc = true ∧ l.2.request.Valid

def Step (m : System A B) (l : Outcome × Call) (t : System A B) : Prop :=
  Allowed l ∧ ∃ (new : Fresh m) (y : Reply) (n : ℕ), kuIpcIoctl n l.1 m new l.2 = pure (t, y)

def DriverStep (s : Driver) (l : Outcome × Call) (t : Driver) : Prop := Ioctl s (l.1, l.2.request) t

structure Stands (m : System A B) (s : Driver) : Prop where
  represents : Represents m s
  terminated : ∀ k, TerminatedAll (s.msgQueue k)

lemma driver_total (hq : ∀ k, TerminatedAll (s.msgQueue k)) (hl : Allowed (o, c)) :
    ∃ t y, KuIpc.kuIpcIoctl o s c.request = .ok (t, y) ∧ ∀ k, TerminatedAll (t.msgQueue k) := by
  obtain ⟨hv, hm, hc⟩ := hl
  cases c with
  | msgsnd c =>
    obtain ⟨hkey, hsz, htext⟩ := hc
    obtain ⟨k, hk⟩ := exists_arrayIndex hkey
    have hcall : ∃ t y, KuIpc.kuIpcMsgsnd o s c = .ok (t, y) := by
      by_cases hf : Full (s.msgQueue k)
      · exact ⟨s, _, kuIpcMsgsnd_full hk (hq k) hf⟩
      · obtain ⟨y, hy⟩ := kuIpcMsgsnd_stores hk hsz (hq k) hf hv hm
        exact ⟨_, y, hy⟩
    obtain ⟨t, y, hcall⟩ := hcall
    refine ⟨t, y, hcall, (terminated_send_iff hq ⟨hkey, hsz⟩ hcall).mpr ?_⟩
    rintro c' k' ⟨⟩ - - - -
    exact Or.inr htext
  | msgrcv c =>
    obtain ⟨k, hk⟩ := exists_arrayIndex hc.1
    obtain ⟨⟨t, y⟩, hcall⟩ := kuIpcMsgrcv_total o hk hc.2 (hq k)
    refine ⟨t, y, hcall, ?_⟩
    apply (terminated_ioctl_iff (i := (o, .msgrcv c)) hq hc ⟨y, hcall⟩).mpr
    rintro c' k' ⟨⟩

lemma kuIpcIoctl_stands (h : Stands m s) (new : Fresh m) (hl : Allowed (o, c)) :
    ∃ u t y, Returns (fun n => kuIpcIoctl n o m new c) (u, y) ∧
      KuIpc.kuIpcIoctl o s c.request = .ok (t, y) ∧ Stands u t := by
  obtain ⟨t, y, hcall, hterm⟩ := driver_total h.terminated hl
  cases c with
  | msgsnd c =>
    obtain ⟨u, hu, hrep⟩ := kuIpcMsgsnd_represents h.represents new hcall
    exact ⟨u, t, y, hu, hcall, hrep, hterm⟩
  | msgrcv c =>
    obtain ⟨u, hu, hrep⟩ := kuIpcMsgrcv_represents h.represents hcall
    exact ⟨u, t, y, hu, hcall, hrep, hterm⟩

theorem run_stands (h : Run Step (.init junk junkBuf) ls m) :
    ∃ s, Run DriverStep Driver.init ls s ∧ Stands m s := by
  have hinit : Stands (.init junk junkBuf : System A B) Driver.init := by
    refine ⟨⟨_, Messages.linked_init junk junkBuf, fun _ => rfl⟩, ?_⟩
    rintro k msg ⟨⟩
  apply h.simulate (R := Stands) _ hinit
  rintro m s ⟨o, c⟩ u hm ⟨hl, new, y, n, hcall⟩
  obtain ⟨u', t, y', hreturns, hdriver, hstands⟩ := kuIpcIoctl_stands hm new hl
  cases hreturns.eq_of_run hcall
  exact ⟨t, ⟨_, hdriver⟩, hstands⟩

theorem messages_freed_once (h : Run Step (.init junk junkBuf) ls m) :
    (∃ q, m.Linked q) ∧
      (∀ l new, Allowed l → ∃ r, Returns (fun n => kuIpcIoctl n l.1 m new l.2) r) ∧
      ∃ t, Returns (fun n => kuIpcExit n m) t ∧ t.AllFreed := by
  obtain ⟨s, -, hstands⟩ := run_stands h
  obtain ⟨q, hq, -⟩ := hstands.represents
  refine ⟨⟨q, hq⟩, ?_, kuIpcExit_returns hq⟩
  rintro ⟨o, c⟩ new hl
  obtain ⟨u, t, y, hreturns, -⟩ := kuIpcIoctl_stands hstands new hl
  exact ⟨(u, y), hreturns⟩

end Runs

section Examples

def blank : System ℕ ℕ := .init (fun _ => 0) fun _ => Msgbuf.zero

def firstAlloc : Fresh blank := ⟨0, 0, ⟨.poison1, .poison2, 0⟩, .zero, rfl, rfl⟩

def shortMessage : MsgConfig := ⟨0, Msgbuf.zero, 9, 0, 0⟩

theorem messages_freed_once_send : ∃ m,
    Run Step blank [(.success, .msgsnd shortMessage)] m ∧ (∃ q, m.Linked q) ∧
      (∀ l new, Allowed l → ∃ r, Returns (fun n => kuIpcIoctl n l.1 m new l.2) r) ∧
      ∃ t, Returns (fun n => kuIpcExit n m) t ∧ t.AllFreed := by
  have hallowed : Allowed (.success, .msgsnd shortMessage) :=
    ⟨rfl, rfl, by decide, by decide, 0, rfl⟩
  have hnil : Run Step blank [] blank := .nil
  obtain ⟨-, hcalls, -⟩ := messages_freed_once hnil
  obtain ⟨⟨m, y⟩, hreturns⟩ := hcalls _ firstAlloc hallowed
  obtain ⟨n, hn⟩ := hreturns.run
  have hrun : Run Step blank [(.success, .msgsnd shortMessage)] m :=
    .single ⟨hallowed, firstAlloc, y, n, hn⟩
  exact ⟨m, hrun, messages_freed_once hrun⟩

end Examples

end EmbeddedSystem.KuIpc.Memory
