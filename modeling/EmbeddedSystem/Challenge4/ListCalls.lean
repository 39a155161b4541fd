import EmbeddedSystem.Challenge4.ListMemory
import EmbeddedSystem.Foundations.Runs

namespace EmbeddedSystem.Challenge4

open Kernel Foundations

def WalkPc.cursor (tmp : Option Addr) : WalkPc → Option Addr
  | .setTmp entry => some entry
  | .loadNext entry => entry
  | .test | .print | .loadTmp => tmp
  | .idle | .loadFirst | .faulted => none

/-- What the call has assigned to `tmp`: NULL when its `kmalloc` has failed. -/
def Call.assigned (c : Call) : Option Addr :=
  match c.kind with
  | .read => some c.own
  | .write => if c.o.kmalloc then some c.own else none

section Condition

/-- A call that uses `tmp` finds what it has assigned there, and the walk does not stand at a node
whose links `list_del` poisons. -/
def CallAlone (s : ListSystem) (c : Call) : Prop :=
  match c.pc with
  | .setMsg _ | .printNew | .loadNew | .loadMsg | .printFirst | .loadEntry | .kfree =>
    s.tmp = c.assigned
  | .poisonNext entry => s.walk.cursor s.tmp ≠ some entry
  | _ => True

def CallPc.msgUnset : CallPc → Bool
  | .loadKernBuf | .setMsg _ => true
  | _ => false

def CallPc.nextUnset : CallPc → Bool
  | .loadKernBuf | .setMsg _ | .printNew | .loadNew | .loadLast _ | .setLast _ _ | .setNext _ _ =>
    true
  | _ => false

/-- The walk does not use `msg` or `next` of a new node before it is set. -/
def WalkAlone (s : ListSystem) : Prop :=
  match s.walk with
  | .print => ∀ c ∈ s.call, c.pc.msgUnset = true → ∀ a ∈ c.assigned, s.tmp ≠ some a
  | .loadNext entry => ∀ c ∈ s.call, c.pc.nextUnset = true → ∀ a ∈ c.assigned, entry ≠ some a
  | _ => True

def Alone (s : ListSystem) : ListMove → Prop
  | .work | .fault _ => ∀ c ∈ s.call, CallAlone s c
  | .walk | .walkFault _ => WalkAlone s
  | _ => True

end Condition

section States

structure AtRest (d : Driver) (s : ListSystem) (xs : List Addr) : Prop where
  holds : Holds s.nodes s.bufs xs [] [] d.msgList
  back : Circular s.nodes.prev xs.reverse
  count : s.msgCount = d.msgCount

structure Buffered (d : Driver) (s : ListSystem) (xs spare : List Addr) : Prop where
  holds : Holds s.nodes s.bufs xs spare [s.kernBuf] d.msgList
  count : s.msgCount = d.msgCount

structure New (d : Driver) (s : ListSystem) (c : Call) (xs : List Addr) : Prop where
  assigned : c.assigned = some c.own
  buffered : Buffered d s xs [c.own]
  writes : ch4Write c.o d c.userBuf =
    .ok (⟨d.msgList ++ [s.bufs.val s.kernBuf], d.msgCount + 1⟩, c.reply)

structure Filled (d : Driver) (s : ListSystem) (c : Call) (xs : List Addr) : Prop
    extends New d s c xs where
  msg : s.nodes.val c.own = s.kernBuf

structure Redirected (f : Addr → Addr) (xs : List Addr) (new prev : Addr) : Prop where
  head : f listHead = new
  rest : Linked f (xs.reverse ++ [listHead])
  prev : ∃ l, xs.reverse ++ [listHead] = prev :: l

structure Front (d : Driver) (s : ListSystem) (c : Call) (xs : List Addr) : Prop
    extends AtRest d s xs where
  first : ∃ rest, xs = c.own :: rest

def Reads (d : Driver) (c : Call) : Prop :=
  ch4Read c.o d c.userBuf = .ok (some (⟨d.msgList.tail, d.msgCount - 1⟩, c.reply))

structure Copied (d : Driver) (s : ListSystem) (c : Call) (xs : List Addr) : Prop
    extends Front d s c xs where
  kernBuf : s.kernBuf = s.nodes.val c.own
  reads : Reads d c

structure Removed (d : Driver) (s : ListSystem) (c : Call) (xs spare bufs : List Addr) : Prop where
  holds : Holds s.nodes s.bufs xs spare bufs d.msgList.tail
  back : Circular s.nodes.prev xs.reverse
  count : s.msgCount = d.msgCount
  reads : Reads d c

def Done (d : Driver) (c : Call) (d' : Driver) : Prop :=
  match c.kind with
  | .read => ch4Read c.o d c.userBuf = .ok (some (d', c.reply))
  | .write => ch4Write c.o d c.userBuf = .ok (d', c.reply)

/-- The memory during a call, with `d` the state of the driver before it and `xs` the nodes that the
links go through. -/
def LockedAt (d : Driver) (s : ListSystem) (c : Call) (xs : List Addr) : Prop :=
  match c.kind, c.pc with
  | .write, .checkLen => AtRest d s xs
  | .write, .vmalloc => AtRest d s xs ∧ ¬ c.userBuf.len.toInt ≥ bufSize
  | .write, .memset => Buffered d s xs [] ∧ Circular s.nodes.prev xs.reverse ∧
      ¬ c.userBuf.len.toInt ≥ bufSize ∧ c.o.vmalloc = true
  | .write, .copyFromUser => Buffered d s xs [] ∧ Circular s.nodes.prev xs.reverse ∧
      ¬ c.userBuf.len.toInt ≥ bufSize ∧ c.o.vmalloc = true ∧ s.bufs.val s.kernBuf = .zero
  | .write, .kmalloc => Buffered d s xs [] ∧ Circular s.nodes.prev xs.reverse ∧
      (c.o.kmalloc = true → ch4Write c.o d c.userBuf =
        .ok (⟨d.msgList ++ [s.bufs.val s.kernBuf], d.msgCount + 1⟩, c.reply))
  | .write, .loadKernBuf => New d s c xs ∧ Circular s.nodes.prev xs.reverse ∨
      c.assigned = none ∧ Buffered d s xs []
  | .write, .setMsg buf => New d s c xs ∧ Circular s.nodes.prev xs.reverse ∧ buf = s.kernBuf ∨
      c.assigned = none ∧ Buffered d s xs []
  | .write, .printNew | .write, .loadNew => Filled d s c xs ∧ Circular s.nodes.prev xs.reverse
  | .write, .loadLast new => Filled d s c xs ∧ Circular s.nodes.prev xs.reverse ∧ new = c.own
  | .write, .setLast new prev => Filled d s c xs ∧ Circular s.nodes.prev xs.reverse ∧ new = c.own ∧
      prev = s.nodes.prev listHead
  | .write, .setNext new prev => Filled d s c xs ∧ new = c.own ∧ Redirected s.nodes.prev xs new prev
  | .write, .setPrev new prev => Filled d s c xs ∧ new = c.own ∧
      Redirected s.nodes.prev xs new prev ∧ s.nodes.next c.own = listHead
  | .write, .publish new prev => Filled d s c xs ∧ new = c.own ∧
      (∃ l, xs.reverse ++ [listHead] = prev :: l) ∧ Circular s.nodes.prev (new :: xs.reverse) ∧
      s.nodes.next c.own = listHead
  | .write, .countUp => ∃ d', Done d c d' ∧ Holds s.nodes s.bufs xs [] [] d'.msgList ∧
      Circular s.nodes.prev xs.reverse ∧ s.msgCount + 1 = d'.msgCount
  | .read, .listEmpty => AtRest d s xs
  | .read, .loadFirst => AtRest d s xs ∧ s.nodes.next listHead ≠ listHead
  | .read, .setTmp first => AtRest d s xs ∧ ∃ rest, xs = first :: rest
  | .read, .loadMsg => Front d s c xs
  | .read, .setKernBuf buf => Front d s c xs ∧ buf = s.nodes.val c.own
  | .read, .printFirst | .read, .copyToUser => Front d s c xs ∧ s.kernBuf = s.nodes.val c.own
  | .read, .loadEntry => Copied d s c xs
  | .read, .loadPrev entry => Copied d s c xs ∧ entry = c.own
  | .read, .loadNext entry prev => Copied d s c xs ∧ entry = c.own ∧ prev = listHead
  | .read, .unlinkPrev entry prev next => Copied d s c xs ∧ entry = c.own ∧ prev = listHead ∧
      next = s.nodes.next c.own
  | .read, .unlinkNext entry prev next => Holds s.nodes s.bufs xs [] [] d.msgList ∧
      s.msgCount = d.msgCount ∧ Reads d c ∧ s.kernBuf = s.nodes.val c.own ∧ entry = c.own ∧
      prev = listHead ∧ next = s.nodes.next c.own ∧
      ∃ rest, xs = c.own :: rest ∧ Circular s.nodes.prev rest.reverse
  | .read, .poisonNext entry => Removed d s c xs [c.own] [s.kernBuf] ∧ entry = c.own ∧
      s.nodes.next c.own ∈ xs ++ [listHead] ∧ s.nodes.val c.own = s.kernBuf
  | .read, .poisonPrev entry => Removed d s c xs [c.own] [s.kernBuf] ∧ entry = c.own
  | .read, .kfree => Removed d s c xs [c.own] [s.kernBuf]
  | .read, .vfree => Removed d s c xs [] [s.kernBuf]
  | .read, .countDown => Removed d s c xs [] []
  | _, .unlock => ∃ d', Done d c d' ∧ AtRest d' s xs
  | _, .faulted => ∃ bufs, Holds s.nodes s.bufs xs [] bufs d.msgList
  | _, _ => False

def Call.visible (c : Call) (xs : List Addr) : List Addr :=
  match c.pc with
  | .loadKernBuf | .setMsg _ | .printNew | .loadNew | .loadLast _ | .setLast _ _ | .setNext _ _
  | .setPrev _ _ | .publish _ _ | .poisonNext _ => listHead :: (xs ++ c.assigned.toList)
  | _ => listHead :: xs

structure Walks (s : ListSystem) (nodes : List Addr) : Prop where
  cursor : ∀ a, s.walk.cursor s.tmp = some a → a ∈ nodes
  print : s.walk = .print → s.tmp ≠ some listHead

def Inv (d : Driver) (s : ListSystem) : Prop :=
  match s.call with
  | none => ∃ xs, AtRest d s xs ∧ Walks s (listHead :: xs)
  | some c => ∃ xs, LockedAt d s c xs ∧ Walks s (c.visible xs)

def Keeps (d : Driver) (s : ListSystem) (c : Call) : Except Fault ListSystem → Prop
  | .ok t => Inv d t
  | .error e => e = .null ∧ Inv d (s.goto c .faulted)

end States

variable {d d' : Driver} {s t : ListSystem} {c c' : Call} {xs nodes nodes' : List Addr} {a : Addr}

section Walks

lemma Walks.frame (h : Walks s nodes) (htmp : t.tmp = s.tmp) (hwalk : t.walk = s.walk)
    (hnodes : ∀ a ∈ nodes, a ∈ nodes') : Walks t nodes' := by
  refine ⟨?_, ?_⟩
  · rw [htmp, hwalk]
    exact fun a ha => hnodes a (h.cursor a ha)
  · rw [htmp, hwalk]
    exact h.print

lemma Walks.assign (h : Walks s nodes) (hwalk : t.walk = s.walk)
    (htmp : ∀ a ∈ t.tmp, a ∈ nodes' ∧ a ≠ listHead) (hnodes : ∀ a ∈ nodes, a ∈ nodes') :
    Walks t nodes' := by
  refine ⟨?_, fun _ hhead => (htmp listHead hhead).2 rfl⟩
  have hcursor := h.cursor
  rw [hwalk]
  intro a ha
  cases hat : s.walk with
  | setTmp | loadNext =>
    rw [hat] at ha hcursor
    exact hnodes a (hcursor a ha)
  | test | print | loadTmp =>
    rw [hat] at ha
    exact (htmp a ha).1
  | idle | loadFirst | faulted =>
    rw [hat] at ha
    cases ha

end Walks

section Frames

variable {tmp : Option Addr} {k : Option Call} {w : WalkPc} {pc : CallPc}

lemma AtRest.frame (h : AtRest d s xs) :
    AtRest d { s with tmp := tmp, call := k, walk := w } xs := ⟨h.holds, h.back, h.count⟩

lemma Buffered.frame {spare : List Addr} (h : Buffered d s xs spare) :
    Buffered d { s with tmp := tmp, call := k, walk := w } xs spare := ⟨h.holds, h.count⟩

lemma New.frame (h : New d s c xs) :
    New d { s with tmp := tmp, call := k, walk := w } { c with pc := pc } xs :=
  ⟨h.assigned, h.buffered.frame, h.writes⟩

lemma Filled.frame (h : Filled d s c xs) :
    Filled d { s with tmp := tmp, call := k, walk := w } { c with pc := pc } xs :=
  ⟨h.toNew.frame, h.msg⟩

lemma Front.frame (h : Front d s c xs) :
    Front d { s with tmp := tmp, call := k, walk := w } { c with pc := pc } xs :=
  ⟨h.toAtRest.frame, h.first⟩

lemma Copied.frame (h : Copied d s c xs) :
    Copied d { s with tmp := tmp, call := k, walk := w } { c with pc := pc } xs :=
  ⟨h.toFront.frame, h.kernBuf, h.reads⟩

lemma Removed.frame {spare bufs : List Addr} (h : Removed d s c xs spare bufs) :
    Removed d { s with tmp := tmp, call := k, walk := w } { c with pc := pc } xs spare bufs :=
  ⟨h.holds, h.back, h.count, h.reads⟩

lemma LockedAt.frame (h : LockedAt d s c xs) :
    LockedAt d { s with tmp := tmp, call := k, walk := w } c xs := by
  obtain ⟨kind, o, userBuf, own, reply, pc⟩ := c
  cases kind with
  | write =>
    cases pc with
    | checkLen => exact AtRest.frame h
    | vmalloc | memset | copyFromUser | kmalloc | printNew | loadNew | loadLast | setLast | setNext
    | setPrev | publish => exact ⟨h.1.frame, h.2⟩
    | loadKernBuf | setMsg =>
      obtain h | h := h
      · exact Or.inl ⟨h.1.frame, h.2⟩
      · exact Or.inr ⟨h.1, h.2.frame⟩
    | countUp | faulted => exact h
    | unlock =>
      obtain ⟨d', hdone, hrest⟩ := h
      exact ⟨d', hdone, hrest.frame⟩
    | _ => exact False.elim h
  | read =>
    cases pc with
    | listEmpty => exact AtRest.frame h
    | loadMsg => exact Front.frame h
    | loadEntry => exact Copied.frame h
    | loadFirst | setTmp | setKernBuf | printFirst | copyToUser | loadPrev | loadNext | unlinkPrev
    | poisonNext | poisonPrev => exact ⟨h.1.frame, h.2⟩
    | unlinkNext | faulted => exact h
    | kfree | vfree | countDown => exact Removed.frame h
    | unlock =>
      obtain ⟨d', hdone, hrest⟩ := h
      exact ⟨d', hdone, hrest.frame⟩
    | _ => exact False.elim h

end Frames

section Write

variable (fresh : Addr) (junk : Memory Addr) (junkMsg : MsgSt)

lemma keeps_goto (ht : t.call = some c') (hc : LockedAt d t c' xs)
    (hw : Walks t (c'.visible xs)) : Keeps d s c (.ok t) := by
  rw [Keeps, Inv, ht]
  exact ⟨xs, hc, hw⟩

lemma ch4Write_ok {o : Outcome} {userBuf msg : MsgSt} {ret : ℤ}
    (hlen : ¬ userBuf.len.toInt ≥ bufSize) (hvmalloc : o.vmalloc = true)
    (hkmalloc : o.kmalloc = true)
    (hcopy : userCopy o MsgSt.zero.bytes userBuf.bytes sizeofMsgSt = .ok (msg.bytes, ret)) :
    ch4Write o d userBuf =
      .ok (⟨d.msgList ++ [msg], d.msgCount + 1⟩, ⟨ret, some (.appended msg), none⟩) := by
  rw [ch4Write, if_neg hlen, hvmalloc, hcopy, hkmalloc]
  rfl

lemma buffer_keeps {o : Outcome} {userBuf : MsgSt} {own : Addr} {reply : Reply} {pc : CallPc}
    (h : LockedAt d s ⟨.write, o, userBuf, own, reply, pc⟩ xs) (hw : Walks s (listHead :: xs))
    (hnode : s.nodes.live fresh = false) (hbuf : s.bufs.live fresh = false)
    (hpc : pc matches .checkLen | .vmalloc | .memset | .copyFromUser | .kmalloc) :
    Keeps d s ⟨.write, o, userBuf, own, reply, pc⟩
      (writeStep fresh junk junkMsg s ⟨.write, o, userBuf, own, reply, pc⟩) := by
  cases pc with
  | checkLen =>
    have hrest : AtRest d s xs := h
    rw [writeStep]
    simp only
    split
    · next hlen =>
      refine keeps_goto rfl ⟨d, ?_, hrest.frame⟩ (hw.frame rfl rfl fun _ => id)
      simp only [Done, ch4Write, if_pos hlen]
      rfl
    · next hlen => exact keeps_goto rfl ⟨hrest.frame, hlen⟩ (hw.frame rfl rfl fun _ => id)
  | vmalloc =>
    obtain ⟨hrest, hlen⟩ := h
    rw [writeStep]
    simp only
    cases hvmalloc : o.vmalloc with
    | false => exact ⟨rfl, xs, ⟨[], hrest.holds⟩, hw.frame rfl rfl fun _ => id⟩
    | true =>
      have hbuffered := hrest.holds.vmalloc junkMsg hbuf
      exact keeps_goto rfl ⟨⟨hbuffered, hrest.count⟩, hrest.back, hlen, hvmalloc⟩
        (hw.frame rfl rfl fun _ => id)
  | memset =>
    obtain ⟨hbuffered, hback, hlen, hvmalloc⟩ := h
    simp only [writeStep, Heap.write_of_live hbuffered.holds.live_buf]
    have hzero : Function.update s.bufs.val s.kernBuf .zero s.kernBuf = .zero :=
      Function.update_self ..
    exact keeps_goto rfl ⟨⟨hbuffered.holds.fill, hbuffered.count⟩, hback, hlen, hvmalloc, hzero⟩
      (hw.frame rfl rfl fun _ => id)
  | copyFromUser =>
    obtain ⟨hbuffered, hback, hlen, hvmalloc, hzero⟩ := h
    obtain ⟨bytes, ret, hcopy⟩ := userCopy_msg o .zero userBuf
    have hlive := hbuffered.holds.live_buf
    simp only [writeStep, Heap.read_of_live hlive, ok_bind, hzero, hcopy, Heap.write_of_live hlive]
    refine keeps_goto rfl ⟨⟨hbuffered.holds.fill, hbuffered.count⟩, hback, ?_⟩
      (hw.frame rfl rfl fun _ => id)
    intro hkmalloc
    simp only [ListSystem.goto, Function.update_self]
    exact ch4Write_ok hlen hvmalloc hkmalloc hcopy
  | kmalloc =>
    obtain ⟨hbuffered, hback, hwrites⟩ := h
    rw [writeStep]
    simp only
    cases hkmalloc : o.kmalloc with
    | false =>
      have hnull : (⟨.write, o, userBuf, own, reply, .loadKernBuf⟩ : Call).assigned = none := by
        simp [Call.assigned, hkmalloc]
      refine keeps_goto rfl (Or.inr ⟨hnull, hbuffered.holds, hbuffered.count⟩) ?_
      apply Walks.assign hw
      · rfl
      · rintro a ⟨⟩
      · intro a ha
        rw [Call.visible, ← List.cons_append]
        exact List.mem_append_left _ ha
    | true =>
      have hnew := hbuffered.holds.kmalloc hnode junk
      have hout := hnew.notMem_spare
      have hassigned :
          (⟨.write, o, userBuf, fresh, reply, .loadKernBuf⟩ : Call).assigned = some fresh := by
        simp [Call.assigned, hkmalloc]
      refine keeps_goto rfl
        (Or.inl ⟨⟨hassigned, ⟨hnew, hbuffered.count⟩, hwrites hkmalloc⟩,
          hback.update_reverse hout⟩) ?_
      apply Walks.assign hw
      · rfl
      · rintro a ⟨⟩
        refine ⟨?_, fun heq => hout (heq ▸ List.mem_cons_self)⟩
        simp [Call.visible, hassigned]
      · intro a ha
        rw [Call.visible, ← List.cons_append]
        exact List.mem_append_left _ ha
  | _ => cases hpc

lemma Filled.store (h : Filled d s c xs) {m : Memory Addr} (pc : CallPc)
    (hagree : Agree s.nodes m c.own) (hlive : m.live c.own = s.nodes.live c.own)
    (hval : m.val c.own = s.nodes.val c.own) :
    Filled d ({ s with nodes := m }.goto c pc) { c with pc := pc } xs :=
  ⟨⟨h.assigned, ⟨h.buffered.holds.store hagree hlive, h.buffered.count⟩, h.writes⟩,
    hval.trans h.msg⟩

lemma Filled.setPrev (h : Filled d s c xs) (a b : Addr) (pc : CallPc) :
    Filled d ({ s with nodes := setPrev s.nodes a b }.goto c pc) { c with pc := pc } xs :=
  ⟨⟨h.assigned, ⟨h.buffered.holds.setPrev a b, h.buffered.count⟩, h.writes⟩, h.msg⟩

lemma node_keeps {o : Outcome} {userBuf : MsgSt} {own : Addr} {reply : Reply} {pc : CallPc}
    (h : LockedAt d s ⟨.write, o, userBuf, own, reply, pc⟩ xs)
    (hw : Walks s ((⟨.write, o, userBuf, own, reply, pc⟩ : Call).visible xs))
    (halone : CallAlone s ⟨.write, o, userBuf, own, reply, pc⟩)
    (hpc : pc matches .loadKernBuf | .setMsg _ | .printNew | .loadNew) :
    Keeps d s ⟨.write, o, userBuf, own, reply, pc⟩
      (writeStep fresh junk junkMsg s ⟨.write, o, userBuf, own, reply, pc⟩) := by
  cases pc with
  | loadKernBuf =>
    obtain ⟨hnew, hback⟩ | ⟨hnull, hbuffered⟩ := h
    · exact keeps_goto rfl (Or.inl ⟨hnew.frame, hback, rfl⟩) (hw.frame rfl rfl fun _ => id)
    · exact keeps_goto rfl (Or.inr ⟨hnull, hbuffered.frame⟩) (hw.frame rfl rfl fun _ => id)
  | setMsg buf =>
    obtain ⟨hnew, hback, rfl⟩ | ⟨hnull, hbuffered⟩ := h
    · have htmp : s.tmp = some own := halone.trans hnew.assigned
      have hlive := hnew.buffered.holds.live_spare
      simp only at hlive
      simp only [writeStep, htmp, deref_some, touch_of_live hlive, ok_bind]
      have hstore := hnew.buffered.holds.store (store_agree s.nodes own s.kernBuf) rfl
      have hval : Function.update s.nodes.val own s.kernBuf own = s.kernBuf :=
        Function.update_self ..
      exact keeps_goto rfl
        ⟨⟨⟨hnew.assigned, ⟨hstore, hnew.buffered.count⟩, hnew.writes⟩, hval⟩, hback⟩
        (hw.frame htmp.symm rfl fun _ => id)
    · -- the pointer that `kmalloc` has returned is NULL
      have htmp : s.tmp = none := halone.trans hnull
      simp only [writeStep, htmp]
      refine ⟨rfl, xs, ⟨_, hbuffered.holds⟩, hw.frame rfl rfl ?_⟩
      intro a ha
      simpa [Call.visible, hnull] using ha
  | printNew =>
    obtain ⟨hfilled, hback⟩ := h
    have htmp : s.tmp = some own := halone.trans hfilled.assigned
    have hlive := hfilled.buffered.holds.live_spare
    have hmsg := hfilled.msg
    simp only at hlive hmsg
    simp only [writeStep, htmp, deref_some, touch_of_live hlive, ok_bind, hmsg,
      Heap.read_of_live hfilled.buffered.holds.live_buf]
    exact keeps_goto rfl ⟨hfilled.frame, hback⟩ (hw.frame rfl rfl fun _ => id)
  | loadNew =>
    obtain ⟨hfilled, hback⟩ := h
    have htmp : s.tmp = some own := halone.trans hfilled.assigned
    simp only [writeStep, htmp, deref_some, ok_bind]
    exact keeps_goto rfl ⟨hfilled.frame, hback, rfl⟩ (hw.frame rfl rfl fun _ => id)
  | _ => cases hpc

lemma addTail_keeps {o : Outcome} {userBuf : MsgSt} {own : Addr} {reply : Reply} {pc : CallPc}
    (h : LockedAt d s ⟨.write, o, userBuf, own, reply, pc⟩ xs)
    (hw : Walks s ((⟨.write, o, userBuf, own, reply, pc⟩ : Call).visible xs))
    (hpc : pc matches .loadLast _ | .setLast _ _ | .setNext _ _ | .setPrev _ _ | .publish _ _) :
    Keeps d s ⟨.write, o, userBuf, own, reply, pc⟩
      (writeStep fresh junk junkMsg s ⟨.write, o, userBuf, own, reply, pc⟩) := by
  cases pc with
  | loadLast new =>
    obtain ⟨hfilled, hback, hnew⟩ := h
    exact keeps_goto rfl ⟨hfilled.frame, hback, hnew, rfl⟩ (hw.frame rfl rfl fun _ => id)
  | setLast new prev =>
    obtain ⟨hfilled, hback, hnew, hprev⟩ := h
    have hnodup := hfilled.buffered.holds.nodup_nodes
    have hprevs : Redirected (Function.update s.nodes.prev listHead new) xs new prev := by
      have hhead : Function.update s.nodes.prev listHead new listHead = new :=
        Function.update_self ..
      refine ⟨hhead, ?_, ?_⟩
      · apply hback.tail.update
        rw [List.dropLast_concat, List.mem_reverse]
        exact (List.nodup_cons.mp hnodup).1
      · rw [hprev]
        exact hback.first
    have hset := hfilled.setPrev listHead new (.setNext new prev)
    exact keeps_goto rfl ⟨hset, hnew, hprevs⟩ (hw.frame rfl rfl fun _ => id)
  | setNext new prev =>
    obtain ⟨hfilled, hnew, hprevs⟩ := h
    simp only at hnew
    subst hnew
    have hlive := hfilled.buffered.holds.live_spare
    simp only at hlive
    simp only [writeStep, touch_of_live hlive, ok_bind]
    have hstore := hfilled.store (.setPrev new prev) (setNext_agree s.nodes new listHead) rfl rfl
    exact keeps_goto rfl ⟨hstore, rfl, ⟨hprevs.head, hprevs.rest, hprevs.prev⟩,
      Function.update_self ..⟩ (hw.frame rfl rfl fun _ => id)
  | setPrev new prev =>
    obtain ⟨hfilled, hnew, hprevs, hnext⟩ := h
    simp only at hnew
    subst hnew
    have hlive := hfilled.buffered.holds.live_spare
    have hout := hfilled.buffered.holds.notMem_spare
    simp only at hlive hout
    rw [List.mem_cons, not_or] at hout
    simp only [writeStep, touch_of_live hlive, ok_bind]
    obtain ⟨l, hl⟩ := hprevs.prev
    have hback : Circular (Function.update s.nodes.prev new prev) (new :: xs.reverse) := by
      apply Circular.cons _ hl
      · rw [Function.update_of_ne (Ne.symm hout.1)]
        exact hprevs.head
      · exact Function.update_self ..
      · apply hprevs.rest.update
        rw [List.dropLast_concat, List.mem_reverse]
        exact hout.2
    have hset := hfilled.setPrev new prev (.publish new prev)
    exact keeps_goto rfl ⟨hset, rfl, ⟨l, hl⟩, hback, hnext⟩ (hw.frame rfl rfl fun _ => id)
  | publish new prev =>
    obtain ⟨hfilled, hnew, ⟨l, hl⟩, hback, hnext⟩ := h
    simp only at hnew hnext
    subst hnew
    have hlast : listHead :: xs = l.reverse ++ [prev] := by
      have hreverse := congrArg List.reverse hl
      simpa using hreverse
    have hlive : s.nodes.live prev = true := by
      apply hfilled.buffered.holds.live_of_mem
      rw [hlast]
      simp
    simp only [writeStep, touch_of_live hlive, ok_bind]
    have hholds := hfilled.buffered.holds.publish hnext hfilled.msg hlast
    have hreverse : (xs ++ [new]).reverse = new :: xs.reverse := by simp
    have hassigned := hfilled.assigned
    refine @keeps_goto _ _ _ _ _ (xs ++ [new]) rfl ⟨_, hfilled.writes, hholds, ?_, ?_⟩
      (hw.frame rfl rfl ?_)
    · rw [hreverse]
      exact hback
    · exact congrArg (· + 1) hfilled.buffered.count
    · intro a ha
      simpa [Call.visible, hassigned] using ha
  | _ => cases hpc

lemma countUp_keeps {o : Outcome} {userBuf : MsgSt} {own : Addr} {reply : Reply}
    (h : LockedAt d s ⟨.write, o, userBuf, own, reply, .countUp⟩ xs)
    (hw : Walks s (listHead :: xs)) :
    Keeps d s ⟨.write, o, userBuf, own, reply, .countUp⟩
      (writeStep fresh junk junkMsg s ⟨.write, o, userBuf, own, reply, .countUp⟩) := by
  obtain ⟨d', hdone, hholds, hback, hcount⟩ := h
  exact keeps_goto rfl ⟨d', hdone, hholds, hback, hcount⟩ (hw.frame rfl rfl fun _ => id)

end Write

section Read

variable {o : Outcome} {userBuf : MsgSt} {own : Addr} {reply : Reply} {pc : CallPc}

lemma Front.live (h : Front d s c xs) : s.nodes.live c.own = true := by
  obtain ⟨rest, rfl⟩ := h.first
  apply h.holds.live_of_mem
  simp

lemma Front.live_buf (h : Front d s c xs) : s.bufs.live (s.nodes.val c.own) = true := by
  obtain ⟨rest, rfl⟩ := h.first
  rw [h.holds.liveBufs]
  simp

lemma Front.reads (h : Front d s c xs) {bytes : Fin 132 → UInt8} {ret : ℤ}
    (hcopy : userCopy c.o c.userBuf.bytes (s.bufs.val (s.nodes.val c.own)).bytes sizeofMsgSt =
      .ok (bytes, ret)) :
    ch4Read c.o d c.userBuf = .ok (some (⟨d.msgList.tail, d.msgCount - 1⟩,
      ⟨ret, some (.removed (s.bufs.val (s.nodes.val c.own))), some ⟨bytes⟩⟩)) := by
  obtain ⟨rest, hxs⟩ := h.first
  have hmsgs := h.holds.content
  rw [hxs, List.map_cons] at hmsgs
  obtain ⟨msgList, msgCount⟩ := d
  simp only at hmsgs
  subst hmsgs
  rw [ch4Read, if_neg (List.cons_ne_nil _ _), ch4ReadTake]
  simp only [hcopy]
  rfl

lemma take_keeps (h : LockedAt d s ⟨.read, o, userBuf, own, reply, pc⟩ xs)
    (hw : Walks s (listHead :: xs)) (halone : CallAlone s ⟨.read, o, userBuf, own, reply, pc⟩)
    (hpc : pc matches .listEmpty | .loadFirst | .setTmp _ | .loadMsg | .setKernBuf _ | .printFirst
      | .copyToUser | .loadEntry) :
    Keeps d s ⟨.read, o, userBuf, own, reply, pc⟩
      (readStep s ⟨.read, o, userBuf, own, reply, pc⟩) := by
  cases pc with
  | listEmpty =>
    have hrest : AtRest d s xs := h
    rw [readStep]
    simp only
    split
    · exact ⟨xs, ⟨hrest.holds, hrest.back, hrest.count⟩, hw.frame rfl rfl fun _ => id⟩
    · next hne => exact keeps_goto rfl ⟨hrest.frame, hne⟩ (hw.frame rfl rfl fun _ => id)
  | loadFirst =>
    obtain ⟨hrest, hne⟩ := h
    obtain ⟨ys, hys⟩ := hrest.holds.ring.first
    have hfirst : ∃ rest, xs = s.nodes.next listHead :: rest := by
      cases xs with
      | nil => exact absurd (List.cons.inj hys).1.symm hne
      | cons x rest => exact ⟨rest, by rw [(List.cons.inj hys).1]⟩
    exact keeps_goto rfl ⟨hrest.frame, hfirst⟩ (hw.frame rfl rfl fun _ => id)
  | setTmp first =>
    obtain ⟨hrest, rest, rfl⟩ := h
    have hnodup := hrest.holds.nodup_nodes
    refine keeps_goto rfl ⟨⟨hrest.holds, hrest.back, hrest.count⟩, rest, rfl⟩ ?_
    apply Walks.assign hw
    · rfl
    · rintro a ⟨⟩
      refine ⟨by simp [Call.visible], ?_⟩
      rintro rfl
      exact (List.nodup_cons.mp hnodup).1 List.mem_cons_self
    · exact fun _ => id
  | loadMsg =>
    have hfront : Front d s ⟨.read, o, userBuf, own, reply, .loadMsg⟩ xs := h
    have htmp : s.tmp = some own := halone
    have hlive := hfront.live
    simp only at hlive
    simp only [readStep, htmp, deref_some, touch_of_live hlive, ok_bind]
    exact keeps_goto rfl ⟨hfront.frame, rfl⟩ (hw.frame rfl rfl fun _ => id)
  | setKernBuf buf =>
    obtain ⟨hfront, hbuf⟩ := h
    exact keeps_goto rfl ⟨⟨⟨hfront.holds, hfront.back, hfront.count⟩, hfront.first⟩, hbuf⟩
      (hw.frame rfl rfl fun _ => id)
  | printFirst =>
    obtain ⟨hfront, hkern⟩ := h
    have htmp : s.tmp = some own := halone
    have hlive := hfront.live
    have hbuf := hfront.live_buf
    simp only at hlive hbuf
    simp only [readStep, htmp, deref_some, touch_of_live hlive, ok_bind, Heap.read_of_live hbuf]
    exact keeps_goto rfl ⟨hfront.frame, hkern⟩ (hw.frame rfl rfl fun _ => id)
  | copyToUser =>
    obtain ⟨hfront, hkern⟩ := h
    obtain ⟨bytes, ret, hcopy⟩ := userCopy_msg o userBuf (s.bufs.val (s.nodes.val own))
    have hbuf := hfront.live_buf
    simp only at hbuf hkern
    simp only [readStep, hkern, Heap.read_of_live hbuf, ok_bind, hcopy]
    exact keeps_goto rfl
      ⟨⟨⟨hfront.holds, hfront.back, hfront.count⟩, hfront.first⟩, hkern, hfront.reads hcopy⟩
      (hw.frame rfl rfl fun _ => id)
  | loadEntry =>
    have hcopied : Copied d s ⟨.read, o, userBuf, own, reply, .loadEntry⟩ xs := h
    have htmp : s.tmp = some own := halone
    simp only [readStep, htmp, deref_some, ok_bind]
    exact keeps_goto rfl ⟨hcopied.frame, rfl⟩ (hw.frame rfl rfl fun _ => id)
  | _ => cases hpc

lemma unlink_keeps (h : LockedAt d s ⟨.read, o, userBuf, own, reply, pc⟩ xs)
    (hw : Walks s (listHead :: xs))
    (hpc : pc matches .loadPrev _ | .loadNext _ _ | .unlinkPrev _ _ _ | .unlinkNext _ _ _) :
    Keeps d s ⟨.read, o, userBuf, own, reply, pc⟩
      (readStep s ⟨.read, o, userBuf, own, reply, pc⟩) := by
  cases pc with
  | loadPrev entry =>
    clear hpc
    obtain ⟨hcopied, rfl⟩ := h
    have hlive := hcopied.live
    have hback := hcopied.back
    obtain ⟨rest, hxs⟩ := hcopied.first
    simp only at hlive hxs
    rw [hxs, List.reverse_cons] at hback
    simp only [readStep, touch_of_live hlive, ok_bind]
    exact keeps_goto rfl ⟨hcopied.frame, rfl, hback.last_link⟩ (hw.frame rfl rfl fun _ => id)
  | loadNext entry prev =>
    clear hpc
    obtain ⟨hcopied, rfl, hprev⟩ := h
    have hlive := hcopied.live
    simp only at hlive
    simp only [readStep, touch_of_live hlive, ok_bind]
    exact keeps_goto rfl ⟨hcopied.frame, rfl, hprev, rfl⟩ (hw.frame rfl rfl fun _ => id)
  | unlinkPrev entry prev next =>
    obtain ⟨hcopied, hentry, rfl, hnext⟩ := h
    obtain ⟨rest, hxs⟩ := hcopied.first
    have hback := hcopied.back
    have hring := hcopied.holds.ring
    have hnodup := hcopied.holds.nodup_nodes
    simp only at hxs hnext
    have hlive : s.nodes.live next = true := by
      have hmem := hring.next_mem (u := own) (by rw [hxs]; simp)
      apply hcopied.holds.live_of_mem
      rw [hnext, List.mem_cons]
      rw [List.mem_append, List.mem_singleton] at hmem
      exact hmem.symm
    simp only [readStep, touch_of_live hlive, ok_bind]
    rw [hxs] at hring hnodup
    rw [hxs, List.reverse_cons] at hback
    obtain ⟨l, hl⟩ := hring.tail.first
    have hlast : listHead :: rest.reverse = l.reverse ++ [next] := by
      have hreverse := congrArg List.reverse hl
      rw [hnext]
      simpa using hreverse
    have hnodup' : (listHead :: (rest.reverse ++ [own])).Nodup := by
      rw [← List.reverse_cons]
      exact ((List.reverse_perm (own :: rest)).cons listHead).nodup_iff.mpr hnodup
    have hrest := hback.init_circular hnodup' hlast
    exact keeps_goto rfl ⟨hcopied.holds.setPrev _ _, hcopied.count, hcopied.reads, hcopied.kernBuf,
      hentry, rfl, hnext, rest, hxs, hrest⟩ (hw.frame rfl rfl fun _ => id)
  | unlinkNext entry prev next =>
    obtain ⟨hholds, hcount, hreads, hkern, hentry, rfl, hnext, rest, hxs, hback⟩ := h
    simp only at hxs hkern hnext
    subst hxs
    have hlive : s.nodes.live listHead = true := hholds.live_of_mem List.mem_cons_self
    simp only [readStep, touch_of_live hlive, ok_bind, hnext]
    have hunlink := hholds.unlink
    rw [← hkern] at hunlink
    have hout := hunlink.notMem_spare
    have hstay :
        Function.update s.nodes.next listHead (s.nodes.next own) own ∈ rest ++ [listHead] := by
      have hne : own ≠ listHead := by
        rintro rfl
        exact hout List.mem_cons_self
      rw [Function.update_of_ne hne]
      obtain ⟨l, hl⟩ := hholds.ring.tail.first
      rw [hl]
      exact List.mem_cons_self
    refine @keeps_goto _ _ _ _ _ rest rfl
      ⟨⟨hunlink, hback, hcount, hreads⟩, hentry, hstay, hkern.symm⟩ (hw.frame rfl rfl ?_)
    intro a ha
    simp only [Call.visible, Call.assigned, Option.toList_some, List.mem_cons, List.mem_append,
      List.not_mem_nil, or_false] at ha ⊢
    tauto
  | _ => cases hpc

lemma free_keeps (h : LockedAt d s ⟨.read, o, userBuf, own, reply, pc⟩ xs)
    (hw : Walks s ((⟨.read, o, userBuf, own, reply, pc⟩ : Call).visible xs))
    (halone : CallAlone s ⟨.read, o, userBuf, own, reply, pc⟩)
    (hpc : pc matches .poisonNext _ | .poisonPrev _ | .kfree | .vfree | .countDown) :
    Keeps d s ⟨.read, o, userBuf, own, reply, pc⟩
      (readStep s ⟨.read, o, userBuf, own, reply, pc⟩) := by
  cases pc with
  | poisonNext entry =>
    obtain ⟨hremoved, hentry, _, _⟩ := h
    simp only at hentry
    subst hentry
    have hlive := hremoved.holds.live_spare
    simp only at hlive
    simp only [readStep, touch_of_live hlive, ok_bind]
    have hholds := hremoved.holds.store (setNext_agree s.nodes entry listPoison1) rfl
    refine keeps_goto rfl ⟨⟨hholds, hremoved.back, hremoved.count, hremoved.reads⟩, rfl⟩ ?_
    refine ⟨?_, hw.print⟩
    intro a ha
    have hmem := hw.cursor a ha
    have hne : a ≠ entry := by
      rintro rfl
      exact halone ha
    simp only [Call.visible, Call.assigned, Option.toList_some, List.mem_cons, List.mem_append,
      List.not_mem_nil, or_false] at hmem ⊢
    tauto
  | poisonPrev entry =>
    obtain ⟨hremoved, hentry⟩ := h
    simp only at hentry
    subst hentry
    have hlive := hremoved.holds.live_spare
    have hout := hremoved.holds.notMem_spare
    simp only at hlive hout
    simp only [readStep, touch_of_live hlive, ok_bind]
    have hback : Circular (Function.update s.nodes.prev entry listPoison2) xs.reverse :=
      hremoved.back.update_reverse hout
    exact keeps_goto rfl ⟨hremoved.holds.setPrev _ _, hback, hremoved.count, hremoved.reads⟩
      (hw.frame rfl rfl fun _ => id)
  | kfree =>
    have hremoved : Removed d s ⟨.read, o, userBuf, own, reply, .kfree⟩ xs [own] [s.kernBuf] := h
    have htmp : s.tmp = some own := halone
    simp only [readStep, htmp, deref_some, touch_of_live hremoved.holds.live_spare, ok_bind]
    exact keeps_goto rfl
      ⟨hremoved.holds.kfree, hremoved.back, hremoved.count, hremoved.reads⟩
      (hw.frame htmp.symm rfl fun _ => id)
  | vfree =>
    have hremoved : Removed d s ⟨.read, o, userBuf, own, reply, .vfree⟩ xs [] [s.kernBuf] := h
    simp only [readStep, Heap.kfree_of_live hremoved.holds.live_buf]
    exact keeps_goto rfl
      ⟨hremoved.holds.vfree, hremoved.back, hremoved.count, hremoved.reads⟩
      (hw.frame rfl rfl fun _ => id)
  | countDown =>
    have hremoved : Removed d s ⟨.read, o, userBuf, own, reply, .countDown⟩ xs [] [] := h
    have hcount : s.msgCount - 1 = d.msgCount - 1 := congrArg (· - 1) hremoved.count
    exact keeps_goto rfl ⟨_, hremoved.reads, hremoved.holds, hremoved.back, hcount⟩
      (hw.frame rfl rfl fun _ => id)
  | _ => cases hpc

end Read

lemma call_keeps (fresh : Addr) (junk : Memory Addr) (junkMsg : MsgSt) (h : LockedAt d s c xs)
    (hw : Walks s (c.visible xs)) (halone : CallAlone s c) (hruns : c.pc.runs = true)
    (hnode : s.nodes.live fresh = false) (hbuf : s.bufs.live fresh = false) :
    Keeps d s c (callStep fresh junk junkMsg s c) := by
  obtain ⟨kind, o, userBuf, own, reply, pc⟩ := c
  cases kind with
  | write =>
    cases pc with
    | checkLen | vmalloc | memset | copyFromUser | kmalloc =>
      exact buffer_keeps fresh junk junkMsg h hw hnode hbuf rfl
    | loadKernBuf | setMsg | printNew | loadNew =>
      exact node_keeps fresh junk junkMsg h hw halone rfl
    | loadLast | setLast | setNext | setPrev | publish =>
      exact addTail_keeps fresh junk junkMsg h hw rfl
    | countUp => exact countUp_keeps fresh junk junkMsg h hw
    | unlock | faulted => cases hruns
    | _ => exact False.elim h
  | read =>
    cases pc with
    | listEmpty | loadFirst | setTmp | loadMsg | setKernBuf | printFirst | copyToUser | loadEntry =>
      exact take_keeps h hw halone rfl
    | loadPrev | loadNext | unlinkPrev | unlinkNext => exact unlink_keeps h hw rfl
    | poisonNext | poisonPrev | kfree | vfree | countDown => exact free_keeps h hw halone rfl
    | unlock | faulted => cases hruns
    | _ => exact False.elim h

end EmbeddedSystem.Challenge4
