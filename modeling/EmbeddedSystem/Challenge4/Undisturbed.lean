import EmbeddedSystem.Challenge4.ListCalls
import EmbeddedSystem.Challenge4.Waiting
import EmbeddedSystem.Foundations.Runs

namespace EmbeddedSystem.Challenge4

open Kernel Foundations

variable {d d' : Driver} {s t : ListSystem} {c : Call} {xs spare bufs nodes : List Addr}
  {msgs : List MsgSt} {a : Addr}

section Walk

structure Walkable (s : ListSystem) (nodes : List Addr) : Prop where
  live : ∀ a ∈ nodes, s.nodes.live a = true
  next : ∀ a ∈ nodes, (∀ c ∈ s.call, c.pc.nextUnset = true → c.assigned ≠ some a) →
    s.nodes.next a ∈ nodes
  msg : ∀ a ∈ nodes, a ≠ listHead →
    (∀ c ∈ s.call, c.pc.msgUnset = true → c.assigned ≠ some a) →
    s.bufs.live (s.nodes.val a) = true
  first : s.nodes.next listHead ∈ nodes

lemma Holds.next_mem {m : Memory Addr} {h : Heap Addr MsgSt} (hm : Holds m h xs spare bufs msgs)
    (ha : a ∈ listHead :: xs) : m.next a ∈ listHead :: xs := by
  have hmem := hm.ring.next_mem ha
  rw [List.mem_append, List.mem_singleton] at hmem
  rw [List.mem_cons]
  exact hmem.symm

lemma Holds.live_msg {m : Memory Addr} {h : Heap Addr MsgSt} (hm : Holds m h xs spare bufs msgs)
    (ha : a ∈ xs) : h.live (m.val a) = true := by
  rw [hm.liveBufs]
  exact List.mem_append_left _ (List.mem_map_of_mem ha)

lemma Holds.walkable (h : Holds s.nodes s.bufs xs spare bufs msgs) :
    Walkable s (listHead :: xs) := by
  refine ⟨fun a ha => h.live_of_mem ha, fun a ha _ => h.next_mem ha, ?_,
    h.next_mem List.mem_cons_self⟩
  intro a ha hne _
  exact h.live_msg ((List.mem_cons.mp ha).resolve_left hne)

lemma Holds.walkable_spare (h : Holds s.nodes s.bufs xs [c.own] bufs msgs) (hcall : s.call = some c)
    (hassigned : c.assigned = some c.own)
    (hnext : c.pc.nextUnset = false → s.nodes.next c.own ∈ listHead :: xs)
    (hmsg : c.pc.msgUnset = false → s.bufs.live (s.nodes.val c.own) = true) :
    Walkable s (listHead :: (xs ++ c.assigned.toList)) := by
  rw [hassigned, Option.toList_some]
  have hrest := h.walkable
  rw [← List.cons_append]
  refine ⟨?_, ?_, ?_, List.mem_append_left _ hrest.first⟩
  · intro a ha
    obtain ha | ha := List.mem_append.mp ha
    · exact hrest.live a ha
    · rw [List.mem_singleton.mp ha]
      exact h.live_spare
  · intro a ha hset
    apply List.mem_append_left
    obtain ha | ha := List.mem_append.mp ha
    · exact h.next_mem ha
    · rw [List.mem_singleton.mp ha] at hset ⊢
      apply hnext
      by_contra hunset
      exact hset c hcall (by simpa using hunset) hassigned
  · intro a ha hne hset
    obtain ha | ha := List.mem_append.mp ha
    · exact h.live_msg ((List.mem_cons.mp ha).resolve_left hne)
    · rw [List.mem_singleton.mp ha] at hset ⊢
      apply hmsg
      by_contra hunset
      exact hset c hcall (by simpa using hunset) hassigned

lemma Filled.walkable (h : Filled d s c xs) (hcall : s.call = some c)
    (hnext : c.pc.nextUnset = false → s.nodes.next c.own ∈ listHead :: xs) :
    Walkable s (listHead :: (xs ++ c.assigned.toList)) := by
  apply h.buffered.holds.walkable_spare hcall h.assigned hnext
  rw [h.msg]
  exact fun _ => h.buffered.holds.live_buf

lemma LockedAt.walkable (h : LockedAt d s c xs) (hcall : s.call = some c) :
    Walkable s (c.visible xs) := by
  obtain ⟨kind, o, userBuf, own, reply, pc⟩ := c
  cases kind with
  | write =>
    cases pc with
    | checkLen => exact (AtRest.holds h).walkable
    | vmalloc | memset | copyFromUser | kmalloc => exact h.1.holds.walkable
    | loadKernBuf | setMsg =>
      obtain ⟨hnew, _⟩ | ⟨hnull, hbuffered⟩ := h
      · apply hnew.buffered.holds.walkable_spare hcall hnew.assigned
        · rintro ⟨⟩
        · rintro ⟨⟩
      · rw [Call.visible]
        simpa [hnull] using hbuffered.holds.walkable
    | printNew | loadNew | loadLast | setLast | setNext =>
      apply h.1.walkable hcall
      rintro ⟨⟩
    | setPrev =>
      obtain ⟨hfilled, -, -, hnext⟩ := h
      exact hfilled.walkable hcall fun _ => hnext ▸ List.mem_cons_self
    | publish =>
      obtain ⟨hfilled, -, -, -, hnext⟩ := h
      exact hfilled.walkable hcall fun _ => hnext ▸ List.mem_cons_self
    | countUp =>
      obtain ⟨_, _, hholds, _⟩ := h
      exact hholds.walkable
    | unlock =>
      obtain ⟨_, _, hrest⟩ := h
      exact hrest.holds.walkable
    | faulted =>
      obtain ⟨_, hholds⟩ := h
      exact hholds.walkable
    | _ => exact False.elim h
  | read =>
    cases pc with
    | listEmpty => exact (AtRest.holds h).walkable
    | loadMsg => exact (Front.toAtRest h).holds.walkable
    | loadEntry => exact (Copied.toFront h).holds.walkable
    | loadFirst | setTmp | setKernBuf | printFirst | copyToUser | loadPrev | loadNext
    | unlinkPrev | poisonPrev => exact h.1.holds.walkable
    | unlinkNext => exact h.1.walkable
    | poisonNext =>
      obtain ⟨hremoved, -, hnext, hmsg⟩ := h
      apply hremoved.holds.walkable_spare hcall rfl
      · intro _
        rw [List.mem_append, List.mem_singleton] at hnext
        exact List.mem_cons.mpr hnext.symm
      · intro _
        rw [hmsg]
        exact hremoved.holds.live_buf
    | kfree | vfree | countDown => exact (Removed.holds h).walkable
    | unlock =>
      obtain ⟨_, _, hrest⟩ := h
      exact hrest.holds.walkable
    | faulted =>
      obtain ⟨_, hholds⟩ := h
      exact hholds.walkable
    | _ => exact False.elim h

def WalkPc.AtNull (tmp : Option Addr) : WalkPc → Prop
  | .test | .print | .loadTmp => tmp = none
  | .loadNext entry => entry = none
  | .faulted => True
  | .idle | .loadFirst | .setTmp _ => False

lemma walk_step (hm : Walkable s nodes) (hw : Walks s nodes) (halone : WalkAlone s)
    (hruns : s.walk.runs = true) :
    (∃ a w, walkStep s = .ok { s with tmp := a, walk := w } ∧
      Walks { s with tmp := a, walk := w } nodes) ∨
    walkStep s = .error .null ∧ s.walk.AtNull s.tmp := by
  have hcursor := hw.cursor
  rw [WalkAlone] at halone
  cases hwalk : s.walk with
  | idle | faulted =>
    rw [hwalk] at hruns
    cases hruns
  | loadFirst =>
    refine Or.inl ⟨s.tmp, .setTmp (s.nodes.next listHead), by rw [walkStep, hwalk]; rfl, ?_, nofun⟩
    rintro a ⟨⟩
    exact hm.first
  | setTmp entry =>
    rw [hwalk] at hcursor
    refine Or.inl ⟨some entry, .test, by rw [walkStep, hwalk]; rfl, ?_, nofun⟩
    rintro a ⟨⟩
    exact hcursor _ rfl
  | test =>
    rw [hwalk] at hcursor
    by_cases hhead : s.tmp = some listHead
    · refine Or.inl ⟨s.tmp, .idle, ?_, nofun, nofun⟩
      simp only [walkStep, hwalk, if_pos hhead]
      rfl
    · refine Or.inl ⟨s.tmp, .print, ?_, hcursor, fun _ => hhead⟩
      simp only [walkStep, hwalk, if_neg hhead]
      rfl
  | print =>
    have hne := hw.print hwalk
    rw [hwalk] at halone hcursor
    cases htmp : s.tmp with
    | none => exact Or.inr ⟨by simp only [walkStep, hwalk, htmp]; rfl, rfl⟩
    | some a =>
      rw [htmp] at hne
      have hmem := hcursor a htmp
      have hmsg := hm.msg a hmem (fun heq => hne (congrArg some heq)) ?_
      · refine Or.inl ⟨some a, .loadTmp, ?_, ?_, nofun⟩
        · simp [walkStep, hwalk, htmp, hm.live _ hmem, Heap.read_of_live hmsg]
        · rintro b ⟨⟩
          exact hmem
      · intro c hc hunset hassigned
        exact halone c hc hunset a hassigned htmp
  | loadTmp =>
    rw [hwalk] at hcursor
    refine Or.inl ⟨s.tmp, .loadNext s.tmp, by rw [walkStep, hwalk]; rfl, hcursor, nofun⟩
  | loadNext entry =>
    rw [hwalk] at halone hcursor
    cases entry with
    | none => exact Or.inr ⟨by simp only [walkStep, hwalk]; rfl, rfl⟩
    | some a =>
      have hmem := hcursor a rfl
      refine Or.inl ⟨s.tmp, .setTmp (s.nodes.next a), ?_, ?_, nofun⟩
      · simp [walkStep, hwalk, hm.live _ hmem]
      · rintro b ⟨⟩
        apply hm.next a hmem
        intro c hc hunset hassigned
        exact halone c hc hunset a hassigned rfl

lemma Inv.walkable (h : Inv d s) : ∃ nodes, Walkable s nodes ∧ Walks s nodes ∧
    ∀ tmp w, Walks { s with tmp := tmp, walk := w } nodes →
      Inv d { s with tmp := tmp, walk := w } := by
  cases hcall : s.call with
  | none =>
    rw [Inv, hcall] at h
    obtain ⟨xs, hrest, hw⟩ := h
    refine ⟨_, hrest.holds.walkable, hw, ?_⟩
    intro a w hwalks
    exact ⟨xs, hrest.frame, hwalks⟩
  | some c =>
    rw [Inv, hcall] at h
    obtain ⟨xs, hlocked, hw⟩ := h
    refine ⟨_, hlocked.walkable hcall, hw, ?_⟩
    intro a w hwalks
    exact ⟨xs, hlocked.frame, hwalks⟩

end Walk

section Null

/-- The lock is held by a write whose `kmalloc` fails: it is about to use `tmp`, or has faulted. -/
def Starved (s : ListSystem) : Prop :=
  ∃ c, s.call = some c ∧ c.assigned = none ∧ (c.pc.msgUnset = true ∨ c.pc = .faulted)

def NullInv (s : ListSystem) : Prop := s.walk.AtNull s.tmp → Starved s

section Steps

variable {fresh : Addr} {junk : Memory Addr} {junkMsg : MsgSt}

lemma writeStep_tmp (hkind : c.kind = .write) (h : writeStep fresh junk junkMsg s c = .ok t) :
    t.walk = s.walk ∧ (t.tmp = none → s.tmp = none ∨ Starved t) := by
  cases hpc : c.pc <;> simp only [writeStep, hpc] at h
  case checkLen =>
    split at h <;> cases h <;> exact ⟨rfl, .inl⟩
  case vmalloc =>
    split at h
    · cases h
    · cases h
      exact ⟨rfl, .inl⟩
  case kmalloc =>
    split at h
    · next hkmalloc =>
      cases h
      have hnull : ({ c with pc := .loadKernBuf } : Call).assigned = none := by
        rw [Call.assigned, hkind]
        simpa using hkmalloc
      exact ⟨rfl, fun _ => .inr ⟨_, rfl, hnull, .inl rfl⟩⟩
    · cases h
      refine ⟨rfl, ?_⟩
      rintro ⟨⟩
  case setMsg =>
    obtain ⟨_, _, h⟩ := bind_ok.mp h
    obtain ⟨_, _, h⟩ := bind_ok.mp h
    cases h
    exact ⟨rfl, .inl⟩
  case copyFromUser | printNew =>
    obtain ⟨_, _, h⟩ := bind_ok.mp h
    obtain ⟨_, _, h⟩ := bind_ok.mp h
    obtain ⟨_, _, h⟩ := bind_ok.mp h
    cases h
    exact ⟨rfl, .inl⟩
  case memset | loadNew | setNext | setPrev | publish =>
    obtain ⟨_, _, h⟩ := bind_ok.mp h
    cases h
    exact ⟨rfl, .inl⟩
  all_goals
    cases h
    exact ⟨rfl, .inl⟩

lemma readStep_tmp (h : readStep s c = .ok t) :
    t.walk = s.walk ∧ (t.tmp = none → s.tmp = none) := by
  cases hpc : c.pc <;> simp only [readStep, hpc] at h
  case listEmpty =>
    split at h <;> cases h <;> exact ⟨rfl, id⟩
  case setTmp =>
    cases h
    refine ⟨rfl, ?_⟩
    rintro ⟨⟩
  case loadMsg | copyToUser | kfree =>
    obtain ⟨_, _, h⟩ := bind_ok.mp h
    obtain ⟨_, _, h⟩ := bind_ok.mp h
    cases h
    exact ⟨rfl, id⟩
  case printFirst =>
    obtain ⟨_, _, h⟩ := bind_ok.mp h
    obtain ⟨_, _, h⟩ := bind_ok.mp h
    obtain ⟨_, _, h⟩ := bind_ok.mp h
    cases h
    exact ⟨rfl, id⟩
  case loadEntry | loadPrev | loadNext | unlinkPrev | unlinkNext | poisonNext | poisonPrev
    | vfree =>
    obtain ⟨_, _, h⟩ := bind_ok.mp h
    cases h
    exact ⟨rfl, id⟩
  all_goals
    cases h
    exact ⟨rfl, id⟩

lemma callStep_tmp (h : callStep fresh junk junkMsg s c = .ok t) :
    t.walk = s.walk ∧ (t.tmp = none → s.tmp = none ∨ Starved t) := by
  unfold callStep at h
  split at h
  · obtain ⟨hwalk, htmp⟩ := readStep_tmp h
    exact ⟨hwalk, fun hnone => .inl (htmp hnone)⟩
  · next hkind => exact writeStep_tmp hkind h

lemma callStep_starved (hassigned : c.assigned = none) (hunset : c.pc.msgUnset = true)
    (halone : CallAlone s c) (h : callStep fresh junk junkMsg s c = .ok t) : Starved t := by
  have hkind : c.kind = .write := by
    cases hkind : c.kind with
    | write => rfl
    | read => simp [Call.assigned, hkind] at hassigned
  simp only [callStep, hkind] at h
  cases hpc : c.pc <;> simp only [hpc] at hunset h <;> try cases hunset
  case loadKernBuf =>
    simp only [writeStep, hpc] at h
    cases h
    exact ⟨_, rfl, hassigned, .inl rfl⟩
  case setMsg =>
    have htmp : s.tmp = c.assigned := by
      rw [CallAlone, hpc] at halone
      exact halone
    simp only [writeStep, hpc, htmp, hassigned] at h
    cases h

lemma walkStep_atNull (h : walkStep s = .ok t) (hnull : t.walk.AtNull t.tmp) :
    s.walk.AtNull s.tmp := by
  cases hwalk : s.walk <;> simp only [walkStep, hwalk] at h
  case print =>
    obtain ⟨_, _, h⟩ := bind_ok.mp h
    obtain ⟨_, _, h⟩ := bind_ok.mp h
    obtain ⟨_, _, h⟩ := bind_ok.mp h
    cases h
    exact hnull
  case loadNext =>
    obtain ⟨_, _, h⟩ := bind_ok.mp h
    obtain ⟨_, _, h⟩ := bind_ok.mp h
    cases h
    exact hnull.elim
  case test =>
    cases h
    simp only at hnull
    split at hnull
    · exact hnull.elim
    · exact hnull
  case setTmp =>
    cases h
    cases hnull
  case loadFirst =>
    cases h
    exact hnull.elim
  case loadTmp =>
    cases h
    exact hnull
  case idle | faulted =>
    cases h
    simpa only [hwalk] using hnull

end Steps

lemma null_step {m : ListMove} (hinv : Inv d s) (h : NullInv s) (hstep : ListStep s m t)
    (halone : Alone s m) : NullInv t := by
  intro hnull
  cases hstep with
  | lock hcall =>
    obtain ⟨c, hc, _⟩ := h hnull
    rw [hcall] at hc
    cases hc
  | @work c _ _ _ _ hcall hruns _ _ hstep =>
    obtain ⟨hwalk, htmp⟩ := callStep_tmp hstep
    rw [hwalk] at hnull
    have hbefore : s.walk.AtNull s.tmp ∨ Starved t := by
      rw [WalkPc.AtNull.eq_def] at hnull ⊢
      split at hnull
      all_goals tauto
    obtain hbefore | hstarved := hbefore
    · obtain ⟨c', hc', hassigned, hunset | hfaulted⟩ := h hbefore
      · rw [hcall] at hc'
        cases hc'
        exact callStep_starved hassigned hunset (halone c hcall) hstep
      · rw [hcall] at hc'
        cases hc'
        rw [hfaulted] at hruns
        cases hruns
    · exact hstarved
  | fault hcall _ _ _ _ =>
    obtain ⟨c, hc, hassigned, _⟩ := h hnull
    rw [hcall] at hc
    cases hc
    exact ⟨_, rfl, hassigned, .inr rfl⟩
  | unlock hcall hpc =>
    obtain ⟨c, hc, _, hat⟩ := h hnull
    rw [hcall] at hc
    cases hc
    rw [hpc] at hat
    obtain hat | hat := hat <;> cases hat
  | start => exact hnull.elim
  | walk hruns hstep =>
    obtain ⟨_, hm, hw, _⟩ := hinv.walkable
    have hstarved := h (walkStep_atNull hstep hnull)
    obtain ⟨a, w, hok, _⟩ | ⟨herror, _⟩ := walk_step hm hw halone hruns
    · rw [hstep] at hok
      cases hok
      exact hstarved
    · rw [hstep] at herror
      cases herror
  | walkFault hruns hstep =>
    obtain ⟨_, hm, hw, _⟩ := hinv.walkable
    obtain ⟨a, w, hok, _⟩ | ⟨_, hbefore⟩ := walk_step hm hw halone hruns
    · rw [hstep] at hok
      cases hok
    · exact h hbefore

end Null

section Runs

inductive Served (d : Driver) : ListMove → Driver → Prop
  | read {o : Outcome} {userBuf : MsgSt} {y : Reply} {d' : Driver} :
      ch4Read o d userBuf = .ok (some (d', y)) → Served d (.unlock .read o userBuf y) d'
  | write {o : Outcome} {userBuf : MsgSt} {y : Reply} {d' : Driver} :
      ch4Write o d userBuf = .ok (d', y) → Served d (.unlock .write o userBuf y) d'

def ListMove.returns : ListMove → Bool
  | .unlock .. => true
  | _ => false

def ListMove.Harmless : ListMove → Prop
  | .walkFault e | .fault e => e = .null
  | _ => True

/-- The calls that have returned did to the list of messages what they do in one step each, between
two calls the list in memory is the one that they leave, and nothing else stays allocated. A call
fails only where memory runs out, and the walk only beside such a call. -/
structure Undisturbed (ms : List ListMove) (s : ListSystem) : Prop where
  served : ∃ d, Run Served .init (ms.filter ListMove.returns) d ∧
    (s.call = none → ∃ xs, AtRest d s xs)
  harmless : ∀ m ∈ ms, m.Harmless
  walk : s.walk = .faulted → Starved s

lemma inv_init (junk : Memory Addr) (junkBufs : Addr → MsgSt) :
    Inv .init (.init junk junkBufs) := by
  have hring : ∀ f : Addr → Addr, Circular (Function.update f listHead listHead) [] := by
    intro f
    exact List.isChain_cons_cons.mpr ⟨Function.update_self .., .singleton _⟩
  refine ⟨[], ⟨⟨hring _, by simp, ?_, by simp, ?_, rfl⟩, hring _, rfl⟩, nofun, nofun⟩
  · intro a
    simp [ListSystem.init, Memory.initListHead]
  · intro b
    simp [ListSystem.init]

lemma inv_step {m : ListMove} (h : Inv d s) (hstep : ListStep s m t) (halone : Alone s m) :
    m.Harmless ∧ (m.returns = false ∧ Inv d t ∨
      m.returns = true ∧ ∃ d', Served d m d' ∧ Inv d' t) := by
  cases hstep with
  | @lock kind o userBuf hcall =>
    rw [Inv, hcall] at h
    obtain ⟨xs, hrest, hw⟩ := h
    refine ⟨trivial, .inl ⟨rfl, xs, ?_, ?_⟩⟩
    · cases kind <;> exact hrest.frame
    · cases kind <;> exact hw.frame rfl rfl fun _ => id
  | @work c fresh junk junkMsg _ hcall hruns hnode hbuf hstep =>
    rw [Inv, hcall] at h
    obtain ⟨xs, hlocked, hw⟩ := h
    have hkeeps :=
      call_keeps fresh junk junkMsg hlocked hw (halone c hcall) hruns hnode hbuf
    rw [hstep] at hkeeps
    exact ⟨trivial, .inl ⟨rfl, hkeeps⟩⟩
  | @fault c fresh junk junkMsg e hcall hruns hnode hbuf hstep =>
    rw [Inv, hcall] at h
    obtain ⟨xs, hlocked, hw⟩ := h
    have hkeeps :=
      call_keeps fresh junk junkMsg hlocked hw (halone c hcall) hruns hnode hbuf
    rw [hstep] at hkeeps
    exact ⟨hkeeps.1, .inl ⟨rfl, hkeeps.2⟩⟩
  | @unlock c hcall hpc =>
    obtain ⟨kind, o, userBuf, own, reply, pc⟩ := c
    simp only at hpc
    subst hpc
    rw [Inv, hcall] at h
    obtain ⟨xs, hlocked, hw⟩ := h
    refine ⟨trivial, .inr ⟨rfl, ?_⟩⟩
    cases kind with
    | read =>
      obtain ⟨d', hdone, hrest⟩ := hlocked
      exact ⟨d', .read hdone, xs, hrest.frame, hw.frame rfl rfl fun _ => id⟩
    | write =>
      obtain ⟨d', hdone, hrest⟩ := hlocked
      exact ⟨d', .write hdone, xs, hrest.frame, hw.frame rfl rfl fun _ => id⟩
  | start hidle =>
    obtain ⟨nodes, _, _, hinv⟩ := h.walkable
    have hstart : Walks { s with tmp := s.tmp, walk := .loadFirst } nodes := by
      refine ⟨?_, ?_⟩
      · rintro a ⟨⟩
      · rintro ⟨⟩
    exact ⟨trivial, .inl ⟨rfl, hinv _ _ hstart⟩⟩
  | walk hruns hstep =>
    obtain ⟨_, hm, hw, hinv⟩ := h.walkable
    obtain ⟨a, w, hok, hwalks⟩ | ⟨herror, _⟩ := walk_step hm hw halone hruns
    · rw [hstep] at hok
      cases hok
      exact ⟨trivial, .inl ⟨rfl, hinv a w hwalks⟩⟩
    · rw [hstep] at herror
      cases herror
  | walkFault hruns hstep =>
    obtain ⟨nodes, hm, hw, hinv⟩ := h.walkable
    obtain ⟨_, _, hok, _⟩ | ⟨herror, _⟩ := walk_step hm hw halone hruns
    · rw [hstep] at hok
      cases hok
    · rw [hstep] at herror
      cases herror
      have hstop : Walks { s with tmp := s.tmp, walk := .faulted } nodes := by
        refine ⟨?_, ?_⟩
        · rintro a ⟨⟩
        · rintro ⟨⟩
      exact ⟨rfl, .inl ⟨rfl, hinv _ _ hstop⟩⟩

def RunInv (ms : List ListMove) (s : ListSystem) : Prop :=
  (∀ m ∈ ms, m.Harmless) ∧ NullInv s ∧
    ∃ d, Run Served .init (ms.filter ListMove.returns) d ∧ Inv d s

lemma runInv_step {ms : List ListMove} {m : ListMove} (h : RunInv ms s)
    (hstep : Guarded ListStep Alone s m t) : RunInv (ms ++ [m]) t := by
  obtain ⟨hharmless, hnull, d, hrun, hinv⟩ := h
  obtain ⟨hstep, halone⟩ := hstep
  obtain ⟨hm, hnext⟩ := inv_step hinv hstep halone
  refine ⟨?_, null_step hinv hnull hstep halone, ?_⟩
  · intro m' hm'
    obtain hm' | hm' := List.mem_append.mp hm'
    · exact hharmless m' hm'
    · rw [List.mem_singleton.mp hm']
      exact hm
  · obtain ⟨hreturns, hinv'⟩ | ⟨hreturns, d', hserved, hinv'⟩ := hnext
    · refine ⟨d, ?_, hinv'⟩
      simpa [List.filter_append, hreturns] using hrun
    · refine ⟨d', ?_, hinv'⟩
      have hrun' := hrun.snoc hserved
      simpa [List.filter_append, hreturns] using hrun'

theorem list_undisturbed {junk : Memory Addr} {junkBufs : Addr → MsgSt} {ms : List ListMove}
    (h : Run (Guarded ListStep Alone) (.init junk junkBufs) ms s) : Undisturbed ms s := by
  have hinv : RunInv ms s := by
    apply h.induct_right (M := RunInv)
    · exact ⟨nofun, False.elim, .init, .nil, inv_init junk junkBufs⟩
    · rintro ms s m t - hinv hstep
      exact runInv_step hinv hstep
  obtain ⟨hharmless, hnull, d, hrun, hinv⟩ := hinv
  refine ⟨⟨d, hrun, ?_⟩, hharmless, ?_⟩
  · intro hcall
    rw [Inv, hcall] at hinv
    obtain ⟨xs, hrest, _⟩ := hinv
    exact ⟨xs, hrest⟩
  · intro hwalk
    apply hnull
    rw [hwalk]
    trivial

section Schedules

def zeroed : Memory Addr := ⟨fun _ => false, fun _ => 0, fun _ => 0, fun _ => 0⟩

lemma step_work (fresh : Addr) (hcall : s.call = some c) (hruns : c.pc.runs = true)
    (hnode : s.nodes.live fresh = false) (hbuf : s.bufs.live fresh = false)
    (hstep : callStep fresh zeroed .zero s c = .ok t) : ListStep s .work t :=
  .work hcall hruns hnode hbuf hstep

lemma alone_work (fresh : Addr) (hcall : s.call = some c) (hruns : c.pc.runs = true)
    (hnode : s.nodes.live fresh = false) (hbuf : s.bufs.live fresh = false)
    (hstep : callStep fresh zeroed .zero s c = .ok t) (halone : CallAlone s c) :
    Guarded ListStep Alone s .work t := by
  refine ⟨.work hcall hruns hnode hbuf hstep, ?_⟩
  intro c' hc'
  rw [hcall] at hc'
  cases hc'
  exact halone

lemma alone_walk (hruns : s.walk.runs = true) (hstep : walkStep s = .ok t)
    (halone : WalkAlone s) : Guarded ListStep Alone s .walk t :=
  ⟨.walk hruns hstep, halone⟩

theorem list_undisturbed_write : ∃ ms s,
    Run (Guarded ListStep Alone) (.init zeroed fun _ => .zero) ms s ∧ Undisturbed ms s := by
  obtain ⟨ms, s, hrun⟩ : ∃ ms s, Run (Guarded ListStep Alone) (.init zeroed fun _ => .zero) ms s :=
    ⟨_, _, .cons ⟨@ListStep.lock _ .write .success .zero rfl, trivial⟩
    (.cons (alone_work 1 rfl rfl rfl rfl rfl trivial)
    (.cons (alone_work 1 rfl rfl rfl rfl rfl trivial)
    (.cons ⟨.start rfl, trivial⟩
    (.cons (alone_work 2 rfl rfl rfl rfl rfl trivial)
    (.cons (alone_walk rfl rfl trivial)
    (.cons (alone_work 2 rfl rfl rfl rfl rfl trivial)
    (.cons (alone_walk rfl rfl trivial)
    (.cons (alone_work 2 rfl rfl rfl rfl rfl trivial)
    (.cons (alone_work 3 rfl rfl rfl rfl rfl trivial)
    (.cons (alone_walk rfl rfl trivial)
    (.cons (alone_work 3 rfl rfl rfl rfl rfl rfl)
    (.cons (alone_work 3 rfl rfl rfl rfl rfl rfl)
    (.cons (alone_walk rfl rfl (by rintro c ⟨⟩ ⟨⟩))
    (.cons (alone_work 3 rfl rfl rfl rfl rfl rfl)
    (.cons (alone_walk rfl rfl trivial)
    (.cons (alone_work 3 rfl rfl rfl rfl rfl trivial)
    (.cons (alone_work 3 rfl rfl rfl rfl rfl trivial)
    (.cons (alone_work 3 rfl rfl rfl rfl rfl trivial)
    (.cons (alone_walk rfl rfl (by rintro c ⟨⟩ ⟨⟩))
    (.cons (alone_work 3 rfl rfl rfl rfl rfl trivial)
    (.cons (alone_work 3 rfl rfl rfl rfl rfl trivial)
    (.cons (alone_walk rfl rfl trivial)
    (.cons (alone_work 3 rfl rfl rfl rfl rfl trivial)
    (.cons ⟨.unlock rfl rfl, trivial⟩
    (.cons (alone_walk rfl rfl trivial) .nil)))))))))))))))))))))))))⟩
  exact ⟨ms, s, hrun, list_undisturbed hrun⟩

lemma write_lost : ∃ ms s y, Run ListStep (.init zeroed fun _ => .zero) ms s ∧ s.call = none ∧
    s.nodes.next listHead = listHead ∧
    ms.filter ListMove.returns = [.unlock .write .success .zero y] ∧ y.effect ≠ none := by
  refine ⟨_, _, _, .cons (@ListStep.lock _ .write .success .zero rfl)
    (.cons (step_work 1 rfl rfl rfl rfl rfl)
    (.cons (step_work 1 rfl rfl rfl rfl rfl)
    (.cons (step_work 2 rfl rfl rfl rfl rfl)
    (.cons (step_work 2 rfl rfl rfl rfl rfl)
    (.cons (step_work 2 rfl rfl rfl rfl rfl)
    (.cons (.start rfl)
    (.cons (.walk rfl rfl)
    (.cons (.walk rfl rfl)
    (.cons (step_work 3 rfl rfl rfl rfl rfl)
    (.cons (step_work 3 rfl rfl rfl rfl rfl)
    (.cons (step_work 3 rfl rfl rfl rfl rfl)
    (.cons (step_work 3 rfl rfl rfl rfl rfl)
    (.cons (step_work 3 rfl rfl rfl rfl rfl)
    (.cons (step_work 3 rfl rfl rfl rfl rfl)
    (.cons (step_work 3 rfl rfl rfl rfl rfl)
    (.cons (step_work 3 rfl rfl rfl rfl rfl)
    (.cons (step_work 3 rfl rfl rfl rfl rfl)
    (.cons (step_work 3 rfl rfl rfl rfl rfl)
    (.cons (.unlock rfl rfl) .nil))))))))))))))))))), rfl, rfl, rfl, nofun⟩

theorem list_disturbed : ¬ ∀ (junk : Memory Addr) (junkBufs : Addr → MsgSt) (ms : List ListMove)
    (s : ListSystem), Run ListStep (.init junk junkBufs) ms s → Undisturbed ms s := by
  intro h
  obtain ⟨ms, s, y, hrun, hcall, hnext, hms, hy⟩ := write_lost
  obtain ⟨d, hserved, hrest⟩ := (h _ _ ms s hrun).served
  obtain ⟨xs, hrest⟩ := hrest hcall
  rw [hms] at hserved
  cases hserved with
  | cons hwrite hnil =>
    cases hnil
    cases hwrite with
    | write hwrite =>
      obtain ⟨-, hy'⟩ | ⟨m, rfl, -⟩ := ch4Write_cases hwrite
      · exact hy hy'
      · -- the node of the message would be the head of the list
        have hcontent := hrest.holds.content
        have hnodup := hrest.holds.nodup_nodes
        obtain ⟨ys, hys⟩ := hrest.holds.ring.first
        rw [hnext] at hys
        cases xs with
        | nil => cases hcontent
        | cons x rest =>
          obtain rfl : x = listHead := (List.cons.inj hys).1
          exact (List.nodup_cons.mp hnodup).1 List.mem_cons_self

end Schedules

end Runs

end EmbeddedSystem.Challenge4
