import EmbeddedSystem.Rculist.Invariant

namespace EmbeddedSystem.Rculist

open Kernel Foundations

variable {P : Type} {w : ℕ} {s : System P w} {h : History P} {spine : ℕ → Addr}

lemma At.of_replaced_eq {u v : Update P} {b : Bool} {counts : List (ℕ → ℕ)} {published : ℕ → ℕ}
    {i : ℕ} {a : Addr} (harg : v.arg = u.arg) (hr : v.phase.replaced = u.phase.replaced)
    (hgr : v.phase.graced = true → u.phase.graced = true)
    (h : At (some u) b counts published spine i a) : At (some v) b counts published spine i a := by
  rcases h with ha | ⟨u', hu, hi, ha, hc, hb⟩
  · exact .inl ha
  · cases hu
    exact .inr ⟨v, rfl, harg.trans hi, hr.trans ha, hc, fun hv => hb (hgr hv)⟩

lemma Good.update_step (hg : Good s h spine) {m : Mem w} {u : Option (Update P)} {b : P → Bool}
    (updates : ℕ → ℕ) (hchain : Chain 5 m spine (counted h.published))
    (hback : ∀ i, i ≤ 5 → (∀ v, u = some v → v.phase.linking = true → v.arg ≠ i) → Back m spine i)
    (hupdate : ∀ v, u = some v → Updates m h.published spine v.arg v.phase)
    (hAt : ∀ q, (s.reader q).inSection = true → ∀ i a,
      At s.update (s.pending q) (h.trace q).counts h.published spine i a →
      At u (b q) (h.trace q).counts h.published spine i a)
    (hfree : ∀ v, u = some v → v.phase.freeing = true → ∀ q, b q = false)
    (hcounts : ∀ i, Listed i → updates i + applied u i = h.updates i + applied s.update i) :
    Good ⟨m, s.reader, u, b⟩ { h with updates := updates } spine where
  chain := hchain
  back := hback
  update := hupdate
  reads q := (hg.reads q).mono rfl rfl (hAt q)
  now := hg.now
  freeing := hfree
  counts i hi := (hg.counts i hi).trans (hcounts i hi).symm

section Work

variable {p : P} {arg : ℕ} {ph ph' : UpdatePhase} {m : Mem w} {old new : Addr}

lemma Good.phase (hg : Good s h spine) (hu : s.update = some ⟨p, arg, ph⟩) :
    Updates s.mem h.published spine arg ph := hg.update _ hu

lemma applied_of_not {ph : UpdatePhase} {i : ℕ} (h : arg = i → ph.applied = false) :
    applied (some (⟨p, arg, ph⟩ : Update P)) i = 0 := by
  apply if_neg
  rintro ⟨hi, ha⟩
  rw [h hi] at ha
  cases ha

structure Alike (arg : ℕ) (ph ph' : UpdatePhase) : Prop where
  replaced : ph'.replaced = ph.replaced
  graced : ph'.graced = true → ph.graced = true
  freeing : ph'.freeing = false
  applied : Listed arg → ph'.applied = ph.applied

lemma Good.work (hg : Good s h spine) (hu : s.update = some ⟨p, arg, ph⟩)
    (hchain : Chain 5 m spine (counted h.published))
    (hback : ∀ i, i ≤ 5 → (ph'.linking = true → arg ≠ i) → Back m spine i)
    (hupdate : Updates m h.published spine arg ph') (hph : Alike arg ph ph') :
    Good ⟨m, s.reader, some ⟨p, arg, ph'⟩, s.pending⟩ h spine := by
  apply hg.update_step h.updates hchain
  · intro i hi hl
    apply hback i hi
    exact hl _ rfl
  · rintro v hv
    cases hv
    exact hupdate
  · intro q _ i a ha
    rw [hu] at ha
    exact At.of_replaced_eq (u := ⟨p, arg, ph⟩) rfl hph.replaced hph.graced ha
  · rintro v hv hf
    cases hv
    rw [hph.freeing] at hf
    cases hf
  · intro i hi
    rw [hu]
    by_cases hia : arg = i
    · subst hia
      simp only [applied, hph.applied hi]
    · rw [applied_of_not fun heq => absurd heq hia, applied_of_not fun heq => absurd heq hia]

lemma Good.back_of_linked (hg : Good s h spine) (hu : s.update = some ⟨p, arg, ph⟩)
    (hl : ph.linking = false) {i : ℕ} (hi : i ≤ 5) : Back s.mem spine i := by
  apply hg.back i hi
  rintro v hv hl'
  rw [hu] at hv
  cases hv
  rw [hl] at hl'
  cases hl'

lemma Good.store_off (hg : Good s h spine) (hu : s.update = some ⟨p, arg, ph⟩)
    (hl : ph.linking = false) {a : Addr} (ha : Off 5 spine a) (hm : Agree s.mem m a)
    (hupdate : Updates m h.published spine arg ph') (hph : Alike arg ph ph') :
    Good ⟨m, s.reader, some ⟨p, arg, ph'⟩, s.pending⟩ h spine := by
  apply hg.work hu (hg.chain.agree ha hm) _ hupdate hph
  intro i hi _
  exact hg.chain.back_agree ha hm (hg.back_of_linked hu hl hi)

lemma searched_updates {published : ℕ → ℕ} {c : Cursor}
    (hchain : Chain 5 m spine (counted published))
    (h : Updates m published spine arg (.walking c)) :
    ∃ r, c.advance m arg = .ok r ∧ Updates m published spine arg r.searched ∧
      (r = .ended → ¬ Listed arg) := by
  have hp := passable_chain hchain
  obtain ⟨i, hi, hc, harg⟩ := h
  cases c with
  | load cur =>
    refine ⟨_, load_advance hp hi hc, ⟨i, hi, rfl, harg⟩, ?_⟩
    rintro ⟨⟩
  | test pos =>
    refine ⟨_, test_advance hp hi hc, ?_⟩
    by_cases hend : i = 5
    · subst hend
      refine ⟨trivial, fun _ hlisted => harg ?_⟩
      rw [List.mem_range'_1]
      omega
    · rw [if_neg hend]
      by_cases hid : i + 1 = arg
      · rw [if_pos hid]
        refine ⟨⟨by omega, hid ▸ hc⟩, ?_⟩
        rintro ⟨⟩
      · rw [if_neg hid]
        refine ⟨⟨i + 1, by omega, hc, not_mem_range'_succ harg hid⟩, ?_⟩
        rintro ⟨⟩

lemma Good.search (hg : Good s h spine) {c : Cursor}
    (hu : s.update = some ⟨p, arg, .walking c⟩) :
    ∃ r, c.advance s.mem arg = .ok r ∧
      Good ⟨s.mem, s.reader, some ⟨p, arg, r.searched⟩, s.pending⟩ h spine := by
  obtain ⟨r, hr, hupdate, hend⟩ := searched_updates hg.chain (hg.phase hu)
  refine ⟨r, hr, ?_⟩
  apply hg.work hu hg.chain (fun i hi _ => hg.back_of_linked hu rfl hi) hupdate
  cases r with
  | ended => exact ⟨rfl, id, rfl, fun hlisted => absurd hlisted (hend rfl)⟩
  | _ => exact ⟨rfl, id, rfl, fun _ => rfl⟩

lemma Good.kmalloc (hg : Good s h spine) {junk : Mem w}
    (hu : s.update = some ⟨p, arg, .kmalloc old⟩) (hnew : s.mem.live new = false) :
    Good ⟨s.mem.kmalloc new junk, s.reader, some ⟨p, arg, .doing .memcpy old new⟩, s.pending⟩ h
      spine := by
  obtain ⟨hlisted, hold⟩ := hg.phase hu
  have hoff := hg.chain.off_of_dead hnew
  apply hg.store_off hu rfl hoff (kmalloc_agree ..)
  · refine ⟨hlisted, hold, ?_, hoff⟩
    exact Function.update_self ..
  · exact ⟨rfl, id, rfl, fun _ => rfl⟩

lemma Good.memcpy (hg : Good s h spine) (hu : s.update = some ⟨p, arg, .doing .memcpy old new⟩) :
    ∃ m ph, Stmt.memcpy.run s.mem old new = .ok (m, ph) ∧
      Good ⟨m, s.reader, some ⟨p, arg, ph⟩, s.pending⟩ h spine := by
  obtain ⟨hlisted, hun⟩ := hg.phase hu
  have hlive : s.mem.live old = true := by
    rw [hun.old_eq]
    exact hg.chain.live arg hlisted.2
  refine ⟨_, _, by
    rw [Stmt.run, Memory.memcpy, touch_of_live hlive, touch_of_live hun.live]; rfl, ?_⟩
  apply hg.store_off hu rfl hun.off
  · constructor
    · exact fun _ _ => rfl
    · exact fun b hb => Function.update_of_ne hb ..
    · exact fun b hb => Function.update_of_ne hb ..
    · exact fun b hb => Function.update_of_ne hb ..
  · refine ⟨hlisted, ⟨hun.old_eq, hun.live, hun.off⟩, ?_⟩
    simp only [Function.update_self]
    rw [hun.old_eq]
    exact hg.chain.val arg hlisted.1 hlisted.2
  · exact ⟨rfl, id, rfl, fun _ => rfl⟩

lemma Good.increment (hg : Good s h spine)
    (hu : s.update = some ⟨p, arg, .doing .increment old new⟩) :
    ∃ m ph, Stmt.increment.run s.mem old new = .ok (m, ph) ∧
      Good ⟨m, s.reader, some ⟨p, arg, ph⟩, s.pending⟩ h spine := by
  obtain ⟨hlisted, hun, hval⟩ := hg.phase hu
  refine ⟨_, _, by rw [Stmt.run, touch_of_live hun.live]; rfl, ?_⟩
  apply hg.store_off hu rfl hun.off (store_agree ..)
  · refine ⟨hlisted, ⟨hun.old_eq, hun.live, hun.off⟩, ?_⟩
    rw [Memory.store, hval]
    simp [counted, bump, BitVec.ofNat_add, BitVec.add_assoc]
  · exact ⟨rfl, id, rfl, fun _ => rfl⟩

lemma Good.replaceCopy (hg : Good s h spine)
    (hu : s.update = some ⟨p, arg, .doing .replaceCopy old new⟩) :
    ∃ m ph, Stmt.replaceCopy.run s.mem old new = .ok (m, ph) ∧
      Good ⟨m, s.reader, some ⟨p, arg, ph⟩, s.pending⟩ h spine := by
  obtain ⟨hlisted, hun, hval⟩ := hg.phase hu
  have hlive : s.mem.live old = true := by
    rw [hun.old_eq]
    exact hg.chain.live arg hlisted.2
  have hprev : s.mem.prev old = spine (arg - 1) := by
    have hback := hg.back_of_linked hu rfl (by omega : arg - 1 ≤ 5)
    rw [Back, Nat.sub_add_cancel hlisted.1] at hback
    rw [hun.old_eq, hback]
  refine ⟨_, _, by
    rw [Stmt.run, Memory.replaceCopy, touch_of_live hlive, touch_of_live hun.live]; rfl, ?_⟩
  apply hg.store_off hu rfl hun.off
  · constructor
    · exact fun _ _ => rfl
    · exact fun b hb => Function.update_of_ne hb ..
    · exact fun b hb => Function.update_of_ne hb ..
    · exact fun _ _ => rfl
  · refine ⟨hlisted, ⟨hun.old_eq, hun.live, hun.off⟩, hval, ?_, ?_⟩
    · simp only [Function.update_self]
      rw [hun.old_eq]
      exact hg.chain.next arg hlisted.2
    · simp only [Function.update_self]
      exact hprev
  · exact ⟨rfl, id, rfl, fun _ => rfl⟩

lemma counted_bump (published : ℕ → ℕ) (arg : ℕ) :
    Function.update (counted (w := w) published) arg (counted (bump published arg) arg) =
      counted (bump published arg) := by
  funext i
  by_cases hi : i = arg
  · subst hi
    rw [Function.update_self]
  · simp [counted, bump, hi]

lemma At.publish {u v : Update P} {b : Bool} {counts : List (ℕ → ℕ)} {published : ℕ → ℕ} {i : ℕ}
    {a : Addr} (hnow : published ∈ counts) (hu : u.phase.replaced = none)
    (hv : v.phase.replaced = some (spine v.arg)) (hgr : v.phase.graced = false)
    (h : At (some u) b counts published spine i a) :
    At (some v) b (counts ++ [bump published v.arg])
      (bump published v.arg) (Function.update spine v.arg new) i a := by
  rcases h with ha | ⟨u', hu', -, ha, -⟩
  · by_cases hi : i = v.arg
    · subst hi
      -- the section is older than this publication, so it has seen the count before it
      refine .inr ⟨v, rfl, rfl, by rw [hv, ha], ⟨published, by simp [hnow], ?_⟩, ?_⟩
      · simp [bump]
      · rw [hgr]
        rintro ⟨⟩
    · left
      rwa [Function.update_of_ne hi]
  · cases hu'
    rw [hu] at ha
    cases ha

lemma Good.replacePublish (hg : Good s h spine)
    (hu : s.update = some ⟨p, arg, .doing .replacePublish old new⟩) :
    ∃ m ph, Stmt.replacePublish.run s.mem old new = .ok (m, ph) ∧
      Good ⟨m, s.reader, some ⟨p, arg, ph⟩, s.pending⟩
        ⟨bump h.published arg, h.updates, fun q => { h.trace q with
          counts := (h.trace q).counts ++ [bump h.published arg] }⟩
        (Function.update spine arg new) := by
  obtain ⟨hlisted, hun, hval, hnext, hprev⟩ := hg.phase hu
  have hlive : s.mem.live (s.mem.prev new) = true := by
    rw [hprev]
    exact hg.chain.live _ (by omega)
  refine ⟨_, _, by
    rw [Stmt.run, Memory.replacePublish, touch_of_live hun.live, ok_bind, touch_of_live hlive]
    rfl, ?_⟩
  have hchain := hg.chain.publish hlisted.1 hlisted.2 hun.off hun.live hnext hval
  rw [counted_bump, ← hprev] at hchain
  constructor
  · exact hchain
  · intro i hi hl
    have hne : i ≠ arg := (hl _ rfl rfl).symm
    rw [Back, Function.update_of_ne hne]
    by_cases hsucc : i + 1 = arg
    · rw [← hsucc, Function.update_self]
      rw [hprev, ← hsucc, Nat.add_sub_cancel]
    · rw [Function.update_of_ne hsucc]
      exact hg.back_of_linked hu rfl hi
  · rintro u ⟨⟩
    have hold : s.mem.next old = spine (arg + 1) := by
      rw [hun.old_eq]
      exact hg.chain.next arg hlisted.2
    refine ⟨hlisted, ?_, ?_, ?_, ?_, h.published arg, ?_, ?_⟩
    · rw [Function.update_self]
    · rw [hun.old_eq]
      exact hg.chain.live arg hlisted.2
    · rw [hun.old_eq]
      exact hg.chain.off_publish hlisted.2 hun.off
    · have hne : old ≠ s.mem.prev new := by
        rw [hun.old_eq, hprev]
        exact hg.chain.ne hlisted.2 (by omega) (by omega)
      simp only
      rw [Function.update_of_ne hne, Function.update_of_ne (by omega)]
      exact hold
    · exact Function.update_self ..
    · rw [hun.old_eq]
      exact hg.chain.val arg hlisted.1 hlisted.2
  · intro q
    apply (hg.reads q).mono rfl rfl
    intro hq i a ha
    rw [hu] at ha
    apply ha.publish (v := ⟨p, arg, .doing .replaceBack old new⟩) (hg.now q hq) rfl _ rfl
    rw [UpdatePhase.replaced, hun.old_eq]
  · intro q hq
    simp
  · rintro u ⟨⟩ ⟨⟩
  · intro i hi
    have hc := hg.counts i hi
    rw [hu, applied_of_not fun _ => rfl] at hc
    by_cases hia : i = arg
    · subst hia
      have happ : applied (some (⟨p, i, .doing .replaceBack old new⟩ : Update P)) i = 1 :=
        if_pos ⟨rfl, rfl⟩
      simp only [bump, Function.update_self]
      rw [happ, hc]
    · simp only [bump, Function.update_of_ne hia]
      rw [applied_of_not fun hne => absurd hne.symm hia]
      exact hc

lemma Replaced.frame {m m' : Mem w} {published : ℕ → ℕ}
    (hr : Replaced m published spine arg old new)
    (hlive : m'.live = m.live) (hnext : m'.next = m.next) (hval : m'.val = m.val) :
    Replaced m' published spine arg old new := by
  refine ⟨hr.new_eq, ?_, hr.off, ?_, ?_⟩
  · rw [hlive]
    exact hr.live
  · rw [hnext]
    exact hr.next
  · rw [hval]
    exact hr.val

lemma Good.replaceBack (hg : Good s h spine)
    (hu : s.update = some ⟨p, arg, .doing .replaceBack old new⟩) :
    ∃ m ph, Stmt.replaceBack.run s.mem old new = .ok (m, ph) ∧
      Good ⟨m, s.reader, some ⟨p, arg, ph⟩, s.pending⟩ h spine := by
  obtain ⟨hlisted, hr⟩ := hg.phase hu
  have hnext : s.mem.next new = spine (arg + 1) := by
    rw [hr.new_eq]
    exact hg.chain.next arg hlisted.2
  have hnew : s.mem.live new = true := by
    rw [hr.new_eq]
    exact hg.chain.live arg hlisted.2
  have hlive : s.mem.live (s.mem.next new) = true := by
    rw [hnext]
    exact hg.chain.live_succ arg
  refine ⟨_, _, by
    rw [Stmt.run, Memory.replaceBack, touch_of_live hnew, ok_bind, touch_of_live hlive]; rfl, ?_⟩
  apply hg.work hu
  · exact hg.chain.frame (fun _ _ => rfl) (fun _ _ => rfl) (fun _ _ => rfl)
  · intro i hi _
    simp only [Back, hnext]
    by_cases hia : i = arg
    · subst hia
      rw [Function.update_self]
      exact hr.new_eq
    · rw [Function.update_of_ne (hg.chain.succ_ne hi hlisted.2 hia)]
      apply hg.back i hi
      intro v hv _
      rw [hu] at hv
      cases hv
      exact Ne.symm hia
  · exact ⟨hlisted, hr.frame rfl rfl rfl⟩
  · exact ⟨rfl, id, rfl, fun _ => rfl⟩

lemma Good.replacePoison (hg : Good s h spine)
    (hu : s.update = some ⟨p, arg, .doing .replacePoison old new⟩) :
    ∃ m ph, Stmt.replacePoison.run s.mem old new = .ok (m, ph) ∧
      Good ⟨m, s.reader, some ⟨p, arg, ph⟩, s.pending⟩ h spine := by
  obtain ⟨hlisted, hr⟩ := hg.phase hu
  refine ⟨_, _, by rw [Stmt.run, Memory.replacePoison, touch_of_live hr.live]; rfl, ?_⟩
  apply hg.store_off hu rfl hr.off
  · exact ⟨fun _ _ => rfl, fun _ _ => rfl, fun b hb => Function.update_of_ne hb .., fun _ _ => rfl⟩
  · exact ⟨hlisted, hr.frame rfl rfl rfl⟩
  · exact ⟨rfl, by rintro ⟨⟩, rfl, fun _ => rfl⟩

lemma Good.print (hg : Good s h spine) (hu : s.update = some ⟨p, arg, .doing .print old new⟩) :
    ∃ m ph, Stmt.print.run s.mem old new = .ok (m, ph) ∧
      Good ⟨m, s.reader, some ⟨p, arg, ph⟩, s.pending⟩ h spine := by
  obtain ⟨hlisted, hnew⟩ := hg.phase hu
  have hlive : s.mem.live new = true := by
    rw [show new = spine arg from hnew]
    exact hg.chain.live arg hlisted.2
  refine ⟨_, _, by rw [Stmt.run, touch_of_live hlive]; rfl, ?_⟩
  apply hg.work hu hg.chain (fun i hi _ => hg.back_of_linked hu rfl hi)
  · trivial
  · exact ⟨rfl, id, rfl, fun _ => rfl⟩

lemma Good.kfree (hg : Good s h spine) (hu : s.update = some ⟨p, arg, .doing .kfree old new⟩) :
    Good ⟨s.mem.kfree old, s.reader, some ⟨p, arg, .doing .print old new⟩, s.pending⟩ h spine := by
  obtain ⟨hlisted, hr⟩ := hg.phase hu
  have hm := kfree_agree s.mem old
  apply hg.update_step h.updates (hg.chain.agree hr.off hm)
  · intro i hi _
    exact hg.chain.back_agree hr.off hm (hg.back_of_linked hu rfl hi)
  · rintro v ⟨⟩
    exact ⟨hlisted, hr.new_eq⟩
  · rintro q _ i a (ha | ⟨v, hv, -, -, -, hgr⟩)
    · exact .inl ha
    · rw [hu] at hv
      cases hv
      -- the section of a reader on the old node would still be awaited
      have hpending := hg.freeing _ hu rfl q
      rw [hgr rfl] at hpending
      cases hpending
  · rintro v ⟨⟩ ⟨⟩
  · intro i _
    rw [hu]
    rfl

lemma Good.synchronizeRcu (hg : Good s h spine)
    (hu : s.update = some ⟨p, arg, .synchronizeRcu old new⟩) :
    Good ⟨s.mem, s.reader, some ⟨p, arg, .waiting old new⟩, fun q => (s.reader q).inSection⟩ h
      spine := by
  apply hg.update_step h.updates hg.chain
  · intro i hi _
    exact hg.back_of_linked hu rfl hi
  · rintro v ⟨⟩
    have hupdate := hg.phase hu
    exact hupdate
  · rintro q hq i a (ha | ⟨v, hv, hi, ha, hc, -⟩)
    · exact .inl ha
    · rw [hu] at hv
      cases hv
      exact .inr ⟨_, rfl, hi, ha, hc, fun _ => hq⟩
  · rintro v ⟨⟩ ⟨⟩
  · intro i _
    rw [hu]
    rfl

lemma Good.synchronized (hg : Good s h spine)
    (hu : s.update = some ⟨p, arg, .waiting old new⟩) (hpending : ∀ q, s.pending q = false) :
    Good ⟨s.mem, s.reader, some ⟨p, arg, .doing .kfree old new⟩, s.pending⟩ h spine := by
  apply hg.update_step h.updates hg.chain
  · intro i hi _
    exact hg.back_of_linked hu rfl hi
  · rintro v ⟨⟩
    have hupdate := hg.phase hu
    exact hupdate
  · intro q _ i a ha
    rw [hu] at ha
    exact At.of_replaced_eq (u := ⟨p, arg, .waiting old new⟩) rfl rfl id ha
  · rintro v - - q
    exact hpending q
  · intro i _
    rw [hu]
    rfl

lemma Good.spinLock (hg : Good s h spine) (hu : s.update = none) (p : P) (arg : ℕ) :
    Good ⟨s.mem, s.reader, some ⟨p, arg, .walking (.load listHead)⟩, s.pending⟩ h spine := by
  apply hg.update_step h.updates hg.chain
  · intro i hi _
    apply hg.back i hi
    rintro v hv
    rw [hu] at hv
    cases hv
  · rintro v ⟨⟩
    exact ⟨0, by omega, hg.chain.first.symm, List.not_mem_nil⟩
  · rintro q _ i a (ha | ⟨v, hv, -⟩)
    · exact .inl ha
    · rw [hu] at hv
      cases hv
  · rintro v ⟨⟩ ⟨⟩
  · intro i _
    rw [hu, applied_of_not fun _ => rfl]
    rfl

lemma Good.spinUnlock (hg : Good s h spine) (hu : s.update = some ⟨p, arg, .spinUnlock⟩) :
    Good ⟨s.mem, s.reader, none, s.pending⟩ { h with updates := bump h.updates arg } spine := by
  apply hg.update_step (bump h.updates arg) hg.chain
  · intro i hi _
    exact hg.back_of_linked hu rfl hi
  · rintro v ⟨⟩
  · rintro q _ i a (ha | ⟨v, hv, -, ha, -⟩)
    · exact .inl ha
    · rw [hu] at hv
      cases hv
      cases ha
  · rintro v ⟨⟩
  · intro i _
    rw [hu]
    by_cases hia : i = arg
    · subst hia
      have happ : applied (some (⟨p, i, .spinUnlock⟩ : Update P)) i = 1 := if_pos ⟨rfl, rfl⟩
      rw [happ, bump, Function.update_self]
      rfl
    · rw [applied_of_not fun hne => absurd hne.symm hia, bump, Function.update_of_ne hia]
      rfl

lemma Good.faulted (hg : Good s h spine) (hu : s.update = some ⟨p, arg, .kmalloc old⟩) :
    Good ⟨s.mem, s.reader, some ⟨p, arg, .faulted .null⟩, s.pending⟩ h spine := by
  apply hg.work hu hg.chain (fun i hi _ => hg.back_of_linked hu rfl hi)
  · rfl
  · exact ⟨rfl, id, rfl, fun _ => rfl⟩

end Work

end EmbeddedSystem.Rculist
