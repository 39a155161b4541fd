import EmbeddedSystem.Rculist.Updates

namespace EmbeddedSystem.Rculist

open Kernel Foundations

section Init

variable {P : Type} {w : ℕ}

def Round (pl : Placement w) (i : ℕ) (spine : ℕ → Addr) : Prop :=
  Chain i (pl.rounds i) spine (fun k => ⟨k, 100⟩) ∧
    (∀ k, k ≤ i → Back (pl.rounds i) spine k) ∧ ∀ j, i ≤ j → Off i spine (pl.addr j)

lemma Round.succ {pl : Placement w} {i : ℕ} {spine : ℕ → Addr} (h : Round pl i spine) :
    Round pl (i + 1) (Function.update spine (i + 1) (pl.addr i)) := by
  obtain ⟨hchain, hback, hoff⟩ := h
  have ha := hoff i le_rfl
  have hm := (kmalloc_agree (pl.rounds i) pl.junk (pl.addr i)).trans
    (store_agree _ (pl.addr i) ⟨i + 1, 100⟩)
  have hchain' := hchain.agree ha hm
  have hback' : ∀ k, k ≤ i → Back _ spine k := fun k hk => hchain.back_agree ha hm (hback k hk)
  refine ⟨?_, ?_, ?_⟩
  · apply hchain'.addTail (hback' i le_rfl) ha
    · exact Function.update_self ..
    · exact Function.update_self ..
  · intro k hk
    exact hchain'.back_addTail hback' ha hk
  · intro j hj k hk
    by_cases hki : k = i + 1
    · subst hki
      rw [Function.update_self]
      exact fun heq => absurd (pl.injective heq) (by omega)
    · rw [Function.update_of_ne hki]
      exact hoff j (by omega) k (by omega)

lemma rounds_chain (pl : Placement w) (i : ℕ) :
    ∃ spine, Chain i (pl.rounds i) spine (fun k => ⟨k, 100⟩) ∧
      (∀ k, k ≤ i → Back (pl.rounds i) spine k) ∧ ∀ j, i ≤ j → Off i spine (pl.addr j) := by
  induction i with
  | zero =>
    refine ⟨_, chain_initListHead pl.junk _, ?_, ?_⟩
    · intro k _
      simp [Back, Placement.rounds, Memory.initListHead]
    · intro j _ k _
      exact pl.ne_head j
  | succ i ih =>
    obtain ⟨spine, hround⟩ := ih
    exact ⟨_, Round.succ hround⟩

lemma good_init (pl : Placement w) : ∃ spine, Good (.init pl : System P w) .init spine := by
  obtain ⟨spine, hchain, hback, -⟩ := rounds_chain pl 5
  have hcounted : counted (fun _ => 0) = fun k => (⟨k, 100⟩ : TestList w) := by
    funext k
    simp [counted]
  refine ⟨spine, ?_, fun i hi _ => hback i hi, ?_, ?_, ?_, ?_, fun _ _ => rfl⟩
  · rw [History.init, hcounted]
    exact hchain
  · rintro u ⟨⟩
  · exact fun _ => ⟨⟨0, by omega, rfl⟩, Nat.zero_le 6⟩
  · rintro q ⟨⟩
  · rintro u ⟨⟩

end Init

section Readers

variable {P : Type} {w : ℕ} {m : Mem w} {spine : ℕ → Addr} {A : ℕ → Addr → Prop} {tr : Trace}
  {arg : ℕ} {c : Cursor}

def Advances (A : ℕ → Addr → Prop) (tr : Trace) (arg : ℕ) : Walk → Prop
  | .loaded pos => Reads A { tr with loads := tr.loads + 1 } (.walking arg (.test pos))
  | .passed id pos => Reads A { tr with visits := tr.visits ++ [id] } (.walking arg (.load pos))
  | .found id pos => Reads A { tr with visits := tr.visits ++ [id] } (.printing arg pos)
  | .ended => tr.visits = List.range' 1 5 ∧ tr.loads = 6 ∧ ¬ Listed arg

lemma walking_advance (hp : Passable m spine A) (h : Reads A tr (.walking arg c)) :
    ∃ r, c.advance m arg = .ok r ∧ Advances A tr arg r := by
  obtain ⟨i, hi, hc, harg, hvis, hload⟩ := h
  cases c with
  | load cur =>
    refine ⟨_, load_advance hp hi hc, i, hi, hp.here _, harg, hvis, ?_⟩
    simp only [hload, Cursor.loads]
  | test pos =>
    refine ⟨_, test_advance hp hi hc, ?_⟩
    have hvis' : tr.visits ++ [i + 1] = List.range' 1 (i + 1) := by
      rw [hvis, List.range'_1_concat, Nat.add_comm 1 i]
    by_cases hend : i = 5
    · subst hend
      refine ⟨hvis, hload, fun hlisted => harg ?_⟩
      rw [List.mem_range'_1]
      omega
    · rw [if_neg hend]
      by_cases hid : i + 1 = arg
      · subst hid
        rw [if_pos rfl]
        exact ⟨by omega, hc, hvis', hload⟩
      · rw [if_neg hid]
        exact ⟨i + 1, by omega, hc, not_mem_range'_succ harg hid, hvis', hload⟩

variable {s t : System P w} {h : History P} {p : P} {ph : ReadPhase}

lemma Good.advance (hg : Good s h spine) (hph : s.reader p = .walking arg c) :
    ∃ r, c.advance s.mem arg = .ok r ∧ Advances
      (At s.update (s.pending p) (h.trace p).counts h.published spine) (h.trace p) arg r := by
  have hreads := hg.reads p
  rw [hph] at hreads
  exact walking_advance (hg.passable p) hreads

lemma Good.advances (hg : Good s h spine) (hph : s.reader p = .walking arg c) {r : Walk}
    (hr : c.advance s.mem arg = .ok r) : Advances
      (At s.update (s.pending p) (h.trace p).counts h.published spine) (h.trace p) arg r := by
  obtain ⟨r', hr', ha⟩ := hg.advance hph
  rw [hr] at hr'
  cases hr'
  exact ha

lemma Good.printing (hg : Good s h spine) {pos : Addr} (hph : s.reader p = .printing arg pos) :
    Listed arg ∧ At s.update (s.pending p) (h.trace p).counts h.published spine arg pos ∧
      (h.trace p).visits = List.range' 1 arg ∧ (h.trace p).loads = arg := by
  have hreads := hg.reads p
  rwa [hph] at hreads

lemma Good.touch (hg : Good s h spine) {pos : Addr} (hph : s.reader p = .printing arg pos) :
    s.mem.touch pos = .ok () := by
  obtain ⟨hlisted, ha, -, -⟩ := hg.printing hph
  exact touch_of_live ((hg.passable p).live arg pos hlisted.2 ha)

lemma Good.data (hg : Good s h spine) {pos : Addr} (hph : s.reader p = .printing arg pos) :
    ∃ c ∈ (h.trace p).counts, (s.mem.val pos).data = 100 + BitVec.ofNat w (c arg) := by
  obtain ⟨hlisted, ha | ⟨u, hu, rfl, hr, ⟨c, hc, hone⟩, -⟩, -, -⟩ := hg.printing hph
  · refine ⟨h.published, hg.now p (by rw [hph]; rfl), ?_⟩
    rw [ha, hg.chain.val arg hlisted.1 hlisted.2]
    rfl
  · obtain ⟨-, new, hrep⟩ := (hg.update u hu).of_replaced hr
    obtain ⟨n, hn, hval⟩ := hrep.val
    refine ⟨c, hc, ?_⟩
    rw [hval, Nat.succ.inj (hone.trans hn)]

lemma Reads.bounds (h : Reads A tr ph) :
    tr.loads ≤ 6 ∧ ∃ i ≤ 5, tr.visits = List.range' 1 i := by
  cases ph with
  | idle | leaving => exact ⟨h.2, h.1⟩
  | walking arg c =>
    obtain ⟨i, hi, -, -, hvis, hload⟩ := h
    refine ⟨?_, i, hi, hvis⟩
    rw [hload]
    cases c <;> simp only [Cursor.loads] <;> omega
  | printing arg pos =>
    obtain ⟨hlisted, -, hvis, hload⟩ := h
    exact ⟨by omega, arg, hlisted.2, hvis⟩
  | faulted e => exact h.elim

variable [DecidableEq P]

lemma Good.reader {b : Bool} (hg : Good s h spine) (hb : s.pending p = false → b = false)
    (hreads : Reads (At s.update b tr.counts h.published spine) tr ph)
    (hnow : ph.inSection = true → h.published ∈ tr.counts) :
    Good { s.set p ph with pending := Function.update s.pending p b }
      { h with trace := Function.update h.trace p tr } spine := by
  refine ⟨hg.chain, hg.back, hg.update, ?_, ?_, ?_, hg.counts⟩
  · intro q
    simp only [System.set]
    by_cases hq : q = p
    · subst hq
      rwa [Function.update_self, Function.update_self, Function.update_self]
    · rw [Function.update_of_ne hq, Function.update_of_ne hq, Function.update_of_ne hq]
      exact hg.reads q
  · intro q
    simp only [System.set]
    by_cases hq : q = p
    · subst hq
      rwa [Function.update_self, Function.update_self]
    · rw [Function.update_of_ne hq, Function.update_of_ne hq]
      exact hg.now q
  · intro u hu hf q
    simp only
    by_cases hq : q = p
    · subst hq
      rw [Function.update_self]
      exact hb (hg.freeing u hu hf q)
    · rw [Function.update_of_ne hq]
      exact hg.freeing u hu hf q

lemma Good.set (hg : Good s h spine)
    (hreads : Reads (At s.update (s.pending p) tr.counts h.published spine) tr ph)
    (hnow : ph.inSection = true → h.published ∈ tr.counts) :
    Good (s.set p ph) { h with trace := Function.update h.trace p tr } spine := by
  have hset := hg.reader (p := p) (b := s.pending p) id hreads hnow
  rwa [Function.update_eq_self] at hset

lemma Good.set_same (hg : Good s h spine)
    (hreads : Reads (At s.update (s.pending p) (h.trace p).counts h.published spine) (h.trace p) ph)
    (hsec : (s.reader p).inSection = true) : Good (s.set p ph) h spine := by
  have hset := hg.set hreads fun _ => hg.now p hsec
  rwa [Function.update_eq_self] at hset

lemma Good.enabled (hg : Good s h spine) (hp : (s.reader p).inSection = true) :
    ∃ mv t, Step s (p, mv) t := by
  cases hph : s.reader p with
  | idle =>
    rw [hph] at hp
    cases hp
  | walking arg c =>
    obtain ⟨r, hr, -⟩ := hg.advance hph
    cases r with
    | loaded pos => exact ⟨_, _, .loaded hph hr⟩
    | passed id pos => exact ⟨_, _, .passed hph hr⟩
    | found id pos => exact ⟨_, _, .found hph hr⟩
    | ended => exact ⟨_, _, .notFound hph hr⟩
  | printing arg pos => exact ⟨_, _, .print hph (hg.touch hph)⟩
  | leaving => exact ⟨_, _, .rcuReadUnlock hph⟩
  | faulted e =>
    have hreads := hg.reads p
    rw [hph] at hreads
    exact hreads.elim

end Readers

section Steps

variable {P : Type} [DecidableEq P] {w : ℕ} {s t : System P w} {h : History P} {spine : ℕ → Addr}
  {p : P}

lemma Good.stmt (hg : Good s h spine) {arg : ℕ} {stmt : Stmt} {old new : Addr}
    (hu : s.update = some ⟨p, arg, .doing stmt old new⟩) :
    ∃ m ph, stmt.run s.mem old new = .ok (m, ph) ∧ ∃ spine',
      Good ⟨m, s.reader, some ⟨p, arg, ph⟩, s.pending⟩
        (h.observe (p, (stmt.move arg : Move w))) spine' := by
  cases stmt with
  | memcpy =>
    obtain ⟨m, ph, hrun, hg'⟩ := hg.memcpy hu
    exact ⟨m, ph, hrun, spine, hg'⟩
  | increment =>
    obtain ⟨m, ph, hrun, hg'⟩ := hg.increment hu
    exact ⟨m, ph, hrun, spine, hg'⟩
  | replaceCopy =>
    obtain ⟨m, ph, hrun, hg'⟩ := hg.replaceCopy hu
    exact ⟨m, ph, hrun, spine, hg'⟩
  | replacePublish =>
    obtain ⟨m, ph, hrun, hg'⟩ := hg.replacePublish hu
    exact ⟨m, ph, hrun, _, hg'⟩
  | replaceBack =>
    obtain ⟨m, ph, hrun, hg'⟩ := hg.replaceBack hu
    exact ⟨m, ph, hrun, spine, hg'⟩
  | replacePoison =>
    obtain ⟨m, ph, hrun, hg'⟩ := hg.replacePoison hu
    exact ⟨m, ph, hrun, spine, hg'⟩
  | kfree => exact ⟨_, _, rfl, spine, hg.kfree hu⟩
  | print =>
    obtain ⟨m, ph, hrun, hg'⟩ := hg.print hu
    exact ⟨m, ph, hrun, spine, hg'⟩

lemma good_step (hg : Good s h spine) {mv : Move w} (hs : Step s (p, mv) t) :
    ∃ spine', Good t (h.observe (p, mv)) spine' := by
  cases hs with
  | @rcuReadLock _ arg hph _ =>
    refine ⟨spine, hg.set ⟨0, by omega, .inl hg.chain.first.symm, List.not_mem_nil, rfl, rfl⟩ ?_⟩
    intro _
    exact List.mem_singleton_self _
  | loaded hph hr | passed hph hr | found hph hr =>
    refine ⟨spine, hg.set (hg.advances hph hr) fun _ => hg.now p ?_⟩
    rw [hph]
    rfl
  | @print _ arg pos hph _ =>
    obtain ⟨hlisted, -, hvis, hload⟩ := hg.printing hph
    refine ⟨spine, hg.set_same ⟨⟨arg, hlisted.2, hvis⟩, by omega⟩ ?_⟩
    rw [hph]
    rfl
  | notFound hph hr =>
    obtain ⟨hvis, hload, -⟩ := hg.advances hph hr
    refine ⟨spine, hg.set_same ⟨⟨5, le_rfl, hvis⟩, hload.le⟩ ?_⟩
    rw [hph]
    rfl
  | rcuReadUnlock hph =>
    have hreads := hg.reads p
    rw [hph] at hreads
    have hidle : Reads (At s.update false (h.trace p).counts h.published spine) (h.trace p) .idle :=
      hreads
    have hleft := hg.reader (p := p) (fun _ => rfl) hidle (by rintro ⟨⟩)
    rw [Function.update_eq_self] at hleft
    exact ⟨spine, hleft⟩
  | walkFault hph he =>
    obtain ⟨r, hr, -⟩ := hg.advance hph
    rw [hr] at he
    cases he
  | printFault hph he =>
    rw [hg.touch hph] at he
    cases he
  | spinLock hu _ => exact ⟨spine, hg.spinLock hu p _⟩
  | search hu hr =>
    obtain ⟨r, hr', hg'⟩ := hg.search hu
    rw [hr] at hr'
    cases hr'
    exact ⟨spine, hg'⟩
  | kmalloc hu hnew => exact ⟨spine, hg.kmalloc hu hnew⟩
  | kmallocNull hu => exact ⟨spine, hg.faulted hu⟩
  | stmt hu hrun =>
    obtain ⟨m, ph, hrun', hg'⟩ := hg.stmt hu
    rw [hrun] at hrun'
    cases hrun'
    exact hg'
  | synchronizeRcu hu => exact ⟨spine, hg.synchronizeRcu hu⟩
  | synchronized hu hpending => exact ⟨spine, hg.synchronized hu hpending⟩
  | spinUnlock hu => exact ⟨spine, hg.spinUnlock hu⟩
  | searchFault hu he =>
    obtain ⟨r, hr, -⟩ := hg.search hu
    rw [hr] at he
    cases he
  | stmtFault hu he =>
    obtain ⟨m, ph, hrun, -⟩ := hg.stmt hu
    rw [hrun] at he
    cases he

lemma good_run {pl : Placement w} {ls : List (P × Move w)} (h : Run Step (.init pl) ls s) :
    ∃ spine, Good s (history ls) spine := by
  have hstep : ∀ (s : System P w) (g : History P) l t, (∃ spine, Good s g spine) → Step s l t →
      ∃ spine, Good t (g.observe l) spine := by
    rintro s g ⟨p, mv⟩ t ⟨spine, hg⟩ hs
    exact good_step hg hs
  exact h.observed hstep (good_init pl)

lemma print_inv {mv : Move w} {arg : ℕ} {data : BitVec w} (hs : Step s (p, mv) t)
    (hmv : mv = .print arg data) :
    ∃ pos, s.reader p = .printing arg pos ∧ data = (s.mem.val pos).data := by
  cases hs with
  | print hph _ =>
    cases hmv
    exact ⟨_, hph, rfl⟩
  | @stmt _ _ stmt => cases stmt <;> cases hmv
  | _ => cases hmv

lemma notFound_inv {mv : Move w} {arg : ℕ} (hs : Step s (p, mv) t) (hmv : mv = .notFound arg) :
    ∃ c, s.reader p = .walking arg c ∧ c.advance s.mem arg = .ok .ended := by
  cases hs with
  | notFound hph hr =>
    cases hmv
    exact ⟨_, hph, hr⟩
  | @stmt _ _ stmt => cases stmt <;> cases hmv
  | _ => cases hmv

theorem readers_consistent {pl : Placement w} {ls : List (P × Move w)}
    (h : Run Step (.init pl) ls s) :
    (∀ p e, s.reader p ≠ .faulted e) ∧
    (∀ p, (s.reader p).inSection = true → ∃ mv t, Step s (p, mv) t) ∧
    (∀ p, ((history ls).trace p).loads ≤ 6 ∧
      ∃ i ≤ 5, ((history ls).trace p).visits = List.range' 1 i) ∧
    (∀ p arg data t, Step s (p, .print arg data) t →
      Listed arg ∧ ((history ls).trace p).visits = List.range' 1 arg ∧
        ∃ c ∈ ((history ls).trace p).counts, data = 100 + BitVec.ofNat w (c arg)) ∧
    (∀ p arg t, Step s (p, .notFound arg) t →
      ¬ Listed arg ∧ ((history ls).trace p).visits = List.range' 1 5) ∧
    (s.update = none → s.mem.entries 5 (s.mem.next listHead) =
      some ((List.range' 1 5).map (counted (history ls).updates))) := by
  obtain ⟨spine, hg⟩ := good_run h
  refine ⟨?_, ?_, ?_, ?_, ?_, ?_⟩
  · intro p e hp
    have hreads := hg.reads p
    rw [hp] at hreads
    exact hreads
  · intro p hp
    exact hg.enabled hp
  · intro p
    exact (hg.reads p).bounds
  · rintro p arg data t hs
    obtain ⟨pos, hph, rfl⟩ := print_inv hs rfl
    obtain ⟨hlisted, -, hvis, -⟩ := hg.printing hph
    exact ⟨hlisted, hvis, hg.data hph⟩
  · rintro p arg t hs
    obtain ⟨c, hph, hr⟩ := notFound_inv hs rfl
    obtain ⟨hvis, -, hlisted⟩ := hg.advances hph hr
    exact ⟨hlisted, hvis⟩
  · intro hu
    have hcounts : ∀ i ∈ List.range' 1 5,
        counted (w := w) (history ls).published i = counted (history ls).updates i := by
      intro i hi
      rw [List.mem_range'_1] at hi
      rw [counted, hg.counts i (by omega), hu]
      rfl
    have hnext := hg.chain.next 0 (by omega)
    rw [hg.chain.first] at hnext
    rw [hnext, ← List.map_congr_left hcounts]
    exact hg.chain.entries le_rfl

end Steps

section Instances

def placed : Placement 64 where
  addr i := i + 1
  junk := ⟨fun _ => false, fun _ => 0, fun _ => 0, fun _ => ⟨0, 0⟩⟩
  ne_head i := Nat.succ_ne_zero i
  injective := Nat.succ_injective

def staleRead : List (Fin 2 × Move 64) :=
  [(0, .rcuReadLock 1), (0, .load), (0, .visit 1), (1, .spinLock 1), (1, .work), (1, .work),
    (1, .work), (1, .work), (1, .work), (1, .work), (1, .publish 1)]

lemma staleRead_run : ∃ s, Run Step (.init placed) staleRead s ∧ s.reader 0 = .printing 1 1 ∧
    s.mem.live 1 = true ∧ (s.mem.val 1).data = 100 := by
  refine ⟨_, .cons (.rcuReadLock (p := 0) rfl (by rintro u ⟨⟩)) (.cons (.loaded (p := 0) rfl rfl)
    (.cons (.found (p := 0) rfl rfl) (.cons (.spinLock (p := 1) rfl rfl)
    (.cons (.search (p := 1) rfl rfl) (.cons (.search (p := 1) rfl rfl)
    (.cons (@Step.kmalloc _ _ _ _ 1 1 1 6 placed.junk rfl rfl)
    (.cons (@Step.stmt _ _ _ _ 1 1 .memcpy 1 6 _ _ rfl rfl)
    (.cons (@Step.stmt _ _ _ _ 1 1 .increment 1 6 _ _ rfl rfl)
    (.cons (@Step.stmt _ _ _ _ 1 1 .replaceCopy 1 6 _ _ rfl rfl)
    (.cons (@Step.stmt _ _ _ _ 1 1 .replacePublish 1 6 _ _ rfl rfl) .nil)))))))))), ?_, ?_, ?_⟩
  · rfl
  · rfl
  · rfl

theorem readers_consistent_stale : ((history staleRead).trace 0).visits = [1] ∧
    ∃ c ∈ ((history staleRead).trace 0).counts,
      (100 : BitVec 64) = 100 + BitVec.ofNat 64 (c 1) := by
  obtain ⟨s, hrun, hph, hlive, hdata⟩ := staleRead_run
  have hprint := Step.print hph (touch_of_live hlive)
  rw [hdata] at hprint
  exact ((readers_consistent hrun).2.2.2.1 0 1 100 _ hprint).2

end Instances

end EmbeddedSystem.Rculist
