import EmbeddedSystem.Rculist.Unload

namespace EmbeddedSystem.Rculist

open Kernel Foundations

variable {P : Type} {w : ℕ}

section Left

variable {m m' : Mem w} {published : ℕ → ℕ} {spine : ℕ → Addr} {k arg : ℕ} {off off' : Prop}
  {a : Addr} {c : Cursor}

def Here (spine : ℕ → Addr) (k : ℕ) (off : Prop) (a : Addr) : Prop :=
  a = listHead ∨ ∃ i, Listed i ∧ a = spine i ∧ (k < i ∨ i = k ∧ off)

structure Left (m : Mem w) (published : ℕ → ℕ) (spine : ℕ → Addr) (k : ℕ) (off : Prop) : Prop where
  bound : k ≤ 5
  last : spine 6 = listHead
  inner : ∀ i, Listed i → spine i ≠ listHead
  inj : ∀ i j, Listed i → Listed j → spine i = spine j → i = j
  live : ∀ a, m.live a = true ↔ Here spine k off a
  head : m.next listHead = spine (k + 1)
  next : ∀ i, Listed i → k ≤ i → m.next (spine i) = spine (i + 1)
  val : ∀ i, Listed i → m.val (spine i) = counted published i

lemma Here.mono (h : Here spine k off a) (himp : off → off') : Here spine k off' a :=
  h.imp_right fun ⟨i, hi, ha, hk⟩ => ⟨i, hi, ha, hk.imp_right fun ⟨hik, hoff⟩ => ⟨hik, himp hoff⟩⟩

lemma here_head : Here spine k off listHead := Or.inl rfl

lemma here_succ : Here spine k False a ↔ Here spine (k + 1) True a := by
  apply or_congr Iff.rfl
  refine exists_congr fun i => and_congr_right fun _ => and_congr_right fun _ => ?_
  constructor
  · rintro (hlt | ⟨-, ⟨⟩⟩)
    by_cases hi : i = k + 1
    · exact Or.inr ⟨hi, trivial⟩
    · exact Or.inl (by omega)
  · rintro (hlt | ⟨rfl, -⟩)
    · exact Or.inl (by omega)
    · exact Or.inl (by omega)

lemma Left.live_of_here (h : Left m published spine k off) (ha : Here spine k off' a)
    (himp : off' → off) : m.live a = true := (h.live a).mpr (ha.mono himp)

lemma Left.here_pos (h : Left m published spine k off) {i : ℕ} (hki : k < i) (hi : i ≤ 6) :
    Here spine k off' (spine i) := by
  by_cases hlast : i = 6
  · subst hlast
    exact Or.inl h.last
  · exact Or.inr ⟨i, ⟨by omega, by omega⟩, rfl, Or.inl hki⟩

lemma Left.next_here (h : Left m published spine k off) (ha : Here spine k off' a) :
    ∃ i, k < i ∧ i ≤ 6 ∧ m.next a = spine i := by
  have hbound := h.bound
  obtain rfl | ⟨i, hi, rfl, hk⟩ := ha
  · exact ⟨k + 1, by omega, by omega, h.head⟩
  · have hki : k ≤ i := by
      obtain hlt | ⟨rfl, -⟩ := hk
      · omega
      · exact le_rfl
    exact ⟨i + 1, by omega, by omega, h.next i hi hki⟩

lemma Left.advance (h : Left m published spine k off) (himp : off' → off) (arg : ℕ) :
    (∀ cur, Here spine k off' cur → ∃ pos, (Cursor.load cur).advance m arg = .ok (.loaded pos) ∧
      Here spine k off' pos) ∧
    ∀ pos, Here spine k off' pos →
      (pos = listHead ∧ (Cursor.test pos).advance m arg = .ok .ended) ∨
      ∃ i, Listed i ∧ pos = spine i ∧
        (Cursor.test pos).advance m arg =
          .ok (if i = arg then .found i pos else .passed i pos) := by
  constructor
  · intro cur hcur
    obtain ⟨i, hki, hi, hnext⟩ := h.next_here hcur
    refine ⟨spine i, ?_, h.here_pos hki hi⟩
    rw [Cursor.advance, touch_of_live (h.live_of_here hcur himp), ok_bind, hnext]
    rfl
  · intro pos hpos
    by_cases hhead : pos = listHead
    · exact Or.inl ⟨hhead, if_pos hhead⟩
    · obtain heq | ⟨i, hi, rfl, -⟩ := id hpos
      · exact absurd heq hhead
      · refine Or.inr ⟨i, hi, rfl, ?_⟩
        rw [Cursor.advance, if_neg hhead, touch_of_live (h.live_of_here hpos himp), ok_bind,
          h.val i hi]
        by_cases harg : i = arg
        · rw [if_pos harg, counted, if_pos harg]
          rfl
        · rw [if_neg harg, counted, if_neg harg]
          rfl

lemma Left.setPrev (h : Left m published spine k off) (prev : Addr → Addr) :
    Left { m with prev := prev } published spine k off :=
  ⟨h.bound, h.last, h.inner, h.inj, h.live, h.head, h.next, h.val⟩

lemma Left.unlink (h : Left m published spine k False) (hk : k < 5) :
    Left { m with next := Function.update m.next listHead (spine (k + 2)) } published spine (k + 1)
      True where
  bound := hk
  last := h.last
  inner := h.inner
  inj := h.inj
  live a := (h.live a).trans here_succ
  head := Function.update_self listHead (spine (k + 2)) m.next
  next i hi hki := by
    simp only [Function.update_of_ne (h.inner i hi)]
    exact h.next i hi (by omega)
  val := h.val

lemma Left.kfree (h : Left m published spine k True) (hk : Listed k) :
    Left (m.kfree (spine k)) published spine k False where
  bound := h.bound
  last := h.last
  inner := h.inner
  inj := h.inj
  live a := by
    by_cases ha : a = spine k
    · subst ha
      simp only [Memory.kfree, Function.update_self]
      refine iff_of_false Bool.false_ne_true ?_
      rintro (hhead | ⟨i, hi, heq, hlt | ⟨-, ⟨⟩⟩⟩)
      · exact h.inner k hk hhead
      · have hik := h.inj k i hk hi heq
        omega
    · rw [(kfree_agree m (spine k)).live a ha, h.live]
      refine or_congr Iff.rfl (exists_congr fun i => and_congr_right fun _ => and_congr_right ?_)
      rintro rfl
      refine or_congr Iff.rfl (and_congr_right ?_)
      rintro rfl
      exact absurd rfl ha
  head := h.head
  next := h.next
  val := h.val

lemma Good.left [DecidableEq P] {s : System P w} {h : History P} (hg : Good s h spine)
    (ha : Accounted s spine) (hu : s.update = none) :
    Left s.mem h.published spine 0 False where
  bound := by omega
  last := hg.chain.last 6 (by omega)
  inner i hi := hg.chain.inner i hi.1 hi.2
  inj i j hi hj := hg.chain.inj i j hi.1 hi.2 hj.1 hj.2
  live a := by
    constructor
    · intro hlive
      obtain ⟨i, hi, rfl⟩ | hextra := ha a hlive
      · by_cases hi₀ : i = 0
        · rw [hi₀]
          exact Or.inl hg.chain.first
        · exact Or.inr ⟨i, ⟨by omega, hi⟩, rfl, Or.inl (by omega)⟩
      · rw [hu] at hextra
        cases hextra
    · rintro (rfl | ⟨i, hi, rfl, -⟩)
      · have hhead := hg.chain.live 0 (by omega)
        rwa [hg.chain.first] at hhead
      · exact hg.chain.live i hi.2
  head := by
    have hnext := hg.chain.next 0 (by omega)
    rwa [hg.chain.first] at hnext
  next i hi _ := hg.chain.next i hi.2
  val i hi := hg.chain.val i hi.1 hi.2

end Left

section Emptying

variable {s t : Module P w} {published : ℕ → ℕ} {spine : ℕ → Addr} {k : ℕ} {off off' : Prop}

def Stands (spine : ℕ → Addr) (A : Addr → Prop) : ReadPhase → Prop
  | .walking _ (.load a) | .walking _ (.test a) => A a
  | .printing arg a => Listed arg ∧ a = spine arg ∧ A a
  | .faulted _ => False
  | _ => True

def UpdatePhase.Empty (ph : UpdatePhase) : Prop :=
  ph = .walking (.load listHead) ∨ ph = .walking (.test listHead) ∨ ph = .spinUnlock

def Exit.Graced : Exit → Prop
  | .waiting .. | .kfree .. => True
  | _ => False

def Exit.At (m : Mem w) (spine : ℕ → Addr) (k : ℕ) (off : Prop) : Exit → Prop
  | .test tmp pos => ¬ off ∧ m.prev (spine (k + 1)) = listHead ∧ tmp = spine (k + 1) ∧
      (k < 5 → pos = spine (k + 2))
  | .delBack tmp pos => ¬ off ∧ m.prev (spine (k + 1)) = listHead ∧ tmp = spine (k + 1) ∧
      k < 5 ∧ pos = spine (k + 2)
  | .delPublish tmp pos => ¬ off ∧ m.prev tmp = listHead ∧ tmp = spine (k + 1) ∧ k < 5 ∧
      pos = spine (k + 2) ∧ m.prev (spine (k + 2)) = listHead
  | .delPoison tmp pos | .synchronizeRcu tmp pos | .waiting tmp pos | .kfree tmp pos =>
    off ∧ Listed k ∧ tmp = spine k ∧ pos = spine (k + 1) ∧ m.prev (spine (k + 1)) = listHead
  | .next pos => ¬ off ∧ Listed k ∧ pos = spine (k + 1) ∧ m.prev (spine (k + 1)) = listHead
  | .spinUnlock | .cdevDel | .returned => ¬ off ∧ k = 5
  | .spinLock | .faulted _ => False

structure Emptying (s : Module P w) (published : ℕ → ℕ) (spine : ℕ → Addr) (k : ℕ)
    (off : Prop) : Prop where
  left : Left s.sys.mem published spine k off
  exit : s.exit.At s.sys.mem spine k off
  readers : ∀ p, Stands spine
    (Here spine k (off ∧ (s.exit.Graced → s.sys.pending p = true))) (s.sys.reader p)
  update : ∀ u, s.sys.update = some u → ¬ s.exit.Locked ∧ u.phase.Empty
  awaited : ∀ tmp pos, s.exit = .kfree tmp pos → ∀ p, s.sys.pending p = false

lemma Stands.mono {A A' : Addr → Prop} {ph : ReadPhase} (h : Stands spine A ph)
    (himp : ph.inSection = true → ∀ a, A a → A' a) : Stands spine A' ph := by
  cases ph with
  | walking arg c =>
    cases c with
    | load a => exact himp rfl a h
    | test a => exact himp rfl a h
  | printing arg a => exact ⟨h.1, h.2.1, himp rfl a h.2.2⟩
  | faulted e => exact h
  | _ => trivial

variable [DecidableEq P]

lemma Emptying.set (h : Emptying s published spine k off) {p : P} {ph : ReadPhase} {b : Bool}
    (hb : s.sys.pending p = false → b = false)
    (hph : Stands spine (Here spine k (off ∧ (s.exit.Graced → b = true))) ph) :
    Emptying { s with sys := { s.sys.set p ph with
      pending := Function.update s.sys.pending p b } } published spine k off where
  left := h.left
  exit := h.exit
  readers q := by
    by_cases hq : q = p
    · subst hq
      simpa [System.set] using hph
    · simpa [System.set, hq] using h.readers q
  update := h.update
  awaited tmp pos he q := by
    by_cases hq : q = p
    · subst hq
      simpa using hb (h.awaited tmp pos he q)
    · simpa [hq] using h.awaited tmp pos he q

lemma Emptying.set_same (h : Emptying s published spine k off) {p : P} {ph : ReadPhase}
    (hph : Stands spine (Here spine k (off ∧ (s.exit.Graced → s.sys.pending p = true))) ph) :
    Emptying { s with sys := s.sys.set p ph } published spine k off := by
  have hset := h.set (p := p) (b := s.sys.pending p) id hph
  rwa [Function.update_eq_self] at hset

def Walk.read (arg : ℕ) : Walk → ReadPhase
  | .loaded pos => .walking arg (.test pos)
  | .passed _ pos => .walking arg (.load pos)
  | .found _ pos => .printing arg pos
  | .ended => .leaving

omit [DecidableEq P] in
lemma Emptying.walk (h : Emptying s published spine k off) {p : P} {arg : ℕ} {c : Cursor}
    (hph : s.sys.reader p = .walking arg c) :
    ∃ r, c.advance s.sys.mem arg = .ok r ∧ Stands spine
      (Here spine k (off ∧ (s.exit.Graced → s.sys.pending p = true))) (r.read arg) := by
  have hstands := h.readers p
  rw [hph] at hstands
  have himp : off ∧ (s.exit.Graced → s.sys.pending p = true) → off := And.left
  obtain ⟨hload, htest⟩ := h.left.advance himp arg
  cases c with
  | load cur =>
    obtain ⟨pos, hpos, hhere⟩ := hload cur hstands
    exact ⟨_, hpos, hhere⟩
  | test pos =>
    obtain ⟨-, hend⟩ | ⟨i, hi, heq, hpos⟩ := htest pos hstands
    · exact ⟨_, hend, trivial⟩
    · refine ⟨_, hpos, ?_⟩
      by_cases harg : i = arg
      · rw [if_pos harg]
        exact ⟨harg ▸ hi, harg ▸ heq, hstands⟩
      · rw [if_neg harg]
        exact hstands

omit [DecidableEq P] in
lemma Emptying.touch (h : Emptying s published spine k off) {p : P} {arg : ℕ} {pos : Addr}
    (hph : s.sys.reader p = .printing arg pos) :
    s.sys.mem.touch pos = .ok () ∧ s.sys.mem.val pos = counted published arg := by
  have hstands := h.readers p
  rw [hph] at hstands
  obtain ⟨harg, rfl, hhere⟩ := hstands
  exact ⟨touch_of_live (h.left.live_of_here hhere And.left), h.left.val arg harg⟩

omit [DecidableEq P] in
lemma Emptying.search (h : Emptying s published spine k off) {p : P} {arg : ℕ} {c : Cursor}
    (hu : s.sys.update = some ⟨p, arg, .walking c⟩) :
    ∃ r, c.advance s.sys.mem arg = .ok r ∧ r.searched.Empty := by
  obtain ⟨hlocked, hempty⟩ := h.update _ hu
  have hat := h.exit
  have hk : k = 5 := by
    cases he : s.exit <;> rw [he] at hat hlocked
    case spinUnlock | cdevDel | returned => exact hat.2
    case spinLock | faulted => exact hat.elim
    all_goals exact absurd trivial hlocked
  have hnext : s.sys.mem.next listHead = listHead := by
    rw [h.left.head, hk]
    exact h.left.last
  have hlive : s.sys.mem.live listHead = true := (h.left.live listHead).mpr here_head
  obtain hc | hc | hc := hempty
  · cases hc
    refine ⟨.loaded listHead, ?_, Or.inr (Or.inl rfl)⟩
    rw [Cursor.advance, touch_of_live hlive, ok_bind, hnext]
    rfl
  · cases hc
    exact ⟨.ended, rfl, Or.inr (Or.inr rfl)⟩
  · cases hc

lemma Emptying.call (h : Emptying s published spine k off) {p : P} {mv : Move w} {u : System P w}
    (hlock : ∀ arg, mv = .spinLock arg → ¬ s.exit.Locked) (hs : Step s.sys (p, mv) u) :
    Emptying { s with sys := u } published spine k off ∧
      ∀ g : History P, (g.observe (p, mv)).published = g.published := by
  have hnone : ∀ v : Update P, ¬ v.phase.Empty → s.sys.update = some v → False :=
    fun v hv hu => hv (h.update v hu).2
  cases hs with
  | rcuReadLock => exact ⟨h.set_same here_head, fun _ => rfl⟩
  | loaded hph hr | passed hph hr | found hph hr | notFound hph hr =>
    obtain ⟨r, hr', hstands⟩ := h.walk hph
    cases hr.symm.trans hr'
    exact ⟨h.set_same hstands, fun _ => rfl⟩
  | print => exact ⟨h.set_same trivial, fun _ => rfl⟩
  | rcuReadUnlock => exact ⟨h.set (fun _ => rfl) trivial, fun _ => rfl⟩
  | walkFault hph he =>
    obtain ⟨r, hr, -⟩ := h.walk hph
    cases hr.symm.trans he
  | printFault hph he => cases (h.touch hph).1.symm.trans he
  | spinLock =>
    refine ⟨{ h with update := ?_ }, fun _ => rfl⟩
    rintro v ⟨⟩
    exact ⟨hlock _ rfl, Or.inl rfl⟩
  | search hu hr =>
    obtain ⟨r, hr', hempty⟩ := h.search hu
    cases hr.symm.trans hr'
    refine ⟨{ h with update := ?_ }, fun _ => rfl⟩
    rintro v ⟨⟩
    exact ⟨(h.update _ hu).1, hempty⟩
  | searchFault hu he =>
    obtain ⟨r, hr, -⟩ := h.search hu
    cases hr.symm.trans he
  | spinUnlock hu =>
    refine ⟨{ h with update := ?_ }, fun _ => rfl⟩
    rintro v ⟨⟩
  | kmalloc hu | kmallocNull hu | stmt hu | stmtFault hu | synchronizeRcu hu | synchronized hu =>
    exact (hnone _ (by simp [UpdatePhase.Empty]) hu).elim

lemma Left.succ_ne {m : Mem w} (h : Left m published spine k off) {i : ℕ} (hi : Listed i) :
    spine i ≠ spine (i + 1) := by
  intro heq
  by_cases hlast : i = 5
  · subst hlast
    exact h.inner 5 hi (heq.trans h.last)
  · have hii := h.inj i (i + 1) hi ⟨by omega, by omega⟩ heq
    omega

omit [DecidableEq P] in
lemma Emptying.work (h : Emptying s published spine k off) (hw : ¬ s.exit.Waits) :
    ∃ m e k' off', s.exit.run s.sys.mem = .ok (m, e) ∧
      Emptying ⟨{ s.sys with mem := m }, e⟩ published spine k' off' := by
  obtain ⟨sys, exit⟩ := s
  obtain ⟨hleft, hat, hreaders, hupdate, hawaited⟩ := h
  have hlive : ∀ i, k < i → i ≤ 6 → sys.mem.live (spine i) = true := fun i hki hi =>
    hleft.live_of_here (hleft.here_pos hki hi) id
  have hhead : sys.mem.live listHead = true := (hleft.live listHead).mpr here_head
  have hbound := hleft.bound
  cases exit with
  | spinLock | synchronizeRcu | waiting | returned | faulted => exact absurd trivial hw
  | test tmp pos =>
    obtain ⟨hoff, hprev, rfl, hpos⟩ := hat
    refine ⟨_, _, k, off, rfl, ?_⟩
    by_cases hk : k < 5
    · rw [if_neg (hleft.inner (k + 1) ⟨by omega, hk⟩)]
      exact ⟨hleft, ⟨hoff, hprev, rfl, hk, hpos hk⟩, hreaders, hupdate, nofun⟩
    · obtain rfl : k = 5 := by omega
      rw [if_pos hleft.last]
      exact ⟨hleft, ⟨hoff, rfl⟩, hreaders, hupdate, nofun⟩
  | delBack tmp pos =>
    obtain ⟨hoff, hprev, rfl, hk, rfl⟩ := hat
    have hpos : Listed (k + 1) := ⟨by omega, hk⟩
    have hnext := hleft.next (k + 1) hpos (by omega)
    refine ⟨_, .delPublish (spine (k + 1)) (spine (k + 2)), k, off, ?_,
      hleft.setPrev
        (Function.update sys.mem.prev (spine (k + 2)) (sys.mem.prev (spine (k + 1)))),
      ⟨hoff, ?_, rfl, hk, rfl, ?_⟩, hreaders, hupdate, nofun⟩
    · rw [Exit.run, touch_of_live (hlive (k + 1) (by omega) (by omega)), ok_bind, hnext,
        touch_of_live (hlive (k + 2) (by omega) (by omega))]
      rfl
    · exact (Function.update_of_ne (hleft.succ_ne hpos) ..).trans hprev
    · exact (Function.update_self (spine (k + 2)) _ sys.mem.prev).trans hprev
  | delPublish tmp pos =>
    obtain ⟨hoff, hprev, rfl, hk, rfl, hback⟩ := hat
    obtain rfl : off = False := eq_false hoff
    have hpos : Listed (k + 1) := ⟨by omega, hk⟩
    refine ⟨_, .delPoison (spine (k + 1)) (spine (k + 2)), k + 1, True, ?_, hleft.unlink hk,
      ⟨trivial, hpos, rfl, rfl, hback⟩, ?_, hupdate, nofun⟩
    · rw [Exit.run, touch_of_live (hlive (k + 1) (by omega) (by omega)), ok_bind, hprev,
        touch_of_live hhead, hleft.next (k + 1) hpos (by omega)]
      rfl
    · intro p
      apply (hreaders p).mono
      intro _ a ha
      exact (here_succ.mp (ha.mono And.left)).mono fun _ => ⟨trivial, nofun⟩
  | delPoison tmp pos =>
    obtain ⟨hoff, hk, rfl, rfl, hback⟩ := hat
    refine ⟨_, .synchronizeRcu (spine k) (spine (k + 1)), k, off, ?_,
      hleft.setPrev (Function.update sys.mem.prev (spine k) listPoison2),
      ⟨hoff, hk, rfl, rfl, ?_⟩, hreaders, hupdate, nofun⟩
    · have htmp : sys.mem.live (spine k) = true :=
        hleft.live_of_here (Or.inr ⟨k, hk, rfl, Or.inr ⟨rfl, hoff⟩⟩) id
      rw [Exit.run, touch_of_live htmp]
      rfl
    · exact (Function.update_of_ne (hleft.succ_ne hk).symm ..).trans hback
  | kfree tmp pos =>
    obtain ⟨hoff, hk, rfl, rfl, hback⟩ := hat
    obtain rfl : off = True := eq_true hoff
    refine ⟨_, .next (spine (k + 1)), k, False, ?_, hleft.kfree hk,
      ⟨not_false, hk, rfl, hback⟩, ?_, hupdate, nofun⟩
    · have htmp : sys.mem.live (spine k) = true :=
        hleft.live_of_here (Or.inr ⟨k, hk, rfl, Or.inr ⟨rfl, hoff⟩⟩) id
      rw [Exit.run, touch_of_live htmp]
      rfl
    · intro p
      apply (hreaders p).mono
      intro _ a ha
      -- the grace period has ended, so no section is left that could stand on the node
      refine ha.mono fun ⟨_, hpending⟩ => ?_
      have hfalse := hawaited _ _ rfl p
      rw [hpending trivial] at hfalse
      cases hfalse
  | next pos =>
    obtain ⟨hoff, hk, rfl, hback⟩ := hat
    refine ⟨_, .test (spine (k + 1)) (sys.mem.next (spine (k + 1))), k, off, ?_, hleft,
      ⟨hoff, hback, rfl, ?_⟩, hreaders, hupdate, nofun⟩
    · rw [Exit.run, touch_of_live (hlive (k + 1) (by omega) (by omega))]
      rfl
    · intro hk5
      exact hleft.next (k + 1) ⟨by omega, hk5⟩ (by omega)
  | spinUnlock =>
    refine ⟨_, _, k, off, rfl, hleft, hat, hreaders, ?_, nofun⟩
    exact fun u hu => absurd trivial (hupdate u hu).1
  | cdevDel => exact ⟨_, _, k, off, rfl, hleft, hat, hreaders, hupdate, nofun⟩

omit [DecidableEq P] in
lemma Emptying.synchronizeRcu (h : Emptying s published spine k off) {tmp pos : Addr}
    (he : s.exit = .synchronizeRcu tmp pos) :
    Emptying ⟨{ s.sys with pending := fun q => (s.sys.reader q).inSection }, .waiting tmp pos⟩
      published spine k off := by
  obtain ⟨sys, exit⟩ := s
  obtain rfl : exit = .synchronizeRcu tmp pos := he
  refine ⟨h.left, h.exit, fun p => ?_, h.update, nofun⟩
  exact (h.readers p).mono fun hsection a ha => ha.mono fun hoff => ⟨hoff.1, fun _ => hsection⟩

omit [DecidableEq P] in
lemma Emptying.synchronized (h : Emptying s published spine k off) {tmp pos : Addr}
    (he : s.exit = .waiting tmp pos) (hpending : ∀ q, s.sys.pending q = false) :
    Emptying { s with exit := .kfree tmp pos } published spine k off := by
  obtain ⟨sys, exit⟩ := s
  obtain rfl : exit = .waiting tmp pos := he
  exact ⟨h.left, h.exit, h.readers, h.update, fun _ _ _ => hpending⟩

lemma Good.emptying {sys : System P w} {g : History P} (hg : Good sys g spine)
    (ha : Accounted sys spine) (hu : sys.update = none) :
    ∃ e, exitStart sys.mem = .ok e ∧ Emptying ⟨sys, e⟩ g.published spine 0 False := by
  have hleft := hg.left ha hu
  have hback := hg.back 0 (by omega) (by simp [hu])
  rw [Back, hg.chain.first] at hback
  have hnext := hg.chain.next 1 (by omega)
  refine ⟨.test (spine 1) (spine 2), ?_, hleft, ⟨not_false, hback, rfl, fun _ => rfl⟩, ?_, ?_, ?_⟩
  · rw [exitStart, touch_of_live ((hleft.live listHead).mpr here_head), ok_bind, hleft.head,
      touch_of_live (hg.chain.live 1 (by omega)), ok_bind, hnext]
    rfl
  · intro p
    have hat : ∀ i a, At sys.update (sys.pending p) (g.trace p).counts g.published spine i a →
        a = spine i := by
      rintro i a (ha | ⟨v, hv, -⟩)
      · exact ha
      · rw [hu] at hv
        cases hv
    have hpos : ∀ i, i ≤ 6 → ∀ off', Here spine 0 off' (spine i) := by
      intro i hi off'
      by_cases hi₀ : i = 0
      · rw [hi₀, hg.chain.first]
        exact here_head
      · exact hleft.here_pos (by omega) hi
    have hreads := hg.reads p
    cases hph : sys.reader p with
    | idle | leaving => trivial
    | walking arg c =>
      rw [hph] at hreads
      obtain ⟨i, hi, hon, -⟩ := hreads
      cases c with
      | load cur =>
        rw [show cur = spine i from hat i cur hon]
        exact hpos i (by omega) _
      | test pos =>
        rw [show pos = spine (i + 1) from hat (i + 1) pos hon]
        exact hpos (i + 1) (by omega) _
    | printing arg pos =>
      rw [hph] at hreads
      obtain ⟨hlisted, hon, -⟩ := hreads
      rw [show pos = spine arg from hat arg pos hon]
      exact ⟨hlisted, rfl, hpos arg (by omega) _⟩
    | faulted e =>
      rw [hph] at hreads
      exact hreads.elim
  · rintro u hu'
    rw [show sys.update = none from hu] at hu'
    cases hu'
  · rintro tmp pos ⟨⟩

end Emptying

section Results

variable [DecidableEq P] {s t : Module P w} {pl : Placement w} {ls : List (Option (P × Move w))}
  {g : History P}

def History.see (g : History P) : Option (P × Move w) → History P
  | none => g
  | some l => g.observe l

def moduleHistory (ls : List (Option (P × Move w))) : History P := ls.foldl History.see .init

def Inv (s : Module P w) (g : History P) : Prop :=
  (s.exit = .spinLock ∧ ∃ spine, Good s.sys g spine ∧ Accounted s.sys spine) ∨
    ∃ spine k off, Emptying s g.published spine k off

lemma inv_step {l : Option (P × Move w)} (h : Inv s g) (hs : ModuleStep s l t) :
    Inv t (g.see l) := by
  obtain ⟨hexit, spine, hg, ha⟩ | ⟨spine, k, off, hempty⟩ := h
  · cases hs with
    | call _ _ hs =>
      obtain ⟨spine', hg'⟩ := good_step hg hs
      exact Or.inl ⟨hexit, spine', hg', accounted_step ha hg hs hg'⟩
    | spinLock _ hu hstart =>
      obtain ⟨e, hstart', hempty⟩ := hg.emptying ha hu
      cases hstart.symm.trans hstart'
      exact Or.inr ⟨spine, 0, False, hempty⟩
    | spinLockFault _ hu hstart =>
      obtain ⟨e, hstart', -⟩ := hg.emptying ha hu
      cases hstart.symm.trans hstart'
    | work hw _ | workFault hw _ =>
      rw [hexit] at hw
      exact absurd trivial hw
    | synchronizeRcu he | synchronized he =>
      rw [hexit] at he
      cases he
  · right
    have hat := hempty.exit
    cases hs with
    | call _ hlock hs =>
      obtain ⟨hempty', hpublished⟩ := hempty.call hlock hs
      exact ⟨spine, k, off, (hpublished g).symm ▸ hempty'⟩
    | spinLock he _ _ | spinLockFault he _ _ =>
      rw [he] at hat
      exact hat.elim
    | work hw hrun =>
      obtain ⟨m, e, k', off', hrun', hempty'⟩ := hempty.work hw
      cases hrun.symm.trans hrun'
      exact ⟨spine, k', off', hempty'⟩
    | workFault hw hrun =>
      obtain ⟨m, e, k', off', hrun', -⟩ := hempty.work hw
      cases hrun.symm.trans hrun'
    | synchronizeRcu he => exact ⟨spine, k, off, hempty.synchronizeRcu he⟩
    | synchronized he hpending => exact ⟨spine, k, off, hempty.synchronized he hpending⟩

lemma inv_run (h : Run ModuleStep (.init pl) ls s) : Inv s (moduleHistory ls) := by
  have hstep : ∀ (s : Module P w) (g : History P) l t, Inv s g → ModuleStep s l t →
      Inv t (g.see l) := fun _ _ _ _ => inv_step
  obtain ⟨spine, hg⟩ := good_init (P := P) pl
  exact h.observed hstep (Or.inl ⟨rfl, spine, hg, accounted_init pl hg⟩)

lemma Emptying.enabled {published : ℕ → ℕ} {spine : ℕ → Addr} {k : ℕ} {off : Prop}
    (h : Emptying s published spine k off) (he : s.exit ≠ .returned) {p : P}
    (hp : (s.sys.reader p).inSection = true) : ∃ mv t, ModuleStep s (some (p, mv)) t := by
  suffices hsys : ∃ mv u, Step s.sys (p, mv) u ∧ ∀ arg, mv ≠ .spinLock arg by
    obtain ⟨mv, u, hu, hmv⟩ := hsys
    exact ⟨mv, _, .call he (fun arg heq => absurd heq (hmv arg)) hu⟩
  cases hph : s.sys.reader p with
  | idle =>
    rw [hph] at hp
    cases hp
  | walking arg c =>
    obtain ⟨r, hr, -⟩ := h.walk hph
    cases r with
    | loaded pos => exact ⟨_, _, .loaded hph hr, nofun⟩
    | passed id pos => exact ⟨_, _, .passed hph hr, nofun⟩
    | found id pos => exact ⟨_, _, .found hph hr, nofun⟩
    | ended => exact ⟨_, _, .notFound hph hr, nofun⟩
  | printing arg pos => exact ⟨_, _, .print hph (h.touch hph).1, nofun⟩
  | leaving => exact ⟨_, _, .rcuReadUnlock hph, nofun⟩
  | faulted e =>
    have hreads := h.readers p
    rw [hph] at hreads
    exact hreads.elim

theorem list_unloaded (h : Run ModuleStep (.init pl) ls s) :
    (∀ p e, s.sys.reader p ≠ .faulted e) ∧ (∀ e, s.exit ≠ .faulted e) ∧
    (∀ p arg old new, s.sys.update = some ⟨p, arg, .doing .kfree old new⟩ →
      s.sys.mem.live old = true) ∧
    (s.exit ≠ .spinLock → s.exit ≠ .returned → ∀ p, (s.sys.reader p).inSection = true →
      ∃ mv t, ModuleStep s (some (p, mv)) t) ∧
    (¬ s.exit.Waits → ∃ t, ModuleStep s none t) ∧
    (s.exit ≠ .spinLock → ∀ p arg data t, ModuleStep s (some (p, .print arg data)) t →
      data = 100 + BitVec.ofNat w ((moduleHistory ls).published arg)) ∧
    (s.exit = .cdevDel ∨ s.exit = .returned → ∀ a, s.sys.mem.live a = true ↔ a = listHead) := by
  obtain ⟨hexit, spine, hg, -⟩ | ⟨spine, k, off, hempty⟩ := inv_run h
  · refine ⟨?_, ?_, ?_, ?_, ?_, ?_, ?_⟩
    · intro p e hp
      have hreads := hg.reads p
      rw [hp] at hreads
      exact hreads
    · simp [hexit]
    · intro p arg old new hu
      exact (hg.phase hu).2.live
    · exact fun hne => absurd hexit hne
    · exact fun hw => absurd (by rw [hexit]; trivial) hw
    · exact fun hne => absurd hexit hne
    · rintro (hend | hend) <;> rw [hexit] at hend <;> cases hend
  · refine ⟨?_, ?_, ?_, ?_, ?_, ?_, ?_⟩
    · intro p e hp
      have hreads := hempty.readers p
      rw [hp] at hreads
      exact hreads
    · intro e he
      have hat := hempty.exit
      rw [he] at hat
      exact hat
    · intro p arg old new hu
      have hphase := (hempty.update _ hu).2
      simp [UpdatePhase.Empty] at hphase
    · exact fun _ he p hp => hempty.enabled he hp
    · intro hw
      obtain ⟨m, e, _, _, hrun, -⟩ := hempty.work hw
      exact ⟨_, .work hw hrun⟩
    · rintro _ p arg data t (⟨_, _, hs⟩ | _)
      obtain ⟨pos, hph, rfl⟩ := print_inv hs rfl
      rw [(hempty.touch hph).2]
      rfl
    · intro hend a
      have hat := hempty.exit
      obtain ⟨hoff, rfl⟩ : ¬ off ∧ k = 5 := by
        obtain he | he := hend <;> rw [he] at hat <;> exact hat
      rw [hempty.left.live]
      refine or_iff_left ?_
      rintro ⟨i, hi, -, hlt | ⟨-, hoff'⟩⟩
      · omega
      · exact hoff hoff'

theorem list_unloaded_under_reader : ∃ s : Module (Fin 2) 64,
    Run ModuleStep (.init placed) [some (0, .rcuReadLock 1), none] s ∧
      (∃ mv t, ModuleStep s (some (0, mv)) t) ∧ ∃ t, ModuleStep s none t := by
  have hrun : Run ModuleStep (.init placed : Module (Fin 2) 64) [some (0, .rcuReadLock 1), none]
      ⟨(System.init placed).set 0 (.walking 1 (.load listHead)), .test 1 2⟩ :=
    .cons (.call nofun nofun (.rcuReadLock rfl nofun)) (.cons (.spinLock rfl rfl rfl) .nil)
  obtain ⟨-, -, -, hreader, hwork, -⟩ := list_unloaded hrun
  exact ⟨_, hrun, hreader nofun nofun 0 rfl, hwork nofun⟩

end Results

end EmbeddedSystem.Rculist
