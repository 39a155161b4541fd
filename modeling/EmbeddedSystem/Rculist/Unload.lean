import EmbeddedSystem.Rculist.Readers

/-! The exit of `simple_rculist.c`, while readers and updaters go on. It takes `my_lock`, and
removes the first node of the list until the list is empty; each node is freed after a grace period.
What calls do when the exit has returned is left open. -/

namespace EmbeddedSystem.Rculist

open Kernel Foundations

section Model

variable {P : Type} {w : ℕ}

/-- The next statement of `simple_rculist_exit`, with the cursors of
`list_for_each_entry_safe(tmp, pos, ..)`. `delBack`, `delPublish` and `delPoison` are the stores of
`list_del_rcu`. -/
inductive Exit
  | spinLock
  | test (tmp pos : Addr)
  | delBack (tmp pos : Addr)
  | delPublish (tmp pos : Addr)
  | delPoison (tmp pos : Addr)
  | synchronizeRcu (tmp pos : Addr)
  | waiting (tmp pos : Addr)
  | kfree (tmp pos : Addr)
  | next (pos : Addr)
  | spinUnlock | cdevDel | returned
  | faulted (e : Fault)
  deriving DecidableEq

def Exit.Locked : Exit → Prop
  | .spinLock | .cdevDel | .returned => False
  | _ => True

def exitStart (m : Mem w) : Except Fault Exit := do
  m.touch listHead
  m.touch (m.next listHead)
  return .test (m.next listHead) (m.next (m.next listHead))

def Exit.run (m : Mem w) : Exit → Except Fault (Mem w × Exit)
  | .test tmp pos => return (m, if tmp = listHead then .spinUnlock else .delBack tmp pos)
  | .delBack tmp pos => do
    m.touch tmp
    m.touch (m.next tmp)
    return ({ m with prev := Function.update m.prev (m.next tmp) (m.prev tmp) },
      .delPublish tmp pos)
  | .delPublish tmp pos => do
    m.touch tmp
    m.touch (m.prev tmp)
    return ({ m with next := Function.update m.next (m.prev tmp) (m.next tmp) },
      .delPoison tmp pos)
  | .delPoison tmp pos => do
    m.touch tmp
    return ({ m with prev := Function.update m.prev tmp listPoison2 }, .synchronizeRcu tmp pos)
  | .kfree tmp pos => do
    m.touch tmp
    return (m.kfree tmp, .next pos)
  | .next pos => do
    m.touch pos
    return (m, .test pos (m.next pos))
  | .spinUnlock => return (m, .cdevDel)
  | .cdevDel => return (m, .returned)
  | e => return (m, e)

def Exit.Waits : Exit → Prop
  | .spinLock | .synchronizeRcu .. | .waiting .. | .returned | .faulted _ => True
  | _ => False

structure Module (P : Type) (w : ℕ) where
  sys : System P w
  exit : Exit

def Module.init (pl : Placement w) : Module P w := ⟨.init pl, .spinLock⟩

variable [DecidableEq P]

inductive ModuleStep (s : Module P w) : Option (P × Move w) → Module P w → Prop
  | call {p : P} {mv : Move w} {t : System P w} :
      s.exit ≠ .returned → (∀ arg, mv = .spinLock arg → ¬ s.exit.Locked) → Step s.sys (p, mv) t →
      ModuleStep s (some (p, mv)) { s with sys := t }
  | spinLock {e : Exit} :
      s.exit = .spinLock → s.sys.update = none → exitStart s.sys.mem = .ok e →
      ModuleStep s none { s with exit := e }
  | spinLockFault {e : Fault} :
      s.exit = .spinLock → s.sys.update = none → exitStart s.sys.mem = .error e →
      ModuleStep s none { s with exit := .faulted e }
  | work {m : Mem w} {e : Exit} :
      ¬ s.exit.Waits → s.exit.run s.sys.mem = .ok (m, e) →
      ModuleStep s none ⟨{ s.sys with mem := m }, e⟩
  | workFault {e : Fault} :
      ¬ s.exit.Waits → s.exit.run s.sys.mem = .error e →
      ModuleStep s none { s with exit := .faulted e }
  | synchronizeRcu {tmp pos : Addr} :
      s.exit = .synchronizeRcu tmp pos →
      ModuleStep s none
        ⟨{ s.sys with pending := fun q => (s.sys.reader q).inSection }, .waiting tmp pos⟩
  | synchronized {tmp pos : Addr} :
      s.exit = .waiting tmp pos → (∀ q, s.sys.pending q = false) →
      ModuleStep s none { s with exit := .kfree tmp pos }

end Model

section Accounted

/-! Before the exit has the lock, a node in use is in the list, or the update in progress holds
it. -/

variable {P : Type} {w : ℕ}

def UpdatePhase.extra : UpdatePhase → Option Addr
  | .doing .memcpy _ new | .doing .increment _ new => some new
  | .doing .replaceCopy _ new | .doing .replacePublish _ new => some new
  | ph => ph.replaced

def extra (u : Option (Update P)) : Option Addr := u.bind fun u => u.phase.extra

def Accounted (s : System P w) (spine : ℕ → Addr) : Prop :=
  ∀ a, s.mem.live a = true → (∃ i, i ≤ 5 ∧ a = spine i) ∨ extra s.update = some a

variable {s t : System P w} {h h' : History P} {spine spine' : ℕ → Addr} {p : P}

lemma Accounted.frame (hs : Accounted s spine)
    (hlive : ∀ a, t.mem.live a = true → s.mem.live a = true ∨ extra t.update = some a)
    (hextra : ∀ a, t.mem.live a = true → extra s.update = some a → extra t.update = some a) :
    Accounted t spine := by
  intro a ha
  obtain hlive | hnew := hlive a ha
  · exact (hs a hlive).imp_right (hextra a ha)
  · exact Or.inr hnew

lemma Accounted.keep (hs : Accounted s spine) (hg : Good s h spine) (hg' : Good t h' spine')
    (hnext : ∀ i, i ≤ 5 → t.mem.next (spine i) = s.mem.next (spine i))
    (hlive : ∀ a, t.mem.live a = true → s.mem.live a = true ∨ extra t.update = some a)
    (hextra : ∀ a, t.mem.live a = true → extra s.update = some a → extra t.update = some a) :
    Accounted t spine' := by
  rw [hg.chain.unique hg'.chain hnext]
  exact hs.frame hlive hextra

lemma accounted_stmt {arg : ℕ} {stmt : Stmt} {old new : Addr} {m : Mem w} {ph : UpdatePhase}
    (hs : Accounted s spine) (hg : Good s h spine)
    (hu : s.update = some ⟨p, arg, .doing stmt old new⟩)
    (hrun : stmt.run s.mem old new = .ok (m, ph))
    (hg' : Good ⟨m, s.reader, some ⟨p, arg, ph⟩, s.pending⟩ h' spine') :
    Accounted ⟨m, s.reader, some ⟨p, arg, ph⟩, s.pending⟩ spine' := by
  have hphase := hg.phase hu
  cases stmt with
  | memcpy =>
    obtain ⟨-, hun⟩ := hphase
    obtain ⟨m', hm, hrun⟩ := bind_ok.mp hrun
    cases hrun
    obtain ⟨_, -, hm⟩ := bind_ok.mp hm
    obtain ⟨_, -, hm⟩ := bind_ok.mp hm
    cases hm
    apply hs.keep hg hg'
    · exact fun i hi => Function.update_of_ne (hun.off i hi).symm ..
    · exact fun _ ha => Or.inl ha
    · simp [hu, extra, UpdatePhase.extra]
  | increment =>
    obtain ⟨_, -, hrun⟩ := bind_ok.mp hrun
    cases hrun
    apply hs.keep hg hg'
    · exact fun _ _ => rfl
    · exact fun _ ha => Or.inl ha
    · simp [hu, extra, UpdatePhase.extra]
  | replaceCopy =>
    obtain ⟨-, hun, -⟩ := hphase
    obtain ⟨m', hm, hrun⟩ := bind_ok.mp hrun
    cases hrun
    obtain ⟨_, -, hm⟩ := bind_ok.mp hm
    obtain ⟨_, -, hm⟩ := bind_ok.mp hm
    cases hm
    apply hs.keep hg hg'
    · exact fun i hi => Function.update_of_ne (hun.off i hi).symm ..
    · exact fun _ ha => Or.inl ha
    · simp [hu, extra, UpdatePhase.extra]
  | replacePublish =>
    obtain ⟨hlisted, hun, -⟩ := hphase
    obtain ⟨m', ph', hrun', hgood⟩ := hg.replacePublish hu
    cases hrun.symm.trans hrun'
    obtain rfl : spine' = Function.update spine arg new :=
      hgood.chain.unique hg'.chain fun _ _ => rfl
    obtain ⟨m', hm, hrun⟩ := bind_ok.mp hrun
    cases hrun
    obtain ⟨_, -, hm⟩ := bind_ok.mp hm
    obtain ⟨_, -, hm⟩ := bind_ok.mp hm
    cases hm
    intro a ha
    obtain ⟨i, hi, rfl⟩ | hnew := hs a ha
    · by_cases hia : i = arg
      · -- the node of `arg` has been replaced by the new one
        subst hia
        exact Or.inr (congrArg some hun.old_eq)
      · exact Or.inl ⟨i, hi, (Function.update_of_ne hia ..).symm⟩
    · have hnew : some new = some a := by simpa [hu, extra, UpdatePhase.extra] using hnew
      cases hnew
      exact Or.inl ⟨arg, hlisted.2, (Function.update_self arg new spine).symm⟩
  | replaceBack =>
    obtain ⟨m', hm, hrun⟩ := bind_ok.mp hrun
    cases hrun
    obtain ⟨_, -, hm⟩ := bind_ok.mp hm
    obtain ⟨_, -, hm⟩ := bind_ok.mp hm
    cases hm
    apply hs.keep hg hg'
    · exact fun _ _ => rfl
    · exact fun _ ha => Or.inl ha
    · simp [hu, extra, UpdatePhase.extra, UpdatePhase.replaced]
  | replacePoison =>
    obtain ⟨m', hm, hrun⟩ := bind_ok.mp hrun
    cases hrun
    obtain ⟨_, -, hm⟩ := bind_ok.mp hm
    cases hm
    apply hs.keep hg hg'
    · exact fun _ _ => rfl
    · exact fun _ ha => Or.inl ha
    · simp [hu, extra, UpdatePhase.extra, UpdatePhase.replaced]
  | kfree =>
    cases hrun
    have hne : ∀ a, (s.mem.kfree old).live a = true → a ≠ old := by
      rintro a ha rfl
      simp [Memory.kfree] at ha
    apply hs.keep hg hg'
    · exact fun _ _ => rfl
    · intro a ha
      rw [(kfree_agree s.mem old).live a (hne a ha)] at ha
      exact Or.inl ha
    · intro a ha hold
      have hold : some old = some a := by
        simpa [hu, extra, UpdatePhase.extra, UpdatePhase.replaced] using hold
      cases hold
      exact absurd rfl (hne old ha)
  | print =>
    obtain ⟨_, -, hrun⟩ := bind_ok.mp hrun
    cases hrun
    apply hs.keep hg hg'
    · exact fun _ _ => rfl
    · exact fun _ ha => Or.inl ha
    · simp [hu, extra, UpdatePhase.extra, UpdatePhase.replaced]

lemma accounted_step [DecidableEq P] {mv : Move w} (hs : Accounted s spine) (hg : Good s h spine)
    (hstep : Step s (p, mv) t) (hg' : Good t h' spine') : Accounted t spine' := by
  cases hstep with
  | rcuReadLock | loaded | passed | found | print | notFound | rcuReadUnlock | walkFault
  | printFault =>
    exact hs.keep hg hg' (fun _ _ => rfl) (fun _ => Or.inl) fun _ _ => id
  | spinLock hu _ | spinUnlock hu | kmallocNull hu | synchronizeRcu hu | synchronized hu _
  | searchFault hu _ =>
    apply hs.keep hg hg' (fun _ _ => rfl) fun _ => Or.inl
    simp [hu, extra, UpdatePhase.extra, UpdatePhase.replaced]
  | search hu _ =>
    apply hs.keep hg hg' (fun _ _ => rfl) fun _ => Or.inl
    simp [hu, extra, UpdatePhase.extra, UpdatePhase.replaced]
  | @kmalloc _ arg old new junk hu hnew =>
    apply hs.keep hg hg'
    · intro i hi
      exact (kmalloc_agree s.mem junk new).next _ ((hg.chain.off_of_dead hnew) i hi).symm
    · intro a ha
      by_cases han : a = new
      · exact Or.inr (congrArg some han.symm)
      · rw [(kmalloc_agree s.mem junk new).live a han] at ha
        exact Or.inl ha
    · simp [hu, extra, UpdatePhase.extra, UpdatePhase.replaced]
  | stmt hu hrun => exact accounted_stmt hs hg hu hrun hg'
  | stmtFault hu he =>
    obtain ⟨m, ph, hrun, -⟩ := hg.stmt hu
    cases hrun.symm.trans he

lemma rounds_live (pl : Placement w) (i : ℕ) (hround : Round pl i spine) {a : Addr}
    (ha : (pl.rounds i).live a = true) : ∃ k, k ≤ i ∧ a = spine k := by
  induction i generalizing spine with
  | zero =>
    have hhead : a = listHead := by simpa [Placement.rounds, Memory.initListHead] using ha
    exact ⟨0, le_rfl, hhead.trans hround.1.first.symm⟩
  | succ i ih =>
    obtain ⟨spine', hround'⟩ := rounds_chain pl i
    obtain rfl := (Round.succ hround').1.unique hround.1 fun _ _ => rfl
    by_cases hai : a = pl.addr i
    · exact ⟨i + 1, le_rfl, by rw [hai, Function.update_self]⟩
    · have hlive : (pl.rounds i).live a = true := by
        simpa [Placement.rounds, Memory.listAddTailRcu, Memory.store, Memory.kmalloc, hai] using ha
      obtain ⟨k, hk, hak⟩ := ih hround' hlive
      exact ⟨k, by omega, by rw [hak, Function.update_of_ne (by omega)]⟩

lemma accounted_init (pl : Placement w) (hg : Good (.init pl : System P w) h spine) :
    Accounted (.init pl : System P w) spine := by
  obtain ⟨spine', hround⟩ := rounds_chain pl 5
  obtain rfl := Chain.unique hround.1 hg.chain fun _ _ => rfl
  exact fun a ha => Or.inl (rounds_live pl 5 hround ha)

end Accounted

end EmbeddedSystem.Rculist
