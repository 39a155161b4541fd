import EmbeddedSystem.Coffer.App
import EmbeddedSystem.Switch.Broadcast

/-! Processes that share the queues of `switch.c` through `switch_lib.c`. A process owns a queue
from its successful `switch_queue_get` to its own successful `switch_queue_close`; the driver
itself keeps one flag for each key and does not know its owner. -/

namespace EmbeddedSystem.Switch

open Kernel Foundations Coffer

variable {P : Type} {w : ℕ}

structure Shared (P : Type) (w : ℕ) where
  driver : Driver w
  owner : Fin queueNum → Option P

inductive SharedMove (P : Type) (w : ℕ)
  | call (p : P) (opened : Bool) (cmd : Command) (k : Fin queueNum) (y : Reply w)
  | tasklet (e : Option (Effect w))

def SharedMove.effect : SharedMove P w → Option (Effect w)
  | .call _ _ _ _ y => y.effect
  | .tasklet e => e

def Shared.init : Shared P w := ⟨.init, fun _ => none⟩

variable [DecidableEq P]

def transfer (owner : Fin queueNum → Option P) (p : P) :
    Option (Effect w) → Fin queueNum → Option P
  | some (.opened k) => Function.update owner k (some p)
  | some (.closed k) => if owner k = some p then Function.update owner k none else owner
  | _ => owner

inductive SharedStep (s : Shared P w) : SharedMove P w → Shared P w → Prop
  | call {p : P} {opened : Bool} {cmd : Command} {k : Fin queueNum} {d : Driver w} {y : Reply w} :
      cmd ≠ .unknown → libCall opened s.driver cmd k.val = .ok (d, y) →
      SharedStep s (.call p opened cmd k y) ⟨d, transfer s.owner p y.effect⟩
  | switchTasklet {kmalloc : Fin queueNum → Bool} {myData : Data w} {d : Driver w} {y : Reply w} :
      switchTaskletFunc kmalloc s.driver myData = .ok (d, y) →
      SharedStep s (.tasklet y.effect) { s with driver := d }
  | ultrasonicTasklet {kmalloc : Fin queueNum → Bool} {myData : Data w} {d : Driver w}
      {y : Reply w} :
      ultrasonicTaskletFunc kmalloc s.driver myData = .ok (d, y) →
      SharedStep s (.tasklet y.effect) { s with driver := d }

def Respects (s : Shared P w) : SharedMove P w → Shared P w → Prop
  | .call p _ _ k y, t => ∀ q, s.owner k = some q → q ≠ p →
      y.ret < 0 ∧ t.driver.queueUse k = s.driver.queueUse k ∧
        ∀ d, t.driver.queue d k = s.driver.queue d k
  | .tasklet _, _ => True

/-- A process that calls on a queue of another one does not reach the device, tries to get the
queue, or receives from an empty list. -/
def Polite (s : Shared P w) : SharedMove P w → Prop
  | .call p opened cmd k _ => ∀ q, s.owner k = some q → q ≠ p → opened = false ∨
      match cmd with
      | .switchRecv => s.driver.switchQueue k = []
      | .ultrasonicRecv => s.driver.ultrasonicQueue k = []
      | cmd => cmd = .queueGet
  | .tasklet _ => True

def SharedMove.seen (q : P) : SharedMove P w → Option (Effect w)
  | .call p _ _ _ ⟨_, some (.received d k x)⟩ => if p = q then some (.received d k x) else none
  | m => m.effect

section Calls

variable {s t : Driver w} {y : Reply w} {cmd : Command} {k : Fin queueNum} {opened : Bool}

lemma ioctl_get (huse : s.queueUse k = true) (h : switchIoctl s .queueGet k.val = .ok (t, y)) :
    t = s ∧ y = ⟨-1, none⟩ := by
  obtain ⟨j, hj, hcases⟩ := switchQueueGet_cases h
  rw [arrayIndex_fin] at hj
  cases hj
  obtain ⟨_, ht, hy⟩ | ⟨hfree, _⟩ := hcases
  · exact ⟨ht, hy⟩
  · rw [huse] at hfree
    cases hfree

lemma ioctl_close (huse : s.queueUse k = true)
    (h : switchIoctl s .queueClose k.val = .ok (t, y)) : y = ⟨1, some (.closed k)⟩ := by
  obtain ⟨j, hj, hcases⟩ := switchQueueClose_cases h
  rw [arrayIndex_fin] at hj
  cases hj
  obtain ⟨hfree, _⟩ | ⟨_, _, hy⟩ := hcases
  · rw [huse] at hfree
    cases hfree
  · exact hy

lemma recv_untouched_iff {d : Sensor} (h : recv d s k.val = .ok (t, y)) :
    (ioctlReturn y.ret < 0 ∧ t.queueUse k = s.queueUse k ∧ ∀ d, t.queue d k = s.queue d k) ↔
      s.queue d k = [] := by
  obtain ⟨j, hj, hcases⟩ := recv_cases h
  rw [arrayIndex_fin] at hj
  cases hj
  obtain ⟨hempty, rfl, rfl⟩ | ⟨x, rest, hq, rfl, _⟩ := hcases
  · exact iff_of_true ⟨by simp [ioctlReturn], rfl, fun _ => rfl⟩ hempty
  · apply iff_of_false
    · rintro ⟨_, _, hsame⟩
      have hrest := hsame d
      rw [queue_setQueue_self, Function.update_self, hq] at hrest
      exact List.cons_ne_self x rest hrest.symm
    · rw [hq]
      exact List.cons_ne_nil x rest

lemma libCall_key (h : libCall opened s cmd k.val = .ok (t, y)) :
    ∀ e, y.effect = some e → e.key = some k := by
  obtain ⟨_, _, rfl⟩ | ⟨_, z, hz, rfl⟩ := libCall_cases h
  · rintro e ⟨⟩
  · have hkey := switchIoctl_key hz (arrayIndex_fin k)
    exact hkey

end Calls

section Steps

variable {s t : Shared P w} {m : SharedMove P w} {q : P} {k : Fin queueNum}

lemma sharedStep_changes (h : SharedStep s m t) : Changes s.driver t.driver m.effect := by
  cases h with
  | call _ hcall =>
    obtain ⟨_, rfl, rfl⟩ | ⟨_, z, hz, rfl⟩ := libCall_cases hcall
    · rfl
    · have hchanges := switchIoctl_changes hz
      exact hchanges
  | switchTasklet hd => exact switchTaskletFunc_changes hd
  | ultrasonicTasklet hd => exact ultrasonicTaskletFunc_changes hd

structure Owned (s : Shared P w) : Prop where
  inUse : ∀ k q, s.owner k = some q → s.driver.queueUse k = true
  delivers : ∀ d k, ∃ g, Delivers d k s.driver g

lemma respects_iff (h : Owned s) (hs : SharedStep s m t) : Respects s m t ↔ Polite s m := by
  cases hs with
  | switchTasklet | ultrasonicTasklet => exact Iff.rfl
  | @call p opened cmd k d y hcmd hcall =>
    apply forall₃_congr
    intro q hq hne
    have huse := h.inUse k q hq
    obtain ⟨rfl, rfl, rfl⟩ | ⟨rfl, z, hz, rfl⟩ := libCall_cases hcall
    · exact iff_of_true ⟨by simp, rfl, fun _ => rfl⟩ (Or.inl rfl)
    · cases cmd with
      | queueGet =>
        obtain ⟨rfl, rfl⟩ := ioctl_get huse hz
        exact iff_of_true ⟨by simp [ioctlReturn], rfl, fun _ => rfl⟩ (Or.inr rfl)
      | queueClose =>
        obtain rfl := ioctl_close huse hz
        apply iff_of_false
        · simp [ioctlReturn]
        · simp
      | switchRecv | ultrasonicRecv =>
        refine (recv_untouched_iff hz).trans ?_
        simp only [Bool.true_eq_false, false_or]
        rfl
      | unknown => exact absurd rfl hcmd

lemma owner_cases (hs : SharedStep s m t) (hq : t.owner k = some q) :
    s.owner k = some q ∨ m.effect = some (.opened k) ∧ m.seen q = some (.opened k) := by
  cases hs with
  | switchTasklet | ultrasonicTasklet => exact Or.inl hq
  | @call p opened cmd j driver y hcmd hcall =>
    obtain ⟨ret, _ | i | i | _ | _⟩ := y
    · exact Or.inl hq
    · simp only [transfer, Function.update_apply] at hq
      split at hq
      · next hk =>
        obtain rfl := hk
        exact Or.inr ⟨rfl, rfl⟩
      · exact Or.inl hq
    · simp only [transfer] at hq
      split at hq
      · simp only [Function.update_apply] at hq
        split at hq
        · cases hq
        · exact Or.inl hq
      · exact Or.inl hq
    · exact Or.inl hq
    · exact Or.inl hq

lemma closed_frees (hs : SharedStep s m t) (hr : Respects s m t) (hq : s.owner k = some q)
    (hm : m.effect = some (.closed k)) : t.owner k = none := by
  have hc := sharedStep_changes hs
  rw [hm] at hc
  cases hs with
  | switchTasklet hd =>
    obtain ⟨_, _, rfl⟩ | ⟨_, _, rfl⟩ := switchTaskletFunc_cases hd
    · cases hm
    · cases hm
  | ultrasonicTasklet hd =>
    obtain ⟨_, rfl⟩ := ultrasonicTaskletFunc_cases hd
    cases hm
  | @call p opened cmd j d y hcmd hcall =>
    obtain rfl := Option.some.inj (libCall_key hcall _ hm)
    have heffect : y.effect = some (.closed k) := hm
    by_cases hqp : q = p
    · subst hqp
      simp [transfer, heffect, hq]
    · -- a close by another process would have left the queue in use
      have hkept := (hr q hq hqp).2.1
      rw [hc.2.1, Function.update_self, hc.1] at hkept
      cases hkept

lemma Owned.step (h : Owned s) (hs : SharedStep s m t) (hr : Respects s m t) : Owned t := by
  have hc := sharedStep_changes hs
  refine ⟨?_, ?_⟩
  · intro k q hq
    obtain howner | ⟨hopened, _⟩ := owner_cases hs hq
    · apply changes_inUse hc (h.inUse k q howner)
      intro hclosed
      rw [closed_frees hs hr howner hclosed] at hq
      cases hq
    · rw [hopened] at hc
      rw [hc.2.1, Function.update_self]
  · intro d k
    obtain ⟨g, hg⟩ := h.delivers d k
    exact ⟨_, hg.changes hc⟩

end Steps

section Runs

variable {s t : Shared P w} {m : SharedMove P w} {ms : List (SharedMove P w)} {q : P}
  {d : Sensor} {k : Fin queueNum}

def RespectfulStep (s : Shared P w) (m : SharedMove P w) (t : Shared P w) : Prop :=
  SharedStep s m t ∧ Respects s m t

def ownLog (q : P) (d : Sensor) (k : Fin queueNum) (ms : List (SharedMove P w)) : Log w :=
  ms.foldl (fun g m => g.after d k (m.seen q)) ⟨[], []⟩

lemma seen_of_owner (g : Log w) (hs : SharedStep s m t) (hr : Respects s m t)
    (hq : s.owner k = some q) : g.after d k (m.seen q) = g.after d k m.effect := by
  have hc := sharedStep_changes hs
  cases hs with
  | switchTasklet | ultrasonicTasklet => rfl
  | @call p opened cmd j driver y hcmd hcall =>
    have hkey := libCall_key hcall
    obtain ⟨ret, _ | _ | _ | _ | ⟨c, i, x⟩⟩ := y
    · rfl
    · rfl
    · rfl
    · rfl
    · obtain rfl := Option.some.inj (hkey _ rfl)
      by_cases hp : p = q
      · simp [SharedMove.seen, SharedMove.effect, hp]
      · have hi : i ≠ k := by
          rintro rfl
          have hsame := (hr q hq (Ne.symm hp)).2.2 c
          obtain ⟨_, ⟨rest, hx, hrest⟩, _⟩ := hc
          simp only [hrest, Function.update_self, hx] at hsame
          exact List.cons_ne_self x rest hsame.symm
        simp [SharedMove.seen, SharedMove.effect, hp, hi, Log.after]

structure Kept (q : P) (d : Sensor) (k : Fin queueNum) (s : Shared P w) (g : Log w) : Prop where
  owned : Owned s
  delivers : s.owner k = some q → Delivers d k s.driver g

lemma Kept.step (h : Kept q d k s g) (hs : RespectfulStep s m t) :
    Kept q d k t (g.after d k (m.seen q)) := by
  obtain ⟨hs, hr⟩ := hs
  refine ⟨h.owned.step hs hr, ?_⟩
  intro hq
  have hc := sharedStep_changes hs
  obtain howner | ⟨heffect, hseen⟩ := owner_cases hs hq
  · rw [seen_of_owner g hs hr howner]
    exact (h.delivers howner).changes hc
  · obtain ⟨g', hg'⟩ := h.owned.delivers d k
    have hnew := hg'.changes hc
    rw [heffect] at hnew
    rw [hseen]
    simp only [Log.after, if_true] at hnew ⊢
    exact hnew

omit [DecidableEq P] in
lemma owned_init : Owned (.init : Shared P w) := by
  refine ⟨?_, ?_⟩
  · rintro k q ⟨⟩
  · intro d k
    refine ⟨⟨[], []⟩, ?_, ?_⟩
    · intro _
      cases d <;> rfl
    · rintro ⟨⟩

lemma respectful_iff : Run RespectfulStep (.init : Shared P w) ms s ↔
    Run (Guarded SharedStep Polite) .init ms s := by
  apply Run.congr (I := Owned)
  · exact fun s m t h hs => h.step hs.1 hs.2
  · exact fun s m t h => and_congr_right fun hs => respects_iff h hs
  · exact owned_init

theorem queue_owned (ms : List (SharedMove P w)) (s : Shared P w) :
    (Run RespectfulStep .init ms s ↔ Run (Guarded SharedStep Polite) .init ms s) ∧
      (Run (Guarded SharedStep Polite) .init ms s → ∀ k q, s.owner k = some q →
        s.driver.queueUse k = true ∧ ∀ d, (ownLog q d k ms).accepted =
          (ownLog q d k ms).received ++ s.driver.queue d k) := by
  refine ⟨respectful_iff, ?_⟩
  intro h k q hq
  have hrun := respectful_iff.mpr h
  have hkept : ∀ d, Kept q d k s (ownLog q d k ms) := by
    intro d
    apply hrun.observed fun s g m t h hs => h.step hs
    exact ⟨owned_init, by rintro ⟨⟩⟩
  have huse := (hkept .switch).owned.inUse k q hq
  refine ⟨huse, ?_⟩
  intro d
  exact SelectiveFifo.balanced_unit_iff.mp (((hkept d).delivers hq).opened huse)

theorem queue_owned_press : (ownLog 0 .switch 0
    [(.call 0 true .queueGet 0 ⟨1, some (.opened 0)⟩ : SharedMove (Fin 2) 8),
      .call 1 true .queueGet 0 ⟨-1, none⟩,
      .tasklet (some (.sensed .switch ⟨2, 30⟩))]).accepted = [⟨2, 30⟩] := by
  obtain ⟨s, hrun, howner, hq⟩ : ∃ s, Run (Guarded SharedStep Polite)
      (.init : Shared (Fin 2) 8) [.call 0 true .queueGet 0 ⟨1, some (.opened 0)⟩,
        .call 1 true .queueGet 0 ⟨-1, none⟩, .tasklet (some (.sensed .switch ⟨2, 30⟩))] s ∧
      s.owner 0 = some 0 ∧ s.driver.queue .switch 0 = [⟨2, 30⟩] := by
    refine ⟨_, .cons ⟨.call (by decide) rfl, ?_⟩ (.cons ⟨.call (by decide) rfl, ?_⟩
      (.cons ⟨@SharedStep.switchTasklet _ _ _ _ (fun _ => true) ⟨2, 30⟩ _
        ⟨0, some (.sensed .switch ⟨2, 30⟩)⟩ rfl, trivial⟩ .nil)), rfl, rfl⟩
    · rintro q ⟨⟩
    · intro q _ _
      exact Or.inr rfl
  have hown := ((queue_owned _ s).2 hrun 0 0 howner).2 .switch
  rw [hown, hq]
  rfl

theorem queue_closed_by_other : ¬ ∀ (ms : List (SharedMove (Fin 2) 8)) (s : Shared (Fin 2) 8),
    Run SharedStep .init ms s → Run RespectfulStep .init ms s := by
  intro h
  obtain ⟨s, hrun⟩ : ∃ s, Run SharedStep (.init : Shared (Fin 2) 8)
      [.call 0 true .queueGet 0 ⟨1, some (.opened 0)⟩,
        .call 1 true .queueClose 0 ⟨1, some (.closed 0)⟩] s :=
    ⟨_, .cons (.call (by decide) rfl) (.cons (.call (by decide) rfl) .nil)⟩
  cases h _ _ hrun with
  | cons hget hrest =>
    cases hrest with
    | cons hclose _ =>
      cases hget.1
      have hret := (hclose.2 0 rfl (by decide)).1
      exact absurd hret (by decide)

end Runs

end EmbeddedSystem.Switch
