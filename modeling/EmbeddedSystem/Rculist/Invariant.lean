import EmbeddedSystem.Foundations.Runs
import EmbeddedSystem.Rculist.Driver

/-! What the readers of `simple_rculist.c` see of its list. A replaced node stays allocated until
the grace period after its replacement ends, and at most one node is in that state, so a reader
stands on the node of its position in the list or on the one that was replaced there. -/

namespace EmbeddedSystem.Rculist

open Kernel Foundations

section History

variable {P : Type} [DecidableEq P] {w : ℕ}

/-- The ids a read-side section has visited, the pointers it has loaded, and the numbers of updates
published at its start and at each moment inside it when one of them changed. -/
structure Trace where
  visits : List ℕ
  loads : ℕ
  counts : List (ℕ → ℕ)

structure History (P : Type) where
  published : ℕ → ℕ
  updates : ℕ → ℕ
  trace : P → Trace

def History.init : History P := ⟨fun _ => 0, fun _ => 0, fun _ => ⟨[], 0, []⟩⟩

def bump (f : ℕ → ℕ) (id : ℕ) : ℕ → ℕ := Function.update f id (f id + 1)

def History.observe (h : History P) : P × Move w → History P
  | (p, .rcuReadLock _) => { h with trace := Function.update h.trace p ⟨[], 0, [h.published]⟩ }
  | (p, .load) =>
    { h with
      trace := Function.update h.trace p { h.trace p with loads := (h.trace p).loads + 1 } }
  | (p, .visit id) =>
    { h with
      trace := Function.update h.trace p { h.trace p with visits := (h.trace p).visits ++ [id] } }
  | (_, .publish id) =>
    { h with
      published := bump h.published id
      trace := fun q =>
        { h.trace q with counts := (h.trace q).counts ++ [bump h.published id] } }
  | (_, .spinUnlock id) => { h with updates := bump h.updates id }
  | _ => h

def history (ls : List (P × Move w)) : History P := ls.foldl History.observe .init

end History

section Invariant

variable {P : Type} {w : ℕ}

abbrev Listed (id : ℕ) : Prop := 1 ≤ id ∧ id ≤ 5

def counted (published : ℕ → ℕ) (i : ℕ) : TestList w := ⟨i, 100 + BitVec.ofNat w (published i)⟩

def UpdatePhase.replaced : UpdatePhase → Option Addr
  | .doing .replaceBack old _ | .doing .replacePoison old _ | .doing .kfree old _ => some old
  | .synchronizeRcu old _ | .waiting old _ => some old
  | _ => none

def UpdatePhase.linking : UpdatePhase → Bool
  | .doing .replaceBack _ _ => true
  | _ => false

def UpdatePhase.graced : UpdatePhase → Bool
  | .waiting _ _ | .doing .kfree _ _ => true
  | _ => false

def UpdatePhase.freeing : UpdatePhase → Bool
  | .doing .kfree _ _ => true
  | _ => false

def UpdatePhase.applied : UpdatePhase → Bool
  | .doing .print _ _ | .spinUnlock => true
  | ph => ph.replaced.isSome

def applied (u : Option (Update P)) (i : ℕ) : ℕ :=
  match u with
  | none => 0
  | some u => if u.arg = i ∧ u.phase.applied = true then 1 else 0

/-- The address of position `i` for a reader: that of the list, or of the node that an update has
replaced there during the reader's section. -/
def At (u : Option (Update P)) (pending : Bool) (counts : List (ℕ → ℕ)) (published : ℕ → ℕ)
    (spine : ℕ → Addr) (i : ℕ) (a : Addr) : Prop :=
  a = spine i ∨ ∃ v, u = some v ∧ v.arg = i ∧ v.phase.replaced = some a ∧
    (∃ c ∈ counts, c i + 1 = published i) ∧ (v.phase.graced = true → pending = true)

def Cursor.On (At : ℕ → Addr → Prop) (i : ℕ) : Cursor → Prop
  | .load cur => At i cur
  | .test pos => At (i + 1) pos

def Cursor.loads (i : ℕ) : Cursor → ℕ
  | .load _ => i
  | .test _ => i + 1

def Reads (At : ℕ → Addr → Prop) (tr : Trace) : ReadPhase → Prop
  | .idle | .leaving => (∃ i ≤ 5, tr.visits = List.range' 1 i) ∧ tr.loads ≤ 6
  | .walking arg c => ∃ i ≤ 5, c.On At i ∧ arg ∉ List.range' 1 i ∧ tr.visits = List.range' 1 i ∧
      tr.loads = c.loads i
  | .printing arg pos => Listed arg ∧ At arg pos ∧ tr.visits = List.range' 1 arg ∧ tr.loads = arg
  | .faulted _ => False

structure Unpublished (m : Mem w) (spine : ℕ → Addr) (arg : ℕ) (old new : Addr) : Prop where
  old_eq : old = spine arg
  live : m.live new = true
  off : Off 5 spine new

structure Replaced (m : Mem w) (published : ℕ → ℕ) (spine : ℕ → Addr) (arg : ℕ)
    (old new : Addr) : Prop where
  new_eq : new = spine arg
  live : m.live old = true
  off : Off 5 spine old
  next : m.next old = spine (arg + 1)
  val : ∃ n, published arg = n + 1 ∧ m.val old = ⟨arg, 100 + BitVec.ofNat w n⟩

def Doing (m : Mem w) (published : ℕ → ℕ) (spine : ℕ → Addr) (arg : ℕ) (old new : Addr) :
    Stmt → Prop
  | .memcpy => Unpublished m spine arg old new
  | .increment => Unpublished m spine arg old new ∧ m.val new = counted published arg
  | .replaceCopy =>
    Unpublished m spine arg old new ∧ m.val new = counted (bump published arg) arg
  | .replacePublish =>
    Unpublished m spine arg old new ∧ m.val new = counted (bump published arg) arg ∧
      m.next new = spine (arg + 1) ∧ m.prev new = spine (arg - 1)
  | .replaceBack | .replacePoison | .kfree => Replaced m published spine arg old new
  | .print => new = spine arg

def Updates (m : Mem w) (published : ℕ → ℕ) (spine : ℕ → Addr) (arg : ℕ) : UpdatePhase → Prop
  | .walking c => ∃ i ≤ 5, c.On (fun j a => a = spine j) i ∧ arg ∉ List.range' 1 i
  | .kmalloc old => Listed arg ∧ old = spine arg
  | .doing stmt old new => Listed arg ∧ Doing m published spine arg old new stmt
  | .synchronizeRcu old new | .waiting old new =>
    Listed arg ∧ Replaced m published spine arg old new
  | .spinUnlock => True
  | .faulted e => e = .null

structure Good (s : System P w) (h : History P) (spine : ℕ → Addr) : Prop where
  chain : Chain 5 s.mem spine (counted h.published)
  back : ∀ i, i ≤ 5 → (∀ u, s.update = some u → u.phase.linking = true → u.arg ≠ i) →
    Back s.mem spine i
  update : ∀ u, s.update = some u → Updates s.mem h.published spine u.arg u.phase
  reads : ∀ p, Reads (At s.update (s.pending p) (h.trace p).counts h.published spine) (h.trace p)
    (s.reader p)
  now : ∀ p, (s.reader p).inSection = true → h.published ∈ (h.trace p).counts
  freeing : ∀ u, s.update = some u → u.phase.freeing = true → ∀ p, s.pending p = false
  counts : ∀ i, Listed i → h.published i = h.updates i + applied s.update i

end Invariant

section Traversal

variable {P : Type} {w : ℕ} {m : Mem w} {published : ℕ → ℕ} {spine : ℕ → Addr}
  {At At' : ℕ → Addr → Prop} {arg i : ℕ} {a : Addr}

structure Passable (m : Mem w) (spine : ℕ → Addr) (At : ℕ → Addr → Prop) : Prop where
  here : ∀ i, At i (spine i)
  live : ∀ i a, i ≤ 5 → At i a → m.live a = true
  next : ∀ i a, i ≤ 5 → At i a → m.next a = spine (i + 1)
  node : ∀ i a, Listed i → At i a → a ≠ listHead ∧ (m.val a).id = i
  head : ∀ a, At 6 a → a = listHead

lemma passable_chain (h : Chain 5 m spine (counted published)) :
    Passable m spine (fun i a => a = spine i) where
  here _ := rfl
  live i a hi ha := by
    rw [ha]
    exact h.live i hi
  next i a hi ha := by
    rw [ha]
    exact h.next i hi
  node i a hi ha := by
    rw [ha, h.val i hi.1 hi.2]
    exact ⟨h.inner i hi.1 hi.2, rfl⟩
  head a ha := by
    rw [ha]
    exact h.last 6 (by omega)

lemma load_advance (hp : Passable m spine At) (hi : i ≤ 5) (ha : At i a) :
    (Cursor.load a).advance m arg = .ok (.loaded (spine (i + 1))) := by
  rw [Cursor.advance, touch_of_live (hp.live i a hi ha), ok_bind, hp.next i a hi ha]
  rfl

lemma test_advance (hp : Passable m spine At) (hi : i ≤ 5) (ha : At (i + 1) a) :
    (Cursor.test a).advance m arg = .ok (if i = 5 then .ended
      else if i + 1 = arg then .found (i + 1) a else .passed (i + 1) a) := by
  rw [Cursor.advance]
  by_cases hend : i = 5
  · subst hend
    rw [if_pos (hp.head a ha), if_pos rfl]
    rfl
  · obtain ⟨hne, hid⟩ := hp.node (i + 1) a (by omega) ha
    rw [if_neg hne, if_neg hend, touch_of_live (hp.live (i + 1) a (by omega) ha), ok_bind, hid]
    by_cases harg : i + 1 = arg
    · rw [if_pos harg, if_pos harg]
      rfl
    · rw [if_neg harg, if_neg harg]
      rfl

lemma Cursor.On.mono {c : Cursor} (hAt : ∀ i a, At i a → At' i a) (h : c.On At i) :
    c.On At' i := by
  cases c with
  | load cur => exact hAt _ _ h
  | test pos => exact hAt _ _ h

lemma Reads.mono {tr tr' : Trace} {ph : ReadPhase} (hv : tr'.visits = tr.visits)
    (hl : tr'.loads = tr.loads) (hAt : ph.inSection = true → ∀ i a, At i a → At' i a)
    (h : Reads At tr ph) : Reads At' tr' ph := by
  cases ph with
  | idle | leaving =>
    simp only [Reads] at h ⊢
    rwa [hv, hl]
  | walking arg c =>
    obtain ⟨i, hi, hc, harg, hvis, hload⟩ := h
    exact ⟨i, hi, hc.mono (hAt rfl), harg, hv.trans hvis, hl.trans hload⟩
  | printing arg pos =>
    obtain ⟨harg, ha, hvis, hload⟩ := h
    exact ⟨harg, hAt rfl _ _ ha, hv.trans hvis, hl.trans hload⟩
  | faulted e => exact h

lemma not_mem_range'_succ (harg : arg ∉ List.range' 1 i) (hne : i + 1 ≠ arg) :
    arg ∉ List.range' 1 (i + 1) := by
  simp only [List.mem_range'_1, not_and, not_lt] at harg ⊢
  omega

lemma Updates.of_replaced {ph : UpdatePhase} (h : Updates m published spine arg ph)
    (hr : ph.replaced = some a) : Listed arg ∧ ∃ new, Replaced m published spine arg a new := by
  cases ph with
  | doing stmt old new =>
    cases stmt with
    | replaceBack | replacePoison | kfree =>
      cases hr
      exact ⟨h.1, new, h.2⟩
    | _ => cases hr
  | synchronizeRcu old new | waiting old new =>
    cases hr
    exact ⟨h.1, new, h.2⟩
  | _ => cases hr

lemma Good.passable {s : System P w} {h : History P} (hg : Good s h spine) (p : P) :
    Passable s.mem spine
      (Rculist.At s.update (s.pending p) (h.trace p).counts h.published spine) := by
  have hlist := passable_chain hg.chain
  refine ⟨fun _ => .inl rfl, ?_, ?_, ?_, ?_⟩
  · rintro i a hi (ha | ⟨u, hu, rfl, hr, -⟩)
    · exact hlist.live i a hi ha
    · obtain ⟨-, new, hrep⟩ := (hg.update u hu).of_replaced hr
      exact hrep.live
  · rintro i a hi (ha | ⟨u, hu, rfl, hr, -⟩)
    · exact hlist.next i a hi ha
    · obtain ⟨-, new, hrep⟩ := (hg.update u hu).of_replaced hr
      exact hrep.next
  · rintro i a hi (ha | ⟨u, hu, rfl, hr, -⟩)
    · exact hlist.node i a hi ha
    · obtain ⟨-, new, hrep⟩ := (hg.update u hu).of_replaced hr
      obtain ⟨n, -, hval⟩ := hrep.val
      rw [hval]
      exact ⟨hg.chain.ne_head hrep.off, rfl⟩
  · rintro a (ha | ⟨u, hu, harg, hr, -⟩)
    · exact hlist.head a ha
    · obtain ⟨hlisted, -⟩ := (hg.update u hu).of_replaced hr
      omega

end Traversal

end EmbeddedSystem.Rculist
