import EmbeddedSystem.Challenge9.Lifecycle
import EmbeddedSystem.Challenge9.SafeRegister
import EmbeddedSystem.Foundations.Ownership

/-! When the init, the exit and the calls of `simple_rcu.c` are safe together. Each cell has one
owner: `my_data`, the writer that made or replaced it, or the module in its init or exit. -/

namespace EmbeddedSystem.Challenge9.Lifecycle

open Kernel Foundations

variable {P A : Type} {w : ℕ}

inductive Slot (P : Type)
  | myData
  | process (p : P)
  | life
  deriving DecidableEq

def Call.owns : Call A w → Option A
  | .write _ (.store new) | .write _ (.load new) | .write _ (.assign _ new) => new
  | .write _ (.synchronizeRcu old) | .write _ (.waiting old) | .write _ (.kfree old) => old
  | _ => none

def Life.owns : Life A → Option A
  | .store data | .assign data | .kfree data => data
  | _ => none

def owns (myData : Option A) (call : P → Call A w) (life : Life A) : Slot P → Option A
  | .myData => myData
  | .process p => (call p).owns
  | .life => life.owns

def Call.held : Call A w → Option (Option A)
  | .read phase => phase.held
  | .write _ _ => none

def Call.Guards (pending : Bool) : Call A w → Prop
  | .write _ (.synchronizeRcu _) => True
  | .write _ (.waiting _) => pending = true
  | _ => False

def Life.Freeing : Life A → Prop
  | .kfree _ => True
  | _ => False

def Guards (s : System P A w) (r : P) : Slot P → Prop
  | .myData => True
  | .process p => (s.call p).Guards (s.pending p r)
  | .life => s.life.Freeing

def Kept (s : System P A w) (r : P) (a : A) : Prop :=
  ∃ o, Guards s r o ∧ owns s.myData s.call s.life o = some a

def Call.Calm : Call A w → Prop
  | .read (.faulted _) | .write _ (.faulted .freed) => False
  | _ => True

def Life.Calm : Life A → Prop
  | .faulted .freed => False
  | _ => True

def Life.Closed : Life A → Prop
  | .running | .load | .clear _ => False
  | _ => True

structure Intact (s : System P A w) : Prop where
  owned : Owned s.heap.live (owns s.myData s.call s.life)
  held : ∀ r old, (s.call r).held = some old → ∃ a, old = some a ∧ Kept s r a
  calm : ∀ p, (s.call p).Calm
  lifeCalm : s.life.Calm
  closed : s.life.Closed → s.myData = none

/-- What a step needs of the state before it. -/
def Orderly (s : System P A w) : Option P → Prop
  | some p => match s.call p with
    | .read .locked => s.myData ≠ none
    | .write _ (.assign old _) => s.myData = old ∧ old ≠ none
    | _ => True
  | none => match s.life with
    | .clear data => s.myData = data
    | .kfree data => ∀ p, (s.call p).held ≠ some data
    | _ => True

section Frames

variable {s t : System P A w} {p r : P} {a : A} {myData : Option A} {call : P → Call A w}
  {life : Life A} {c : Call A w}

lemma Kept.mono (h : Kept s r a)
    (hslot : ∀ o, Guards s r o → owns s.myData s.call s.life o = some a →
      Guards t r o ∧ owns t.myData t.call t.life o = some a) : Kept t r a := by
  obtain ⟨o, hguard, ho⟩ := h
  exact ⟨o, hslot o hguard ho⟩

lemma Kept.ofLife (h : Kept s r a) (hcall : t.call = s.call) (hpending : t.pending = s.pending)
    (hdata : t.myData = s.myData) (hlife : s.life.Freeing → s.life.owns ≠ some a) :
    Kept t r a := by
  apply h.mono
  intro o hguard ho
  cases o with
  | myData => exact ⟨trivial, hdata.trans ho⟩
  | process q =>
    simp only [Guards, owns, hcall, hpending]
    exact ⟨hguard, ho⟩
  | life => exact absurd ho (hlife hguard)

lemma Kept.ofCall [DecidableEq P] (h : Kept s r a) (hcall : t.call = Function.update s.call p c)
    (hpending : t.pending = s.pending) (hdata : t.myData = s.myData) (hlife : t.life = s.life)
    (hp : ∀ b, ¬ (s.call p).Guards b) : Kept t r a := by
  apply h.mono
  intro o hguard ho
  cases o with
  | myData => exact ⟨trivial, hdata.trans ho⟩
  | process q =>
    by_cases hq : q = p
    · subst hq
      exact absurd hguard (hp _)
    · simp only [Guards, owns, hcall, hpending, Function.update_of_ne hq]
      exact ⟨hguard, ho⟩
  | life =>
    simp only [Guards, owns, hlife]
    exact ⟨hguard, ho⟩

lemma kept_myData (h : s.myData = some a) : Kept s r a := ⟨.myData, trivial, h⟩

lemma Call.inSection_of_held {old : Option A} (h : c.held = some old) : c.inSection = true := by
  cases c with
  | read phase => cases phase <;> first | rfl | cases h
  | write _ _ => cases h

lemma Intact.live_of_held (hs : Intact s) (hr : (s.call r).held = some (some a)) :
    s.heap.live a = true := by
  obtain ⟨b, hb, o, -, ho⟩ := hs.held r _ hr
  cases hb
  exact hs.owned.live_of_owns ho

variable [DecidableEq P]

lemma owns_myData (d : Option A) :
    owns d call life = Function.update (owns myData call life) .myData d := by
  funext o
  cases o <;> simp [owns]

lemma owns_call (c : Call A w) :
    owns myData (Function.update call p c) life =
      Function.update (owns myData call life) (.process p) c.owns := by
  funext o
  cases o with
  | process q =>
    by_cases hq : q = p
    · subst hq
      simp [owns]
    · simp [owns, hq]
  | _ => simp [owns]

lemma owns_life (life' : Life A) :
    owns myData call life' = Function.update (owns myData call life) .life life'.owns := by
  funext o
  cases o <;> simp [owns]

lemma owns_call_same (hc : c.owns = (call p).owns) :
    owns myData (Function.update call p c) life = owns myData call life := by
  rw [owns_call, hc]
  exact Function.update_eq_self (Slot.process p) _

lemma Intact.callStep (hs : Intact s) (hcall : t.call = Function.update s.call p c)
    (hlife : t.life = s.life) (howned : Owned t.heap.live (owns t.myData t.call t.life))
    (hheld : ∀ old, c.held = some old →
      (s.call p).held = some old ∨ ∃ a, old = some a ∧ t.myData = some a)
    (hkept : ∀ r a, (t.call r).held = some (some a) → (s.call r).held = some (some a) →
      Kept s r a → Kept t r a)
    (hcalm : c.Calm) (hclosed : s.life.Closed → t.myData = none) : Intact t := by
  refine ⟨howned, ?_, ?_, ?_, ?_⟩
  · intro r old hr
    have hbefore : (s.call r).held = some old → ∃ a, old = some a ∧ Kept t r a := by
      intro hr'
      obtain ⟨a, rfl, hkeep⟩ := hs.held r old hr'
      exact ⟨a, rfl, hkept r a hr hr' hkeep⟩
    by_cases hrp : r = p
    · subst hrp
      have hc : c.held = some old := by simpa [hcall] using hr
      rcases hheld old hc with hr' | ⟨a, rfl, ha⟩
      · exact hbefore hr'
      · exact ⟨a, rfl, kept_myData ha⟩
    · apply hbefore
      simpa [hcall, hrp] using hr
  · rw [hcall]
    exact (Function.forall_update_iff s.call fun _ c => c.Calm).mpr ⟨hcalm, fun q _ => hs.calm q⟩
  · rw [hlife]
    exact hs.lifeCalm
  · rw [hlife]
    exact hclosed

lemma Intact.goOn (hs : Intact s) (hcall : t.call = Function.update s.call p c)
    (hlife : t.life = s.life) (hdata : t.myData = s.myData) (hlive : t.heap.live = s.heap.live)
    (howns : c.owns = (s.call p).owns)
    (hheld : ∀ old, c.held = some old →
      (s.call p).held = some old ∨ ∃ a, old = some a ∧ s.myData = some a)
    (hguards : ∀ r a, (s.call r).held = some (some a) → (s.call p).Guards (s.pending p r) →
      c.Guards (t.pending p r))
    (hpending : ∀ q r, q ≠ p → (t.call r).held ≠ none → t.pending q r = s.pending q r)
    (hcalm : c.Calm) : Intact t := by
  have hsame : owns t.myData t.call t.life = owns s.myData s.call s.life := by
    rw [hdata, hcall, hlife, owns_call_same howns]
  apply hs.callStep hcall hlife
  · rw [hlive, hsame]
    exact hs.owned
  · rw [hdata]
    exact hheld
  · intro r a hr hr' hkeep
    apply hkeep.mono
    intro o hguard ho
    refine ⟨?_, by rw [hsame, ho]⟩
    cases o with
    | myData => trivial
    | process q =>
      by_cases hq : q = p
      · subst hq
        simp only [Guards, hcall, Function.update_self]
        exact hguards r a hr' hguard
      · simp only [Guards, hcall, Function.update_of_ne hq]
        rw [hpending q r hq (by simp [hr])]
        exact hguard
    | life =>
      simp only [Guards, hlife]
      exact hguard
  · exact hcalm
  · rw [hdata]
    exact hs.closed

omit [DecidableEq P] in
lemma Intact.lifeStep (hs : Intact s) (hcall : t.call = s.call)
    (howned : Owned t.heap.live (owns t.myData t.call t.life))
    (hkept : ∀ r a, (s.call r).held = some (some a) → Kept s r a → Kept t r a)
    (hcalm : t.life.Calm) (hclosed : t.life.Closed → t.myData = none) : Intact t := by
  refine ⟨howned, ?_, ?_, hcalm, hclosed⟩
  · intro r old hr
    rw [hcall] at hr
    obtain ⟨a, rfl, hkeep⟩ := hs.held r old hr
    exact ⟨a, rfl, hkept r a hr hkeep⟩
  · rw [hcall]
    exact hs.calm

omit [DecidableEq P] in
lemma Intact.lifeGoOn (hs : Intact s) (hcall : t.call = s.call) (hdata : t.myData = s.myData)
    (hlive : t.heap.live = s.heap.live) (hpending : t.pending = s.pending)
    (howns : t.life.owns = s.life.owns) (hfreeing : ¬ s.life.Freeing) (hcalm : t.life.Calm)
    (hclosed : t.life.Closed → s.life.Closed) : Intact t := by
  have hsame : owns t.myData t.call t.life = owns s.myData s.call s.life := by
    funext o
    cases o with
    | myData => exact hdata
    | process q => simp only [owns, hcall]
    | life => exact howns
  apply hs.lifeStep hcall
  · rw [hlive, hsame]
    exact hs.owned
  · intro r a _ hkeep
    apply hkeep.mono
    intro o hguard ho
    refine ⟨?_, by rw [hsame, ho]⟩
    cases o with
    | myData => trivial
    | process q =>
      simp only [Guards, hcall, hpending]
      exact hguard
    | life => exact absurd hguard hfreeing
  · exact hcalm
  · rw [hdata]
    exact fun hclose => hs.closed (hclosed hclose)

end Frames

section Reads

variable {s : System P A w} {p : P} {old : Option A} {data : BitVec w} {e : Fault}
  {before ph : ReadPhase (Option A) w}

lemma Intact.readAt (hs : Intact s) (hp : (s.call p).held = some old) :
    ∃ data, s.heap.readAt old = .ok data := by
  obtain ⟨a, rfl, -⟩ := hs.held p old hp
  exact ⟨_, Ledger.read_of_live (hs.live_of_held hp)⟩

lemma Intact.read_error (hs : Intact s) (hp : (s.call p).held = some old) :
    s.heap.readAt old ≠ .error e := by
  obtain ⟨data, hdata⟩ := hs.readAt hp
  rw [hdata]
  rintro ⟨⟩

variable [DecidableEq P]

lemma Intact.readOn (hs : Intact s) (hp : s.call p = .read before)
    (hheld : ∀ old, ph.held = some old →
      before.held = some old ∨ ∃ a, old = some a ∧ s.myData = some a)
    (hcalm : (Call.read ph : Call A w).Calm) : Intact (s.set p (.read ph)) := by
  refine hs.goOn rfl rfl rfl rfl ?_ ?_ ?_ ?_ ?_
  · rw [hp]
    rfl
  · rw [hp]
    exact hheld
  · rw [hp]
    rintro r a - ⟨⟩
  · exact fun _ _ _ _ => rfl
  · exact hcalm

lemma Intact.load (hs : Intact s) (hp : s.call p = .read .locked) (hdata : s.myData ≠ none) :
    Intact (s.set p (.read (.loaded s.myData))) := by
  apply hs.readOn hp
  · rintro old ⟨⟩
    obtain ⟨a, ha⟩ := Option.ne_none_iff_exists'.mp hdata
    exact Or.inr ⟨a, ha, ha⟩
  · trivial

lemma Intact.readUnlock (hs : Intact s) {again : BitVec w}
    (hp : s.call p = .read (.reprinted data again)) :
    Intact { s.set p (.read .idle) with
      pending := fun q => Function.update (s.pending q) p false } := by
  refine hs.goOn rfl rfl rfl rfl ?_ ?_ ?_ ?_ ?_
  · rw [hp]
    rfl
  · rintro old ⟨⟩
  · rw [hp]
    rintro r a - ⟨⟩
  · intro q r _ hr
    apply Function.update_of_ne
    rintro rfl
    simp [System.set, Call.held, ReadPhase.held] at hr
  · trivial

end Reads

section Writes

variable {s : System P A w} {p : P} {old new : Option A} {arg : BitVec w} {e : Fault}
  {c : Call A w} {heap : Ledger A (BitVec w)} [DecidableEq P]

lemma Intact.writeOn (hs : Intact s) {lock : Bool} (hlive : heap.live = s.heap.live)
    (howns : c.owns = (s.call p).owns) (hguards : ∀ b, ¬ (s.call p).Guards b)
    (hheld : c.held = none) (hcalm : c.Calm) :
    Intact { s.set p c with heap := heap, myLock := lock } := by
  refine hs.goOn rfl rfl rfl hlive howns ?_ ?_ ?_ hcalm
  · intro old hold
    rw [hheld] at hold
    cases hold
  · exact fun r a _ hguard => absurd hguard (hguards _)
  · exact fun _ _ _ _ => rfl

omit [DecidableEq P] in
lemma Intact.live_of_call (hs : Intact s) {a : A} (hp : (s.call p).owns = some a) :
    s.heap.live a = true := by
  have hslot : owns s.myData s.call s.life (.process p) = some a := hp
  exact hs.owned.live_of_owns hslot

lemma Intact.synchronizeRcu (hs : Intact s) (hp : s.call p = .write arg (.synchronizeRcu old)) :
    Intact { s.set p (.write arg (.waiting old)) with
      pending := Function.update s.pending p fun q => (s.call q).inSection } := by
  refine hs.goOn rfl rfl rfl rfl ?_ ?_ ?_ ?_ ?_
  · rw [hp]
    rfl
  · rintro old ⟨⟩
  · intro r a hr _
    simp only [Call.Guards, Function.update_self]
    exact Call.inSection_of_held hr
  · intro q r hq _
    exact congrFun (Function.update_of_ne hq ..) r
  · trivial

lemma Intact.synchronized (hs : Intact s) (hp : s.call p = .write arg (.waiting old))
    (hgrace : ∀ q, s.pending p q = false) : Intact (s.set p (.write arg (.kfree old))) := by
  refine hs.goOn rfl rfl rfl rfl ?_ ?_ ?_ ?_ ?_
  · rw [hp]
    rfl
  · rintro old ⟨⟩
  · intro r a _ hguard
    rw [hp] at hguard
    have hpending : s.pending p r = true := hguard
    rw [hgrace r] at hpending
    cases hpending
  · exact fun _ _ _ _ => rfl
  · trivial

lemma Intact.assign (hs : Intact s) (hp : s.call p = .write arg (.assign old new))
    (hold : s.myData = old) (hnull : old ≠ none) :
    Intact { s.set p (.write arg (.synchronizeRcu old)) with myData := new } := by
  have howns : owns new (Function.update s.call p (.write arg (.synchronizeRcu old))) s.life =
      owns s.myData s.call s.life ∘ Equiv.swap .myData (.process p) := by
    have hmine : owns s.myData s.call s.life (.process p) = new := by simp [owns, hp, Call.owns]
    rw [Equiv.comp_swap_eq_update, owns_call, owns_myData, hmine,
      Function.update_comm (by simp), ← hold]
    rfl
  refine hs.callStep rfl rfl ?_ ?_ ?_ ?_ ?_
  · have hswap := hs.owned.swap .myData (.process p)
    rwa [← howns] at hswap
  · rintro old ⟨⟩
  · rintro r a - - ⟨o, hguard, ho⟩
    cases o with
    | myData =>
      refine ⟨.process p, ?_, ?_⟩
      · simp [Guards, System.set, Call.Guards]
      · simpa [owns, System.set, Call.owns, ← hold] using ho
    | process q =>
      by_cases hq : q = p
      · subst hq
        simp [Guards, hp, Call.Guards] at hguard
      · refine ⟨.process q, ?_, ?_⟩
        · simpa [Guards, System.set, hq] using hguard
        · simpa [owns, System.set, hq] using ho
    | life => exact ⟨.life, hguard, ho⟩
  · trivial
  · intro hclosed
    rw [hs.closed hclosed] at hold
    exact absurd hold.symm hnull

variable [DecidableEq A]

lemma Intact.kmalloc (hs : Intact s) {new : A} {junk : BitVec w} {hnew : s.heap.live new = false}
    (hp : s.call p = .write arg .kmalloc) :
    Intact { s.set p (.write arg (.store (some new))) with
      heap := s.heap.kmalloc new junk hnew } := by
  have hnone : owns s.myData s.call s.life (.process p) = none := by simp [owns, hp, Call.owns]
  have howns : owns s.myData (Function.update s.call p (.write arg (.store (some new)))) s.life =
      Function.update (owns s.myData s.call s.life) (.process p) (some new) := owns_call _
  refine hs.callStep rfl rfl ?_ ?_ ?_ trivial hs.closed
  · have howned := hs.owned.acquire hnone hnew
    rwa [← howns] at howned
  · rintro old ⟨⟩
  · intro r a _ _ hkeep
    refine hkeep.ofCall rfl rfl rfl rfl ?_
    simp [hp, Call.Guards]

lemma Intact.kfree (hs : Intact s) (hp : s.call p = .write arg (.kfree old))
    (hfree : s.heap.kfreeAt old = .ok heap) :
    Intact { s.set p (.write arg .unlock) with heap := heap } := by
  have hguards : ∀ b, ¬ (s.call p).Guards b := by simp [hp, Call.Guards]
  cases old with
  | none =>
    cases hfree
    exact hs.writeOn rfl (by rw [hp]; rfl) hguards rfl trivial
  | some a =>
    have hmine : owns s.myData s.call s.life (.process p) = some a := by simp [owns, hp, Call.owns]
    have howns : owns s.myData (Function.update s.call p (.write arg .unlock)) s.life =
        Function.update (owns s.myData s.call s.life) (.process p) none := owns_call _
    rw [Ledger.kfreeAt, Ledger.kfree_of_live (hs.owned.live_of_owns hmine)] at hfree
    cases hfree
    refine hs.callStep rfl rfl ?_ ?_ ?_ trivial hs.closed
    · have howned := hs.owned.release hmine
      rwa [← howns] at howned
    · rintro old ⟨⟩
    · exact fun r a _ _ hkeep => hkeep.ofCall rfl rfl rfl rfl hguards

omit [DecidableEq P] in
lemma Intact.kfree_error (hs : Intact s) (hp : s.call p = .write arg (.kfree old)) :
    s.heap.kfreeAt old ≠ .error e := by
  cases old with
  | none => rintro ⟨⟩
  | some a =>
    have hlive : s.heap.live a = true := hs.live_of_call (by rw [hp]; rfl)
    rw [Ledger.kfreeAt, Ledger.kfree_of_live hlive]
    rintro ⟨⟩

lemma Intact.store (hs : Intact s) (hp : s.call p = .write arg (.store new))
    (hstore : s.heap.writeAt arg new = .ok heap) :
    Intact { s.set p (.write arg (.load new)) with heap := heap } := by
  have hlive : heap.live = s.heap.live := Ledger.live_writeAt hstore
  refine hs.writeOn hlive ?_ ?_ rfl trivial
  · rw [hp]
    rfl
  · simp [hp, Call.Guards]

lemma Intact.storeFault (hs : Intact s) (hp : s.call p = .write arg (.store new))
    (hstore : s.heap.writeAt arg new = .error e) :
    Intact (s.set p (.write arg (.faulted e))) := by
  cases new with
  | none =>
    cases hstore
    refine hs.writeOn rfl ?_ ?_ rfl trivial
    · rw [hp]
      rfl
    · simp [hp, Call.Guards]
  | some a =>
    have hlive : s.heap.live a = true := hs.live_of_call (by rw [hp]; rfl)
    rw [Ledger.writeAt, Ledger.write_of_live hlive] at hstore
    cases hstore

end Writes

section Module

variable {s : System P A w} {data : Option A} {e : Fault} {heap : Ledger A (BitVec w)}
  {life : Life A}

lemma Intact.live_of_life (hs : Intact s) {a : A} (hl : s.life.owns = some a) :
    s.heap.live a = true := by
  have hslot : owns s.myData s.call s.life .life = some a := hl
  exact hs.owned.live_of_owns hslot

variable [DecidableEq P]

lemma Intact.handOver (hs : Intact s) {d : Option A} (hdata : s.myData = life.owns)
    (hd : s.life.owns = d) (hkept : life.Freeing ∨ s.myData = none) (hfreeing : ¬ s.life.Freeing)
    (hcalm : life.Calm) (hclosed : life.Closed → d = none) :
    Intact { s with myData := d, life := life } := by
  have howns : owns d s.call life = owns s.myData s.call s.life ∘ Equiv.swap .myData .life := by
    have hmine : owns s.myData s.call s.life .life = d := hd
    rw [Equiv.comp_swap_eq_update, hmine]
    funext o
    cases o with
    | myData => simp [owns]
    | process q => simp [owns]
    | life => simp [owns, hdata]
  refine hs.lifeStep rfl ?_ ?_ hcalm hclosed
  · have hswap := hs.owned.swap .myData .life
    rwa [← howns] at hswap
  · rintro r a - ⟨o, hguard, ho⟩
    cases o with
    | myData =>
      rcases hkept with hlife | hnone
      · exact ⟨.life, hlife, hdata.symm.trans ho⟩
      · have hsome : s.myData = some a := ho
        rw [hnone] at hsome
        cases hsome
    | process q => exact ⟨.process q, hguard, ho⟩
    | life => exact absurd hguard hfreeing

variable [DecidableEq A]

lemma Intact.initKmalloc (hs : Intact s) {a : A} {junk : BitVec w} {ha : s.heap.live a = false}
    (hl : s.life = .kmalloc) :
    Intact { s with heap := s.heap.kmalloc a junk ha, life := .store (some a) } := by
  have hnone : owns s.myData s.call s.life .life = none := by simp [owns, hl, Life.owns]
  have howns : owns s.myData s.call (.store (some a)) =
      Function.update (owns s.myData s.call s.life) .life (some a) := owns_life _
  refine hs.lifeStep rfl ?_ ?_ trivial ?_
  · have howned := hs.owned.acquire hnone ha
    rwa [← howns] at howned
  · intro r a _ hkeep
    refine hkeep.ofLife rfl rfl rfl ?_
    simp [hl, Life.Freeing]
  · intro _
    apply hs.closed
    rw [hl]
    trivial

lemma Intact.exitKfree (hs : Intact s) (hl : s.life = .kfree data)
    (hfree : s.heap.kfreeAt data = .ok heap) (hheld : ∀ p, (s.call p).held ≠ some data) :
    Intact { s with heap := heap, life := .unlock } := by
  have hclosed : s.myData = none := by
    apply hs.closed
    rw [hl]
    trivial
  have hkept : ∀ r a, (s.call r).held = some (some a) → Kept s r a →
      Kept { s with heap := heap, life := .unlock } r a := by
    intro r a hr hkeep
    refine hkeep.ofLife rfl rfl rfl ?_
    rintro - hdata
    rw [hl] at hdata
    have hdata' : data = some a := hdata
    rw [← hdata'] at hr
    exact hheld r hr
  have hmine : owns s.myData s.call s.life .life = data := by simp [owns, hl, Life.owns]
  have howns : owns s.myData s.call .unlock =
      Function.update (owns s.myData s.call s.life) .life none := owns_life _
  refine hs.lifeStep rfl ?_ hkept trivial fun _ => hclosed
  cases data with
  | none =>
    cases hfree
    have hsame : Function.update (owns s.myData s.call s.life) .life none =
        owns s.myData s.call s.life := by
      rw [← hmine]
      exact Function.update_eq_self _ _
    rw [howns, hsame]
    exact hs.owned
  | some a =>
    rw [Ledger.kfreeAt, Ledger.kfree_of_live (hs.owned.live_of_owns hmine)] at hfree
    cases hfree
    have howned := hs.owned.release hmine
    rwa [← howns] at howned

omit [DecidableEq P] in
lemma Intact.exitKfree_error (hs : Intact s) (hl : s.life = .kfree data) :
    s.heap.kfreeAt data ≠ .error e := by
  cases data with
  | none => rintro ⟨⟩
  | some a =>
    have hlive : s.heap.live a = true := hs.live_of_life (by rw [hl]; rfl)
    rw [Ledger.kfreeAt, Ledger.kfree_of_live hlive]
    rintro ⟨⟩

omit [DecidableEq P] in
lemma Intact.initStoreFault (hs : Intact s) (hl : s.life = .store data)
    (hstore : s.heap.writeAt 0 data = .error e) : Intact { s with life := .faulted e } := by
  cases data with
  | none =>
    cases hstore
    refine hs.lifeGoOn rfl rfl rfl rfl ?_ ?_ trivial ?_ <;> simp [hl, Life.owns, Life.Freeing,
      Life.Closed]
  | some a =>
    have hlive : s.heap.live a = true := hs.live_of_life (by rw [hl]; rfl)
    rw [Ledger.writeAt, Ledger.write_of_live hlive] at hstore
    cases hstore

end Module

section Steps

variable {s t : System P A w} {l : Option P} {ls : List (Option P)} {junk : A → BitVec w}
  [DecidableEq P] [DecidableEq A]

omit [DecidableEq P] [DecidableEq A] in
lemma intact_init (junk : A → BitVec w) : Intact (.init junk : System P A w) := by
  have hnothing : owns none (fun _ : P => (.read .idle : Call A w)) .cdevAdd = fun _ => none := by
    funext o
    cases o <;> rfl
  refine ⟨?_, ?_, fun _ => trivial, trivial, fun _ => rfl⟩
  · simp only [System.init, hnothing]
    exact .nothing
  · rintro r old ⟨⟩

lemma intact_step (hs : Intact s) (h : Step s l t) (ho : Orderly s l) : Intact t := by
  cases h with
  | readLock _ hp => exact hs.readOn hp (by rintro _ ⟨⟩) trivial
  | load hp =>
    simp only [Orderly, hp] at ho
    exact hs.load hp ho
  | print hp _ => exact hs.readOn hp (fun _ hold => Or.inl hold) trivial
  | printAgain hp _ => exact hs.readOn hp (by rintro _ ⟨⟩) trivial
  | readUnlock hp => exact hs.readUnlock hp
  | printFault hp he => exact absurd he (hs.read_error (by rw [hp]; rfl))
  | printAgainFault hp he => exact absurd he (hs.read_error (by rw [hp]; rfl))
  | writeLock _ _ hp _ =>
    refine hs.writeOn rfl ?_ ?_ rfl trivial <;> simp [hp, Call.owns, Call.Guards]
  | kmalloc _ _ _ hp => exact hs.kmalloc hp
  | kmallocNull hp =>
    refine hs.writeOn rfl ?_ ?_ rfl trivial <;> simp [hp, Call.owns, Call.Guards]
  | store hp hstore => exact hs.store hp hstore
  | storeFault hp hstore => exact hs.storeFault hp hstore
  | loadOld hp =>
    refine hs.writeOn rfl ?_ ?_ rfl trivial <;> simp [hp, Call.owns, Call.Guards]
  | assign hp =>
    simp only [Orderly, hp] at ho
    exact hs.assign hp ho.1 ho.2
  | synchronizeRcu hp => exact hs.synchronizeRcu hp
  | synchronized hp hgrace => exact hs.synchronized hp hgrace
  | kfree hp hfree => exact hs.kfree hp hfree
  | kfreeFault hp he => exact absurd he (hs.kfree_error hp)
  | writeUnlock hp =>
    refine hs.writeOn rfl ?_ ?_ rfl trivial <;> simp [hp, Call.owns, Call.Guards]
  | unknown _ _ => exact hs
  | cdevAdd hl | spinLockInit hl | initKmallocNull hl | exitLock hl _ | exitLoad hl
  | exitUnlock hl | cdevDel hl =>
    refine hs.lifeGoOn rfl rfl rfl rfl ?_ ?_ trivial ?_ <;>
      simp [hl, Life.owns, Life.Freeing, Life.Closed]
  | initKmalloc _ _ _ hl => exact hs.initKmalloc hl
  | initStore hl hstore =>
    refine hs.lifeGoOn rfl rfl (Ledger.live_writeAt hstore) rfl ?_ ?_ trivial ?_ <;>
      simp [hl, Life.owns, Life.Freeing, Life.Closed]
  | initStoreFault hl he => exact hs.initStoreFault hl he
  | initAssign hl =>
    have hnone : s.myData = none := by
      apply hs.closed
      rw [hl]
      trivial
    refine hs.handOver hnone (by rw [hl]; rfl) (Or.inr hnone) ?_ trivial ?_
    · simp [hl, Life.Freeing]
    · rintro ⟨⟩
  | exitClear hl =>
    simp only [Orderly, hl] at ho
    refine hs.handOver ho (by rw [hl]; rfl) (Or.inl trivial) ?_ trivial fun _ => rfl
    simp [hl, Life.Freeing]
  | exitKfree hl hfree =>
    simp only [Orderly, hl] at ho
    exact hs.exitKfree hl hfree ho
  | exitKfreeFault hl he => exact absurd he (hs.exitKfree_error hl)

/-- No reader has dereferenced `NULL`, nothing is accessed or freed after it was freed, and when the
exit and all calls have finished every cell that was allocated has been freed once. -/
structure Sound (s : System P A w) : Prop where
  read : ∀ p e, s.call p ≠ .read (.faulted e)
  write : ∀ p arg, s.call p ≠ .write arg (.faulted .freed)
  life : s.life ≠ .faulted .freed
  freed : s.life = .unloaded → (∀ p, s.call p = .read .idle) → s.heap.AllFreed

omit [DecidableEq P] [DecidableEq A] in
lemma Intact.sound (hs : Intact s) : Sound s := by
  refine ⟨?_, ?_, ?_, ?_⟩
  · intro p e hp
    have hcalm := hs.calm p
    rw [hp] at hcalm
    exact hcalm
  · intro p arg hp
    have hcalm := hs.calm p
    rw [hp] at hcalm
    exact hcalm
  · intro hl
    have hcalm := hs.lifeCalm
    rw [hl] at hcalm
    exact hcalm
  · intro hl hidle
    rw [Ledger.allFreed_iff]
    intro a
    by_contra ha
    obtain ⟨o, ho⟩ := (hs.owned.live_iff a).mp (by simpa using ha)
    cases o with
    | myData =>
      have hnone : s.myData = none := by
        apply hs.closed
        rw [hl]
        trivial
      have hsome : s.myData = some a := ho
      rw [hnone] at hsome
      cases hsome
    | process p => simp [owns, hidle p, Call.owns] at ho
    | life => simp [owns, hl, Life.owns] at ho

theorem module_life_safe (h : Run (Guarded Step Orderly) (.init junk) ls s) : Sound s := by
  have hintact : Intact s :=
    h.invariant (fun _ _ _ hs hstep => intact_step hs hstep.1 hstep.2) (intact_init junk)
  exact hintact.sound

theorem null_load_faults {p : P} (hp : s.call p = .read .locked) (hdata : s.myData = none) :
    ∃ t, Run Step s [some p, some p] t ∧ t.call p = .read (.faulted .null) := by
  have hloaded : (s.set p (.read (.loaded s.myData))).call p = .read (.loaded none) := by
    simp [System.set, hdata]
  refine ⟨_, .cons (.load hp) (.single (.printFault hloaded rfl)), ?_⟩
  simp [System.set]

theorem held_kfree_faults {p : P} {a : A} (hl : s.life = .kfree (some a))
    (ha : s.heap.live a = true) (hp : (s.call p).held = some (some a)) :
    ∃ t, Run Step s [none, some p] t ∧ t.call p = .read (.faulted .freed) := by
  have hfree : s.heap.kfreeAt (some a) = .ok (s.heap.freed a ha) := Ledger.kfree_of_live ha
  have hread : (s.heap.freed a ha).readAt (some a) = .error .freed := by
    simp [Ledger.readAt, Heap.read]
  have hexit : Step s none { s with heap := s.heap.freed a ha, life := .unlock } :=
    .exitKfree hl hfree
  cases hc : s.call p with
  | write arg ph =>
    rw [hc] at hp
    cases hp
  | read ph =>
    rw [hc] at hp
    cases ph with
    | loaded old =>
      cases hp
      refine ⟨_, .cons hexit (.single (.printFault hc hread)), ?_⟩
      simp [System.set]
    | printed old data =>
      cases hp
      refine ⟨_, .cons hexit (.single (.printAgainFault hc hread)), ?_⟩
      simp [System.set]
    | _ => cases hp

end Steps

section Examples

variable {P A : Type} {w : ℕ} [DecidableEq P] [DecidableEq A]

structure Ready (s : System P A w) (a : A) : Prop where
  life : s.life = .running
  myData : s.myData = some a
  myLock : s.myLock = false
  idle : ∀ p, s.call p = .read .idle
  live : s.heap.live a = true

lemma load_ready (junk : A → BitVec w) (a : A) :
    ∃ s : System P A w, Run (Guarded Step Orderly) (.init junk) [none, none, none, none, none] s ∧
      Ready s a := by
  have hlive : ((.empty junk : Ledger A (BitVec w)).kmalloc a 0 rfl).live a = true :=
    Function.update_self ..
  refine ⟨_, .cons ⟨.cdevAdd rfl, trivial⟩ <| .cons ⟨.spinLockInit rfl, trivial⟩ <|
    .cons ⟨.initKmalloc a 0 rfl rfl, trivial⟩ <|
    .cons ⟨.initStore rfl (Ledger.write_of_live hlive 0), trivial⟩ <|
    .single ⟨.initAssign rfl, trivial⟩, rfl, rfl, rfl, fun _ => rfl, ?_⟩
  exact hlive

omit [DecidableEq A] in
lemma call_set (s : System P A w) (p : P) (c : Call A w) : (s.set p c).call p = c :=
  Function.update_self ..

omit [DecidableEq A] in
lemma set_set (s : System P A w) (p : P) (c c' : Call A w) : (s.set p c).set p c' = s.set p c' := by
  simp [System.set]

omit [DecidableEq A] in
lemma orderly_read (s : System P A w) (p : P) {ph : ReadPhase (Option A) w} (hph : ph ≠ .locked) :
    Orderly (s.set p (.read ph)) (some p) := by
  cases ph <;> simp_all [Orderly, call_set]

lemma Ready.read {s : System P A w} {a : A} (h : Ready s a) (p : P) :
    ∃ t, Run (Guarded Step Orderly) s [some p, some p, some p, some p, some p] t ∧ Ready t a := by
  have hread : s.heap.readAt s.myData = .ok (s.heap.val a) := by
    rw [h.myData]
    exact Ledger.read_of_live h.live
  have hlock : Step s (some p) (s.set p (.read .locked)) :=
    .readLock (by rw [h.life]; rfl) (h.idle p)
  have hload : Step (s.set p (.read .locked)) (some p) (s.set p (.read (.loaded s.myData))) := by
    have hstep := Step.load (call_set s p (.read .locked))
    rwa [set_set] at hstep
  have hprint : Step (s.set p (.read (.loaded s.myData))) (some p)
      (s.set p (.read (.printed s.myData (s.heap.val a)))) := by
    have hstep := Step.print (call_set s p (.read (.loaded s.myData))) hread
    rwa [set_set] at hstep
  have hagain : Step (s.set p (.read (.printed s.myData (s.heap.val a)))) (some p)
      (s.set p (.read (.reprinted (s.heap.val a) (s.heap.val a)))) := by
    have hstep :=
      Step.printAgain (call_set s p (.read (.printed s.myData (s.heap.val a)))) hread
    rwa [set_set] at hstep
  have hidle : Orderly s (some p) := by simp [Orderly, h.idle p]
  have hlocked : Orderly (s.set p (.read .locked)) (some p) := by
    simp only [Orderly, call_set]
    simp [System.set, h.myData]
  refine ⟨_, .cons ⟨hlock, hidle⟩ <| .cons ⟨hload, hlocked⟩ <|
    .cons ⟨hprint, orderly_read s p (by simp)⟩ <| .cons ⟨hagain, orderly_read s p (by simp)⟩ <|
    .single ⟨.readUnlock (call_set ..), orderly_read s p (by simp)⟩,
    h.life, h.myData, h.myLock, ?_, h.live⟩
  intro q
  by_cases hq : q = p
  · subst hq
    exact call_set ..
  · simp [System.set, hq, h.idle q]

lemma Ready.exit {s : System P A w} {a : A} (h : Ready s a) :
    ∃ t, Run (Guarded Step Orderly) s [none, none, none, none, none, none] t ∧
      t.life = .unloaded ∧ ∀ p, t.call p = .read .idle := by
  have hfree : s.heap.kfreeAt s.myData = .ok (s.heap.freed a h.live) := by
    rw [h.myData]
    exact Ledger.kfree_of_live h.live
  have horderly : Orderly s none := by simp [Orderly, h.life]
  refine ⟨_, .cons ⟨.exitLock h.life h.myLock, horderly⟩ <| .cons ⟨.exitLoad rfl, trivial⟩ <|
    .cons ⟨.exitClear rfl, rfl⟩ <| .cons ⟨.exitKfree rfl hfree, ?_⟩ <|
    .cons ⟨.exitUnlock rfl, trivial⟩ <| .single ⟨.cdevDel rfl, trivial⟩, rfl, h.idle⟩
  intro p
  simp [h.idle p, Call.held, ReadPhase.held]

theorem module_life_safe_read : ∃ s : System ℕ ℕ 64,
    Run (Guarded Step Orderly) (.init fun _ => 0)
      [none, none, none, none, none, some 3, some 3, some 3, some 3, some 3, none, none, none, none,
        none, none] s ∧ s.heap.AllFreed := by
  obtain ⟨loaded, hload, hready⟩ := load_ready (P := ℕ) (fun _ : ℕ => (0 : BitVec 64)) 0
  obtain ⟨after, hread, hready⟩ := hready.read 3
  obtain ⟨s, hexit, hlife, hidle⟩ := hready.exit
  have hrun := hload.append (hread.append hexit)
  exact ⟨s, hrun, (module_life_safe hrun).freed hlife hidle⟩

theorem load_before_assign :
    ¬ ∀ (ls : List (Option ℕ)) (s : System ℕ ℕ 64), Run Step (.init fun _ => 0) ls s → Sound s := by
  intro hall
  have hrun : Run Step (.init fun _ => 0 : System ℕ ℕ 64) [none, some 3, some 3, some 3] _ :=
    .cons (.cdevAdd rfl) <| .cons (.readLock rfl rfl) <| .cons (.load rfl) <|
    .single (.printFault rfl rfl)
  exact (hall _ _ hrun).read 3 .null rfl

end Examples

end EmbeddedSystem.Challenge9.Lifecycle
