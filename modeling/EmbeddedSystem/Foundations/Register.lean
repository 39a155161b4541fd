import EmbeddedSystem.Foundations.Runs

/-! The atomic register: a read and a write each take effect in one step between their start and
their end. -/

namespace EmbeddedSystem.Foundations.Register

variable {P V : Type*}

inductive Call (V : Type*)
  | idle | reading
  | sampled (v : V)
  | writing (v : V)
  | written

structure State (P V : Type*) where
  value : V
  call : P → Call V

inductive Move (V : Type*)
  | readCall | sample
  | readReturn (v : V)
  | writeCall (v : V)
  | assign (v : V)
  | writeReturn

structure History (P V : Type*) where
  value : V
  window : P → List V

variable [DecidableEq P]

def State.init (v : V) : State P V := ⟨v, fun _ => .idle⟩

def State.set (s : State P V) (p : P) (c : Call V) : State P V :=
  { s with call := Function.update s.call p c }

inductive Step (s : State P V) : P × Move V → State P V → Prop
  | readCall {p : P} : s.call p = .idle → Step s (p, .readCall) (s.set p .reading)
  | sample {p : P} : s.call p = .reading → Step s (p, .sample) (s.set p (.sampled s.value))
  | readReturn {p : P} {v : V} :
      s.call p = .sampled v → Step s (p, .readReturn v) (s.set p .idle)
  | writeCall {p : P} {v : V} : s.call p = .idle → Step s (p, .writeCall v) (s.set p (.writing v))
  | assign {p : P} {v : V} :
      s.call p = .writing v → Step s (p, .assign v) ({ s with value := v }.set p .written)
  | writeReturn {p : P} : s.call p = .written → Step s (p, .writeReturn) (s.set p .idle)

def History.init (v : V) : History P V := ⟨v, fun _ => [v]⟩

def History.observe (h : History P V) : P × Move V → History P V
  | (p, .readCall) => { h with window := Function.update h.window p [h.value] }
  | (_, .assign v) => ⟨v, fun q => h.window q ++ [v]⟩
  | _ => h

def history (v : V) (ls : List (P × Move V)) : History P V := ls.foldl History.observe (.init v)

structure Follows (s : State P V) (h : History P V) : Prop where
  value : s.value = h.value
  reading : ∀ p, s.call p = .reading → h.value ∈ h.window p
  sampled : ∀ p v, s.call p = .sampled v → v ∈ h.window p

section Runs

variable {s t : State P V} {h : History P V} {p : P} {m : Move V}

lemma Follows.set (hf : Follows s h) {c : Call V} (hreading : c = .reading → h.value ∈ h.window p)
    (hsampled : ∀ v, c = .sampled v → v ∈ h.window p) : Follows (s.set p c) h := by
  refine ⟨hf.value, ?_, ?_⟩
  · apply (Function.forall_update_iff s.call fun q c => c = .reading → h.value ∈ h.window q).mpr
    exact ⟨hreading, fun q _ => hf.reading q⟩
  · apply (Function.forall_update_iff s.call fun q c => ∀ v, c = .sampled v → v ∈ h.window q).mpr
    exact ⟨hsampled, fun q _ => hf.sampled q⟩

lemma opened_window (h : History P V) (p : P) :
    h.value ∈ (h.observe (p, (.readCall : Move V))).window p := by
  simp [History.observe]

lemma Follows.open (hf : Follows s h) (hp : s.call p = .idle) :
    Follows s (h.observe (p, .readCall)) := by
  refine ⟨hf.value, ?_, ?_⟩
  · intro q hq
    have hqp : q ≠ p := by
      rintro rfl
      rw [hp] at hq
      cases hq
    simp only [History.observe, Function.update_of_ne hqp]
    exact hf.reading q hq
  · intro q v hq
    have hqp : q ≠ p := by
      rintro rfl
      rw [hp] at hq
      cases hq
    simp only [History.observe, Function.update_of_ne hqp]
    exact hf.sampled q v hq

lemma Follows.assign (hf : Follows s h) (p : P) (v : V) :
    Follows { s with value := v } (h.observe (p, .assign v)) := by
  refine ⟨rfl, ?_, ?_⟩
  · intro q _
    simp [History.observe]
  · intro q x hq
    have hx := hf.sampled q x hq
    simp [History.observe, hx]

lemma follows_step (hf : Follows s h) (hs : Step s (p, m) t) : Follows t (h.observe (p, m)) := by
  cases hs with
  | readCall hp =>
    apply (hf.open hp).set
    · intro _
      exact opened_window h p
    · intro v hv
      cases hv
  | sample hp =>
    apply hf.set
    · intro hc
      cases hc
    · intro v hv
      cases hv
      rw [hf.value]
      exact hf.reading p hp
  | assign hp =>
    apply (hf.assign p _).set
    · intro hc
      cases hc
    · intro v hv
      cases hv
  | readReturn | writeCall | writeReturn =>
    apply hf.set
    · intro hc
      cases hc
    · intro v hv
      cases hv

lemma follows_run {v : V} {ls : List (P × Move V)} (hr : Run Step (State.init v) ls s) :
    Follows s (history v ls) := by
  have hstep : ∀ (s : State P V) (h : History P V) l t, Follows s h → Step s l t →
      Follows t (h.observe l) := by
    rintro s h ⟨p, m⟩ t hf hs
    exact follows_step hf hs
  refine hr.observed hstep ⟨rfl, ?_, ?_⟩
  · intro p hp
    cases hp
  · intro p x hp
    cases hp

end Runs

section Rising

/-! A register whose values rise. -/

variable {L : Type*} [SemilatticeSup L] {rank : V → L}

/-- The highest rank that a read has shown, and for each process what it was at the start of its
last read. A read shows what it has sampled when it returns, or before. -/
structure Seen (P L : Type*) where
  best : L
  floor : P → L

def Seen.init (l : L) : Seen P L := ⟨l, fun _ => l⟩

def Seen.shown (g : Seen P L) (l : L) : Seen P L := { g with best := g.best ⊔ l }

def Seen.observe (rank : V → L) (g : Seen P L) : P × Move V → Seen P L
  | (p, .readCall) => { g with floor := Function.update g.floor p g.best }
  | (_, .readReturn v) => g.shown (rank v)
  | _ => g

structure Rising (rank : V → L) (s : State P V) (g : Seen P L) : Prop where
  best : g.best ≤ rank s.value
  reading : ∀ p, s.call p = .reading → g.floor p ≤ rank s.value
  sampled : ∀ p v, s.call p = .sampled v → g.floor p ≤ rank v ∧ rank v ≤ rank s.value

def Raises (rank : V → L) (s : State P V) : P × Move V → Prop
  | (_, .assign v) => rank s.value ≤ rank v
  | _ => True

variable {s t : State P V} {g : Seen P L} {p : P} {m : Move V}

lemma Rising.set (h : Rising rank s g) {c : Call V}
    (hreading : c = .reading → g.floor p ≤ rank s.value)
    (hsampled : ∀ v, c = .sampled v → g.floor p ≤ rank v ∧ rank v ≤ rank s.value) :
    Rising rank (s.set p c) g := by
  refine ⟨h.best, ?_, ?_⟩
  · apply (Function.forall_update_iff s.call fun q c => c = .reading → g.floor q ≤ _).mpr
    exact ⟨hreading, fun q _ => h.reading q⟩
  · apply (Function.forall_update_iff s.call fun q c =>
      ∀ v, c = .sampled v → g.floor q ≤ rank v ∧ rank v ≤ _).mpr
    exact ⟨hsampled, fun q _ => h.sampled q⟩

omit [DecidableEq P] in
lemma Rising.shown (h : Rising rank s g) {v : V} (hp : s.call p = .sampled v) :
    Rising rank s (g.shown (rank v)) :=
  ⟨sup_le h.best (h.sampled p v hp).2, h.reading, h.sampled⟩

lemma rising_step (h : Rising rank s g) (hs : Step s (p, m) t) (hraises : Raises rank s (p, m)) :
    Rising rank t (g.observe rank (p, m)) := by
  cases hs with
  | readCall hp =>
    have hfloor : Rising rank s (g.observe rank (p, (.readCall : Move V))) := by
      refine ⟨h.best, fun q hq => ?_, fun q v hq => ?_⟩
      all_goals
        have hqp : q ≠ p := by
          rintro rfl
          rw [hp] at hq
          cases hq
        simp only [Seen.observe, Function.update_of_ne hqp]
      · exact h.reading q hq
      · exact h.sampled q v hq
    refine hfloor.set (fun _ => ?_) nofun
    simpa [Seen.observe] using h.best
  | sample hp =>
    refine h.set nofun ?_
    rintro v ⟨⟩
    exact ⟨h.reading p hp, le_rfl⟩
  | @readReturn _ v hp =>
    have hbest : Rising rank s (g.observe rank (p, .readReturn v)) := h.shown hp
    exact hbest.set nofun nofun
  | @assign _ v hp =>
    have hvalue : Rising rank { s with value := v } g :=
      ⟨h.best.trans hraises, fun q hq => (h.reading q hq).trans hraises,
        fun q x hq => ⟨(h.sampled q x hq).1, (h.sampled q x hq).2.trans hraises⟩⟩
    exact hvalue.set nofun nofun
  | writeCall | writeReturn => exact h.set nofun nofun

end Rising

end EmbeddedSystem.Foundations.Register
