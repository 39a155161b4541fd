import EmbeddedSystem.Foundations.Runs

/-! Critical sections. Any number of processes make calls, each of them a list of steps on a shared
value and on a value of its own, which it takes while it holds the only lock. -/

namespace EmbeddedSystem.Foundations.Sections

variable {P C V W : Type*}

inductive Phase (C V W : Type*)
  | outside
  | waiting (c : C) (w : W)
  | inside (c : C) (before now : W) (rest : List (V × W → V × W))

structure State (P C V W : Type*) where
  shared : V
  lock : Option P
  phase : P → Phase C V W

inductive Move (C W : Type*)
  | call (c : C) (w : W)
  | lock | step
  | unlock (c : C) (before after : W)

def State.init (v : V) : State P C V W := ⟨v, none, fun _ => .outside⟩

def runAll (fs : List (V × W → V × W)) (x : V × W) : V × W := fs.foldl (fun x f => f x) x

lemma runAll_cons (f : V × W → V × W) (fs : List (V × W → V × W)) (x : V × W) :
    runAll (f :: fs) x = runAll fs (f x) := rfl

lemma runAll_append (fs gs : List (V × W → V × W)) (x : V × W) :
    runAll (fs ++ gs) x = runAll gs (runAll fs x) := List.foldl_append ..

inductive Atomic (code : C → List (V × W → V × W)) (v : V) : P × C × W × W → V → Prop
  | call {p : P} {c : C} {w w' : W} {v' : V} :
      runAll (code c) (v, w) = (v', w') → Atomic code v (p, c, w, w') v'

def completed : P × Move C W → Option (P × C × W × W)
  | (p, .unlock c before after) => some (p, c, before, after)
  | _ => none

variable [DecidableEq P]

def State.set (s : State P C V W) (p : P) (ph : Phase C V W) : State P C V W :=
  { s with phase := Function.update s.phase p ph }

inductive Step (code : C → List (V × W → V × W)) (s : State P C V W) :
    P × Move C W → State P C V W → Prop
  | call {p : P} (c : C) (w : W) :
      s.phase p = .outside → Step code s (p, .call c w) (s.set p (.waiting c w))
  | lock {p : P} {c : C} {w : W} :
      s.phase p = .waiting c w → s.lock = none →
      Step code s (p, .lock) ({ s with lock := some p }.set p (.inside c w w (code c)))
  | step {p : P} {c : C} {before now : W} {f : V × W → V × W} {rest : List (V × W → V × W)} :
      s.phase p = .inside c before now (f :: rest) →
      Step code s (p, .step)
        ({ s with shared := (f (s.shared, now)).1 }.set p
          (.inside c before (f (s.shared, now)).2 rest))
  | unlock {p : P} {c : C} {before now : W} :
      s.phase p = .inside c before now [] →
      Step code s (p, .unlock c before now) ({ s with lock := none }.set p .outside)

variable {code : C → List (V × W → V × W)} {s t : State P C V W} {v : V} {p q : P} {c : C}
  {w w' : W} {m : Move C W} {ls : List (P × Move C W)}

structure Pending (code : C → List (V × W → V × W)) (s : State P C V W) (v : V) : Prop where
  free : s.lock = none → s.shared = v
  inside : ∀ p c before now rest, s.phase p = .inside c before now rest → s.lock = some p ∧
    ∃ ran, code c = ran ++ rest ∧ runAll ran (v, before) = (s.shared, now)

lemma phase_set_self (s : State P C V W) (p : P) (ph : Phase C V W) :
    (s.set p ph).phase p = ph := by
  simp [State.set]

lemma phase_set_of_ne (s : State P C V W) (ph : Phase C V W) (h : q ≠ p) :
    (s.set p ph).phase q = s.phase q := by
  simp [State.set, h]

omit [DecidableEq P] in
lemma pending_init (code : C → List (V × W → V × W)) (v : V) :
    Pending code (.init v : State P C V W) v := by
  refine ⟨fun _ => rfl, ?_⟩
  intro p c before now rest hp
  cases hp

omit [DecidableEq P] in
lemma Pending.not_inside (h : Pending code s v) (hlock : s.lock ≠ some q) :
    ∀ c before now rest, s.phase q ≠ .inside c before now rest :=
  fun c before now rest hq => hlock (h.inside q c before now rest hq).1

lemma Pending.enter (h : Pending code s v) (hlock : ∀ q ≠ p, s.lock ≠ some q)
    {ran rest : List (V × W → V × W)} {v' : V} (hcode : code c = ran ++ rest)
    (hran : runAll ran (v, w) = (v', w')) :
    Pending code (State.set ⟨v', some p, s.phase⟩ p (.inside c w w' rest)) v := by
  constructor
  · intro hnone
    cases hnone
  · intro q c' before now rest' hq
    by_cases hqp : q = p
    · subst hqp
      rw [phase_set_self] at hq
      cases hq
      exact ⟨rfl, ran, hcode, hran⟩
    · rw [phase_set_of_ne _ _ hqp] at hq
      exact absurd hq (h.not_inside (hlock q hqp) _ _ _ _)

lemma Pending.leave (h : Pending code s v) (hlock : ∀ q ≠ p, s.lock ≠ some q) :
    Pending code (State.set ⟨s.shared, none, s.phase⟩ p .outside) s.shared := by
  refine ⟨fun _ => rfl, ?_⟩
  intro q c before now rest hq
  by_cases hqp : q = p
  · subst hqp
    rw [phase_set_self] at hq
    cases hq
  · rw [phase_set_of_ne _ _ hqp] at hq
    exact absurd hq (h.not_inside (hlock q hqp) _ _ _ _)

lemma unlock_result (h : Pending code s v) (hs : Step code s (p, .unlock c w w') t) :
    s.lock = some p ∧ runAll (code c) (v, w) = (s.shared, w') := by
  cases hs with
  | unlock hp =>
    obtain ⟨hlock, ran, hcode, hran⟩ := h.inside _ _ _ _ _ hp
    rw [hcode, List.append_nil]
    exact ⟨hlock, hran⟩

lemma pending_step (h : Pending code s v) (hs : Step code s (p, m) t) :
    ∃ v', Silent (Atomic code) v (completed (p, m)) v' ∧ Pending code t v' := by
  have hother : s.lock = some p → ∀ q ≠ p, s.lock ≠ some q := by
    intro hlock q hqp hq
    rw [hlock] at hq
    exact hqp (Option.some.inj hq).symm
  cases hs with
  | call c w hp =>
    refine ⟨v, rfl, h.free, ?_⟩
    intro q c' before now rest hq
    by_cases hqp : q = p
    · subst hqp
      rw [phase_set_self] at hq
      cases hq
    · rw [phase_set_of_ne _ _ hqp] at hq
      exact h.inside q c' before now rest hq
  | lock hp hlock =>
    have hfree : ∀ q ≠ p, s.lock ≠ some q := by
      intro q _
      simp [hlock]
    refine ⟨v, rfl, h.enter hfree (List.nil_append _).symm ?_⟩
    rw [← h.free hlock]
    rfl
  | @step _ c before now f rest hp =>
    obtain ⟨hlock, ran, hcode, hran⟩ := h.inside _ _ _ _ _ hp
    have hsnoc : runAll (ran ++ [f]) (v, before) = f (s.shared, now) := by
      rw [runAll_append, hran]
      rfl
    have hstep := h.enter (hother hlock) (hcode.trans (List.append_cons ..)) hsnoc
    rw [← hlock] at hstep
    exact ⟨v, rfl, hstep⟩
  | unlock hp =>
    obtain ⟨hlock, hresult⟩ := unlock_result h (.unlock hp)
    exact ⟨s.shared, Atomic.call hresult, h.leave (hother hlock)⟩

lemma atomic_run {v₀ : V} (h : Run (Step code) (.init v₀) ls s) :
    ∃ v, Run (Atomic code) v₀ (ls.filterMap completed) v ∧ Pending code s v := by
  have hsim : ∀ (s : State P C V W) v l t, Pending code s v → Step code s l t →
      ∃ v', Silent (Atomic code) v (completed l) v' ∧ Pending code t v' := by
    rintro s v ⟨p, m⟩ t hp hs
    exact pending_step hp hs
  exact h.simulate_silent hsim (pending_init code v₀)

lemma steps_run (code : C → List (V × W → V × W)) {now : W} {rest : List (V × W → V × W)}
    (hp : s.phase p = .inside c w now rest) :
    ∃ t, Run (Step code) s (List.replicate rest.length (p, .step)) t ∧
      t.phase p = .inside c w (runAll rest (s.shared, now)).2 [] ∧
      (∀ q ≠ p, t.phase q = s.phase q) := by
  induction rest generalizing s now with
  | nil => exact ⟨s, .nil, hp, fun _ _ => rfl⟩
  | cons f rest ih =>
    obtain ⟨t, hrun, hdone, hother⟩ := ih (phase_set_self
      { s with shared := (f (s.shared, now)).1 } p (.inside c w (f (s.shared, now)).2 rest))
    refine ⟨t, .cons (.step hp) hrun, hdone, fun q hq => ?_⟩
    rw [hother q hq, phase_set_of_ne _ _ hq]

lemma call_run (code : C → List (V × W → V × W)) (hp : s.phase p = .outside)
    (hlock : s.lock = none) (c : C) (w : W) :
    ∃ ls t, Run (Step code) s ls t ∧ ls.filterMap completed = [] ∧
      t.phase p = .inside c w (runAll (code c) (s.shared, w)).2 [] ∧
      (∀ q ≠ p, t.phase q = s.phase q) := by
  obtain ⟨t, hrun, hdone, hother⟩ := steps_run code (phase_set_self
    { s.set p (.waiting c w) with lock := some p } p (.inside c w w (code c)))
  refine ⟨_, t, .cons (.call c w hp) (.cons (.lock (phase_set_self ..) hlock) hrun), ?_, hdone, ?_⟩
  · simp [completed]
  · intro q hq
    rw [hother q hq, phase_set_of_ne _ _ hq]
    exact phase_set_of_ne _ _ hq

end EmbeddedSystem.Foundations.Sections
