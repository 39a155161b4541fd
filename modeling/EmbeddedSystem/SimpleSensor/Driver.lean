import EmbeddedSystem.Foundations.Runs

/-! The driver `simple_sensor.c`: its interrupt is to be on while the device is open. A time is in
nanoseconds. -/

namespace EmbeddedSystem.SimpleSensor

open Foundations

/-- `depth` is the disable depth of `irq_num`, and `requested` says that the line has the handler
`simple_sensor_isr`. -/
structure Driver where
  depth : ℕ
  requested : Bool
  start : ℤ
  recent : ℤ
  deriving DecidableEq

def Driver.Enabled (d : Driver) : Prop := d.depth = 0

def disableIrq (d : Driver) : Driver := { d with depth := d.depth + 1 }

def enableIrq (d : Driver) : Driver := { d with depth := d.depth - 1 }

def simpleSensorOpen (d : Driver) (now : ℤ) : Driver := { enableIrq d with start := now }

def simpleSensorRelease (d : Driver) : Driver := disableIrq d

def simpleSensorIsr (d : Driver) (now : ℤ) : Driver := { d with recent := now }

/-- `ret` is the result of `request_irq`, which enables the line when it succeeds. -/
def simpleSensorInit (ret : ℤ) : Driver :=
  if ret ≠ 0 then ⟨1, false, 0, 0⟩ else disableIrq ⟨0, true, 0, 0⟩

structure System (P : Type) where
  driver : Driver
  opens : List P

variable {P : Type} [DecidableEq P]

inductive Call (P : Type)
  | opened (p : P) (now : ℤ)
  | released (p : P)
  | isr (now : ℤ)
  deriving DecidableEq

def System.init : System P := ⟨simpleSensorInit 0, []⟩

inductive Step (s : System P) : Call P → System P → Prop
  | opened (p : P) (now : ℤ) :
      Step s (.opened p now) ⟨simpleSensorOpen s.driver now, p :: s.opens⟩
  | released {p : P} :
      p ∈ s.opens → Step s (.released p) ⟨simpleSensorRelease s.driver, s.opens.erase p⟩
  | isr (now : ℤ) :
      s.driver.requested = true → s.driver.Enabled →
      Step s (.isr now) { s with driver := simpleSensorIsr s.driver now }

def Matched (s : System P) : Prop := s.driver.Enabled ↔ s.opens ≠ []

def Balanced (s : System P) : Prop := s.driver.depth = if s.opens = [] then 1 else 0

def Alone (s : System P) (c : Call P) : Prop := ∀ p, c = .released p → s.opens = [p]

variable {s t : System P} {c : Call P}

omit [DecidableEq P] in
lemma Balanced.matched (hs : Balanced s) : Matched s := by
  unfold Matched Driver.Enabled
  rw [hs]
  by_cases hopens : s.opens = [] <;> simp [hopens]

omit [DecidableEq P] in
lemma balanced_init : Balanced (.init : System P) := rfl

lemma erase_eq_nil_iff {p : P} {opens : List P} (hp : p ∈ opens) :
    opens.erase p = [] ↔ opens = [p] := by
  rw [List.erase_eq_nil_iff]
  constructor
  · rintro (rfl | h)
    · cases hp
    · exact h
  · exact Or.inr

lemma balanced_step_iff (hs : Balanced s) (h : Step s c t) : Balanced t ↔ Alone s c := by
  cases h with
  | opened p now =>
    have hdepth : s.driver.depth - 1 = 0 := by
      rw [hs]
      split <;> rfl
    exact iff_of_true (by simpa [Balanced, simpleSensorOpen, enableIrq] using hdepth)
      fun _ he => nomatch he
  | @released p hp =>
    have hopen : s.opens ≠ [] := List.ne_nil_of_mem hp
    have hdepth : s.driver.depth = 0 := by rw [hs, if_neg hopen]
    have halone : Alone s (.released p) ↔ s.opens = [p] := by
      constructor
      · intro ha
        exact ha p rfl
      · rintro ha q he
        cases he
        exact ha
    rw [halone, ← erase_eq_nil_iff hp]
    by_cases he : s.opens.erase p = [] <;>
      simp [Balanced, simpleSensorRelease, disableIrq, hdepth, he]
  | isr now _ _ =>
    exact iff_of_true hs fun _ he => nomatch he

lemma matched_step_iff (hs : Balanced s) (h : Step s c t) : Matched t ↔ Balanced t := by
  refine ⟨fun ht => ?_, Balanced.matched⟩
  cases h with
  | opened p now => exact (balanced_step_iff hs (.opened p now)).mpr fun _ he => nomatch he
  | @released p hp =>
    have hdepth : s.driver.depth = 0 := by rw [hs, if_neg (List.ne_nil_of_mem hp)]
    have hoff : ¬ (simpleSensorRelease s.driver).Enabled := Nat.succ_ne_zero _
    have hnil : s.opens.erase p = [] := not_not.mp fun he => hoff (ht.mpr he)
    simp [Balanced, simpleSensorRelease, disableIrq, hdepth, hnil]
  | isr now _ _ => exact hs

theorem interrupt_matches_iff (cs : List (Call P)) :
    (∀ js ks t, cs = js ++ ks → Run Step .init js t → Matched t) ↔
      ∀ js p ks t u, cs = js ++ .released p :: ks → Run Step .init js t →
        Step t (.released p) u → t.opens = [p] := by
  have hstays : (∀ js ks t, cs = js ++ ks → Run Step (.init : System P) js t → Balanced t) ↔
      ∀ js c ks t u, cs = js ++ c :: ks → Run Step .init js t → Step t c u → Alone t c :=
    Run.stays_iff balanced_init (fun t c u ht (_ : True) hu => balanced_step_iff ht hu)
      fun _ _ => trivial
  constructor
  · intro h js p ks t u hsplit ht hu
    refine hstays.mp ?_ js (.released p) ks t u hsplit ht hu p rfl
    intro js ks t hsplit ht
    apply ht.induct_prefix (M := fun _ => Balanced) hsplit balanced_init
    intro as c bs t u hbs hat hb hu
    exact (matched_step_iff hb hu).mp (h (as ++ [c]) bs u (by simp [hbs]) (hat.snoc hu))
  · intro h js ks t hsplit ht
    refine (hstays.mpr ?_ js ks t hsplit ht).matched
    rintro js c ks t u hsplit ht hu p rfl
    exact h js p ks t u hsplit ht hu

theorem interrupt_off_while_open : ¬ ∀ (cs : List (Call (Fin 2))) (s : System (Fin 2)),
    Run Step .init cs s → Matched s := by
  intro h
  have hrun : Run Step (.init : System (Fin 2)) [.opened 0 0, .opened 1 0, .released 1] ⟨_, _⟩ :=
    .cons (.opened 0 0) (.cons (.opened 1 0) (.cons (.released (by decide)) .nil))
  have hmatched := h _ _ hrun
  revert hmatched
  simp only [Matched, Driver.Enabled]
  decide

end EmbeddedSystem.SimpleSensor
