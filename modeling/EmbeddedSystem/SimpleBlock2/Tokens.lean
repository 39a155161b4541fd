import EmbeddedSystem.Foundations.Runs
import EmbeddedSystem.SimpleBlock2.Driver

namespace EmbeddedSystem.SimpleBlock2

open Foundations

variable {P : Type} [DecidableEq P] {s t : System P} {l : P × Move} {ls : List (P × Move)}

def Allowed (s : System P) : P × Move → Prop
  | (_, .produce _ arg) => 0 ≤ arg.toInt ∧ ¬ s.myData.saddOverflow arg
  | (_, .consume) => ¬ s.myData.ssubOverflow 1
  | (_, .unknown) => False
  | _ => True

def Move.produced : Move → ℤ
  | .produce _ arg => arg.toInt
  | _ => 0

def produced (ls : List (P × Move)) : ℤ := (ls.map fun l => l.2.produced).sum

def consumed (ls : List (P × Move)) : ℕ := ls.countP fun l => l.2 = .consume

def Holds (s : System P) (l : P × Move) : Prop := l.2 = .consume → 0 < s.myData.toInt

lemma step_data (h : Guarded Step Allowed s l t) :
    t.myData.toInt = s.myData.toInt + l.2.produced - if l.2 = .consume then 1 else 0 := by
  obtain ⟨hs, hallowed⟩ := h
  cases hs with
  | consume =>
    have hone : (1 : BitVec 64).toInt = 1 := by decide
    have hsub := BitVec.toInt_sub_of_not_ssubOverflow hallowed
    simpa [Move.produced, System.set, hone] using hsub
  | produce =>
    have hadd := BitVec.toInt_add_of_not_saddOverflow hallowed.2
    simpa [Move.produced, System.set] using hadd
  | _ => simp [Move.produced, System.set, System.wakeUp]

omit [DecidableEq P] in
lemma produced_snoc (ls : List (P × Move)) (l : P × Move) :
    produced (ls ++ [l]) = produced ls + l.2.produced := by
  simp [produced]

omit [DecidableEq P] in
lemma consumed_snoc (ls : List (P × Move)) (l : P × Move) :
    consumed (ls ++ [l]) = consumed ls + if l.2 = .consume then 1 else 0 := by
  rw [consumed, List.countP_append]
  by_cases hl : l.2 = .consume <;> simp [consumed, hl]

lemma data_run (h : Run (Guarded Step Allowed) (.init : System P) ls s) :
    s.myData.toInt = produced ls - consumed ls := by
  apply h.induct_right (M := fun ls s => s.myData.toInt = produced ls - consumed ls)
  · rfl
  · intro ls s l t _ ih hs
    rw [step_data hs, ih, produced_snoc, consumed_snoc]
    push_cast
    ring

lemma nonneg_step_iff (hs : 0 ≤ s.myData.toInt) (h : Guarded Step Allowed s l t) :
    0 ≤ t.myData.toInt ↔ Holds s l := by
  have hproduced : 0 ≤ l.2.produced := by
    obtain ⟨p, m⟩ := l
    cases m with
    | produce all arg => exact h.2.1
    | _ => exact le_rfl
  rw [step_data h, Holds]
  by_cases hl : l.2 = .consume
  · simp only [hl, Move.produced, if_true, true_imp_iff]
    omega
  · rw [if_neg hl]
    exact iff_of_true (by omega) fun hc => absurd hc hl

theorem tokens_kept_iff (ls : List (P × Move)) :
    (∀ js ks t, ls = js ++ ks → Run (Guarded Step Allowed) .init js t →
      0 ≤ t.myData.toInt ∧ (consumed js : ℤ) ≤ produced js) ↔
      ∀ js p ks t u, ls = js ++ (p, .consume) :: ks → Run (Guarded Step Allowed) .init js t →
        Guarded Step Allowed t (p, .consume) u → 0 < t.myData.toInt := by
  have hinit : 0 ≤ (.init : System P).myData.toInt := le_rfl
  have hstep : ∀ (t : System P) (l : P × Move) (u : System P), 0 ≤ t.myData.toInt → True →
      Guarded Step Allowed t l u → (0 ≤ u.myData.toInt ↔ Holds t l) :=
    fun t l u ht _ hu => nonneg_step_iff ht hu
  have hstays : (∀ js ks t, ls = js ++ ks → Run (Guarded Step Allowed) .init js t →
      0 ≤ t.myData.toInt) ↔
        ∀ js l ks t u, ls = js ++ l :: ks → Run (Guarded Step Allowed) .init js t →
          Guarded Step Allowed t l u → Holds t l :=
    Run.stays_iff hinit hstep fun _ _ => trivial
  constructor
  · intro h js p ks t u hsplit ht hu
    exact hstays.mp (fun js ks t hsplit ht => (h js ks t hsplit ht).1) js (p, .consume) ks t u
      hsplit ht hu rfl
  · intro h js ks t hsplit ht
    have hnonneg : 0 ≤ t.myData.toInt := by
      apply hstays.mpr _ js ks t hsplit ht
      rintro js ⟨p, m⟩ ks t u hsplit ht hu rfl
      exact h js p ks t u hsplit ht hu
    have hdata := data_run ht
    exact ⟨hnonneg, by omega⟩

theorem token_overdrawn : ¬ ∀ (ls : List (Fin 3 × Move)) (s : System (Fin 3)),
    Run (Guarded Step Allowed) .init ls s → 0 ≤ s.myData.toInt := by
  intro h
  obtain ⟨s, hrun, hneg⟩ : ∃ s : System (Fin 3), Run (Guarded Step Allowed) .init
      [(0, .produce false 1), (1, .wait false), (1, .test true), (2, .wait true), (2, .test true),
        (1, .consume), (2, .consume)] s ∧ s.myData.toInt = -1 :=
    ⟨_, .cons ⟨.produce rfl, by decide, by decide⟩ (.cons ⟨.wait rfl, trivial⟩
      (.cons ⟨.enterTrue rfl (by decide), trivial⟩ (.cons ⟨.wait rfl, trivial⟩
      (.cons ⟨.enterTrue rfl (by decide), trivial⟩ (.cons ⟨.consume rfl, Bool.false_ne_true⟩
      (.cons ⟨.consume rfl, Bool.false_ne_true⟩ .nil)))))), by decide⟩
  have := h _ s hrun
  omega

end EmbeddedSystem.SimpleBlock2
