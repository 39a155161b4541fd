import Mathlib.Tactic

/-! Computations that run on fuel. Such a computation fails when its fuel runs out, and it may stop
with an error. -/

namespace EmbeddedSystem.Foundations

variable {ε α β : Type}

/-- Too little fuel runs out, and with more of it the computation ends as `x`. -/
def Stops (f : ℕ → OptionT (Except ε) α) (x : Except ε α) : Prop :=
  ∃ n, (∀ m < n, f m = failure) ∧ ∀ m, n ≤ m → f m = (x : OptionT (Except ε) α)

namespace Stops

variable {f : ℕ → OptionT (Except ε) α} {g : ℕ → α → OptionT (Except ε) β} {a : α} {e : ε}
  {x : Except ε α} {y : Except ε β}

lemma done (x : Except ε α) : Stops (fun _ => (x : OptionT (Except ε) α)) x :=
  ⟨0, fun _ hm => absurd hm (Nat.not_lt_zero _), fun _ _ => rfl⟩

lemma lift {y : Except ε α} (h : x = y) : Stops (fun _ => (x : OptionT (Except ε) α)) y := by
  rw [h]
  exact done y

lemma bind (hf : Stops f (.ok a)) (hg : Stops (fun n => g n a) y) :
    Stops (fun n => f n >>= g n) y := by
  obtain ⟨n, hn, hn'⟩ := hf
  obtain ⟨k, hk, hk'⟩ := hg
  have hdone : ∀ m, n ≤ m → (f m >>= g m) = g m a := by
    intro m hm
    rw [hn' m hm]
    rfl
  refine ⟨max n k, ?_, ?_⟩
  · intro m hm
    by_cases hmn : m < n
    · simp only [hn m hmn]
      rfl
    · simp only [hdone m (not_lt.mp hmn)]
      exact hk m ((lt_max_iff.mp hm).resolve_left hmn)
  · intro m hm
    simp only [hdone m (le_of_max_le_left hm)]
    exact hk' m (le_of_max_le_right hm)

lemma error (hf : Stops f (.error e)) : Stops (fun n => f n >>= g n) (.error e : Except ε β) := by
  obtain ⟨n, hn, hn'⟩ := hf
  refine ⟨n, ?_, ?_⟩
  · intro m hm
    simp only [hn m hm]
    rfl
  · intro m hm
    simp only [hn' m hm]
    rfl

lemma followed {y : α → Except ε β} (hf : Stops f x)
    (hg : ∀ a, x = .ok a → Stops (fun n => g n a) (y a)) :
    Stops (fun n => f n >>= g n) (x >>= y) := by
  cases x with
  | error e => exact hf.error
  | ok a => exact hf.bind (hg a rfl)

lemma succ (h₀ : f 0 = failure) (h : Stops (fun n => f (n + 1)) x) : Stops f x := by
  obtain ⟨n, hn, hn'⟩ := h
  refine ⟨n + 1, ?_, ?_⟩
  · rintro (_ | m) hm
    · exact h₀
    · exact hn m (Nat.lt_of_succ_lt_succ hm)
  · rintro (_ | m) hm
    · exact absurd hm (Nat.not_succ_le_zero n)
    · exact hn' m (Nat.le_of_succ_le_succ hm)

lemma run (h : Stops f x) : ∃ n, f n = (x : OptionT (Except ε) α) := by
  obtain ⟨n, -, hn⟩ := h
  exact ⟨n, hn n le_rfl⟩

lemma eq_of_run (h : Stops f x) {n : ℕ} {z : Except ε α} (hn : f n = (z : OptionT (Except ε) α)) :
    z = x := by
  obtain ⟨k, hk, hk'⟩ := h
  obtain hlt | hle := lt_or_ge n k
  · rw [hk n hlt] at hn
    cases z <;> cases hn
  · rw [hk' n hle] at hn
    cases x <;> cases z <;> cases hn <;> rfl

end Stops

/-- Too little fuel runs out, and more fuel gives `r`; no amount of it gives an error. -/
def Returns (f : ℕ → OptionT (Except ε) α) (r : α) : Prop :=
  ∃ n, (∀ m < n, f m = failure) ∧ ∀ m, n ≤ m → f m = pure r

lemma returns_iff {f : ℕ → OptionT (Except ε) α} {a : α} : Returns f a ↔ Stops f (.ok a) := Iff.rfl

namespace Returns

variable {f : ℕ → OptionT (Except ε) α} {g : ℕ → α → OptionT (Except ε) β} {a a' : α} {b : β}

lemma done (a : α) : Returns (fun _ => (pure a : OptionT (Except ε) α)) a := Stops.done (.ok a)

lemma lift {x : Except ε α} (hx : x = .ok a) : Returns (fun _ => (x : OptionT (Except ε) α)) a :=
  Stops.lift hx

lemma bind (hf : Returns f a) (hg : Returns (fun n => g n a) b) :
    Returns (fun n => f n >>= g n) b :=
  Stops.bind (returns_iff.mp hf) (returns_iff.mp hg)

lemma succ (h₀ : f 0 = failure) (h : Returns (fun n => f (n + 1)) a) : Returns f a :=
  Stops.succ h₀ (returns_iff.mp h)

lemma foldlM_left {σ ι : Type} {f : ℕ → σ → ι → OptionT (Except ε) σ} (I : List ι → σ → Prop)
    (hstep : ∀ i is s, I (i :: is) s → ∃ t, Returns (fun n => f n s i) t ∧ I is t) {s : σ}
    {is : List ι} (hs : I is s) : ∃ t, Returns (fun n => is.foldlM (f n) s) t ∧ I [] t := by
  induction is generalizing s with
  | nil => exact ⟨s, done s, hs⟩
  | cons i is ih =>
    obtain ⟨t, ht, hit⟩ := hstep i is s hs
    obtain ⟨u, hu, hiu⟩ := ih hit
    refine ⟨u, ?_, hiu⟩
    simp only [List.foldlM_cons]
    exact ht.bind hu

lemma run (h : Returns f a) : ∃ n, f n = pure a := (returns_iff.mp h).run

lemma eq_of_run (h : Returns f a) {n : ℕ} (hn : f n = pure a') : a' = a :=
  Except.ok.inj ((returns_iff.mp h).eq_of_run hn)

lemma unique (h : Returns f a) (h' : Returns f a') : a = a' := by
  obtain ⟨n, hn⟩ := h.run
  exact h'.eq_of_run hn

end Returns

end EmbeddedSystem.Foundations
