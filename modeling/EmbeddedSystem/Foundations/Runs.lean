import Mathlib.Tactic

/-! Finite runs of labelled transition systems: invariants, guarded runs and total executions. -/

namespace EmbeddedSystem.Foundations

variable {σ ι ε : Type*}

inductive Run (Step : σ → ι → σ → Prop) : σ → List ι → σ → Prop
  | nil {s : σ} : Run Step s [] s
  | cons {s t u : σ} {i : ι} {is : List ι} :
      Step s i t → Run Step t is u → Run Step s (i :: is) u

def Guarded (Step : σ → ι → σ → Prop) (C : σ → ι → Prop) (s : σ) (i : ι) (t : σ) : Prop :=
  Step s i t ∧ C s i

def Silent (Step : σ → ι → σ → Prop) (s : σ) : Option ι → σ → Prop
  | none, t => t = s
  | some i, t => Step s i t

namespace Run

variable {Step : σ → ι → σ → Prop} {C : σ → ι → Prop} {I : σ → Prop} {s t u : σ} {i : ι}
  {is js : List ι}

lemma append (h : Run Step s is t) (h' : Run Step t js u) : Run Step s (is ++ js) u := by
  induction h with
  | nil => exact h'
  | cons hs _ ih => exact .cons hs (ih h')

lemma single (h : Step s i t) : Run Step s [i] t := .cons h .nil

lemma snoc (h : Run Step s is t) (h' : Step t i u) : Run Step s (is ++ [i]) u :=
  h.append (single h')

lemma split (h : Run Step s (is ++ js) u) : ∃ t, Run Step s is t ∧ Run Step t js u := by
  induction is generalizing s with
  | nil => exact ⟨s, .nil, h⟩
  | cons i is ih =>
    cases h with
    | cons hs hr =>
      obtain ⟨t, h₁, h₂⟩ := ih hr
      exact ⟨t, .cons hs h₁, h₂⟩

lemma invariant (hstep : ∀ s i t, I s → Step s i t → I t) (h : Run Step s is t) (hs : I s) :
    I t := by
  induction h with
  | nil => exact hs
  | cons he _ ih => exact ih (hstep _ _ _ hs he)

lemma induct_right {M : List ι → σ → Prop} (h : Run Step s is t) (hnil : M [] s)
    (hsnoc : ∀ is t i u, Run Step s is t → M is t → Step t i u → M (is ++ [i]) u) : M is t := by
  induction h generalizing M with
  | nil => exact hnil
  | @cons s t u i is he hr ih =>
    refine ih (M := fun js => M (i :: js)) ?_ ?_
    · exact hsnoc [] s i t .nil hnil he
    · intro js v j w hv hm hj
      exact hsnoc (i :: js) v j w (.cons he hv) hm hj

lemma induct_prefix {M : List ι → σ → Prop} {ls ks : List ι} (h : Run Step s js t)
    (hsplit : ls = js ++ ks) (hnil : M [] s)
    (hsnoc : ∀ is i ks t u, ls = is ++ i :: ks → Run Step s is t → M is t → Step t i u →
      M (is ++ [i]) u) : M js t := by
  apply h.induct_right (M := fun is t => ∀ ks, ls = is ++ ks → M is t) (fun _ _ => hnil) ?_ ks
    hsplit
  intro is t i u hs hm hi ks hks
  have hks' : ls = is ++ i :: ks := by simpa using hks
  exact hsnoc is i ks t u hks' hs (hm _ hks') hi

lemma mono {Step' : σ → ι → σ → Prop} (hm : ∀ s i t, Step s i t → Step' s i t)
    (h : Run Step s is t) : Run Step' s is t := by
  induction h with
  | nil => exact .nil
  | cons he _ ih => exact .cons (hm _ _ _ he) ih

lemma unguard (h : Run (Guarded Step C) s is t) : Run Step s is t :=
  h.mono fun _ _ _ he => he.1

lemma observed {γ : Type*} {obs : γ → ι → γ} {I : σ → γ → Prop}
    (hstep : ∀ s g i t, I s g → Step s i t → I t (obs g i)) (h : Run Step s is t) {g : γ}
    (hs : I s g) : I t (is.foldl obs g) := by
  induction h generalizing g with
  | nil => exact hs
  | cons he _ ih => exact ih (hstep _ _ _ _ hs he)

lemma guard (h : Run Step s is u)
    (hc : ∀ js i ks t v, is = js ++ i :: ks → Run Step s js t → Step t i v → Run Step v ks u →
      C t i) : Run (Guarded Step C) s is u := by
  induction h with
  | nil => exact .nil
  | @cons s t u i is he hr ih =>
    refine .cons ⟨he, hc [] i is s t rfl .nil he hr⟩ (ih ?_)
    rintro js j ks v w rfl hv hw hrest
    exact hc (i :: js) j ks v w rfl (.cons he hv) hw hrest

lemma map {κ : Type*} {Step' : σ → κ → σ → Prop} {f : ι → κ}
    (h : Run (fun s i t => Step' s (f i) t) s is t) : Run Step' s (is.map f) t := by
  induction h with
  | nil => exact .nil
  | cons he _ ih => exact .cons he ih

lemma project {σ' ι' : Type*} {Step' : σ' → ι' → σ' → Prop} {abs : σ → σ'} {lab : ι → Option ι'}
    (hkeep : ∀ s i t, I s → Step s i t → I t)
    (hsim : ∀ s i t, I s → Step s i t → Silent Step' (abs s) (lab i) (abs t)) (hs : I s)
    (h : Run Step s is t) : Run Step' (abs s) (is.filterMap lab) (abs t) := by
  induction h with
  | nil => exact .nil
  | @cons s t u i is he _ ih =>
    have hstep := hsim s i t hs he
    have hrest := ih (hkeep s i t hs he)
    cases hlab : lab i with
    | none =>
      rw [hlab] at hstep
      rw [List.filterMap_cons_none hlab, ← hstep]
      exact hrest
    | some j =>
      rw [hlab] at hstep
      rw [List.filterMap_cons_some hlab]
      exact .cons hstep hrest

lemma congr {Step' : σ → ι → σ → Prop} (hkeep : ∀ s i t, I s → Step s i t → I t)
    (hiff : ∀ s i t, I s → (Step s i t ↔ Step' s i t)) (hs : I s) :
    Run Step s is t ↔ Run Step' s is t := by
  induction is generalizing s with
  | nil =>
    constructor <;> rintro ⟨⟩ <;> exact .nil
  | cons i is ih =>
    constructor
    · rintro (_ | ⟨he, hr⟩)
      exact .cons ((hiff _ _ _ hs).mp he) ((ih (hkeep _ _ _ hs he)).mp hr)
    · rintro (_ | ⟨he, hr⟩)
      have hstep := (hiff _ _ _ hs).mpr he
      exact .cons hstep ((ih (hkeep _ _ _ hs hstep)).mpr hr)

lemma length_le {V : ι → Prop} {μ : σ → ℕ} (hstep : ∀ s i t, V i → Step s i t → μ t < μ s)
    (h : Run Step s is t) (hv : ∀ i ∈ is, V i) : is.length + μ t ≤ μ s := by
  induction h with
  | nil => simp
  | @cons s t u i is he _ ih =>
    have hlt := hstep s i t (hv i (by simp)) he
    have hle := ih fun j hj => hv j (by simp [hj])
    rw [List.length_cons]
    omega

lemma balance {f : σ → ℕ} {up down : ι → Bool} (h : Run Step s is t)
    (hkeep : ∀ s i t, I s → Step s i t → I t)
    (hstep : ∀ s i t, I s → Step s i t → f t + (down i).toNat = f s + (up i).toNat) (hs : I s) :
    f t + is.countP down = f s + is.countP up := by
  induction h with
  | nil => rfl
  | @cons s t u i is he _ ih =>
    have hone := hstep s i t hs he
    have hrest := ih (hkeep s i t hs he)
    simp only [List.countP_cons]
    cases hup : up i <;> cases hdown : down i <;> simp [hup, hdown] at hone ⊢ <;> omega

lemma unique (hdet : ∀ s i t t', Step s i t → Step s i t' → t = t') {t' : σ}
    (h : Run Step s is t) (h' : Run Step s is t') : t = t' := by
  induction h with
  | nil =>
    cases h'
    rfl
  | cons he _ ih =>
    cases h' with
    | cons he' hr' =>
      obtain rfl := hdet _ _ _ _ he he'
      exact ih hr'

lemma stays_iff {P : σ → Prop} {V : ι → Prop} (hs : P s)
    (hstep : ∀ t i u, P t → V i → Step t i u → (P u ↔ C t i)) (hv : ∀ i ∈ is, V i) :
    (∀ js ks t, is = js ++ ks → Run Step s js t → P t) ↔
      ∀ js i ks t u, is = js ++ i :: ks → Run Step s js t → Step t i u → C t i := by
  constructor
  · rintro h js i ks t u rfl ht hu
    have hi : V i := hv i (by simp)
    exact (hstep t i u (h js (i :: ks) t rfl ht) hi hu).mp
      (h (js ++ [i]) ks u (by simp) (ht.snoc hu))
  · rintro h js ks t hsplit ht
    apply ht.induct_prefix (M := fun _ => P) hsplit hs
    intro as i bs t u hbs hat hP hu
    have hi : V i := hv i (by simp [hbs])
    exact (hstep t i u hP hi hu).mpr (h as i bs t u hbs hat hu)

lemma simulate {σ' : Type*} {Step' : σ' → ι → σ' → Prop} {R : σ → σ' → Prop}
    (hsim : ∀ s s' i t, R s s' → Step s i t → ∃ t', Step' s' i t' ∧ R t t')
    (h : Run Step s is t) {s' : σ'} (hs : R s s') : ∃ t', Run Step' s' is t' ∧ R t t' := by
  induction h generalizing s' with
  | nil => exact ⟨s', .nil, hs⟩
  | cons he _ ih =>
    obtain ⟨t', ht', hr⟩ := hsim _ _ _ _ hs he
    obtain ⟨u', hu', hr'⟩ := ih hr
    exact ⟨u', .cons ht' hu', hr'⟩

lemma simulate_silent {σ' ι' : Type*} {Step' : σ' → ι' → σ' → Prop} {R : σ → σ' → Prop}
    {lab : ι → Option ι'}
    (hsim : ∀ s s' i t, R s s' → Step s i t → ∃ t', Silent Step' s' (lab i) t' ∧ R t t')
    (h : Run Step s is t) {s' : σ'} (hs : R s s') :
    ∃ t', Run Step' s' (is.filterMap lab) t' ∧ R t t' := by
  induction h generalizing s' with
  | nil => exact ⟨s', .nil, hs⟩
  | @cons s t u i is he _ ih =>
    obtain ⟨t', ht', hr⟩ := hsim _ _ _ _ hs he
    obtain ⟨u', hu', hr'⟩ := ih hr
    cases hlab : lab i with
    | none =>
      rw [hlab] at ht'
      rw [List.filterMap_cons_none hlab]
      obtain rfl : t' = s' := ht'
      exact ⟨u', hu', hr'⟩
    | some j =>
      rw [hlab] at ht'
      rw [List.filterMap_cons_some hlab]
      exact ⟨u', .cons ht' hu', hr'⟩

end Run

lemma foldlM_total {f : σ → ι → Except ε σ} {I : σ → Prop} {V : ι → Prop}
    (hstep : ∀ s i, I s → V i → ∃ t, f s i = .ok t ∧ I t) {s : σ} (hs : I s) {is : List ι}
    (hv : ∀ i ∈ is, V i) : ∃ t, is.foldlM f s = .ok t ∧ I t := by
  induction is generalizing s with
  | nil => exact ⟨s, rfl, hs⟩
  | cons i is ih =>
    obtain ⟨t, ht, hit⟩ := hstep s i hs (hv i (by simp))
    obtain ⟨u, hu, hiu⟩ := ih hit fun j hj => hv j (by simp [hj])
    exact ⟨u, by rw [List.foldlM_cons, ht]; exact hu, hiu⟩

lemma foldlM_left {f : σ → ι → Except ε σ} (I : List ι → σ → Prop)
    (hstep : ∀ i is s, I (i :: is) s → ∃ t, f s i = .ok t ∧ I is t) {s : σ} {is : List ι}
    (hs : I is s) : ∃ t, is.foldlM f s = .ok t ∧ I [] t := by
  induction is generalizing s with
  | nil => exact ⟨s, rfl, hs⟩
  | cons i is ih =>
    obtain ⟨t, ht, hit⟩ := hstep i is s hs
    obtain ⟨u, hu, hiu⟩ := ih hit
    exact ⟨u, by rw [List.foldlM_cons, ht]; exact hu, hiu⟩

lemma foldlM_stays_iff {f : σ → ι → Except ε σ} {I P : σ → Prop} {V : ι → Prop}
    {C : σ → ι → Prop}
    (hstep : ∀ s i, I s → P s → V i → ∃ t, f s i = .ok t ∧ I t ∧ (P t ↔ C s i))
    {s : σ} (hI : I s) (hP : P s) {is : List ι} (hv : ∀ i ∈ is, V i) :
    (∀ js ks t, is = js ++ ks → js.foldlM f s = .ok t → P t) ↔
      ∀ js i ks t, is = js ++ i :: ks → js.foldlM f s = .ok t → C t i := by
  induction is generalizing s with
  | nil =>
    constructor
    · rintro - js i ks t h
      simp at h
    · rintro - js ks t h hjs
      obtain ⟨rfl, rfl⟩ := List.append_eq_nil_iff.mp h.symm
      cases hjs
      exact hP
  | cons i is ih =>
    obtain ⟨t, ht, hIt, hPt⟩ := hstep s i hI hP (hv i (by simp))
    have hcons : ∀ js, (i :: js).foldlM f s = js.foldlM f t := by
      intro js
      rw [List.foldlM_cons, ht]
      rfl
    have hrest : ∀ j ∈ is, V j := fun j hj => hv j (by simp [hj])
    constructor
    · intro h
      have hPt' : P t := h [i] is t rfl (by rw [hcons]; rfl)
      rintro (_ | ⟨j, js⟩) k ks u hsplit hu
      · cases hsplit
        cases hu
        exact hPt.mp hPt'
      · cases hsplit
        rw [hcons] at hu
        refine (ih hIt hPt' hrest).mp ?_ js k ks u rfl hu
        intro js' ks' v hs' hv'
        exact h (i :: js') ks' v (by rw [hs']; rfl) (by rw [hcons]; exact hv')
    · intro h
      have hPt' : P t := hPt.mpr (h [] i is s rfl rfl)
      rintro (_ | ⟨j, js⟩) ks u hsplit hu
      · cases hu
        exact hP
      · cases hsplit
        rw [hcons] at hu
        refine (ih hIt hPt' hrest).mpr ?_ js ks u rfl hu
        intro js' k ks' v hs' hv'
        exact h (i :: js') k ks' v (by rw [hs']; rfl) (by rw [hcons]; exact hv')

end EmbeddedSystem.Foundations
