import EmbeddedSystem.Foundations.Runs

/-! Processes that set outputs which they share and that no lock keeps apart. A call is a list of
writes, taken one at a time. -/

namespace EmbeddedSystem.Foundations.Outputs

variable {P K V C : Type*}

structure State (P K V : Type*) where
  out : K → V
  call : P → Option (List (K × V))

inductive Move (C K V : Type*)
  | call (c : C)
  | write (k : K) (v : V)
  | ret

def State.init (rest : V) : State P K V := ⟨fun _ => rest, fun _ => none⟩

inductive Step [DecidableEq P] [DecidableEq K] (program : C → List (K × V)) (s : State P K V) :
    P × Move C K V → State P K V → Prop
  | call {p : P} (c : C) :
      s.call p = none →
      Step program s (p, .call c)
        { s with call := Function.update s.call p (some (program c)) }
  | write {p : P} {k : K} {v : V} {ws : List (K × V)} :
      s.call p = some ((k, v) :: ws) →
      Step program s (p, .write k v)
        ⟨Function.update s.out k v, Function.update s.call p (some ws)⟩
  | ret {p : P} :
      s.call p = some [] →
      Step program s (p, .ret) { s with call := Function.update s.call p none }

def keys (ws : List (K × V)) : List K := ws.map Prod.fst

/-- A write of another value than `rest` is followed by a write to the same output. -/
def Settles (rest : V) : List (K × V) → Prop
  | [] => True
  | (k, v) :: ws => (v = rest ∨ k ∈ keys ws) ∧ Settles rest ws

variable {rest : V} {ws ws' : List (K × V)} {k : K}

lemma mem_keys_append : k ∈ keys (ws ++ ws') ↔ k ∈ keys ws ∨ k ∈ keys ws' := by
  rw [keys, List.map_append, List.mem_append, ← keys, ← keys]

lemma settles_append (h : Settles rest ws) (h' : Settles rest ws') : Settles rest (ws ++ ws') := by
  induction ws with
  | nil => exact h'
  | cons w ws ih =>
    exact ⟨h.1.imp_right fun hk => mem_keys_append.mpr (Or.inl hk), ih h.2⟩

lemma settles_of_keys (h : Settles rest ws') (hk : ∀ k ∈ keys ws, k ∈ keys ws') :
    Settles rest (ws ++ ws') := by
  induction ws with
  | nil => exact h
  | cons w ws ih =>
    have hw := hk w.1 (List.mem_cons_self ..)
    exact ⟨Or.inr (mem_keys_append.mpr (Or.inr hw)),
      ih fun k hmem => hk k (List.mem_cons_of_mem _ hmem)⟩

lemma Settles.rests (h : Settles rest ws) (hk : k ∈ keys ws) : (k, rest) ∈ ws := by
  induction ws with
  | nil => cases hk
  | cons w ws ih =>
    by_cases hlater : k ∈ keys ws
    · exact List.mem_cons_of_mem _ (ih h.2 hlater)
    · obtain rfl : k = w.1 := (List.mem_cons.mp hk).resolve_right hlater
      obtain hv := h.1.resolve_right hlater
      rw [← hv]
      exact List.mem_cons_self ..

variable [DecidableEq P] [DecidableEq K] {program : C → List (K × V)} {s t : State P K V}
  {l : P × Move C K V} {ls : List (P × Move C K V)}

structure Restful (rest : V) (s : State P K V) : Prop where
  settles : ∀ p ws, s.call p = some ws → Settles rest ws
  pending : ∀ k, s.out k ≠ rest → ∃ p ws, s.call p = some ws ∧ k ∈ keys ws

omit [DecidableEq P] [DecidableEq K] in
lemma restful_init (rest : V) : Restful rest (.init rest : State P K V) := by
  constructor
  · intro p ws hp
    cases hp
  · intro k hk
    exact absurd rfl hk

omit [DecidableEq K] in
lemma Restful.update (h : Restful rest s) {p : P} {call : Option (List (K × V))} {out : K → V}
    (hsettles : ∀ ws, call = some ws → Settles rest ws)
    (hpending : ∀ k, out k ≠ rest → (∃ ws, call = some ws ∧ k ∈ keys ws) ∨
      s.out k ≠ rest ∧ ∀ ws, s.call p = some ws → k ∉ keys ws) :
    Restful rest ⟨out, Function.update s.call p call⟩ := by
  constructor
  · intro q ws hq
    change Function.update s.call p call q = some ws at hq
    by_cases hqp : q = p
    · subst hqp
      rw [Function.update_self] at hq
      exact hsettles ws hq
    · rw [Function.update_of_ne hqp] at hq
      exact h.settles q ws hq
  · intro k hk
    obtain ⟨ws, hws, hmem⟩ | ⟨hout, hnot⟩ := hpending k hk
    · exact ⟨p, ws, (Function.update_self ..).trans hws, hmem⟩
    · obtain ⟨q, ws, hq, hmem⟩ := h.pending k hout
      have hqp : q ≠ p := by
        rintro rfl
        exact hnot ws hq hmem
      exact ⟨q, ws, (Function.update_of_ne hqp ..).trans hq, hmem⟩

lemma restful_step (hprogram : ∀ c, Settles rest (program c)) (h : Restful rest s)
    (hs : Step program s l t) : Restful rest t := by
  cases hs with
  | call c hp =>
    apply h.update
    · rintro ws ⟨⟩
      exact hprogram c
    · intro k hk
      refine Or.inr ⟨hk, fun ws hws => ?_⟩
      rw [hp] at hws
      cases hws
  | @write p k v ws hp =>
    have hsettles := h.settles p _ hp
    apply h.update
    · rintro ws' ⟨⟩
      exact hsettles.2
    · intro k' hk'
      by_cases hkk : k' = k
      · subst hkk
        rw [Function.update_self] at hk'
        exact Or.inl ⟨ws, rfl, hsettles.1.resolve_left hk'⟩
      · rw [Function.update_of_ne hkk] at hk'
        by_cases hmem : k' ∈ keys ws
        · exact Or.inl ⟨ws, rfl, hmem⟩
        · refine Or.inr ⟨hk', fun ws' hws' => ?_⟩
          rw [hp] at hws'
          cases hws'
          exact List.not_mem_cons_of_ne_of_not_mem hkk hmem
  | ret hp =>
    apply h.update
    · intro ws hws
      cases hws
    · intro k hk
      refine Or.inr ⟨hk, fun ws hws => ?_⟩
      rw [hp] at hws
      cases hws
      exact List.not_mem_nil

lemma rests_run (hprogram : ∀ c, Settles rest (program c))
    (h : Run (Step program) (.init rest) ls s) :
    (∀ k, s.out k ≠ rest → ∃ p ws, s.call p = some ws ∧ (k, rest) ∈ ws) ∧
      ((∀ p, s.call p = none) → ∀ k, s.out k = rest) := by
  have hrestful : Restful rest s :=
    h.invariant (fun _ _ _ hr hs => restful_step hprogram hr hs) (restful_init rest)
  constructor
  · intro k hk
    obtain ⟨p, ws, hp, hmem⟩ := hrestful.pending k hk
    exact ⟨p, ws, hp, (hrestful.settles p ws hp).rests hmem⟩
  · intro hidle k
    by_contra hk
    obtain ⟨p, ws, hp, -⟩ := hrestful.pending k hk
    rw [hidle p] at hp
    cases hp

end EmbeddedSystem.Foundations.Outputs
