import Mathlib.Tactic

namespace EmbeddedSystem.Foundations

structure Owned {O A : Type*} (live : A → Bool) (owns : O → Option A) : Prop where
  live_iff : ∀ a, live a = true ↔ ∃ o, owns o = some a
  unique : ∀ o o' a, owns o = some a → owns o' = some a → o = o'

namespace Owned

variable {O A : Type*} {live : A → Bool} {owns : O → Option A} {o o' : O} {a b : A}

lemma live_of_owns (h : Owned live owns) (ho : owns o = some a) : live a = true :=
  (h.live_iff a).mpr ⟨o, ho⟩

lemma owns_ne (h : Owned live owns) (ha : live a = false) : owns o ≠ some a := by
  rintro ho
  rw [h.live_of_owns ho] at ha
  cases ha

lemma nothing : Owned (fun _ : A => false) (fun _ : O => none) := by
  refine ⟨fun a => ?_, ?_⟩
  · constructor
    · rintro ⟨⟩
    · rintro ⟨_, ⟨⟩⟩
  · rintro _ _ _ ⟨⟩

variable [DecidableEq O]

lemma acquire [DecidableEq A] (h : Owned live owns) (ho : owns o = none)
    (ha : live a = false) :
    Owned (Function.update live a true) (Function.update owns o (some a)) := by
  constructor
  · intro b
    by_cases hb : b = a
    · subst hb
      rw [Function.update_self]
      exact iff_of_true rfl ⟨o, Function.update_self ..⟩
    · rw [Function.update_of_ne hb, h.live_iff]
      constructor
      · rintro ⟨o', ho'⟩
        have hne : o' ≠ o := by
          rintro rfl
          rw [ho] at ho'
          cases ho'
        exact ⟨o', by rwa [Function.update_of_ne hne]⟩
      · rintro ⟨o', ho'⟩
        by_cases hne : o' = o
        · subst hne
          rw [Function.update_self] at ho'
          cases ho'
          exact absurd rfl hb
        · rw [Function.update_of_ne hne] at ho'
          exact ⟨o', ho'⟩
  · intro p q b hp hq
    by_cases hpo : p = o <;> by_cases hqo : q = o
    · rw [hpo, hqo]
    · subst hpo
      rw [Function.update_self] at hp
      rw [Function.update_of_ne hqo] at hq
      cases hp
      exact absurd hq (h.owns_ne ha)
    · subst hqo
      rw [Function.update_self] at hq
      rw [Function.update_of_ne hpo] at hp
      cases hq
      exact absurd hp (h.owns_ne ha)
    · rw [Function.update_of_ne hpo] at hp
      rw [Function.update_of_ne hqo] at hq
      exact h.unique p q b hp hq

lemma release [DecidableEq A] (h : Owned live owns) (ho : owns o = some a) :
    Owned (Function.update live a false) (Function.update owns o none) := by
  have hother : ∀ p b, Function.update owns o none p = some b → p ≠ o ∧ owns p = some b := by
    intro p b hp
    by_cases hpo : p = o
    · subst hpo
      rw [Function.update_self] at hp
      cases hp
    · rw [Function.update_of_ne hpo] at hp
      exact ⟨hpo, hp⟩
  constructor
  · intro b
    by_cases hb : b = a
    · subst hb
      rw [Function.update_self]
      apply iff_of_false Bool.false_ne_true
      rintro ⟨p, hp⟩
      obtain ⟨hpo, hp⟩ := hother p b hp
      exact hpo (h.unique p o b hp ho)
    · rw [Function.update_of_ne hb, h.live_iff]
      constructor
      · rintro ⟨p, hp⟩
        have hne : p ≠ o := by
          rintro rfl
          rw [ho] at hp
          cases hp
          exact hb rfl
        exact ⟨p, by rwa [Function.update_of_ne hne]⟩
      · rintro ⟨p, hp⟩
        exact ⟨p, (hother p b hp).2⟩
  · intro p q b hp hq
    exact h.unique p q b (hother p b hp).2 (hother q b hq).2

lemma swap (h : Owned live owns) (o o' : O) : Owned live (owns ∘ Equiv.swap o o') := by
  constructor
  · intro a
    rw [h.live_iff]
    constructor
    · rintro ⟨p, hp⟩
      exact ⟨Equiv.swap o o' p, by simpa using hp⟩
    · rintro ⟨p, hp⟩
      exact ⟨_, hp⟩
  · intro p q a hp hq
    exact (Equiv.swap o o').injective (h.unique _ _ a hp hq)

end Owned

end EmbeddedSystem.Foundations
