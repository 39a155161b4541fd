import Mathlib.Tactic

/-! Queues that deliver, for each class of items, the oldest item of that class. -/

namespace EmbeddedSystem.Foundations.SelectiveFifo

section Takes

variable {α τ : Type*} {c : α → τ} {queue rest : List α} {x y : α}

/-- `x` is the first item of its class in `queue`, and `rest` is `queue` without it. -/
def Takes (c : α → τ) (queue : List α) (x : α) (rest : List α) : Prop :=
  ∃ before after, queue = before ++ x :: after ∧ rest = before ++ after ∧ ∀ y ∈ before, c y ≠ c x

lemma takes_head (x : α) (xs : List α) : Takes c (x :: xs) x xs :=
  ⟨[], xs, rfl, rfl, by simp⟩

lemma Takes.cons (h : Takes c queue x rest) (hy : c y ≠ c x) :
    Takes c (y :: queue) x (y :: rest) := by
  obtain ⟨before, after, rfl, rfl, hb⟩ := h
  refine ⟨y :: before, after, rfl, rfl, ?_⟩
  intro z hz
  rcases List.mem_cons.mp hz with rfl | hz
  · exact hy
  · exact hb z hz

lemma Takes.length (h : Takes c queue x rest) : queue.length = rest.length + 1 := by
  obtain ⟨before, after, rfl, rfl, _⟩ := h
  simp only [List.length_append, List.length_cons]
  omega

lemma Takes.mem (h : Takes c queue x rest) : x ∈ queue := by
  obtain ⟨before, after, rfl, _, _⟩ := h
  simp

lemma Takes.subset (h : Takes c queue x rest) (hy : y ∈ rest) : y ∈ queue := by
  obtain ⟨before, after, rfl, rfl, _⟩ := h
  simp only [List.mem_append, List.mem_cons] at hy ⊢
  tauto

lemma first_unique {before after before' after' : List α}
    (heq : before ++ x :: after = before' ++ y :: after') (hb : ∀ z ∈ before, c z ≠ c x)
    (hb' : ∀ z ∈ before', c z ≠ c y) (hxy : c x = c y) :
    x = y ∧ before ++ after = before' ++ after' := by
  obtain ⟨mid, rfl, hmid⟩ | ⟨mid, rfl, hmid⟩ := List.append_eq_append_iff.mp heq
  · cases mid with
    | nil =>
      obtain ⟨rfl, rfl⟩ := List.cons.inj hmid
      simp
    | cons z mid =>
      obtain ⟨rfl, -⟩ := List.cons.inj hmid
      exact absurd hxy (hb' x (by simp))
  · cases mid with
    | nil =>
      obtain ⟨rfl, rfl⟩ := List.cons.inj hmid
      simp
    | cons z mid =>
      obtain ⟨rfl, -⟩ := List.cons.inj hmid
      exact absurd hxy.symm (hb y (by simp))

lemma Takes.unique (h : Takes c queue x rest) {rest' : List α} (h' : Takes c queue y rest')
    (hxy : c x = c y) : x = y := by
  obtain ⟨before, after, rfl, rfl, hb⟩ := h
  obtain ⟨before', after', heq, rfl, hb'⟩ := h'
  exact (first_unique heq hb hb' hxy).1

lemma Takes.find? [DecidableEq τ] (h : Takes c queue x rest) :
    queue.find? (fun y => c y = c x) = some x := by
  obtain ⟨before, after, rfl, rfl, hb⟩ := h
  rw [List.find?_append, List.find?_eq_none.mpr (by simpa using hb)]
  simp

lemma Takes.rest_unique (h : Takes c queue x rest) {rest' : List α} (h' : Takes c queue x rest') :
    rest = rest' := by
  obtain ⟨before, after, rfl, rfl, hb⟩ := h
  obtain ⟨before', after', heq, rfl, hb'⟩ := h'
  exact (first_unique heq hb hb' rfl).2

lemma absent_or_takes (c : α → τ) (t : τ) (queue : List α) :
    (∀ z ∈ queue, c z ≠ t) ∨ ∃ x rest, Takes c queue x rest ∧ c x = t := by
  induction queue with
  | nil => simp
  | cons y queue ih =>
    by_cases hy : c y = t
    · exact Or.inr ⟨y, queue, takes_head y queue, hy⟩
    · obtain habsent | ⟨x, rest, hx, ht⟩ := ih
      · left
        intro z hz
        obtain rfl | hz := List.mem_cons.mp hz
        · exact hy
        · exact habsent z hz
      · exact Or.inr ⟨x, y :: rest, hx.cons (by rwa [ht]), ht⟩

lemma takes_either {before mid : List α} (after : List α) (hb : ∀ z ∈ before, c z ≠ c x)
    (hb' : ∀ z ∈ before ++ x :: mid, c z ≠ c y) :
    Takes c (before ++ (mid ++ y :: after)) y (before ++ (mid ++ after)) ∧
      Takes c (before ++ x :: (mid ++ after)) x (before ++ (mid ++ after)) := by
  refine ⟨⟨before ++ mid, after, by simp, by simp, ?_⟩, ⟨before, mid ++ after, rfl, rfl, hb⟩⟩
  intro z hz
  apply hb' z
  obtain hz | hz := List.mem_append.mp hz
  · exact List.mem_append_left _ hz
  · exact List.mem_append_right _ (List.mem_cons_of_mem _ hz)

lemma Takes.comm (h : Takes c queue x rest) {rest' : List α} (h' : Takes c queue y rest')
    (hxy : c x ≠ c y) : ∃ last, Takes c rest y last ∧ Takes c rest' x last := by
  obtain ⟨before, after, rfl, rfl, hb⟩ := h
  obtain ⟨before', after', heq, rfl, hb'⟩ := h'
  obtain ⟨mid, rfl, hmid⟩ | ⟨mid, rfl, hmid⟩ := List.append_eq_append_iff.mp heq
  · cases mid with
    | nil =>
      obtain ⟨rfl, -⟩ := List.cons.inj hmid
      exact absurd rfl hxy
    | cons z mid =>
      obtain ⟨rfl, rfl⟩ := List.cons.inj hmid
      obtain ⟨hy, hx⟩ := takes_either after' hb hb'
      refine ⟨_, hy, ?_⟩
      simpa using hx
  · cases mid with
    | nil =>
      obtain ⟨rfl, -⟩ := List.cons.inj hmid
      exact absurd rfl hxy
    | cons z mid =>
      obtain ⟨rfl, rfl⟩ := List.cons.inj hmid
      obtain ⟨hx, hy⟩ := takes_either after hb' hb
      refine ⟨_, ?_, hx⟩
      simpa using hy

end Takes

section Balanced

variable {α τ : Type*} [DecidableEq τ] (c : α → τ)

def ofClass (t : τ) (xs : List α) : List α := xs.filter fun x => c x = t

/-- What arrived is, class by class, what departed followed by what is still queued. -/
def Balanced (arrived departed queue : List α) : Prop :=
  ∀ t, ofClass c t arrived = ofClass c t departed ++ ofClass c t queue

variable {c} {arrived departed queue rest : List α} {x : α}

@[simp] lemma ofClass_append (t : τ) (xs ys : List α) :
    ofClass c t (xs ++ ys) = ofClass c t xs ++ ofClass c t ys :=
  List.filter_append ..

lemma balanced_nil : Balanced c [] [] [] := fun _ => rfl

lemma Balanced.arrive (h : Balanced c arrived departed queue) (x : α) :
    Balanced c (arrived ++ [x]) departed (queue ++ [x]) := by
  intro t
  simp only [ofClass_append, h t, List.append_assoc]

lemma Takes.ofClass_eq (h : Takes c queue x rest) (t : τ) :
    ofClass c t queue = ofClass c t [x] ++ ofClass c t rest := by
  obtain ⟨before, after, rfl, rfl, hb⟩ := h
  by_cases hx : c x = t
  · -- nothing of the class of `x` stands before `x`
    have hbefore : ofClass c t before = [] := by
      simpa [ofClass, ← hx] using hb
    rw [← List.singleton_append, ofClass_append, ofClass_append, ofClass_append, hbefore]
    rfl
  · have hnone : ofClass c t [x] = [] := by simp [ofClass, hx]
    rw [← List.singleton_append, ofClass_append, ofClass_append, ofClass_append, hnone]
    rfl

lemma Balanced.depart (h : Balanced c arrived departed queue) (hx : Takes c queue x rest) :
    Balanced c arrived (departed ++ [x]) rest := by
  intro t
  rw [h t, hx.ofClass_eq, ofClass_append, List.append_assoc]

lemma balanced_unit_iff :
    Balanced (fun _ : α => ()) arrived departed queue ↔ arrived = departed ++ queue := by
  simp [Balanced, ofClass]

end Balanced

end EmbeddedSystem.Foundations.SelectiveFifo
