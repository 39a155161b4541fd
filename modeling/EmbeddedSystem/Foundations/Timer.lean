import EmbeddedSystem.Foundations.Runs

/-! A one-shot timer that other code arms, and an owner that cancels it and leaves. Cancelling takes
a pending timer away and does not wait for a callback that is running. -/

namespace EmbeddedSystem.Foundations.Timer

inductive Stage
  | active | cancelled | left
  deriving DecidableEq

structure State where
  pending : Bool
  running : Bool
  stage : Stage

inductive Move
  | arm | fire | finish | cancel | leave
  deriving DecidableEq

inductive Step (s : State) : Move → State → Prop
  | arm : Step s .arm { s with pending := true }
  | fire :
      s.pending = true → s.running = false →
      Step s .fire { s with pending := false, running := true }
  | finish : s.running = true → Step s .finish { s with running := false }
  | cancel : s.stage = .active → Step s .cancel { s with pending := false, stage := .cancelled }
  | leave : s.stage = .cancelled → Step s .leave { s with stage := .left }

/-- Nobody arms the timer once it has been cancelled, and the owner leaves no callback behind. -/
def Orderly (s : State) : Move → Prop
  | .arm => s.stage = .active
  | .leave => s.running = false
  | _ => True

structure Stopped (s : State) : Prop where
  pending : s.stage ≠ .active → s.pending = false
  running : s.stage = .left → s.running = false

variable {s t : State} {m : Move} {ms : List Move}

lemma stopped_step (hs : Stopped s) (h : Guarded Step Orderly s m t) : Stopped t := by
  obtain ⟨h, horderly⟩ := h
  cases h with
  | arm => exact ⟨fun hstage => absurd horderly hstage, hs.running⟩
  | fire hpending _ =>
    have hactive : s.stage = .active := by
      by_contra hstage
      rw [hs.pending hstage] at hpending
      cases hpending
    refine ⟨fun _ => rfl, fun hleft => ?_⟩
    rw [hactive] at hleft
    cases hleft
  | finish => exact ⟨hs.pending, fun _ => rfl⟩
  | cancel => exact ⟨fun _ => rfl, nofun⟩
  | leave hstage => exact ⟨fun _ => hs.pending (by simp [hstage]), fun _ => horderly⟩

lemma active_of_midway {α : Type*} {agent : Option α} {place done : α} {stage : Stage}
    (h : stage ≠ .active → agent = none ∨ agent = some done) (hplace : agent = some place)
    (hdone : place ≠ done) : stage = .active := by
  by_contra hstage
  obtain hnone | hsome := h hstage
  · rw [hplace] at hnone
    cases hnone
  · rw [hplace] at hsome
    exact hdone (Option.some.inj hsome)

lemma stopped_run (h : Run (Guarded Step Orderly) s ms t) (hs : Stopped s) : Stopped t :=
  h.invariant (fun _ _ _ => stopped_step) hs

lemma left_step (h : Step s m t) (hs : s.stage = .left) : t.stage = .left := by
  cases h with
  | arm | fire | finish => exact hs
  | cancel hstage | leave hstage => exact absurd (hs.symm.trans hstage) (by decide)

lemma silent_run (h : Run (Guarded Step Orderly) s ms t) (hs : Stopped s)
    (hleft : s.stage = .left) : .fire ∉ ms := by
  induction h with
  | nil => exact List.not_mem_nil
  | cons he _ ih =>
    rw [List.mem_cons, not_or]
    refine ⟨?_, ih (stopped_step hs he) (left_step he.1 hleft)⟩
    rintro rfl
    cases he.1 with
    | fire hpending _ =>
      rw [hs.pending (by simp [hleft])] at hpending
      cases hpending

lemma quiet_after {σ ι : Type*} {Step' : σ → ι → σ → Prop} {I : σ → Prop} {abs : σ → State}
    {lab : ι → Option Move} {s t : σ} {is : List ι} (h : Run Step' s is t)
    (hkeep : ∀ s i t, I s → Step' s i t → I t)
    (hsim : ∀ s i t, I s → Step' s i t →
      Silent (Guarded Step Orderly) (abs s) (lab i) (abs t)) (hs : I s)
    (hstopped : Stopped (abs s)) (hleft : (abs t).stage = .left) :
    (abs t).pending = false ∧ (abs t).running = false ∧
      ∀ js u, Run Step' t js u → ∀ j ∈ js, lab j ≠ some .fire := by
  have ht := stopped_run (h.project hkeep hsim hs) hstopped
  refine ⟨ht.pending (by simp [hleft]), ht.running hleft, ?_⟩
  intro js u hrun j hj hfire
  have hrest := hrun.project hkeep hsim (h.invariant hkeep hs)
  exact silent_run hrest ht hleft (List.mem_filterMap.mpr ⟨j, hj, hfire⟩)

end EmbeddedSystem.Foundations.Timer
