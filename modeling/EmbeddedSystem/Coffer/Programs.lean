import EmbeddedSystem.Coffer.Keys
import EmbeddedSystem.Switch.Keys

/-! Any number of `coffer_app` processes, each with a key of its own, and other programs that use
`switch_lib.c` with other keys, on one driver. Each app runs as it does alone. -/

namespace EmbeddedSystem.Coffer

open Kernel Foundations Switch

variable {P : Type} {w : ℕ}

section Model

structure Programs (P : Type) (w : ℕ) where
  driver : Driver w
  app : P → App

inductive ProgramMove (P : Type) (w : ℕ)
  | own (p : P) (mv : Move w)
  | other (cmd : Command) (key : ℤ) (opened : Bool)
  | interrupt (mv : Move w)

def Move.Own : Move w → Prop
  | .call .. | .start | .judge | .verdict _ | .openTest _ => True
  | _ => False

inductive Interrupt (s : Driver w) : Move w → Driver w → Prop
  | button (b : Button) (jiffies : BitVec w) : Interrupt s (.button b jiffies) (b.isr s jiffies)
  | echo (tmpTime : ℤ) (level : Bool) (jiffies : BitVec w) :
      Interrupt s (.echo tmpTime level jiffies) (ultrasonicIsr s tmpTime level jiffies)
  | switchTasklet {kmalloc : Fin Switch.queueNum → Bool} {d : Driver w} {y : Reply w} :
      s.switchPending = true →
      switchTaskletFunc kmalloc { s with switchPending := false } s.switchDataTmp = .ok (d, y) →
      Interrupt s (.switchTasklet kmalloc) d
  | ultrasonicTasklet {kmalloc : Fin Switch.queueNum → Bool} {d : Driver w} {y : Reply w} :
      s.ultrasonicPending = true →
      ultrasonicTaskletFunc kmalloc { s with ultrasonicPending := false } s.ultrasonicDataTmp =
        .ok (d, y) →
      Interrupt s (.ultrasonicTasklet kmalloc) d

def Programs.init (keys : P → ℤ) : Programs P w := ⟨.init, fun p => .init (keys p)⟩

variable [DecidableEq P]

inductive ProgramStep (s : Programs P w) : ProgramMove P w → Programs P w → Prop
  | own {p : P} {mv : Move w} {g : Ghost} {t : System w} :
      mv.Own → Step ⟨s.driver, s.app p, g⟩ mv t →
      ProgramStep s (.own p mv) ⟨t.driver, Function.update s.app p t.app⟩
  | other {cmd : Command} {key : ℤ} {opened : Bool} {d : Driver w} {y : Reply w} :
      (∀ p, key ≠ (s.app p).key) → libCall opened s.driver cmd key = .ok (d, y) →
      ProgramStep s (.other cmd key opened) { s with driver := d }
  | interrupt {mv : Move w} {d : Driver w} :
      Interrupt s.driver mv d → ProgramStep s (.interrupt mv) { s with driver := d }

def ProgramMove.seen (p : P) : ProgramMove P w → Option (Move w)
  | .own q mv => if q = p then some mv else none
  | .other .. => none
  | .interrupt mv => some mv

end Model

section Alone

variable {s t d : Driver w} {a : App} {g g' : Ghost} {u : System w} {mv : Move w} {y : Reply w}
  {cmd : Command} {opened : Bool} {key key' : ℤ}

lemma libCall_only (opened : Bool) (s : Driver w) (cmd : Command) (key : ℤ) :
    libCall opened (s.only key) cmd key = (libCall opened s cmd key).map (onlyResult key) := by
  cases opened with
  | false => rfl
  | true =>
    simp only [libCall, if_true, switchIoctl_only]
    cases switchIoctl s cmd key <;> rfl

lemma libCall_only_other (h : libCall opened s cmd key' = .ok (t, y)) (hne : key' ≠ key) :
    t.only key = s.only key := by
  obtain ⟨-, rfl, -⟩ | ⟨-, z, hz, -⟩ := libCall_cases h
  · rfl
  · exact switchIoctl_only_other hz hne

lemma own_only (how : mv.Own) (h : Step ⟨s, a, g⟩ mv u) (hkey : a.key = key) (g' : Ghost) :
    ∃ g'', Step ⟨s.only key, a, g'⟩ mv ⟨u.driver.only key, u.app, g''⟩ := by
  subst hkey
  cases h with
  | @call cmd pc opened d y hpc hcall =>
    have hcall' : libCall opened (s.only a.key) cmd a.key = .ok (d.only a.key, y) := by
      rw [libCall_only, hcall]
      rfl
    exact ⟨_, .call hpc hcall'⟩
  | start hpc => exact ⟨_, .start hpc⟩
  | judge hpc ha => exact ⟨_, .judge hpc ha⟩
  | verdict hpc => exact ⟨_, .verdict hpc⟩
  | openTest hpc => exact ⟨_, .openTest hpc⟩
  | button | echo | switchTasklet | ultrasonicTasklet => exact how.elim

lemma own_of_only (how : mv.Own) (h : Step ⟨s.only key, a, g⟩ mv u) (hkey : a.key = key) :
    ∃ t, Step ⟨s, a, g⟩ mv t ∧ t.driver.only key = u.driver ∧ t.app = u.app := by
  subst hkey
  cases h with
  | @call cmd pc opened d y hpc hcall =>
    have hcall' : (libCall opened s cmd a.key).map (onlyResult a.key) = .ok (d, y) := by
      rw [← libCall_only]
      exact hcall
    cases hresult : libCall opened s cmd a.key with
    | error e =>
      rw [hresult] at hcall'
      cases hcall'
    | ok r =>
      rw [hresult] at hcall'
      cases hcall'
      exact ⟨_, .call hpc hresult, rfl, rfl⟩
  | start hpc => exact ⟨_, .start hpc, rfl, rfl⟩
  | judge hpc ha => exact ⟨_, .judge hpc ha, rfl, rfl⟩
  | verdict hpc => exact ⟨_, .verdict hpc, rfl, rfl⟩
  | openTest hpc => exact ⟨_, .openTest hpc, rfl, rfl⟩
  | button | echo | switchTasklet | ultrasonicTasklet => exact how.elim

lemma own_only_other (how : mv.Own) (h : Step ⟨s, a, g⟩ mv u) (hne : a.key ≠ key) :
    u.driver.only key = s.only key := by
  cases h with
  | call _ hcall => exact libCall_only_other hcall hne
  | start | judge | verdict | openTest => rfl
  | button | echo | switchTasklet | ultrasonicTasklet => exact how.elim

lemma interrupt_only (h : Interrupt s mv d) (key : ℤ) (a : App) (g : Ghost) :
    ∃ g', Step ⟨s.only key, a, g⟩ mv ⟨d.only key, a, g'⟩ := by
  cases h with
  | button b jiffies =>
    refine ⟨g, ?_⟩
    have hstep := Step.button (s := ⟨s.only key, a, g⟩) b jiffies
    cases b <;> exact hstep
  | echo tmpTime level jiffies =>
    have hstep := Step.echo (s := ⟨s.only key, a, g⟩) tmpTime level jiffies
    rw [← ultrasonicIsr_only] at hstep
    exact ⟨_, hstep⟩
  | switchTasklet hpending hf => exact ⟨_, .switchTasklet hpending (switchTaskletFunc_only hf key)⟩
  | ultrasonicTasklet hpending hf =>
    exact ⟨_, .ultrasonicTasklet hpending (ultrasonicTaskletFunc_only hf key)⟩

end Alone

section Results

variable [DecidableEq P] {keys : P → ℤ} {s t : Programs P w} {p : P} {u : System w}
  {ms : List (ProgramMove P w)}

structure Programs.Alone (keys : P → ℤ) (p : P) (s : Programs P w) (u : System w) : Prop where
  key : ∀ q, (s.app q).key = keys q
  driver : u.driver = s.driver.only (keys p)
  app : u.app = s.app p

lemma keys_step {m : ProgramMove P w} (hs : ProgramStep s m t) (hkeys : ∀ q, (s.app q).key = keys q)
    (q : P) : (t.app q).key = keys q := by
  cases hs with
  | @own r mv g u _ h =>
    by_cases hq : q = r
    · subst hq
      simpa using (step_key h).trans (hkeys q)
    · simpa [hq] using hkeys q
  | other | interrupt => exact hkeys q

lemma alone_step (hinj : Function.Injective keys) {m : ProgramMove P w}
    (h : Programs.Alone keys p s u) (hs : ProgramStep s m t) :
    ∃ v, Silent Step u (m.seen p) v ∧ Programs.Alone keys p t v := by
  have hkeys' := keys_step hs h.key
  obtain ⟨hkeys, hdriver, happ⟩ := h
  obtain ⟨driver, app, g⟩ := u
  obtain rfl : driver = _ := hdriver
  obtain rfl : app = _ := happ
  cases hs with
  | @own q mv g₀ v how hv =>
    by_cases hq : q = p
    · subst hq
      obtain ⟨g', hstep⟩ := own_only how hv (hkeys q) g
      refine ⟨⟨v.driver.only (keys q), v.app, g'⟩, ?_, hkeys', rfl, ?_⟩
      · rw [ProgramMove.seen, if_pos rfl]
        exact hstep
      · exact (Function.update_self q v.app s.app).symm
    · have hne : (s.app q).key ≠ keys p := by
        rw [hkeys q]
        exact hinj.ne hq
      refine ⟨⟨s.driver.only (keys p), s.app p, g⟩, ?_, hkeys', ?_, ?_⟩
      · simp only [ProgramMove.seen, if_neg hq, Silent]
      · exact (own_only_other how hv hne).symm
      · exact (Function.update_of_ne (Ne.symm hq) ..).symm
  | other hother hcall =>
    have hne := hother p
    rw [hkeys p] at hne
    exact ⟨⟨s.driver.only (keys p), s.app p, g⟩, rfl, hkeys',
      (libCall_only_other hcall hne).symm, rfl⟩
  | interrupt hd =>
    obtain ⟨g', hstep⟩ := interrupt_only hd (keys p) (s.app p) g
    exact ⟨⟨_, s.app p, g'⟩, hstep, hkeys', rfl, rfl⟩

theorem programs_apart (hinj : Function.Injective keys) (h : Run ProgramStep (.init keys) ms s)
    (p : P) : ∃ g, Run Step (.init (keys p)) (ms.filterMap (ProgramMove.seen p))
        ⟨s.driver.only (keys p), s.app p, g⟩ ∧
      ∀ mv u, mv.Own → Step ⟨s.driver.only (keys p), s.app p, g⟩ mv u →
        ∃ t, ProgramStep s (.own p mv) t ∧ t.driver.only (keys p) = u.driver ∧ t.app p = u.app := by
  have hsim : ∀ (s : Programs P w) (u : System w) m t, Programs.Alone keys p s u →
      ProgramStep s m t → ∃ v, Silent Step u (m.seen p) v ∧ Programs.Alone keys p t v :=
    fun _ _ _ _ h => alone_step hinj h
  have hinit : Programs.Alone keys p (.init keys) (.init (keys p) : System w) :=
    ⟨fun _ => rfl, (only_init _).symm, rfl⟩
  obtain ⟨⟨driver, app, g⟩, hrun, hkeys, hdriver, happ⟩ := h.simulate_silent hsim hinit
  obtain rfl : driver = _ := hdriver
  obtain rfl : app = _ := happ
  refine ⟨g, hrun, ?_⟩
  intro mv u how hu
  obtain ⟨t, ht, hdriver, happ⟩ := own_of_only how hu (hkeys p)
  exact ⟨_, .own how ht, hdriver, (Function.update_self ..).trans happ⟩

theorem programs_apart_two : ∃ (s : Programs (Fin 2) 32) (g : Ghost),
    s.driver.switchQueue 0 = [] ∧ (s.driver.only 1).switchQueue 1 = [⟨1, 100⟩] ∧
      Run Step (.init 1) [.call .queueClose true, .call .queueGet true, .start,
        .button .switch1 100, .switchTasklet fun _ => true] ⟨s.driver.only 1, s.app 1, g⟩ := by
  obtain ⟨s, hrun, hfirst, hsecond⟩ : ∃ s : Programs (Fin 2) 32, Run ProgramStep
      (.init fun p => (p.val : ℤ)) [.own 0 (.call .queueClose true),
        .own 1 (.call .queueClose true), .own 0 (.call .queueGet true),
        .own 1 (.call .queueGet true), .own 0 .start, .own 1 .start,
        .interrupt (.button .switch1 100), .interrupt (.switchTasklet fun _ => true),
        .own 0 (.call .switchRecv true)] s ∧ s.driver.switchQueue 0 = [] ∧
      s.driver.switchQueue 1 = [⟨1, 100⟩] := by
    have own {s : Programs (Fin 2) 32} {p : Fin 2} {mv : Move 32} {t : System 32} (how : mv.Own)
        (h : Step ⟨s.driver, s.app p, .init⟩ mv t) := ProgramStep.own how h
    refine ⟨_, .cons (own trivial (.call rfl rfl)) (.cons (own trivial (.call rfl rfl))
      (.cons (own trivial (.call rfl rfl)) (.cons (own trivial (.call rfl rfl))
      (.cons (own trivial (.start rfl)) (.cons (own trivial (.start rfl))
      (.cons (.interrupt (.button .switch1 100)) (.cons (.interrupt (.switchTasklet rfl rfl))
      (.cons (own trivial (.call rfl rfl)) .nil)))))))), rfl, rfl⟩
  obtain ⟨g, hown, -⟩ := programs_apart (fun _ _ h => Fin.ext (by exact_mod_cast h)) hrun 1
  exact ⟨s, g, hfirst, (only_queue s.driver .switch 1).trans hsecond, hown⟩

end Results

end EmbeddedSystem.Coffer
