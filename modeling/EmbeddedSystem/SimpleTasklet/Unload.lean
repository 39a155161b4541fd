import EmbeddedSystem.SimpleTasklet.Driver

namespace EmbeddedSystem.SimpleTasklet

open Foundations

variable {s t u v : System} {m : Move} {ls js ks : List Move}

def System.unbegun (s : System) : ℕ :=
  (if s.isr = .enqueue then 1 else 0) + (if s.queued = true then 1 else 0) +
    if s.action = some .testAndClear then 1 else 0

def System.unprinted (s : System) : ℕ := s.unbegun + if s.action = some .func then 1 else 0

def System.unfinished (s : System) : ℕ :=
  s.unprinted + if s.action = some .unlock then 1 else 0

def Exit.kills : Exit → Bool
  | .killWait | .killClear => true
  | _ => false

def Exit.freed : Exit → Bool
  | .gpioFree | .returned => true
  | _ => false

structure Held (s : System) : Prop where
  data : s.data = ⟨2020, 6, 14⟩
  sched : s.sched.toNat = s.unbegun + s.exit.kills.toNat
  locked : s.exit = .killClear → s.action = none
  freed : s.exit.freed = true → s.irq = false ∧ s.isr = .idle

lemma held_init : Held simpleTaskletInit := by
  refine ⟨rfl, rfl, ?_, ?_⟩
  · intro he
    cases he
  · intro he
    cases he

lemma Held.sched_of_clear (h : Held s) (ha : s.action = some .testAndClear) : s.sched = true := by
  have hsched := h.sched
  cases hs : s.sched with
  | true => rfl
  | false =>
    simp only [hs, System.unbegun, ha, Bool.toNat_false, if_true] at hsched
    omega

lemma held_sched (h : Held s) (hs : Step s m t) :
    t.sched.toNat = t.unbegun + t.exit.kills.toNat := by
  have hsched := h.sched
  have hle := Bool.toNat_le s.sched
  simp only [System.unbegun] at hsched ⊢
  cases hs with
  | interrupt _ hisr | scheduledBefore hisr => simpa [hisr] using hsched
  | scheduled hisr hclear =>
    simp only [hisr, hclear, reduceCtorEq, if_false, if_true, Bool.toNat_false,
      Bool.toNat_true] at hsched ⊢
    omega
  | enqueue hisr =>
    simp only [hisr, reduceCtorEq, if_false, if_true] at hsched ⊢
    split_ifs at hsched ⊢ <;> omega
  | lock hqueued ha =>
    simp only [hqueued, ha, reduceCtorEq, Bool.false_eq_true, if_false, if_true] at hsched ⊢
    omega
  | clear ha hset =>
    simp only [ha, hset, Option.some.injEq, reduceCtorEq, if_false, if_true, Bool.toNat_false,
      Bool.toNat_true] at hsched ⊢
    omega
  | bug => exact hsched
  | print ha | unlock ha => simpa [ha] using hsched
  | exit he | killWait he | freeIrq he | gpioFree he => simpa [he, Exit.kills] using hsched
  | killSet he hclear =>
    simp only [he, hclear, Exit.kills, Bool.toNat_false, Bool.toNat_true] at hsched ⊢
    omega
  | killClear he =>
    simp only [he, Exit.kills, Bool.toNat_false, Bool.toNat_true] at hsched ⊢
    omega

lemma Held.unbegun_of_kills (h : Held s) (hk : s.exit.kills = true) : s.unbegun = 0 := by
  have hsched := h.sched
  have hle := Bool.toNat_le s.sched
  rw [hk, Bool.toNat_true] at hsched
  omega

lemma unbegun_eq_zero :
    s.unbegun = 0 ↔ s.isr ≠ .enqueue ∧ s.queued = false ∧ s.action ≠ some .testAndClear := by
  simp [System.unbegun, and_assoc]

lemma held_locked (h : Held s) (hs : Step s m t) : t.exit = .killClear → t.action = none := by
  cases hs with
  | lock hqueued =>
    intro he
    have hzero := h.unbegun_of_kills (congrArg Exit.kills he)
    rw [(unbegun_eq_zero.mp hzero).2.1] at hqueued
    cases hqueued
  | clear ha | print ha =>
    intro he
    rw [h.locked he] at ha
    cases ha
  | unlock => exact fun _ => rfl
  | killWait _ ha => exact fun _ => ha
  | interrupt | scheduled | scheduledBefore | enqueue | bug => exact h.locked
  | exit | killSet | killClear | freeIrq | gpioFree =>
    intro he
    cases he

lemma held_freed (h : Held s) (hs : Step s m t) :
    t.exit.freed = true → t.irq = false ∧ t.isr = .idle := by
  cases hs with
  | interrupt hirq =>
    intro he
    rw [(h.freed he).1] at hirq
    cases hirq
  | scheduled hisr | scheduledBefore hisr | enqueue hisr =>
    intro he
    rw [(h.freed he).2] at hisr
    cases hisr
  | freeIrq _ hisr => exact fun _ => ⟨rfl, hisr⟩
  | gpioFree he => exact fun _ => h.freed (by rw [he]; rfl)
  | lock | clear | bug | print | unlock => exact h.freed
  | exit | killSet | killWait | killClear =>
    intro he
    cases he

lemma held_step (h : Held s) (hs : Step s m t) : Held t := by
  refine ⟨?_, held_sched h hs, held_locked h hs, held_freed h hs⟩
  cases hs <;> exact h.data

lemma held_run (h : Run Step simpleTaskletInit ls s) : Held s :=
  h.invariant (fun _ _ _ => held_step) held_init

section Counts

def Move.schedules : Move → Bool
  | .schedule accepted => accepted
  | _ => false

def Move.prints : Move → Bool
  | .print year month day => year == 2020 && month == 6 && day == 14
  | _ => false

def Move.finishes : Move → Bool
  | .unlock => true
  | _ => false

lemma unprinted_step (h : Held s) (hs : Step s m t) :
    t.unprinted + m.prints.toNat = s.unprinted + m.schedules.toNat := by
  have hsched := h.sched
  have hle := Bool.toNat_le s.sched
  simp only [System.unprinted, System.unbegun] at hsched ⊢
  cases hs with
  | interrupt _ hisr | scheduledBefore hisr => simp [hisr, Move.prints, Move.schedules]
  | scheduled hisr =>
    simp [hisr, Move.prints, Move.schedules]
    omega
  | enqueue hisr =>
    simp only [hisr, Move.prints, Move.schedules, Bool.toNat_false, reduceCtorEq, if_false,
      if_true] at hsched ⊢
    split_ifs at hsched ⊢ <;> omega
  | lock hqueued ha => simp [hqueued, ha, Move.prints, Move.schedules]
  | print ha => simp [ha, h.data, Move.prints, Move.schedules]
  | clear ha | unlock ha => simp [ha, Move.prints, Move.schedules]
  | bug | exit | killSet | killWait | killClear | freeIrq | gpioFree => rfl

lemma printed_step (h : Held s) (hs : Step s m t) :
    (if t.action = some .unlock then 1 else 0) + m.finishes.toNat =
      (if s.action = some .unlock then 1 else 0) + m.prints.toNat := by
  cases hs with
  | lock _ ha | clear ha | unlock ha => simp [ha, Move.prints, Move.finishes]
  | print ha => simp [ha, h.data, Move.prints, Move.finishes]
  | interrupt | scheduled | scheduledBefore | enqueue | bug | exit | killSet | killWait | killClear
  | freeIrq | gpioFree => rfl

lemma unfinished_step (h : Held s) (hs : Step s m t) :
    t.unfinished + m.finishes.toNat = s.unfinished + m.schedules.toNat := by
  have hunprinted := unprinted_step h hs
  have hprinted := printed_step h hs
  simp only [System.unfinished]
  omega

lemma label_step (h : Held s) (hs : Step s m t) :
    m ≠ .bug ∧ ∀ year month day, m = .print year month day → m.prints = true := by
  cases hs with
  | bug ha hclear =>
    rw [h.sched_of_clear ha] at hclear
    cases hclear
  | print => simp [h.data, Move.prints]
  | _ => simp

end Counts

section Results

theorem runs_counted (h : Run Step simpleTaskletInit ls s) :
    ls.countP Move.prints + s.unprinted = ls.countP Move.schedules ∧ s.unprinted ≤ 2 ∧
      (∀ m ∈ ls, m ≠ .bug ∧ ∀ year month day, m = .print year month day → m.prints = true) ∧
      ∀ t, Step s (.schedule false) t → s.exit.kills = false → s.unbegun = 1 := by
  have hheld := held_run h
  have hbalance := h.balance (fun _ _ _ => held_step) (fun _ _ _ => unprinted_step)
    held_init
  have hsched := hheld.sched
  refine ⟨?_, ?_, ?_, ?_⟩
  · have hzero : simpleTaskletInit.unprinted = 0 := rfl
    omega
  · have hle := Bool.toNat_le s.sched
    simp only [System.unprinted]
    split_ifs <;> omega
  · apply h.induct_right (M := fun ls _ => ∀ m ∈ ls, m ≠ .bug ∧
      ∀ year month day, m = .print year month day → m.prints = true) (by simp)
    intro ls s m t hls hall hs m' hm'
    rw [List.mem_append, List.mem_singleton] at hm'
    obtain hm' | rfl := hm'
    · exact hall m' hm'
    · exact label_step (held_run hls) hs
  · rintro t ht hkills
    cases ht with
    | scheduledBefore _ hset =>
      rw [hset, hkills, Bool.toNat_true, Bool.toNat_false] at hsched
      exact hsched.symm

theorem runs_counted_again : ∃ s t, Run Step simpleTaskletInit
      [.interrupt, .schedule true, .enqueue, .interrupt] s ∧ Step s (.schedule false) t ∧
    s.unprinted = 1 ∧ s.unbegun = 1 := by
  obtain ⟨s, hrun, hisr, hsched, hexit⟩ : ∃ s, Run Step simpleTaskletInit
      [.interrupt, .schedule true, .enqueue, .interrupt] s ∧ s.isr = .testAndSet ∧
        s.sched = true ∧ s.exit = .loaded :=
    ⟨_, .cons (.interrupt rfl rfl) (.cons (.scheduled rfl rfl) (.cons (.enqueue rfl)
      (.cons (.interrupt rfl rfl) .nil))), rfl, rfl, rfl⟩
  have hagain : Step s (.schedule false) { s with isr := .idle } := .scheduledBefore hisr hsched
  obtain ⟨hcount, -, -, hunbegun⟩ := runs_counted hrun
  refine ⟨s, _, hrun, hagain, ?_, hunbegun _ hagain (by rw [hexit]; rfl)⟩
  have hprints :
      [Move.interrupt, .schedule true, .enqueue, .interrupt].countP Move.prints = 0 := rfl
  have hschedules :
      [Move.interrupt, .schedule true, .enqueue, .interrupt].countP Move.schedules = 1 := rfl
  omega

lemma stuck_iff (h : Held s) (he : s.exit = .returned) :
    (∀ m t, ¬ Step s m t) ↔ s.unfinished = 0 := by
  obtain ⟨hirq, hisr⟩ := h.freed (by rw [he]; rfl)
  constructor
  · intro hstuck
    have haction : s.action = none := by
      cases ha : s.action with
      | none => rfl
      | some stage =>
        cases stage with
        | testAndClear => exact absurd (.clear ha (h.sched_of_clear ha)) (hstuck _ _)
        | func => exact absurd (.print ha) (hstuck _ _)
        | unlock => exact absurd (.unlock ha) (hstuck _ _)
    have hqueued : s.queued = false := by
      cases hq : s.queued with
      | false => rfl
      | true => exact absurd (.lock hq haction) (hstuck _ _)
    simp [System.unfinished, System.unprinted, System.unbegun, haction, hqueued, hisr]
  · intro hzero m t hs
    simp only [System.unfinished, System.unprinted, System.unbegun] at hzero
    cases hs <;> simp_all

theorem unload_iff (hjs : Run Step simpleTaskletInit js s) (hkill : Step s .killClear t)
    (hks : Run Step t ks u) (hu : u.exit = .returned) :
    (∀ m v, ¬ Step u m v) ↔ ks.countP Move.schedules = ks.countP Move.finishes := by
  have hs := held_run hjs
  have ht := held_step hs hkill
  have hzero : t.unfinished = 0 := by
    cases hkill with
    | killClear he =>
      have hunbegun : System.unbegun { s with sched := false, exit := .freeIrq } = 0 :=
        hs.unbegun_of_kills (by rw [he]; rfl)
      rw [System.unfinished, System.unprinted, hunbegun]
      simp [hs.locked he]
  have hbalance := hks.balance (fun _ _ _ => held_step) (fun _ _ _ => unfinished_step)
    ht
  rw [stuck_iff (hks.invariant (fun _ _ _ => held_step) ht) hu]
  omega

theorem unload_iff_between : ∃ u, u.exit = .returned ∧ ∃ m v, Step u m v := by
  obtain ⟨s, t, u, hjs, hkill, hks, hu⟩ : ∃ s t u,
      Run Step simpleTaskletInit [.exit, .killSet, .killWait] s ∧ Step s .killClear t ∧
        Run Step t [.interrupt, .schedule true, .enqueue, .freeIrq, .gpioFree] u ∧
        u.exit = .returned :=
    ⟨_, _, _, .cons (.exit rfl) (.cons (.killSet rfl rfl) (.cons (.killWait rfl rfl) .nil)),
      .killClear rfl, .cons (.interrupt rfl rfl) (.cons (.scheduled rfl rfl) (.cons (.enqueue rfl)
        (.cons (.freeIrq rfl rfl) (.cons (.gpioFree rfl) .nil)))), rfl⟩
  refine ⟨u, hu, ?_⟩
  by_contra hnone
  have hstuck : ∀ m v, ¬ Step u m v := fun m v hs => hnone ⟨m, v, hs⟩
  exact absurd ((unload_iff hjs hkill hks hu).mp hstuck) (by decide)

end Results

end EmbeddedSystem.SimpleTasklet
