import EmbeddedSystem.Switch.Handshake

/-! The steps of `switch_exit` among the interrupts and the tasklets. The nodes of every list are
numbered in the order of their allocation. -/

namespace EmbeddedSystem.Switch

open Kernel Foundations

variable {w : ℕ}

structure Nodes where
  allocated : ℕ
  live : List ℕ
  freed : List ℕ

def Nodes.release (g : Nodes) : Nodes := ⟨g.allocated, [], g.freed ++ g.live⟩

def Nodes.after (d : Sensor) (i : Fin queueNum) (use : Bool) (g : Nodes) :
    Option (Effect w) → Nodes
  | some (.closed k) => if k = i then g.release else g
  | some (.sensed d' _) =>
    if d' = d ∧ use = true then ⟨g.allocated + 1, g.live ++ [g.allocated], g.freed⟩ else g
  | some (.received d' k _) =>
    if d' = d ∧ k = i then ⟨g.allocated, g.live.tail, g.freed ++ g.live.take 1⟩ else g
  | _ => g

inductive ExitPc
  | running | killSwitch | killUltrasonic | cdevDel
  | freeIrq (k : Fin 4)
  | freeLists | returned
  deriving DecidableEq

def ExitPc.handles : ExitPc → Fin 4 → Bool
  | .running, _ | .killSwitch, _ | .killUltrasonic, _ | .cdevDel, _ => true
  | .freeIrq k, i => k ≤ i
  | .freeLists, _ | .returned, _ => false

structure Unload (w : ℕ) where
  driver : Driver w
  nodes : Sensor → Fin queueNum → Nodes
  pc : ExitPc

def Unload.init : Unload w := ⟨.init, fun _ _ => ⟨0, [], []⟩, .running⟩

def Unload.act (s : Unload w) (d : Driver w) (e : Option (Effect w)) : Unload w :=
  ⟨d, fun c i => (s.nodes c i).after c i (s.driver.queueUse i) e, s.pc⟩

def switchExit (s : Unload w) : Option (Unload w) :=
  match s.pc with
  | .running => some { s with pc := .killSwitch }
  | .killSwitch => if s.driver.switchPending then none else some { s with pc := .killUltrasonic }
  | .killUltrasonic => if s.driver.ultrasonicPending then none else some { s with pc := .cdevDel }
  | .cdevDel => some { s with pc := .freeIrq 0 }
  | .freeIrq k => some { s with pc := if k = 3 then .freeLists else .freeIrq (k + 1) }
  | .freeLists => some {
      driver := { s.driver with switchQueue := fun _ => [], ultrasonicQueue := fun _ => [] }
      nodes := fun c i => (s.nodes c i).release
      pc := .returned }
  | .returned => none

inductive UnloadMove (w : ℕ)
  | ioctl (cmd : Command) (key : ℤ)
  | button (k : Fin 3) (jiffies : BitVec w)
  | echo (tmpTime : ℤ) (level ends : Bool)
  | tasklet (d : Sensor)
  | exit (pc : ExitPc)
  deriving DecidableEq

def Driver.echoEnds (s : Driver w) (level : Bool) : Bool := s.echoValidFlag = 2 && !level

inductive UnloadStep (s : Unload w) : UnloadMove w → Unload w → Prop
  | ioctl {cmd : Command} {key : ℤ} {d : Driver w} {y : Reply w} :
      s.pc = .running → switchIoctl s.driver cmd key = .ok (d, y) →
      UnloadStep s (.ioctl cmd key) (s.act d y.effect)
  | button {k : Fin 3} {jiffies : BitVec w} :
      s.pc.handles k.castSucc = true →
      UnloadStep s (.button k jiffies)
        { s with driver := switchIrqIsr (k.val + 1) s.driver jiffies }
  | echo {tmpTime : ℤ} {level : Bool} {jiffies : BitVec w} :
      s.pc.handles 3 = true →
      UnloadStep s (.echo tmpTime level (s.driver.echoEnds level))
        { s with driver := ultrasonicIsr s.driver tmpTime level jiffies }
  | switchTasklet {kmalloc : Fin queueNum → Bool} {d : Driver w} {y : Reply w} :
      s.driver.switchPending = true →
      switchTaskletFunc kmalloc { s.driver with switchPending := false } s.driver.switchDataTmp =
        .ok (d, y) →
      UnloadStep s (.tasklet .switch) (s.act d y.effect)
  | ultrasonicTasklet {kmalloc : Fin queueNum → Bool} {d : Driver w} {y : Reply w} :
      s.driver.ultrasonicPending = true →
      ultrasonicTaskletFunc kmalloc { s.driver with ultrasonicPending := false }
        s.driver.ultrasonicDataTmp = .ok (d, y) →
      UnloadStep s (.tasklet .ultrasonic) (s.act d y.effect)
  | exit {t : Unload w} : switchExit s = some t → UnloadStep s (.exit s.pc) t

def Driver.pending (s : Driver w) : Sensor → Bool
  | .switch => s.switchPending
  | .ultrasonic => s.ultrasonicPending

structure Clean (s : Unload w) : Prop where
  quiet : ∀ d, s.driver.pending d = false
  freed : ∀ d i, (s.nodes d i).freed = List.range (s.nodes d i).allocated

section Schedules

def UnloadMove.awaits (d : Sensor) (waiting : Bool) : UnloadMove w → Bool
  | .button _ _ => waiting || d = .switch
  | .echo _ _ ends => waiting || (ends && d = .ultrasonic)
  | .tasklet d' => waiting && d' ≠ d
  | _ => waiting

/-- An interrupt has scheduled the tasklet and the tasklet has not run since. -/
def awaiting (d : Sensor) (ms : List (UnloadMove w)) : Bool :=
  ms.foldl (fun waiting m => m.awaits d waiting) false

lemma awaiting_snoc (d : Sensor) (ms : List (UnloadMove w)) (m : UnloadMove w) :
    awaiting d (ms ++ [m]) = m.awaits d (awaiting d ms) := by
  rw [awaiting, List.foldl_append]
  rfl

end Schedules

section Accounts

variable {s t : Driver w} {g : Nodes} {d : Sensor} {i : Fin queueNum} {e : Option (Effect w)}

structure Accounts (g : Nodes) (q : List (Data w)) : Prop where
  numbered : g.freed ++ g.live = List.range g.allocated
  length : g.live.length = q.length

lemma Accounts.release {q : List (Data w)} (h : Accounts g q) :
    Accounts g.release ([] : List (Data w)) := ⟨(List.append_nil _).trans h.numbered, rfl⟩

lemma Accounts.changes (h : Accounts g (s.queue d i)) (hc : Changes s t e) :
    Accounts (g.after d i (s.queueUse i) e) (t.queue d i) := by
  cases e with
  | none =>
    obtain rfl := hc
    exact h
  | some e =>
    cases e with
    | opened k =>
      rw [hc.2.2]
      exact h
    | closed k =>
      rw [hc.2.2, Function.update_apply, Nodes.after]
      by_cases hk : k = i
      · rw [if_pos hk, if_pos hk.symm]
        exact h.release
      · rw [if_neg hk, if_neg (Ne.symm hk)]
        exact h
    | sensed d' x =>
      obtain ⟨_, hq, hother⟩ := hc
      rw [Nodes.after]
      by_cases hd : d' = d
      · subst hd
        rw [hq]
        cases s.queueUse i with
        | false => simpa using h
        | true =>
          simp only [and_self, if_true]
          refine ⟨?_, ?_⟩
          · rw [← List.append_assoc, h.numbered, List.range_succ]
          · simp [h.length]
      · rw [if_neg fun hand => hd hand.1, hother d (Ne.symm hd)]
        exact h
    | received d' k x =>
      obtain ⟨_, ⟨rest, hx, hq⟩, hother⟩ := hc
      rw [Nodes.after]
      by_cases hd : d' = d
      · subst hd
        by_cases hk : k = i
        · subst hk
          simp only [and_self, if_true, hq, Function.update_self]
          have hlen := h.length
          rw [hx] at hlen
          refine ⟨?_, ?_⟩
          · rw [← h.numbered, List.append_assoc, ← List.drop_one, List.take_append_drop]
          · simp [hlen]
        · rw [if_neg fun hand => hk hand.2, hq, Function.update_of_ne (Ne.symm hk)]
          exact h
      · rw [if_neg fun hand => hd hand.1, hother d (Ne.symm hd)]
        exact h

end Accounts

section Steps

variable {s t : Unload w} {m : UnloadMove w} {ms : List (UnloadMove w)}

lemma ultrasonicIsr_pending (s : Driver w) (tmpTime : ℤ) (level : Bool) (jiffies : BitVec w) :
    (ultrasonicIsr s tmpTime level jiffies).ultrasonicPending =
      (s.ultrasonicPending || s.echoEnds level) := by
  obtain ⟨htwo, hlevel, heq⟩ | ⟨hnot, heq⟩ := ultrasonicIsr_cases s tmpTime level jiffies
  · rw [heq]
    simp [Driver.echoEnds, htwo, hlevel]
  · have hends : s.echoEnds level = false := by simpa [Driver.echoEnds] using hnot
    rw [hends, Bool.or_false]
    obtain heq | ⟨_, heq⟩ := heq
    · rw [heq]
    · rw [heq]

structure Tracked (ms : List (UnloadMove w)) (s : Unload w) : Prop where
  pending : ∀ d, s.driver.pending d = awaiting d ms
  accounts : ∀ d i, Accounts (s.nodes d i) (s.driver.queue d i)

lemma Tracked.act (h : Tracked ms s) {d d' : Driver w} {e : Option (Effect w)}
    (huse : d.queueUse = s.driver.queueUse) (hqueue : d.queue = s.driver.queue)
    (hc : Changes d d' e) (hpending : ∀ c, d'.pending c = m.awaits c (s.driver.pending c)) :
    Tracked (ms ++ [m]) (s.act d' e) := by
  refine ⟨?_, ?_⟩
  · intro c
    rw [awaiting_snoc, ← h.pending]
    exact hpending c
  · intro c i
    have haccounts := h.accounts c i
    rw [← hqueue] at haccounts
    have hnext := haccounts.changes hc
    rw [huse] at hnext
    exact hnext

lemma Tracked.frame (h : Tracked ms s) {d : Driver w} {pc : ExitPc}
    (hqueue : d.queue = s.driver.queue)
    (hpending : ∀ c, d.pending c = m.awaits c (s.driver.pending c)) :
    Tracked (ms ++ [m]) ⟨d, s.nodes, pc⟩ := by
  refine ⟨?_, ?_⟩
  · intro c
    rw [awaiting_snoc, ← h.pending]
    exact hpending c
  · intro c i
    rw [hqueue]
    exact h.accounts c i

lemma switchExit_cases (h : switchExit s = some t) :
    (s.pc = .freeLists ∧ t.pc = .returned ∧
      t.driver = { s.driver with switchQueue := fun _ => [], ultrasonicQueue := fun _ => [] } ∧
      t.nodes = fun c i => (s.nodes c i).release) ∨
    s.pc ≠ .freeLists ∧ t.pc ≠ .returned ∧ t.driver = s.driver ∧ t.nodes = s.nodes := by
  rw [switchExit] at h
  cases hpc : s.pc with
  | freeLists =>
    rw [hpc] at h
    cases h
    exact Or.inl ⟨rfl, rfl, rfl, rfl⟩
  | returned =>
    rw [hpc] at h
    cases h
  | killSwitch | killUltrasonic =>
    rw [hpc] at h
    simp only at h
    split at h
    · cases h
    · cases h
      exact Or.inr ⟨by simp, by simp, rfl, rfl⟩
  | freeIrq k =>
    rw [hpc] at h
    cases h
    refine Or.inr ⟨by simp, ?_, rfl, rfl⟩
    simp only
    split <;> simp
  | running | cdevDel =>
    rw [hpc] at h
    cases h
    exact Or.inr ⟨by simp, by simp, rfl, rfl⟩

lemma tracked_step (h : Tracked ms s) (hs : UnloadStep s m t) : Tracked (ms ++ [m]) t := by
  cases hs with
  | @ioctl cmd key d y hpc hd =>
    have hswitch := congrArg Driver.switchPending (switchIoctl_queues hd)
    have hultrasonic := congrArg Driver.ultrasonicPending (switchIoctl_queues hd)
    apply h.act rfl rfl (switchIoctl_changes hd)
    rintro (_ | _)
    · exact hswitch
    · exact hultrasonic
  | button =>
    refine h.frame (queue_congr rfl rfl) ?_
    rintro (_ | _)
    · simp [Driver.pending, switchIrqIsr, UnloadMove.awaits]
    · simp [Driver.pending, switchIrqIsr, UnloadMove.awaits]
  | @echo tmpTime level jiffies =>
    have hpending := ultrasonicIsr_pending s.driver tmpTime level jiffies
    obtain ⟨_, _, _, _, _, hisr⟩ := ultrasonicIsr_frame s.driver tmpTime level jiffies
    rw [hisr] at hpending ⊢
    refine h.frame (queue_congr rfl rfl) ?_
    rintro (_ | _)
    · simp [Driver.pending, UnloadMove.awaits]
    · simpa [Driver.pending, UnloadMove.awaits] using hpending
  | switchTasklet _ hd =>
    apply h.act (d := { s.driver with switchPending := false }) rfl
      (queue_congr rfl rfl) (switchTaskletFunc_changes hd)
    obtain ⟨_, rfl, _⟩ | ⟨_, rfl, _⟩ := switchTaskletFunc_cases hd
    · rintro (_ | _) <;> simp [Driver.pending, UnloadMove.awaits]
    · rintro (_ | _)
      · simp [Driver.pending, UnloadMove.awaits, pre_trigger]
      · simp [Driver.pending, UnloadMove.awaits, data_trigger]
  | ultrasonicTasklet _ hd =>
    apply h.act (d := { s.driver with ultrasonicPending := false }) rfl
      (queue_congr rfl rfl) (ultrasonicTaskletFunc_changes hd)
    obtain ⟨rfl, _⟩ := ultrasonicTaskletFunc_cases hd
    rintro (_ | _) <;> simp [Driver.pending, UnloadMove.awaits]
  | exit hexit =>
    obtain ⟨driver, nodes, pc⟩ := t
    obtain ⟨_, _, hdriver, hnodes⟩ | ⟨_, _, hdriver, hnodes⟩ := switchExit_cases hexit
    · simp only at hdriver hnodes
      subst hdriver hnodes
      refine ⟨?_, ?_⟩
      · intro c
        rw [awaiting_snoc, ← h.pending]
        cases c <;> rfl
      · intro c i
        have hrelease := (h.accounts c i).release
        cases c <;> exact hrelease
    · simp only at hdriver hnodes
      subst hdriver hnodes
      apply h.frame rfl
      intro c
      rfl

lemma tracked_run (h : Run UnloadStep .init ms s) : Tracked ms s := by
  apply h.induct_right (M := Tracked)
  · refine ⟨?_, ?_⟩
    · rintro (_ | _) <;> rfl
    · rintro (_ | _) i <;> exact ⟨rfl, rfl⟩
  · exact fun _ _ _ _ _ ih hs => tracked_step ih hs

end Steps

section Results

variable {s t : Unload w} {m : UnloadMove w} {ms : List (UnloadMove w)}

def Settled (s : Unload w) (m : UnloadMove w) : Prop :=
  m = .exit .freeLists → ∀ d, s.driver.pending d = false

lemma clean_step (htracked : Tracked ms s) (h : s.pc = .returned → Clean s)
    (hs : UnloadStep s m t) (hsettled : Settled s m) (ht : t.pc = .returned) : Clean t := by
  cases hs with
  | ioctl hpc =>
    have hpc' : s.pc = .returned := ht
    rw [hpc'] at hpc
    cases hpc
  | button hpc | echo hpc =>
    have hpc' : s.pc = .returned := ht
    rw [hpc'] at hpc
    cases hpc
  | switchTasklet hpending =>
    have hidle := (h ht).quiet .switch
    have hbusy : s.driver.pending .switch = true := hpending
    rw [hbusy] at hidle
    cases hidle
  | ultrasonicTasklet hpending =>
    have hidle := (h ht).quiet .ultrasonic
    have hbusy : s.driver.pending .ultrasonic = true := hpending
    rw [hbusy] at hidle
    cases hidle
  | exit hexit =>
    obtain ⟨hpc, _, hdriver, hnodes⟩ | ⟨_, hne, _, _⟩ := switchExit_cases hexit
    · refine ⟨?_, ?_⟩
      · intro d
        have hidle := hsettled (by rw [hpc]) d
        rw [hdriver]
        cases d <;> exact hidle
      · intro d i
        rw [hnodes]
        exact (htracked.accounts d i).numbered
    · exact absurd ht hne

lemma clean_run (h : Run (Guarded UnloadStep Settled) .init ms s) (hpc : s.pc = .returned) :
    Clean s := by
  have hboth : Tracked ms s ∧ (s.pc = .returned → Clean s) := by
    apply h.induct_right (M := fun ms s => Tracked ms s ∧ (s.pc = .returned → Clean s))
    · exact ⟨tracked_run .nil, by rintro ⟨⟩⟩
    · rintro ms s m t _ ⟨htracked, hclean⟩ ⟨hs, hsettled⟩
      exact ⟨tracked_step htracked hs, clean_step htracked hclean hs hsettled⟩
  exact hboth.2 hpc

lemma freeLists_step (h : UnloadStep s (.exit .freeLists) t) :
    t.pc = .returned ∧ ∀ d, t.driver.pending d = s.driver.pending d := by
  generalize hm : UnloadMove.exit .freeLists = m at h
  cases h with
  | exit hexit =>
    obtain ⟨_, hpc, hdriver, _⟩ | ⟨hne, _⟩ := switchExit_cases hexit
    · refine ⟨hpc, ?_⟩
      intro d
      rw [hdriver]
      cases d <;> rfl
    · exact absurd (UnloadMove.exit.inj hm).symm hne
  | _ => cases hm

theorem switch_exit_clean (h : Run UnloadStep (.init : Unload w) ms s) :
    (∀ js ks t, ms = js ++ ks → Run UnloadStep .init js t → t.pc = .returned → Clean t) ↔
      ∀ js ks, ms = js ++ .exit .freeLists :: ks → ∀ d, awaiting d js = false := by
  constructor
  · rintro hclean js ks rfl d
    obtain ⟨u, hu, hrest⟩ := h.split
    cases hrest with
    | @cons _ v _ _ _ hs _ =>
      obtain ⟨hpc, hpending⟩ := freeLists_step hs
      have hv := hclean (js ++ [.exit .freeLists]) ks v (by simp) (hu.snoc hs) hpc
      rw [← (tracked_run hu).pending, ← hpending]
      exact hv.quiet d
  · rintro hawaiting js ks t rfl ht hpc
    have hguarded : Run (Guarded UnloadStep Settled) .init js t := by
      apply ht.guard
      rintro as m bs u _ rfl hu _ _ rfl d
      rw [(tracked_run hu).pending]
      exact hawaiting as (bs ++ ks) (by simp) d
    exact clean_run hguarded hpc

def quietExit : List (UnloadMove 8) :=
  [.ioctl .queueGet 0, .exit .running, .exit .killSwitch, .exit .killUltrasonic, .button 0 100,
    .tasklet .switch, .exit .cdevDel, .exit (.freeIrq 0), .exit (.freeIrq 1), .exit (.freeIrq 2),
    .exit (.freeIrq 3), .exit .freeLists]

theorem switch_exit_clean_ran : ∃ s : Unload 8, Run UnloadStep .init quietExit s ∧
    (s.nodes .switch 0).allocated = 1 ∧ Clean s := by
  obtain ⟨s, hrun, hpc, hallocated⟩ : ∃ s : Unload 8, Run UnloadStep .init quietExit s ∧
      s.pc = .returned ∧ (s.nodes .switch 0).allocated = 1 := by
    refine ⟨_, .cons (@UnloadStep.ioctl _ _ _ _ _ ⟨1, some (.opened 0)⟩ rfl rfl)
      (.cons (.exit rfl) (.cons (.exit rfl) (.cons (.exit rfl) (.cons (.button rfl)
      (.cons (@UnloadStep.switchTasklet _ _ (fun _ => true) _ ⟨0, some (.sensed .switch _)⟩ rfl rfl)
        (.cons (.exit rfl) (.cons (.exit rfl) (.cons (.exit rfl) (.cons (.exit rfl)
          (.cons (.exit rfl) (.cons (.exit rfl) .nil))))))))))), rfl, rfl⟩
  have hfinite : ∀ n < 12, quietExit[n]? = some (.exit .freeLists) →
      awaiting .switch (quietExit.take n) = false ∧
        awaiting .ultrasonic (quietExit.take n) = false := by decide
  have hawaiting : ∀ js ks, quietExit = js ++ .exit .freeLists :: ks →
      ∀ d, awaiting d js = false := by
    intro js ks hsplit d
    have htake : quietExit.take js.length = js := by rw [hsplit, List.take_left]
    have hlen : js.length < quietExit.length := by
      rw [hsplit, List.length_append, List.length_cons]
      omega
    have hboth := hfinite js.length hlen (by simp [hsplit])
    rw [htake] at hboth
    cases d
    · exact hboth.1
    · exact hboth.2
  have hclean := (switch_exit_clean hrun).mpr hawaiting quietExit [] s (List.append_nil _).symm hrun
  exact ⟨s, hrun, hallocated, hclean hpc⟩

theorem tasklet_left_pending : ¬ ∀ (ms : List (UnloadMove 8)) (s : Unload 8),
    Run UnloadStep .init ms s → s.pc = .returned → Clean s := by
  intro h
  obtain ⟨s, hrun, hpc, hpending⟩ : ∃ s : Unload 8, Run UnloadStep .init
      [.exit .running, .exit .killSwitch, .exit .killUltrasonic, .button 0 100, .exit .cdevDel,
        .exit (.freeIrq 0), .exit (.freeIrq 1), .exit (.freeIrq 2), .exit (.freeIrq 3),
        .exit .freeLists] s ∧ s.pc = .returned ∧ s.driver.pending .switch = true := by
    refine ⟨_, .cons (.exit rfl) (.cons (.exit rfl) (.cons (.exit rfl) (.cons (.button rfl)
      (.cons (.exit rfl) (.cons (.exit rfl) (.cons (.exit rfl) (.cons (.exit rfl)
        (.cons (.exit rfl) (.cons (.exit rfl) .nil))))))))), rfl, rfl⟩
  have hidle := (h _ s hrun hpc).quiet .switch
  rw [hpending] at hidle
  cases hidle

end Results

end EmbeddedSystem.Switch
