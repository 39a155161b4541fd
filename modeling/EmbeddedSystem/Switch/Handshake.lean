import EmbeddedSystem.Switch.Broadcast

/-! The trigger of `switch_tasklet_func` and the echo interrupts of `ultrasonic_isr`. The tasklet
shows the flag 0 to the interrupts between its two assignments, so here it takes two steps. -/

namespace EmbeddedSystem.Switch

open Kernel Foundations

variable {w : ℕ}

def switchTaskletBegin (kmalloc : Fin queueNum → Bool) (s : Driver w) (myData : Data w) :
    Except Fault (Driver w × Bool) :=
  if s.pre + 20 < myData.timestamp then do
    let queue ← broadcast kmalloc s.queueUse s.switchQueue myData
    let s := { s with switchQueue := queue, pre := myData.timestamp }
    if s.echoValidFlag = 3 then return (s.beginTrigger, true)
    else return (s, false)
  else
    return (s, false)

/-- The driver, whether a trigger pulse is going on, and the time of the last echo interrupt. -/
structure Handshake (w : ℕ) where
  driver : Driver w
  triggering : Bool
  now : ℤ

inductive Signal (w : ℕ)
  | press (begun : Bool)
  | endTrigger
  | echo (tmpTime : ℤ) (level : Bool)
  | measure (tmpTime : ℤ) (cm : ℤ)
  | other
  deriving DecidableEq

def Handshake.init : Handshake w := ⟨.init, false, 0⟩

/-- Whether the handler of an echo interrupt calls `tasklet_schedule`. -/
def Driver.schedules (s : Driver w) (tmpTime : ℤ) (level : Bool) (jiffies : BitVec w) : Bool :=
  (ultrasonicIsr { s with ultrasonicPending := false } tmpTime level jiffies).ultrasonicPending

inductive HandshakeStep (s : Handshake w) : Signal w → Handshake w → Prop
  | press {kmalloc : Fin queueNum → Bool} {myData : Data w} {d : Driver w} {begun : Bool} :
      s.triggering = false → switchTaskletBegin kmalloc s.driver myData = .ok (d, begun) →
      HandshakeStep s (.press begun) { s with driver := d, triggering := begun }
  | endTrigger :
      s.triggering = true →
      HandshakeStep s .endTrigger { s with driver := s.driver.endTrigger, triggering := false }
  | echo {tmpTime : ℤ} {level : Bool} {jiffies : BitVec w} :
      s.now ≤ tmpTime → s.driver.schedules tmpTime level jiffies = false →
      HandshakeStep s (.echo tmpTime level)
        { s with driver := ultrasonicIsr s.driver tmpTime level jiffies, now := tmpTime }
  | measure {tmpTime : ℤ} {level : Bool} {jiffies : BitVec w} {d : Driver w} :
      s.now ≤ tmpTime → s.driver.schedules tmpTime level jiffies = true →
      ultrasonicIsr s.driver tmpTime level jiffies = d →
      HandshakeStep s (.measure tmpTime d.ultrasonicDataTmp.value)
        { s with driver := d, now := tmpTime }
  | ioctl {cmd : Command} {key : ℤ} {d : Driver w} {y : Reply w} :
      s.triggering = false → switchIoctl s.driver cmd key = .ok (d, y) →
      HandshakeStep s .other { s with driver := d }
  | ultrasonicTasklet {kmalloc : Fin queueNum → Bool} {myData : Data w} {d : Driver w}
      {y : Reply w} :
      s.triggering = false →
      ultrasonicTaskletFunc kmalloc { s.driver with ultrasonicPending := false } myData =
        .ok (d, y) →
      HandshakeStep s .other { s with driver := d }
  | button (value : ℤ) (jiffies : BitVec w) :
      HandshakeStep s .other { s with driver := switchIrqIsr value s.driver jiffies }

section Split

variable {kmalloc : Fin queueNum → Bool} {s t : Driver w} {x : Data w}

lemma switchTaskletFunc_split {begun : Bool} (h : switchTaskletBegin kmalloc s x = .ok (t, begun)) :
    ∃ y, switchTaskletFunc kmalloc s x = .ok (if begun then t.endTrigger else t, y) := by
  rw [switchTaskletBegin] at h
  rw [switchTaskletFunc]
  split at h
  · next hpre =>
    obtain ⟨q, hq, h⟩ := bind_ok.mp h
    rw [if_pos hpre, hq, ok_bind]
    simp only at h
    split at h
    · next hflag =>
      cases h
      refine ⟨⟨0, some (.sensed .switch x)⟩, ?_⟩
      simp [Driver.trigger, hflag]
      rfl
    · next hflag =>
      cases h
      refine ⟨⟨0, some (.sensed .switch x)⟩, ?_⟩
      simp [Driver.trigger, hflag]
      rfl
  · next hpre =>
    cases h
    rw [if_neg hpre]
    exact ⟨_, rfl⟩

lemma switchTaskletBegin_cases {d : Driver w} {begun : Bool}
    (h : switchTaskletBegin kmalloc s x = .ok (d, begun)) :
    begun = true ∧ s.echoValidFlag = 3 ∧ d.echoValidFlag = 0 ∨
      begun = false ∧ d.echoValidFlag = s.echoValidFlag ∧ d.echoStart = s.echoStart := by
  rw [switchTaskletBegin] at h
  split at h
  · obtain ⟨q, hq, h⟩ := bind_ok.mp h
    simp only at h
    split at h
    · next hflag =>
      cases h
      exact Or.inl ⟨rfl, hflag, rfl⟩
    · cases h
      exact Or.inr ⟨rfl, rfl, rfl⟩
  · cases h
    exact Or.inr ⟨rfl, rfl, rfl⟩

lemma schedules_iff (s : Driver w) (tmpTime : ℤ) (level : Bool) (jiffies : BitVec w) :
    s.schedules tmpTime level jiffies = true ↔ s.echoValidFlag = 2 ∧ level = false := by
  rw [Driver.schedules]
  obtain ⟨htwo, hlow, heq⟩ | ⟨hnot, heq | ⟨-, heq⟩⟩ :=
    ultrasonicIsr_cases { s with ultrasonicPending := false } tmpTime level jiffies
  · rw [heq]
    exact iff_of_true rfl ⟨htwo, hlow⟩
  · rw [heq]
    exact iff_of_false Bool.false_ne_true hnot
  · rw [heq]
    exact iff_of_false Bool.false_ne_true hnot

end Split

section Steps

variable {s t : Handshake w} {m : Signal w}

def Stays (s t : Handshake w) : Prop :=
  t.driver.echoValidFlag = s.driver.echoValidFlag ∧ t.driver.echoStart = s.driver.echoStart ∧
    t.triggering = s.triggering

def Turns (s t : Handshake w) : Signal w → Prop
  | .press true => s.driver.echoValidFlag = 3 ∧ t.driver.echoValidFlag = 0 ∧ t.triggering = true
  | .press false => Stays s t
  | .endTrigger => s.triggering = true ∧ t.driver.echoValidFlag = 1 ∧ t.triggering = false
  | .echo tmpTime level =>
    s.driver.echoValidFlag = 1 ∧ level = true ∧ t.driver.echoValidFlag = 2 ∧
        t.driver.echoStart = tmpTime ∧ t.triggering = s.triggering ∨
      (s.driver.echoValidFlag = 1 → level = false) ∧
        (s.driver.echoValidFlag = 2 → level = true) ∧ Stays s t
  | .measure tmpTime cm =>
    s.driver.echoValidFlag = 2 ∧ t.driver.echoValidFlag = 3 ∧ t.triggering = s.triggering ∧
      cm = centimetres s.driver.echoStart tmpTime ∧ t.driver.ultrasonicPending = true ∧
      t.driver.ultrasonicDataTmp.value = cm
  | .other => Stays s t

lemma handshake_turns (h : HandshakeStep s m t) : Turns s t m := by
  cases h with
  | press htrig hd =>
    obtain ⟨rfl, hflag, hzero⟩ | ⟨rfl, hflag, hstart⟩ := switchTaskletBegin_cases hd
    · exact ⟨hflag, hzero, rfl⟩
    · exact ⟨hflag, hstart, htrig.symm⟩
  | endTrigger htrig => exact ⟨htrig, rfl, rfl⟩
  | @echo tmpTime level jiffies _ hnone =>
    by_cases hone : s.driver.echoValidFlag = 1
    · cases level with
      | true =>
        left
        simp [ultrasonicIsr, hone]
      | false =>
        right
        simp [ultrasonicIsr, hone, Stays]
    · right
      by_cases htwo : s.driver.echoValidFlag = 2
      · have hlevel : level = true := by
          have hends := mt (schedules_iff s.driver tmpTime level jiffies).mpr (by simp [hnone])
          simpa [htwo] using hends
        simp [ultrasonicIsr, htwo, hlevel, Stays]
      · simp [ultrasonicIsr, hone, htwo, Stays]
  | @measure tmpTime level jiffies d _ hends hd =>
    subst hd
    obtain ⟨htwo, hlevel⟩ := (schedules_iff ..).mp hends
    simp [Turns, ultrasonicIsr, htwo, hlevel]
  | ioctl _ hd =>
    have hflag := congrArg Driver.echoValidFlag (switchIoctl_queues hd)
    have hstart := congrArg Driver.echoStart (switchIoctl_queues hd)
    exact ⟨hflag, hstart, rfl⟩
  | ultrasonicTasklet _ hd =>
    obtain ⟨rfl, -⟩ := ultrasonicTaskletFunc_cases hd
    exact ⟨rfl, rfl, rfl⟩
  | button => exact ⟨rfl, rfl, rfl⟩

end Steps

section Pulse

variable {s t : Handshake w} {es : List (Signal w)}

def Unslotted (s t : Driver w) : Prop :=
  t = { s with switchDataTmp := t.switchDataTmp, switchPending := t.switchPending }

lemma pulse_run (h : Run HandshakeStep s es t) (htrig : s.triggering = true)
    (hzero : s.driver.echoValidFlag = 0) (hes : .endTrigger ∉ es) :
    Unslotted s.driver t.driver := by
  induction h with
  | nil => rfl
  | @cons s u t m es hs _ ih =>
    have hrest : (.endTrigger : Signal w) ∉ es := fun hm => hes (List.mem_cons_of_mem _ hm)
    cases hs with
    | press hfree | ioctl hfree | ultrasonicTasklet hfree =>
      rw [htrig] at hfree
      cases hfree
    | endTrigger => exact absurd List.mem_cons_self hes
    | echo =>
      rw [ultrasonicIsr, if_neg (by omega), if_neg (by omega)] at ih
      exact ih htrig hzero hrest
    | measure _ hends =>
      have htwo := ((schedules_iff ..).mp hends).1
      omega
    | button => exact ih htrig hzero hrest

theorem tasklet_atomic {kmalloc : Fin queueNum → Bool} {x : Data w} {d : Driver w}
    (hd : switchTaskletBegin kmalloc s.driver x = .ok (d, true))
    (hr : Run HandshakeStep { s with driver := d, triggering := true } es t)
    (hes : .endTrigger ∉ es) :
    ∃ u y, switchTaskletFunc kmalloc s.driver x = .ok (u, y) ∧
      Unslotted u t.driver.endTrigger := by
  obtain ⟨y, hy⟩ := switchTaskletFunc_split hd
  refine ⟨_, y, hy, ?_⟩
  have hzero : d.echoValidFlag = 0 := by
    obtain ⟨-, -, hzero⟩ | ⟨hfalse, -⟩ := switchTaskletBegin_cases hd
    · exact hzero
    · cases hfalse
  have hpulse : Unslotted d t.driver := pulse_run hr rfl hzero hes
  exact congrArg Driver.endTrigger hpulse

end Pulse

section Runs

variable {s t : Handshake w} {m : Signal w} {ls : List (Signal w)}

def Signal.isMeasure : Signal w → Bool
  | .measure _ _ => true
  | _ => false

def begun (ls : List (Signal w)) : ℕ := ls.count (.press true)

def measured (ls : List (Signal w)) : ℕ := ls.countP Signal.isMeasure

def Waits (level : Bool) : Signal w → Prop
  | .press begun => begun = false
  | .endTrigger | .measure _ _ => False
  | .echo _ read => read = level
  | .other => True

def Armed (ls : List (Signal w)) : Prop :=
  ∃ a b, ls = a ++ .endTrigger :: b ∧ ∀ m ∈ b, Waits false m

/-- The first interrupt since the last complete trigger that read a high level came at `start`, and
none has read a low level since. -/
def Rising (ls : List (Signal w)) (start : ℤ) : Prop :=
  ∃ a b, Armed a ∧ ls = a ++ .echo start true :: b ∧ ∀ m ∈ b, Waits true m

structure Shaken (ls : List (Signal w)) (s : Handshake w) : Prop where
  range : s.driver.echoValidFlag ≤ 3
  trigger : s.triggering = true ↔ s.driver.echoValidFlag = 0
  count : begun ls = measured ls + if s.driver.echoValidFlag = 3 then 0 else 1
  armed : s.driver.echoValidFlag = 1 → Armed ls
  rising : s.driver.echoValidFlag = 2 → Rising ls s.driver.echoStart

lemma begun_snoc (ls : List (Signal w)) (m : Signal w) :
    begun (ls ++ [m]) = begun ls + begun [m] := List.count_append ..

lemma measured_snoc (ls : List (Signal w)) (m : Signal w) :
    measured (ls ++ [m]) = measured ls + measured [m] := List.countP_append ..

lemma Armed.snoc (h : Armed ls) (hm : Waits false m) : Armed (ls ++ [m]) := by
  obtain ⟨a, b, rfl, hb⟩ := h
  refine ⟨a, b ++ [m], by simp, ?_⟩
  intro x hx
  obtain hx | hx := List.mem_append.mp hx
  · exact hb x hx
  · rwa [List.mem_singleton.mp hx]

lemma Rising.snoc {start : ℤ} (h : Rising ls start) (hm : Waits true m) :
    Rising (ls ++ [m]) start := by
  obtain ⟨a, b, ha, rfl, hb⟩ := h
  refine ⟨a, b ++ [m], ha, by simp, ?_⟩
  intro x hx
  obtain hx | hx := List.mem_append.mp hx
  · exact hb x hx
  · rwa [List.mem_singleton.mp hx]

lemma Shaken.stay (h : Shaken ls s) (hst : Stays s t) (hbegun : begun [m] = 0)
    (hmeasured : measured [m] = 0) (hlow : s.driver.echoValidFlag = 1 → Waits false m)
    (hhigh : s.driver.echoValidFlag = 2 → Waits true m) : Shaken (ls ++ [m]) t := by
  obtain ⟨hflag, hstart, htrig⟩ := hst
  refine ⟨?_, ?_, ?_, ?_, ?_⟩
  · rw [hflag]
    exact h.range
  · rw [hflag, htrig]
    exact h.trigger
  · rw [begun_snoc, measured_snoc, hbegun, hmeasured, hflag]
    exact h.count
  · rw [hflag]
    exact fun hone => (h.armed hone).snoc (hlow hone)
  · rw [hflag, hstart]
    exact fun htwo => (h.rising htwo).snoc (hhigh htwo)

lemma Shaken.turn (h : Shaken ls s) (hturns : Turns s t m) : Shaken (ls ++ [m]) t := by
  have hcount := h.count
  cases m with
  | press started =>
    cases started with
    | true =>
      obtain ⟨hthree, hzero, htrig⟩ := hturns
      refine ⟨by omega, by simp [hzero, htrig], ?_, by omega, by omega⟩
      rw [begun_snoc, measured_snoc]
      simp [begun, measured, Signal.isMeasure, hthree, hzero] at hcount ⊢
      exact hcount
    | false =>
      exact h.stay hturns (by simp [begun]) rfl (fun _ => rfl) fun _ => rfl
  | endTrigger =>
    obtain ⟨htrig, hone, hdone⟩ := hturns
    have hzero := h.trigger.mp htrig
    refine ⟨by omega, by simp [hone, hdone], ?_, fun _ => ⟨ls, [], rfl, by simp⟩, by omega⟩
    rw [begun_snoc, measured_snoc]
    simp [begun, measured, Signal.isMeasure, hzero, hone] at hcount ⊢
    exact hcount
  | echo tmpTime level =>
    obtain ⟨hone, rfl, htwo, hstart, htrig⟩ | ⟨hlow, hhigh, hst⟩ := hturns
    · refine ⟨by omega, ?_, ?_, by omega, ?_⟩
      · rw [htrig, h.trigger]
        omega
      · rw [begun_snoc, measured_snoc]
        simp [begun, measured, Signal.isMeasure, hone, htwo] at hcount ⊢
        exact hcount
      · rintro -
        exact ⟨ls, [], h.armed hone, by rw [hstart], by simp⟩
    · exact h.stay hst (by simp [begun]) rfl hlow hhigh
  | measure tmpTime cm =>
    obtain ⟨htwo, hthree, htrig, -⟩ := hturns
    refine ⟨by omega, ?_, ?_, by omega, by omega⟩
    · rw [htrig, h.trigger]
      omega
    · rw [begun_snoc, measured_snoc]
      simp [begun, measured, Signal.isMeasure, htwo, hthree] at hcount ⊢
      exact hcount
  | other => exact h.stay hturns (by simp [begun]) rfl (fun _ => trivial) fun _ => trivial

lemma shaken_init : Shaken [] (.init : Handshake w) := by
  refine ⟨le_rfl, ?_, rfl, ?_, ?_⟩
  all_goals simp [Handshake.init, Driver.init]

lemma shaken_run (h : Run HandshakeStep (.init : Handshake w) ls s) : Shaken ls s := by
  apply h.induct_right (M := Shaken) shaken_init
  intro ls s m t _ hs hstep
  exact hs.turn (handshake_turns hstep)

def Advances (old new : ℕ) : Prop :=
  new = old ∨ (old, new) ∈ [(3, 0), (0, 1), (1, 2), (2, 3)]

theorem one_measurement_per_trigger (h : Run HandshakeStep (.init : Handshake w) ls s) :
    s.driver.echoValidFlag ≤ 3 ∧
    (∀ m t, HandshakeStep s m t → Advances s.driver.echoValidFlag t.driver.echoValidFlag) ∧
    begun ls = measured ls + (if s.driver.echoValidFlag = 3 then 0 else 1) ∧
    ∀ stop cm t, HandshakeStep s (.measure stop cm) t →
      t.driver.ultrasonicPending = true ∧ t.driver.ultrasonicDataTmp.value = cm ∧
        ∃ start, Rising ls start ∧ cm = centimetres start stop := by
  have hs := shaken_run h
  refine ⟨hs.range, ?_, hs.count, ?_⟩
  · intro m t hstep
    have hturns := handshake_turns hstep
    cases m with
    | press started =>
      cases started with
      | true =>
        obtain ⟨hthree, hzero, -⟩ := hturns
        simp [Advances, hthree, hzero]
      | false => exact Or.inl hturns.1
    | endTrigger =>
      obtain ⟨htrig, hone, -⟩ := hturns
      simp [Advances, hs.trigger.mp htrig, hone]
    | echo tmpTime level =>
      obtain ⟨hone, -, htwo, -⟩ | ⟨-, -, hst⟩ := hturns
      · simp [Advances, hone, htwo]
      · exact Or.inl hst.1
    | measure tmpTime cm =>
      obtain ⟨htwo, hthree, -⟩ := hturns
      simp [Advances, htwo, hthree]
    | other => exact Or.inl hturns.1
  · intro stop cm t hstep
    obtain ⟨htwo, -, -, hcm, hpending, hvalue⟩ := handshake_turns hstep
    exact ⟨hpending, hvalue, _, hs.rising htwo, hcm⟩

theorem one_measurement_per_trigger_ten :
    ∃ start, Rising [(.press true : Signal 8), .endTrigger, .echo 0 false, .echo 7 true] start ∧
      10 = centimetres start 580007 := by
  obtain ⟨s, t, hrun, hstep⟩ : ∃ s t : Handshake 8,
      Run HandshakeStep .init [.press true, .endTrigger, .echo 0 false, .echo 7 true] s ∧
        HandshakeStep s (.measure 580007 10) t := by
    refine ⟨_, _, .cons (@HandshakeStep.press _ _ (fun _ => true) ⟨1, 30⟩ _ _ rfl rfl)
      (.cons (.endTrigger rfl) (.cons (@HandshakeStep.echo _ _ 0 false 31 (by decide) rfl)
      (.cons (@HandshakeStep.echo _ _ 7 true 32 (by decide) rfl) .nil))),
      @HandshakeStep.measure _ _ 580007 false 40 _ ?_ rfl rfl⟩
    exact (by decide : (7 : ℤ) ≤ 580007)
  exact ((one_measurement_per_trigger hrun).2.2.2 580007 10 t hstep).2.2

end Runs

end EmbeddedSystem.Switch
