import EmbeddedSystem.Switch.Handshake

/-! The values that `ultrasonic_isr` computes from the clock, on their way through the slot and the
tasklet into the queues. The elapsed microseconds are narrowed to an `int` before the division. -/

namespace EmbeddedSystem.Switch

open Kernel Foundations

variable {w : ℕ}

section Narrowing

def elapsed (start stop : ℤ) : ℤ := (stop - start) / 1000

structure Told (time cm : ℤ) : Prop where
  exact : time / 58 < 2 ^ 31 → cm = time / 58
  nonneg : 0 ≤ cm

/-- The time fits in an `int`, or its quotient fits in none and its low bits are those of an `int`
above -58. -/
def Tellable (time : ℤ) : Prop := time < 2 ^ 31 ∨ 58 * 2 ^ 31 ≤ time ∧ -58 < time.bmod (2 ^ 32)

lemma centimetres_elapsed {start stop : ℤ} (hstart : 0 ≤ start) (hle : start ≤ stop)
    (hstop : stop < 2 ^ 63) :
    centimetres start stop = ((elapsed start stop).bmod (2 ^ 32)).tdiv 58 := by
  have hsub : (stop - start).bmod (2 ^ 64) = stop - start :=
    Int.bmod_eq_of_le_mul_two (by push_cast; omega) (by push_cast; omega)
  have hdiv : (stop - start).tdiv 1000 = elapsed start stop :=
    Int.tdiv_eq_ediv_of_nonneg (by omega)
  rw [centimetres, hsub, hdiv]

lemma tdiv_of_nonpos {b : ℤ} (hb : b ≤ 0) : b.tdiv 58 = -(-b / 58) := by
  rw [← Int.tdiv_eq_ediv_of_nonneg (by omega), Int.neg_tdiv, neg_neg]

lemma tdiv_nonneg_iff (b : ℤ) : 0 ≤ b.tdiv 58 ↔ -58 < b := by
  obtain hb | hb := Int.le_total 0 b
  · have hdiv := Int.tdiv_nonneg hb (by decide : (0 : ℤ) ≤ 58)
    constructor <;> omega
  · rw [tdiv_of_nonpos hb]
    constructor <;> omega

lemma bmod_wraps (time : ℤ) : ∃ q, time.bmod (2 ^ 32) = time - 2 ^ 32 * q ∧
    -2 ^ 31 ≤ time.bmod (2 ^ 32) ∧ time.bmod (2 ^ 32) < 2 ^ 31 := by
  have hlow := @Int.le_bmod time (2 ^ 32) (by decide)
  have hhigh := @Int.bmod_lt time (2 ^ 32) (by decide)
  have hq := Int.bmod_add_bdiv time (2 ^ 32)
  generalize time.bmod (2 ^ 32) = b at hlow hhigh hq ⊢
  generalize time.bdiv (2 ^ 32) = q at hq
  refine ⟨q, ?_, ?_, ?_⟩
  all_goals
    push_cast at hlow hhigh hq
    omega

lemma told_iff {time : ℤ} (h : 0 ≤ time) :
    Told time ((time.bmod (2 ^ 32)).tdiv 58) ↔ Tellable time := by
  obtain ⟨q, hq, hlow, hhigh⟩ := bmod_wraps time
  have hnonneg := tdiv_nonneg_iff (time.bmod (2 ^ 32))
  constructor
  · rintro ⟨hexact, hcm⟩
    have hb := hnonneg.mp hcm
    by_contra hnot
    have hover : 2 ^ 31 ≤ time ∧ time < 58 * 2 ^ 31 := by
      unfold Tellable at hnot
      omega
    have heq := hexact (by omega)
    obtain hpos | hneg := Int.le_total 0 (time.bmod (2 ^ 32))
    · rw [Int.tdiv_eq_ediv_of_nonneg hpos] at heq
      omega
    · rw [tdiv_of_nonpos hneg] at heq
      omega
  · rintro (hfits | ⟨hlarge, hb⟩)
    · have hid : time.bmod (2 ^ 32) = time := by omega
      rw [hid, Int.tdiv_eq_ediv_of_nonneg h]
      exact ⟨fun _ => rfl, by omega⟩
    · exact ⟨fun hsmall => by omega, hnonneg.mpr hb⟩

end Narrowing

inductive DistanceStep (s : Handshake w) : Signal w → Handshake w → Prop
  | handshake {m : Signal w} {t : Handshake w} :
      m ≠ .other → HandshakeStep s m t → DistanceStep s m t
  | ioctl {cmd : Command} {key : ℤ} {d : Driver w} {y : Reply w} :
      s.triggering = false → switchIoctl s.driver cmd key = .ok (d, y) →
      DistanceStep s .other { s with driver := d }
  | ultrasonicTasklet {kmalloc : Fin queueNum → Bool} {d : Driver w} {y : Reply w} :
      s.triggering = false → s.driver.ultrasonicPending = true →
      ultrasonicTaskletFunc kmalloc { s.driver with ultrasonicPending := false }
        s.driver.ultrasonicDataTmp = .ok (d, y) →
      DistanceStep s .other { s with driver := d }
  | button (value : ℤ) (jiffies : BitVec w) :
      DistanceStep s .other { s with driver := switchIrqIsr value s.driver jiffies }

def Signal.Unwrapped : Signal w → Prop
  | .echo tmpTime _ | .measure tmpTime _ => tmpTime < 2 ^ 63
  | _ => True

section Steps

variable {s t : Handshake w} {m : Signal w} {ls : List (Signal w)}

lemma distance_turns (h : DistanceStep s m t) : Turns s t m := by
  cases h with
  | handshake _ h => exact handshake_turns h
  | ioctl htrig hd => exact handshake_turns (.ioctl htrig hd)
  | ultrasonicTasklet htrig _ hd => exact handshake_turns (.ultrasonicTasklet htrig hd)
  | button => exact ⟨rfl, rfl, rfl⟩

lemma distance_shaken (h : Run DistanceStep (.init : Handshake w) ls s) : Shaken ls s := by
  apply h.induct_right (M := Shaken) shaken_init
  intro ls s m t _ hs hstep
  exact hs.turn (distance_turns hstep)

def Ticks (s t : Handshake w) : Signal w → Prop
  | .echo tmpTime _ | .measure tmpTime _ => s.now ≤ tmpTime ∧ t.now = tmpTime
  | _ => t.now = s.now

lemma distance_ticks (h : DistanceStep s m t) : Ticks s t m := by
  cases h with
  | handshake hm h =>
    cases h with
    | press | endTrigger => rfl
    | echo hnow | measure hnow => exact ⟨hnow, rfl⟩
    | ioctl | ultrasonicTasklet | button => exact absurd rfl hm
  | ioctl | ultrasonicTasklet | button => rfl

lemma distance_slot {stop cm : ℤ} (h : DistanceStep s (.measure stop cm) t) :
    t.driver.ultrasonicDataTmp.value = cm := by
  cases h with
  | handshake _ h =>
    cases h with
    | measure => rfl

structure Punctual (s : Handshake w) : Prop where
  now : 0 ≤ s.now
  started : s.driver.echoValidFlag = 2 → 0 ≤ s.driver.echoStart ∧ s.driver.echoStart ≤ s.now

lemma Punctual.stay (h : Punctual s) (hst : Stays s t) (hnow : s.now ≤ t.now) : Punctual t := by
  obtain ⟨hflag, hstart, -⟩ := hst
  refine ⟨h.now.trans hnow, ?_⟩
  rw [hflag, hstart]
  exact fun htwo => ⟨(h.started htwo).1, (h.started htwo).2.trans hnow⟩

lemma Punctual.step (h : Punctual s) (hs : DistanceStep s m t) : Punctual t := by
  have hturns := distance_turns hs
  have hticks := distance_ticks hs
  have hnow := h.now
  cases m with
  | press begun =>
    cases begun with
    | true =>
      obtain ⟨-, hzero, -⟩ := hturns
      exact ⟨hnow.trans hticks.ge, by omega⟩
    | false => exact h.stay hturns hticks.ge
  | endTrigger =>
    obtain ⟨-, hone, -⟩ := hturns
    exact ⟨hnow.trans hticks.ge, by omega⟩
  | echo tmpTime level =>
    obtain ⟨hle, heq⟩ := hticks
    obtain ⟨-, -, -, hstart, -⟩ | ⟨-, -, hst⟩ := hturns
    · exact ⟨by omega, fun _ => by omega⟩
    · exact h.stay hst (by omega)
  | measure tmpTime cm =>
    obtain ⟨hle, heq⟩ := hticks
    obtain ⟨-, hthree, -⟩ := hturns
    exact ⟨by omega, by omega⟩
  | other => exact h.stay hturns hticks.ge

lemma punctual_run (h : Run DistanceStep (.init : Handshake w) ls s) : Punctual s := by
  apply h.invariant (I := Punctual) fun s m t hs hstep => hs.step hstep
  refine ⟨le_rfl, ?_⟩
  simp [Handshake.init, Driver.init]

end Steps

section Values

variable {s t : Driver w} {e : Option (Effect w)} {d : Sensor}

lemma Changes.mem (hc : Changes s t e) (he : ∀ x, e ≠ some (.sensed d x)) {k : Fin queueNum}
    {x : Data w} (hx : x ∈ t.queue d k) : x ∈ s.queue d k := by
  cases e with
  | none =>
    obtain rfl := hc
    exact hx
  | some e =>
    cases e with
    | opened i =>
      rw [hc.2.2] at hx
      exact hx
    | closed i =>
      rw [hc.2.2, Function.update_apply] at hx
      split at hx
      · cases hx
      · exact hx
    | sensed d' y =>
      have hd : d ≠ d' := by
        rintro rfl
        exact he y rfl
      rw [hc.2.2 d hd] at hx
      exact hx
    | received d' i y =>
      obtain ⟨-, ⟨rest, hq, hrest⟩, hother⟩ := hc
      by_cases hd : d = d'
      · subst hd
        rw [hrest, Function.update_apply] at hx
        split at hx
        · next hk =>
          rw [hk, hq]
          exact List.mem_cons_of_mem y hx
        · exact hx
      · rw [hother d hd] at hx
        exact hx

lemma switchTaskletBegin_sensor {kmalloc : Fin queueNum → Bool} {x : Data w} {begun : Bool}
    (h : switchTaskletBegin kmalloc s x = .ok (t, begun)) :
    t.ultrasonicDataTmp = s.ultrasonicDataTmp ∧ t.ultrasonicQueue = s.ultrasonicQueue := by
  rw [switchTaskletBegin] at h
  split at h
  · obtain ⟨q, -, h⟩ := bind_ok.mp h
    simp only at h
    split at h <;> cases h <;> exact ⟨rfl, rfl⟩
  · cases h
    exact ⟨rfl, rfl⟩

structure Sensible (s : Driver w) : Prop where
  slot : 0 ≤ s.ultrasonicDataTmp.value
  queued : ∀ k, ∀ x ∈ s.queue .ultrasonic k, 0 ≤ x.value

lemma Sensible.frame (h : Sensible s) (hslot : t.ultrasonicDataTmp = s.ultrasonicDataTmp)
    (hq : t.ultrasonicQueue = s.ultrasonicQueue) : Sensible t := by
  refine ⟨by rw [hslot]; exact h.slot, fun k x hx => h.queued k x ?_⟩
  have hx' : x ∈ t.ultrasonicQueue k := hx
  rw [hq] at hx'
  exact hx'

lemma Sensible.handshake {s t : Handshake w} {m : Signal w} (h : Sensible s.driver)
    (hs : HandshakeStep s m t) (hm : m ≠ .other) (hcm : ∀ stop cm, m = .measure stop cm → 0 ≤ cm) :
    Sensible t.driver := by
  cases hs with
  | press _ hd =>
    obtain ⟨hslot, hq⟩ := switchTaskletBegin_sensor hd
    exact h.frame hslot hq
  | endTrigger => exact h.frame rfl rfl
  | @echo tmpTime level jiffies _ hends =>
    obtain ⟨htwo, hlow, -⟩ | ⟨-, heq⟩ := ultrasonicIsr_cases s.driver tmpTime level jiffies
    · rw [(schedules_iff ..).mpr ⟨htwo, hlow⟩] at hends
      cases hends
    · obtain heq | ⟨-, heq⟩ := heq <;> exact h.frame (by simp only [heq]) (by simp only [heq])
  | @measure tmpTime level jiffies d _ hends hd =>
    subst hd
    refine ⟨hcm _ _ rfl, fun k x hx => h.queued k x ?_⟩
    obtain ⟨flag, start, stop, data, pending, heq⟩ :=
      ultrasonicIsr_frame s.driver tmpTime level jiffies
    rw [heq] at hx
    exact hx
  | ioctl | ultrasonicTasklet | button => exact absurd rfl hm

lemma Sensible.step {s t : Handshake w} {m : Signal w} (h : Sensible s.driver)
    (hs : DistanceStep s m t) (hcm : ∀ stop cm, m = .measure stop cm → 0 ≤ cm) :
    Sensible t.driver := by
  cases hs with
  | handshake hm hs => exact h.handshake hs hm hcm
  | ioctl _ hd =>
    have hslot := congrArg Driver.ultrasonicDataTmp (switchIoctl_queues hd)
    refine ⟨by rw [hslot]; exact h.slot, fun k x hx => h.queued k x ?_⟩
    exact (switchIoctl_changes hd).mem (switchIoctl_unsensed hd .ultrasonic) hx
  | ultrasonicTasklet _ _ hd =>
    obtain ⟨rfl, -⟩ := ultrasonicTaskletFunc_cases hd
    refine ⟨h.slot, fun k x hx => ?_⟩
    simp only [Driver.queue] at hx
    split at hx
    · obtain hx | hx := List.mem_append.mp hx
      · exact h.queued k x hx
      · rw [List.mem_singleton.mp hx]
        exact h.slot
    · exact h.queued k x hx
  | button => exact h.frame rfl rfl

end Values

section Runs

variable {s t : Handshake w} {ls : List (Signal w)}

lemma measured_told (h : Run DistanceStep (.init : Handshake w) ls s) {stop cm : ℤ}
    (hs : DistanceStep s (.measure stop cm) t) (hstop : stop < 2 ^ 63) :
    Rising ls s.driver.echoStart ∧
      (Told (elapsed s.driver.echoStart stop) cm ↔ Tellable (elapsed s.driver.echoStart stop)) := by
  obtain ⟨htwo, -, -, rfl, -⟩ := distance_turns hs
  have hnow : s.now ≤ stop := (distance_ticks hs).1
  obtain ⟨hstart, hle⟩ := (punctual_run h).started htwo
  have helapsed : 0 ≤ elapsed s.driver.echoStart stop := by
    unfold elapsed
    omega
  refine ⟨(distance_shaken h).rising htwo, ?_⟩
  rw [centimetres_elapsed hstart (hle.trans hnow) hstop]
  exact told_iff helapsed

def Handshake.Tells (s : Handshake w) : Signal w → Prop
  | .measure stop _ => Tellable (elapsed s.driver.echoStart stop)
  | _ => True

lemma sensible_run (h : Run (Guarded DistanceStep Handshake.Tells) (.init : Handshake w) ls s)
    (hclock : ∀ m ∈ ls, m.Unwrapped) : Sensible s.driver := by
  apply h.induct_right (M := fun ls s => (∀ m ∈ ls, m.Unwrapped) → Sensible s.driver) ?_ ?_ hclock
  · intro _
    refine ⟨le_rfl, fun k x hx => ?_⟩
    cases hx
  · intro ls s m t hls ih hstep hclock
    refine (ih fun m hm => hclock m (List.mem_append_left _ hm)).step hstep.1 ?_
    rintro stop cm rfl
    have hstop : stop < 2 ^ 63 := hclock (.measure stop cm) (by simp)
    exact ((measured_told hls.unguard hstep.1 hstop).2.mpr hstep.2).nonneg

theorem distances_told_iff (h : Run DistanceStep (.init : Handshake w) ls s)
    (hclock : ∀ m ∈ ls, m.Unwrapped) :
    (∀ stop cm t, stop < 2 ^ 63 → DistanceStep s (.measure stop cm) t →
      Rising ls s.driver.echoStart ∧ t.driver.ultrasonicDataTmp.value = cm ∧
      (Told (elapsed s.driver.echoStart stop) cm ↔
        Tellable (elapsed s.driver.echoStart stop))) ∧
    (Run (Guarded DistanceStep Handshake.Tells) (.init : Handshake w) ls s →
      0 ≤ s.driver.ultrasonicDataTmp.value ∧
      ∀ key k t y, arrayIndex queueNum key = .ok k → ultrasonicRecv s.driver key = .ok (t, y) →
        y.ret < 0 → s.driver.ultrasonicQueue k = []) := by
  constructor
  · intro stop cm t hstop hs
    obtain ⟨hrising, hiff⟩ := measured_told h hs hstop
    exact ⟨hrising, distance_slot hs, hiff⟩
  · intro htells
    have hsensible := sensible_run htells hclock
    refine ⟨hsensible.slot, fun key k t y hk hrecv hneg => ?_⟩
    obtain ⟨hempty, -⟩ | ⟨x, hx, rfl⟩ := recv_returns (d := .ultrasonic) hk hrecv
    · exact hempty
    · have hnonneg := hsensible.queued k x (List.mem_of_head? hx)
      exact absurd hneg (by simpa using hnonneg)

theorem distances_told_ten : ∃ s t : Handshake 8,
    HandshakeStep s (.measure 580007 10) t ∧ Told (elapsed s.driver.echoStart 580007) 10 ∧
    ∀ d y, ultrasonicRecv t.driver 0 = .ok (d, y) → y.ret < 0 →
      t.driver.ultrasonicQueue 0 = [] := by
  obtain ⟨s, t, hrun, hstep, hstart⟩ : ∃ s t : Handshake 8,
      Run (Guarded DistanceStep Handshake.Tells) .init
        [.other, .press true, .endTrigger, .echo 7 true] s ∧
      HandshakeStep s (.measure 580007 10) t ∧ s.driver.echoStart = 7 :=
    ⟨_, _, .cons ⟨@DistanceStep.ioctl _ _ .queueGet 0 _ _ rfl rfl, trivial⟩
      (.cons ⟨.handshake (by simp)
        (@HandshakeStep.press _ _ (fun _ => true) ⟨1, 30⟩ _ _ rfl rfl), trivial⟩
      (.cons ⟨.handshake (by simp) (.endTrigger rfl), trivial⟩
      (.cons ⟨.handshake (by simp) (@HandshakeStep.echo _ _ 7 true 31 (by decide) rfl), trivial⟩
        .nil))),
      @HandshakeStep.measure _ _ 580007 false 40 _ (by decide : (7 : ℤ) ≤ 580007) rfl rfl, rfl⟩
  have htellable : Tellable (elapsed s.driver.echoStart 580007) := by
    rw [hstart]
    exact Or.inl (by decide)
  have hmeasure : DistanceStep s (.measure 580007 10) t := .handshake (by simp) hstep
  have hguarded := hrun.snoc ⟨hmeasure, htellable⟩
  refine ⟨s, t, hstep, ?_, fun d y hrecv hneg => ?_⟩
  · have htold := (distances_told_iff hrun.unguard (by simp [Signal.Unwrapped])).1
    exact (htold 580007 10 t (by decide) hmeasure).2.2.mpr htellable
  · have hempty := (distances_told_iff hguarded.unguard (by simp [Signal.Unwrapped])).2 hguarded
    exact hempty.2 0 0 d y rfl hrecv hneg

theorem distance_mistaken : ¬ ∀ (ls : List (Signal 8)) (s : Handshake 8),
    Run DistanceStep .init ls s → (∀ m ∈ ls, m.Unwrapped) →
    ∀ t y, ultrasonicRecv s.driver 0 = .ok (t, y) → y.ret < 0 →
      s.driver.ultrasonicQueue 0 = [] := by
  intro h
  obtain ⟨s, hrun, hqueue, t, hrecv⟩ : ∃ s : Handshake 8, Run DistanceStep .init
      [.other, .press true, .endTrigger, .echo 0 true, .measure 2147483648000 (-37025580),
        .other] s ∧ s.driver.ultrasonicQueue 0 = [⟨-37025580, 40⟩] ∧ ∃ t,
      ultrasonicRecv s.driver 0 =
        .ok (t, ⟨-37025580, some (.received .ultrasonic 0 ⟨-37025580, 40⟩)⟩) := by
    refine ⟨_, .cons (@DistanceStep.ioctl _ _ .queueGet 0 _ _ rfl rfl)
      (.cons (.handshake (by simp) (@HandshakeStep.press _ _ (fun _ => true) ⟨1, 30⟩ _ _ rfl rfl))
      (.cons (.handshake (by simp) (.endTrigger rfl))
      (.cons (.handshake (by simp) (@HandshakeStep.echo _ _ 0 true 31 (by decide) rfl))
      (.cons (.handshake (by simp) (@HandshakeStep.measure _ _ 2147483648000 false 40 _
        (by decide : (0 : ℤ) ≤ 2147483648000) rfl rfl))
      (.cons (@DistanceStep.ultrasonicTasklet _ _ (fun _ => true) _ _ rfl rfl rfl) .nil))))),
      rfl, _, rfl⟩
  have hempty := h _ s hrun (by simp [Signal.Unwrapped]) t _ hrecv (by decide)
  rw [hqueue] at hempty
  cases hempty

end Runs

end EmbeddedSystem.Switch
