import EmbeddedSystem.Switch.Broadcast

/-! The debouncing of `switch_tasklet_func` in real time. The ticks of the clock are natural
numbers, and `jiffies` is their remainder modulo 2^w. -/

namespace EmbeddedSystem.Switch

open Kernel Foundations

variable {w : ℕ}

structure Clocked (w : ℕ) where
  driver : Driver w
  accepted : Option ℕ
  pressed : Option ℕ

structure Press where
  value : ℤ
  time : ℕ
  accepted : Bool
  deriving DecidableEq

inductive ClockedMove
  | press (x : Press)
  | other
  deriving DecidableEq

def jiffies (w : ℕ) (time : ℕ) : BitVec w := BitVec.ofNat w time

def Clocked.init : Clocked w := ⟨.init, none, none⟩

inductive ClockedStep (s : Clocked w) : ClockedMove → Clocked w → Prop
  | press {kmalloc : Fin queueNum → Bool} {value : ℤ} {time : ℕ} {isr d : Driver w} {y : Reply w} :
      (∀ t, s.pressed = some t → t ≤ time ∧ time < t + 2 ^ (w - 1)) →
      isr = switchIrqIsr value s.driver (jiffies w time) →
      switchTaskletFunc kmalloc { isr with switchPending := false } isr.switchDataTmp =
        .ok (d, y) →
      ClockedStep s (.press ⟨value, time, y.effect.isSome⟩)
        ⟨d, if y.effect.isSome then some time else s.accepted, some time⟩
  | ioctl {cmd : Command} {key : ℤ} {d : Driver w} {y : Reply w} :
      switchIoctl s.driver cmd key = .ok (d, y) →
      ClockedStep s .other { s with driver := d }
  | echo (tmpTime : ℤ) (level : Bool) (j : BitVec w) :
      ClockedStep s .other { s with driver := ultrasonicIsr s.driver tmpTime level j }
  | ultrasonicTasklet {kmalloc : Fin queueNum → Bool} {d : Driver w} {y : Reply w} :
      s.driver.ultrasonicPending = true →
      ultrasonicTaskletFunc kmalloc { s.driver with ultrasonicPending := false }
        s.driver.ultrasonicDataTmp = .ok (d, y) →
      ClockedStep s .other { s with driver := d }

def Debounced (s : Clocked w) : ClockedMove → Prop
  | .press x => x.accepted = true ↔ ∀ last, s.accepted = some last → last + 20 < x.time
  | .other => True

/-- `jiffies` does not wrap between the end of the 20 ticks and the press, or has come beyond the
end of the 20 ticks again. -/
def InPeriod (s : Clocked w) : ClockedMove → Prop
  | .press x =>
    match s.accepted with
    | none => 20 < x.time % 2 ^ w
    | some last => (last + 20) / 2 ^ w = x.time / 2 ^ w ∨
        (last + 20) / 2 ^ w < x.time / 2 ^ w ∧ (last + 20) % 2 ^ w < x.time % 2 ^ w
  | .other => True

section Arithmetic

lemma jiffies_lt_iff (last time : ℕ) :
    jiffies w last + 20 < jiffies w time ↔ (last + 20) % 2 ^ w < time % 2 ^ w := by
  have hsum : jiffies w last + 20 = BitVec.ofNat w (last + 20) := by
    rw [BitVec.ofNat_add]
    rfl
  rw [hsum, BitVec.lt_def, jiffies, BitVec.toNat_ofNat, BitVec.toNat_ofNat]

lemma mod_lt_iff {n x y : ℕ} (hn : 20 < n) (hxy : x ≤ y + 20) :
    (x % n < y % n ↔ x < y) ↔ x / n = y / n ∨ x / n < y / n ∧ x % n < y % n := by
  have hx := Nat.div_add_mod x n
  have hy := Nat.div_add_mod y n
  have hrx := Nat.mod_lt x (by omega : n > 0)
  have hry := Nat.mod_lt y (by omega : n > 0)
  rcases Nat.lt_trichotomy (x / n) (y / n) with hlt | heq | hgt
  · have hmul : n * (x / n + 1) ≤ n * (y / n) := Nat.mul_le_mul_left n hlt
    rw [Nat.mul_succ] at hmul
    have hless : x < y := by omega
    constructor
    · exact fun h => Or.inr ⟨hlt, h.mpr hless⟩
    · rintro (heq | ⟨_, hmod⟩)
      · omega
      · exact ⟨fun _ => hless, fun _ => hmod⟩
  · rw [heq] at hx
    constructor
    · exact fun _ => Or.inl heq
    · intro _
      omega
  · have hmul : n * (y / n + 1) ≤ n * (x / n) := Nat.mul_le_mul_left n hgt
    rw [Nat.mul_succ] at hmul
    constructor
    · intro h
      omega
    · rintro (heq | ⟨hlt, _⟩) <;> omega

end Arithmetic

section Runs

variable {s t : Clocked w} {m : ClockedMove} {ls : List ClockedMove}

structure Timed (s : Clocked w) : Prop where
  pre : s.driver.pre = jiffies w (s.accepted.getD 0)
  order : ∀ last, s.accepted = some last → ∃ t, s.pressed = some t ∧ last ≤ t

lemma press_cases {kmalloc : Fin queueNum → Bool} {value : ℤ} {time : ℕ} {s isr d : Driver w}
    {y : Reply w} (hisr : isr = switchIrqIsr value s (jiffies w time))
    (hd : switchTaskletFunc kmalloc { isr with switchPending := false } isr.switchDataTmp =
      .ok (d, y)) :
    ¬ s.pre + 20 < jiffies w time ∧ y.effect.isSome = false ∧ d.pre = s.pre ∧
        d.switchQueue = s.switchQueue ∨
      s.pre + 20 < jiffies w time ∧ y.effect.isSome = true ∧ d.pre = jiffies w time ∧
        d.switchQueue = fun i => if s.queueUse i then s.switchQueue i ++ [⟨value, jiffies w time⟩]
          else s.switchQueue i := by
  subst hisr
  obtain ⟨hpre, rfl, rfl⟩ | ⟨hpre, rfl, rfl⟩ := switchTaskletFunc_cases hd
  · exact Or.inl ⟨hpre, rfl, rfl, rfl⟩
  · exact Or.inr ⟨hpre, rfl, (pre_trigger _).1, congrFun (queue_trigger _).2 .switch⟩

lemma timed_step (hs : Timed s) (h : ClockedStep s m t) : Timed t := by
  cases h with
  | press horder hisr hd =>
    obtain ⟨_, hno, hpre, _⟩ | ⟨_, hyes, hpre, _⟩ := press_cases hisr hd
    · simp only [hno]
      refine ⟨hpre.trans hs.pre, ?_⟩
      intro last hlast
      obtain ⟨t, ht, hle⟩ := hs.order last hlast
      exact ⟨_, rfl, hle.trans (horder t ht).1⟩
    · simp only [hyes]
      refine ⟨hpre, ?_⟩
      rintro last ⟨⟩
      exact ⟨_, rfl, le_rfl⟩
  | ioctl hd => exact ⟨(congrArg Driver.pre (switchIoctl_queues hd)).trans hs.pre, hs.order⟩
  | @echo tmpTime level j =>
    obtain ⟨_, _, _, _, _, hisr⟩ := ultrasonicIsr_frame s.driver tmpTime level j
    exact ⟨(congrArg Driver.pre hisr).trans hs.pre, hs.order⟩
  | ultrasonicTasklet _ hd =>
    obtain ⟨rfl, -⟩ := ultrasonicTaskletFunc_cases hd
    exact ⟨hs.pre, hs.order⟩

lemma debounced_iff (hw : 5 ≤ w) (hs : Timed s) (h : ClockedStep s m t) :
    Debounced s m ↔ InPeriod s m := by
  have hn : 20 < 2 ^ w := by
    have hpow : 2 ^ 5 ≤ 2 ^ w := Nat.pow_le_pow_right (by decide) hw
    omega
  cases h with
  | @press _ value time isr d y horder hisr hd =>
    have htest : y.effect.isSome = true ↔ s.driver.pre + 20 < jiffies w time := by
      obtain ⟨hpre, hno, -⟩ | ⟨hpre, hyes, -⟩ := press_cases hisr hd
      · exact iff_of_false (by simp [hno]) hpre
      · exact iff_of_true hyes hpre
    rw [hs.pre, jiffies_lt_iff] at htest
    simp only [Debounced, InPeriod, htest]
    cases hlast : s.accepted with
    | none =>
      have hzero : (0 + 20) % 2 ^ w = 20 := Nat.mod_eq_of_lt (by omega)
      simp only [Option.getD_none, hzero]
      simp
    | some last =>
      obtain ⟨t, ht, hle⟩ := hs.order last hlast
      have htime := (horder t ht).1
      have hmod := mod_lt_iff hn (by omega : last + 20 ≤ time + 20)
      simp only [Option.getD_some, Option.some.injEq, forall_eq']
      exact hmod
  | ioctl | echo | ultrasonicTasklet => simp [Debounced, InPeriod]

lemma timed_init : Timed (.init : Clocked w) := ⟨rfl, by rintro last ⟨⟩⟩

theorem debounce_across_wrap (hw : 5 ≤ w) :
    (Run (Guarded ClockedStep Debounced) (.init : Clocked w) ls s ↔
      Run (Guarded ClockedStep InPeriod) .init ls s) ∧
    ∀ x t, ClockedStep s (.press x) t →
      if x.accepted then t.driver.pre = jiffies w x.time ∧ ∀ i, t.driver.switchQueue i =
        if s.driver.queueUse i then s.driver.switchQueue i ++ [⟨x.value, jiffies w x.time⟩]
        else s.driver.switchQueue i
      else t.driver.pre = s.driver.pre ∧ t.driver.switchQueue = s.driver.switchQueue := by
  constructor
  · apply Run.congr (I := Timed)
    · rintro s m t hs ⟨h, -⟩
      exact timed_step hs h
    · intro s m t hs
      constructor
      · rintro ⟨h, hd⟩
        exact ⟨h, (debounced_iff hw hs h).mp hd⟩
      · rintro ⟨h, hd⟩
        exact ⟨h, (debounced_iff hw hs h).mpr hd⟩
    · exact timed_init
  · rintro x t h
    cases h with
    | press _ hisr hd =>
      obtain ⟨_, hno, hpre, hq⟩ | ⟨_, hyes, hpre, hq⟩ := press_cases hisr hd
      · simp only [hno]
        exact ⟨hpre, hq⟩
      · simp only [hyes]
        exact ⟨hpre, congrFun hq⟩

lemma pressed_step {kmalloc : Fin queueNum → Bool} {value : ℤ} {time : ℕ} {d : Driver w}
    {y : Reply w} {accepted : Bool}
    (horder : ∀ t, s.pressed = some t → t ≤ time ∧ time < t + 2 ^ (w - 1))
    (hd : switchTaskletFunc kmalloc
      { switchIrqIsr value s.driver (jiffies w time) with switchPending := false }
      ⟨value, jiffies w time⟩ = .ok (d, y)) (hy : y.effect.isSome = accepted) :
    ClockedStep s (.press ⟨value, time, accepted⟩)
      ⟨d, if accepted then some time else s.accepted, some time⟩ := by
  subst hy
  exact .press horder rfl hd

theorem debounce_across_wrap_spaced : ∃ s : Clocked 32, Run (Guarded ClockedStep Debounced) .init
    [.press ⟨1, 100, true⟩, .press ⟨1, 110, false⟩, .press ⟨1, 121, true⟩] s := by
  obtain ⟨s, hrun⟩ : ∃ s : Clocked 32, Run (Guarded ClockedStep InPeriod) .init
      [.press ⟨1, 100, true⟩, .press ⟨1, 110, false⟩, .press ⟨1, 121, true⟩] s := by
    refine ⟨_, .cons ⟨@pressed_step _ _ (fun _ => true) 1 100 _ _ _ (by rintro t ⟨⟩) rfl rfl, ?_⟩
      (.cons ⟨@pressed_step _ _ (fun _ => true) 1 110 _ _ _ ?_ rfl rfl, ?_⟩
      (.cons ⟨@pressed_step _ _ (fun _ => true) 1 121 _ _ _ ?_ rfl rfl, ?_⟩ .nil))⟩
    · exact (by decide : 20 < 100 % 2 ^ 32)
    · rintro t ⟨⟩
      decide
    · exact Or.inl (by decide : (100 + 20) / 2 ^ 32 = 110 / 2 ^ 32)
    · rintro t ⟨⟩
      decide
    · exact Or.inl (by decide : (100 + 20) / 2 ^ 32 = 121 / 2 ^ 32)
  exact ⟨s, (debounce_across_wrap (by decide)).1.mpr hrun⟩

theorem bounce_accepted : ¬ ∀ (ls : List ClockedMove) (s : Clocked 32),
    Run ClockedStep .init ls s → ∀ x t, ClockedStep s (.press x) t → Debounced s (.press x) := by
  intro h
  obtain ⟨s, t, hrun, hstep, haccepted⟩ : ∃ s t : Clocked 32,
      Run ClockedStep .init [.press ⟨1, 2 ^ 32 - 10, true⟩] s ∧
        ClockedStep s (.press ⟨1, 2 ^ 32 - 5, true⟩) t ∧ s.accepted = some (2 ^ 32 - 10) := by
    refine ⟨_, _, .single (@pressed_step _ _ (fun _ => true) 1 (2 ^ 32 - 10) _ _ _ ?_ rfl rfl),
      @pressed_step _ _ (fun _ => true) 1 (2 ^ 32 - 5) _ _ _ ?_ rfl rfl, rfl⟩
    · rintro t ⟨⟩
    · rintro t ⟨⟩
      decide
  have hlate := (h _ s hrun _ t hstep).mp rfl
  exact absurd (hlate _ haccepted) (by decide)

end Runs

end EmbeddedSystem.Switch
