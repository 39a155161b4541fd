import EmbeddedSystem.Switch.Broadcast

/-! The presses on their way from the button interrupts through the slot `switch_data_tmp` and the
tasklet to the queues, compared with a filter that sees every interrupt. -/

namespace EmbeddedSystem.Switch

open Kernel Foundations

variable {w : ℕ}

structure Buttons (w : ℕ) where
  driver : Driver w
  now : BitVec w

inductive ButtonMove (w : ℕ)
  | button (x : Data w)
  | tasklet (e : Option (Effect w))
  | other (e : Option (Effect w))
  deriving DecidableEq

def ButtonMove.effect : ButtonMove w → Option (Effect w)
  | .button _ => none
  | .tasklet e | .other e => e

def Buttons.init (use : Fin queueNum → Bool) : Buttons w :=
  ⟨{ Driver.init with queueUse := use }, 0⟩

inductive ButtonStep (s : Buttons w) : ButtonMove w → Buttons w → Prop
  | button {value : ℤ} {jiffies : BitVec w} :
      s.now ≤ jiffies →
      ButtonStep s (.button ⟨value, jiffies⟩) ⟨switchIrqIsr value s.driver jiffies, jiffies⟩
  | switchTasklet {kmalloc : Fin queueNum → Bool} {d : Driver w} {y : Reply w} :
      s.driver.switchPending = true →
      switchTaskletFunc kmalloc { s.driver with switchPending := false } s.driver.switchDataTmp =
        .ok (d, y) →
      ButtonStep s (.tasklet y.effect) { s with driver := d }
  | ioctl {cmd : Command} {key : ℤ} {d : Driver w} {y : Reply w} :
      switchIoctl s.driver cmd key = .ok (d, y) →
      ButtonStep s (.other y.effect) { s with driver := d }
  | echo (tmpTime : ℤ) (level : Bool) (j : BitVec w) :
      ButtonStep s (.other none) { s with driver := ultrasonicIsr s.driver tmpTime level j }
  | ultrasonicTasklet {kmalloc : Fin queueNum → Bool} {d : Driver w} {y : Reply w} :
      s.driver.ultrasonicPending = true →
      ultrasonicTaskletFunc kmalloc { s.driver with ultrasonicPending := false }
        s.driver.ultrasonicDataTmp = .ok (d, y) →
      ButtonStep s (.other y.effect) { s with driver := d }

def presses (ls : List (ButtonMove w)) : List (Data w) :=
  ls.filterMap fun
    | .button x => some x
    | _ => none

def delivered (ls : List (ButtonMove w)) : List (Data w) :=
  ls.filterMap fun l => match l.effect with
    | some (.sensed .switch x) => some x
    | _ => none

section Filter

def Fresh (kept : List (Data w)) (x : Data w) : Prop :=
  ∀ y ∈ kept.getLast?, y.timestamp.toNat + 20 < x.timestamp.toNat

instance (kept : List (Data w)) (x : Data w) : Decidable (Fresh kept x) :=
  inferInstanceAs (Decidable (∀ y ∈ kept.getLast?, y.timestamp.toNat + 20 < x.timestamp.toNat))

def keep (kept : List (Data w)) (x : Data w) : List (Data w) :=
  if Fresh kept x then kept ++ [x] else kept

def kept (xs : List (Data w)) : List (Data w) := xs.foldl keep []

lemma kept_snoc (xs : List (Data w)) (x : Data w) : kept (xs ++ [x]) = keep (kept xs) x := by
  rw [kept, List.foldl_append]
  rfl

lemma keep_twice {d : List (Data w)} {x y : Data w}
    (h : ¬ Fresh d x ∨ y = x) : keep (keep d x) y = keep d y := by
  obtain hx | rfl := h
  · have hkeep : keep d x = d := if_neg hx
    rw [hkeep]
  · by_cases hy : Fresh d y
    · have hlast : ¬ Fresh (d ++ [y]) y := by simp [Fresh]
      simp [keep, hy, hlast]
    · simp [keep, hy]

end Filter

section Condition

def Bounces (s : Driver w) (x : Data w) : Prop :=
  s.pre ≠ 0 ∧ x.timestamp.toNat ≤ s.pre.toNat + 20

/-- A press that comes while the tasklet is pending finds a bounce in the slot, or repeats the press
there; and the tasklet finds the first press of all after the first 20 ticks, and no later one when
`pre + 20` wraps. -/
def Timely (s : Buttons w) : ButtonMove w → Prop
  | .button x => s.driver.switchPending = true →
      Bounces s.driver s.driver.switchDataTmp ∨ x = s.driver.switchDataTmp
  | .tasklet _ =>
      if s.driver.pre = 0 then 20 < s.driver.switchDataTmp.timestamp.toNat
      else s.driver.pre.toNat + 20 < 2 ^ w
  | .other _ => True

lemma bounces_iff {s : Driver w} {x : Data w}
    (h : if s.pre = 0 then 20 < x.timestamp.toNat else s.pre.toNat + 20 < 2 ^ w) :
    Bounces s x ↔ ¬ s.pre + 20 < x.timestamp := by
  by_cases hpre : s.pre = 0
  · rw [if_pos hpre] at h
    have hlow : ((0 : BitVec w) + 20).toNat ≤ 20 := by simp [Nat.mod_le]
    have hlt : s.pre + 20 < x.timestamp := by
      rw [hpre, BitVec.lt_def]
      exact lt_of_le_of_lt hlow h
    exact iff_of_false (fun hb => hb.1 hpre) (not_not.mpr hlt)
  · rw [if_neg hpre] at h
    have hpow : 20 < 2 ^ w := by omega
    have hsum : (s.pre + 20).toNat = s.pre.toNat + 20 := by
      have htwenty : (20 : BitVec w).toNat = 20 :=
        (BitVec.toNat_ofNat 20 w).trans (Nat.mod_eq_of_lt hpow)
      rw [BitVec.toNat_add, htwenty, Nat.mod_eq_of_lt h]
    rw [BitVec.lt_def, hsum, Bounces]
    constructor
    · rintro ⟨-, hle⟩
      omega
    · exact fun hle => ⟨hpre, by omega⟩

end Condition

section Runs

variable {s t : Buttons w} {m : ButtonMove w} {ls : List (ButtonMove w)}

structure Collected (ls : List (ButtonMove w)) (s : Buttons w) : Prop where
  none_kept : delivered ls = [] → s.driver.pre = 0
  last_kept : ∀ y ∈ (delivered ls).getLast?, s.driver.pre = y.timestamp ∧ s.driver.pre ≠ 0
  kept : kept (presses ls) =
    if s.driver.switchPending then keep (delivered ls) s.driver.switchDataTmp else delivered ls

lemma Collected.fresh_iff (h : Collected ls s) (x : Data w) :
    Fresh (delivered ls) x ↔ ¬ Bounces s.driver x := by
  cases hlast : (delivered ls).getLast? with
  | none =>
    have hpre := h.none_kept (List.getLast?_eq_none_iff.mp hlast)
    exact iff_of_true (by simp [Fresh, hlast]) fun hb => hb.1 hpre
  | some y =>
    obtain ⟨hpre, hne⟩ := h.last_kept y hlast
    simp only [Fresh, hlast, Option.mem_def, Option.some.injEq, forall_eq', Bounces, not_and]
    rw [← hpre]
    constructor
    · intro hlt _
      omega
    · intro hle
      have := hle hne
      omega

lemma presses_snoc (ls : List (ButtonMove w)) (m : ButtonMove w) :
    presses (ls ++ [m]) = presses ls ++ presses [m] := List.filterMap_append ..

lemma delivered_snoc (ls : List (ButtonMove w)) (m : ButtonMove w) :
    delivered (ls ++ [m]) = delivered ls ++ delivered [m] := List.filterMap_append ..

lemma Collected.frame (h : Collected ls s) (hpresses : presses [m] = [])
    (hdelivered : delivered [m] = []) (hpre : t.driver.pre = s.driver.pre)
    (hpending : t.driver.switchPending = s.driver.switchPending)
    (hslot : t.driver.switchDataTmp = s.driver.switchDataTmp) : Collected (ls ++ [m]) t := by
  refine ⟨?_, ?_, ?_⟩
  · rw [delivered_snoc, hdelivered, List.append_nil, hpre]
    exact h.none_kept
  · rw [delivered_snoc, hdelivered, List.append_nil, hpre]
    exact h.last_kept
  · rw [presses_snoc, delivered_snoc, hpresses, hdelivered, List.append_nil, List.append_nil,
      hpending, hslot]
    exact h.kept

lemma Collected.button (h : Collected ls s) {value : ℤ} {jiffies : BitVec w}
    (htimely : Timely s (.button ⟨value, jiffies⟩)) :
    Collected (ls ++ [.button ⟨value, jiffies⟩])
      ⟨switchIrqIsr value s.driver jiffies, jiffies⟩ := by
  have hnone : delivered [(.button ⟨value, jiffies⟩ : ButtonMove w)] = [] := rfl
  refine ⟨?_, ?_, ?_⟩
  · rw [delivered_snoc, hnone, List.append_nil]
    exact h.none_kept
  · rw [delivered_snoc, hnone, List.append_nil]
    exact h.last_kept
  · have hpresses : presses [(.button ⟨value, jiffies⟩ : ButtonMove w)] = [⟨value, jiffies⟩] := rfl
    rw [presses_snoc, hpresses, kept_snoc, h.kept, delivered_snoc, hnone, List.append_nil]
    simp only [switchIrqIsr, if_true]
    cases hpending : s.driver.switchPending with
    | false => rfl
    | true =>
      rw [if_pos rfl]
      apply keep_twice
      obtain hbounces | hsame := htimely hpending
      · exact Or.inl (by rw [h.fresh_iff, not_not]; exact hbounces)
      · exact Or.inr hsame

lemma Collected.tasklet (h : Collected ls s) {kmalloc : Fin queueNum → Bool} {d : Driver w}
    {y : Reply w} (hpending : s.driver.switchPending = true)
    (hd : switchTaskletFunc kmalloc { s.driver with switchPending := false }
      s.driver.switchDataTmp = .ok (d, y)) (htimely : Timely s (.tasklet y.effect)) :
    Collected (ls ++ [.tasklet y.effect]) { s with driver := d } := by
  have hkept := h.kept
  rw [hpending, if_pos rfl] at hkept
  have hpresses : presses [(.tasklet y.effect : ButtonMove w)] = [] := rfl
  obtain ⟨hreject, rfl, hy⟩ | ⟨haccept, rfl, hy⟩ := switchTaskletFunc_cases hd
  · have hnone : delivered [(.tasklet y.effect : ButtonMove w)] = [] := by rw [hy]; rfl
    have hold : ¬ Fresh (delivered ls) s.driver.switchDataTmp := by
      rw [h.fresh_iff, not_not]
      exact (bounces_iff htimely).mpr hreject
    rw [keep, if_neg hold] at hkept
    refine ⟨?_, ?_, ?_⟩
    · rw [delivered_snoc, hnone, List.append_nil]
      exact h.none_kept
    · rw [delivered_snoc, hnone, List.append_nil]
      exact h.last_kept
    · rw [presses_snoc, hpresses, List.append_nil, delivered_snoc, hnone, List.append_nil]
      exact hkept
  · have hone : delivered [(.tasklet y.effect : ButtonMove w)] = [s.driver.switchDataTmp] := by
      rw [hy]
      rfl
    have hnew : Fresh (delivered ls) s.driver.switchDataTmp := by
      rw [h.fresh_iff]
      exact fun hb => (bounces_iff htimely).mp hb haccept
    rw [keep, if_pos hnew] at hkept
    have hne : s.driver.switchDataTmp.timestamp ≠ 0 := by
      intro hzero
      have hlt := BitVec.lt_def.mp haccept
      rw [hzero] at hlt
      simp at hlt
    refine ⟨?_, ?_, ?_⟩
    · rw [delivered_snoc, hone]
      simp
    · rw [delivered_snoc, hone, List.getLast?_concat]
      rintro x ⟨⟩
      simp only [(pre_trigger _).1]
      exact ⟨trivial, hne⟩
    · rw [presses_snoc, hpresses, List.append_nil, delivered_snoc, hone, hkept]
      simp only [(pre_trigger _).2]
      rfl

lemma collected_step (h : Collected ls s) (htimely : Timely s m) (hs : ButtonStep s m t) :
    Collected (ls ++ [m]) t := by
  cases hs with
  | button => exact h.button htimely
  | switchTasklet hpending hd => exact h.tasklet hpending hd htimely
  | @ioctl _ _ d y hd =>
    have hpre := congrArg Driver.pre (switchIoctl_queues hd)
    have hpending := congrArg Driver.switchPending (switchIoctl_queues hd)
    have hslot := congrArg Driver.switchDataTmp (switchIoctl_queues hd)
    refine h.frame rfl ?_ hpre hpending hslot
    cases he : y.effect with
    | none => rfl
    | some e =>
      cases e with
      | sensed c x => exact absurd he (switchIoctl_unsensed hd c x)
      | _ => rfl
  | echo tmpTime level j =>
    obtain ⟨_, _, _, _, _, hisr⟩ := ultrasonicIsr_frame s.driver tmpTime level j
    simp only [hisr]
    exact h.frame rfl rfl rfl rfl rfl
  | ultrasonicTasklet _ hd =>
    obtain ⟨rfl, hy⟩ := ultrasonicTaskletFunc_cases hd
    rw [hy]
    exact h.frame rfl rfl rfl rfl rfl

lemma collected_run {use : Fin queueNum → Bool}
    (h : Run (Guarded ButtonStep Timely) (.init use) ls s) : Collected ls s := by
  apply h.induct_right (M := Collected)
  · refine ⟨fun _ => rfl, ?_, rfl⟩
    rintro y ⟨⟩
  · rintro ls s m t _ hs ⟨hstep, htimely⟩
    exact collected_step hs htimely hstep

end Runs

section Queues

variable {s t : Buttons w} {m : ButtonMove w} {ls : List (ButtonMove w)} {i : Fin queueNum}
  {use : Fin queueNum → Bool}

def queueLog (i : Fin queueNum) (ls : List (ButtonMove w)) : Log w :=
  ls.foldl (fun g m => g.after .switch i m.effect) ⟨[], []⟩

lemma buttonStep_changes (h : ButtonStep s m t) : ∃ d : Driver w,
    d.queueUse = s.driver.queueUse ∧ d.queue = s.driver.queue ∧ Changes d t.driver m.effect := by
  cases h with
  | @button value jiffies =>
    exact ⟨switchIrqIsr value s.driver jiffies, rfl, queue_congr rfl rfl, rfl⟩
  | switchTasklet _ hd =>
    exact ⟨{ s.driver with switchPending := false }, rfl, queue_congr rfl rfl,
      switchTaskletFunc_changes hd⟩
  | ioctl hd => exact ⟨_, rfl, rfl, switchIoctl_changes hd⟩
  | echo tmpTime level j =>
    obtain ⟨_, _, _, _, _, hisr⟩ := ultrasonicIsr_frame s.driver tmpTime level j
    refine ⟨ultrasonicIsr s.driver tmpTime level j, ?_, ?_, rfl⟩
    · rw [hisr]
    · rw [hisr]
      exact queue_congr rfl rfl
  | ultrasonicTasklet _ hd =>
    exact ⟨{ s.driver with ultrasonicPending := false }, rfl, queue_congr rfl rfl,
      ultrasonicTaskletFunc_changes hd⟩

structure Queued (i : Fin queueNum) (ls : List (ButtonMove w)) (s : Buttons w) : Prop where
  isOpen : s.driver.queueUse i = true
  delivers : Delivers .switch i s.driver (queueLog i ls)
  accepted : (queueLog i ls).accepted = delivered ls

lemma queueLog_snoc (i : Fin queueNum) (ls : List (ButtonMove w)) (m : ButtonMove w) :
    queueLog i (ls ++ [m]) = (queueLog i ls).after .switch i m.effect := by
  rw [queueLog, List.foldl_append]
  rfl

lemma queued_step (h : Queued i ls s) (hs : ButtonStep s m t)
    (hclosed : m.effect ≠ some (.closed i)) : Queued i (ls ++ [m]) t := by
  obtain ⟨d, huse, hqueue, hc⟩ := buttonStep_changes hs
  have hd : Delivers .switch i d (queueLog i ls) :=
    h.delivers.frame (by rw [huse]) (by rw [hqueue])
  have hisOpen := h.isOpen
  rw [← huse] at hisOpen
  refine ⟨?_, ?_, ?_⟩
  · exact changes_inUse hc hisOpen hclosed
  · rw [queueLog_snoc]
    exact hd.changes hc
  · have hone : delivered [m] = match m.effect with
        | some (.sensed .switch x) => [x]
        | _ => [] := by
      rw [delivered, List.filterMap_cons, List.filterMap_nil]
      rcases m.effect with _ | (_ | _ | ⟨_ | _, _⟩ | _) <;> rfl
    rw [queueLog_snoc, delivered_snoc, hone, ← h.accepted]
    cases he : m.effect with
    | none => exact (List.append_nil _).symm
    | some e =>
      rw [he] at hc
      cases e with
      | opened k =>
        have hk : k ≠ i := by
          rintro rfl
          rw [hc.1] at hisOpen
          cases hisOpen
        simp [Log.after, hk]
      | closed k => exact (List.append_nil _).symm
      | sensed c x => cases c <;> simp [Log.after]
      | received c k x =>
        simp only [Log.after]
        split <;> exact (List.append_nil _).symm

theorem presses_kept (h : Run (Guarded ButtonStep Timely) (.init use) ls s)
    (hidle : s.driver.switchPending = false) (hopen : use i = true)
    (hclosed : ∀ m ∈ ls, m.effect ≠ some (.closed i)) :
    (queueLog i ls).accepted = kept (presses ls) ∧
      kept (presses ls) = (queueLog i ls).received ++ s.driver.switchQueue i := by
  have hqueued : Queued i ls s := by
    have hind : (∀ m ∈ ls, m.effect ≠ some (.closed i)) → Queued i ls s := by
      apply h.induct_right (M := fun ls s =>
        (∀ m ∈ ls, m.effect ≠ some (.closed i)) → Queued i ls s)
      · intro _
        exact ⟨hopen, ⟨fun _ => rfl, fun _ => SelectiveFifo.balanced_nil⟩, rfl⟩
      · intro ls s m t _ ih hs hall
        apply queued_step (ih fun x hx => hall x (by simp [hx])) hs.1
        exact hall m (by simp)
    exact hind hclosed
  have hkept := (collected_run h).kept
  rw [hidle] at hkept
  have haccepted : (queueLog i ls).accepted = kept (presses ls) := by
    rw [hqueued.accepted, hkept]
    rfl
  refine ⟨haccepted, ?_⟩
  rw [← haccepted]
  exact SelectiveFifo.balanced_unit_iff.mp (hqueued.delivers.opened hqueued.isOpen)

theorem presses_kept_two : kept (presses [(.button ⟨1, 100⟩ : ButtonMove 8),
    .tasklet (some (.sensed .switch ⟨1, 100⟩)), .button ⟨2, 130⟩,
    .tasklet (some (.sensed .switch ⟨2, 130⟩))]) = [⟨1, 100⟩, ⟨2, 130⟩] := by
  obtain ⟨s, hrun, hidle, hq⟩ : ∃ s : Buttons 8, Run (Guarded ButtonStep Timely)
      (.init fun i => i = 0) [.button ⟨1, 100⟩, .tasklet (some (.sensed .switch ⟨1, 100⟩)),
        .button ⟨2, 130⟩, .tasklet (some (.sensed .switch ⟨2, 130⟩))] s ∧
      s.driver.switchPending = false ∧ s.driver.switchQueue 0 = [⟨1, 100⟩, ⟨2, 130⟩] := by
    refine ⟨_, .cons ⟨.button (by decide), ?_⟩
      (.cons ⟨@ButtonStep.switchTasklet _ _ (fun _ => true) _ ⟨0, some (.sensed .switch _)⟩ rfl rfl,
        ?_⟩ (.cons ⟨.button (by decide), ?_⟩
      (.cons ⟨@ButtonStep.switchTasklet _ _ (fun _ => true) _ ⟨0, some (.sensed .switch _)⟩ rfl rfl,
        ?_⟩ .nil))), rfl, rfl⟩
    · rintro ⟨⟩
    · exact (by decide : 20 < 100)
    · rintro ⟨⟩
    · exact (by decide : 100 + 20 < 2 ^ 8)
  have hreceived : (queueLog 0 [(.button ⟨1, 100⟩ : ButtonMove 8),
      .tasklet (some (.sensed .switch ⟨1, 100⟩)), .button ⟨2, 130⟩,
      .tasklet (some (.sensed .switch ⟨2, 130⟩))]).received = [] := rfl
  have hkept := (presses_kept hrun hidle (i := 0) rfl (by simp [ButtonMove.effect])).2
  rw [hkept, hreceived, hq]
  rfl

theorem press_overwritten : ¬ ∀ (ls : List (ButtonMove 8)) (s : Buttons 8),
    Run ButtonStep (.init fun i => i = 0) ls s → s.driver.switchPending = false →
      (∀ m ∈ ls, m.effect ≠ some (.closed 0)) → (queueLog 0 ls).accepted = kept (presses ls) := by
  intro h
  obtain ⟨s, hrun, hidle⟩ : ∃ s : Buttons 8, Run ButtonStep (.init fun i => i = 0)
      [.button ⟨1, 100⟩, .button ⟨2, 130⟩, .tasklet (some (.sensed .switch ⟨2, 130⟩))] s ∧
      s.driver.switchPending = false := by
    exact ⟨_, .cons (.button (by decide)) (.cons (.button (by decide))
      (.cons (@ButtonStep.switchTasklet _ _ (fun _ => true) _ ⟨0, some (.sensed .switch _)⟩ rfl rfl)
        .nil)), rfl⟩
  have heq := h _ s hrun hidle (by simp [ButtonMove.effect])
  exact absurd heq (by decide)

end Queues

end EmbeddedSystem.Switch
