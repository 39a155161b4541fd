import EmbeddedSystem.Foundations.Runs
import EmbeddedSystem.Foundations.SelectiveFifo
import EmbeddedSystem.Switch.Driver

namespace EmbeddedSystem.Switch

open Kernel Foundations Foundations.SelectiveFifo

variable {w : ℕ}

inductive Event (w : ℕ)
  | ioctl (cmd : Command) (key : ℤ)
  | switchTasklet (kmalloc : Fin queueNum → Bool) (myData : Data w)
  | ultrasonicTasklet (kmalloc : Fin queueNum → Bool) (myData : Data w)

def perform (s : Driver w) : Event w → Except Fault (Driver w × Reply w)
  | .ioctl cmd key => switchIoctl s cmd key
  | .switchTasklet kmalloc myData => switchTaskletFunc kmalloc s myData
  | .ultrasonicTasklet kmalloc myData => ultrasonicTaskletFunc kmalloc s myData

def Step (s : Driver w) (l : Event w × Reply w) (t : Driver w) : Prop :=
  perform s l.1 = .ok (t, l.2)

def Changes (s t : Driver w) : Option (Effect w) → Prop
  | none => t = s
  | some (.opened k) => s.queueUse k = false ∧
      t.queueUse = Function.update s.queueUse k true ∧ t.queue = s.queue
  | some (.closed k) => s.queueUse k = true ∧
      t.queueUse = Function.update s.queueUse k false ∧
      ∀ d, t.queue d = Function.update (s.queue d) k []
  | some (.sensed d x) => t.queueUse = s.queueUse ∧
      (∀ i, t.queue d i = if s.queueUse i then s.queue d i ++ [x] else s.queue d i) ∧
      ∀ d', d' ≠ d → t.queue d' = s.queue d'
  | some (.received d k x) => t.queueUse = s.queueUse ∧
      (∃ rest, s.queue d k = x :: rest ∧ t.queue d = Function.update (s.queue d) k rest) ∧
      ∀ d', d' ≠ d → t.queue d' = s.queue d'

lemma changes_inUse {s t : Driver w} {e : Option (Effect w)} {k : Fin queueNum}
    (hc : Changes s t e) (hk : s.queueUse k = true) (hclosed : e ≠ some (.closed k)) :
    t.queueUse k = true := by
  cases e with
  | none =>
    obtain rfl := hc
    exact hk
  | some e =>
    cases e with
    | opened i =>
      rw [hc.2.1, Function.update_apply]
      split
      · rfl
      · exact hk
    | closed i =>
      have hi : k ≠ i := by
        rintro rfl
        exact hclosed rfl
      rw [hc.2.1, Function.update_of_ne hi]
      exact hk
    | sensed | received =>
      rw [hc.1]
      exact hk

section Perform

variable {s t : Driver w} {y : Reply w} {key : ℤ}

lemma switchQueueGet_cases (h : switchQueueGet s key = .ok (t, y)) :
    ∃ k, arrayIndex queueNum key = .ok k ∧
      (s.queueUse k = true ∧ t = s ∧ y = ⟨-1, none⟩ ∨
        s.queueUse k = false ∧ t = { s with queueUse := Function.update s.queueUse k true } ∧
          y = ⟨1, some (.opened k)⟩) := by
  obtain ⟨k, hk, h⟩ := bind_ok.mp h
  have hrange := arrayIndex_val hk
  refine ⟨k, hk, ?_⟩
  split at h
  · next hc =>
    cases h
    obtain huse | hlow | hhigh := hc
    · exact Or.inl ⟨huse, rfl, rfl⟩
    · omega
    · omega
  · next hc =>
    cases h
    have huse : s.queueUse k = false := by simpa using fun huse => hc (Or.inl huse)
    exact Or.inr ⟨huse, rfl, rfl⟩

lemma switchQueueClose_cases (h : switchQueueClose s key = .ok (t, y)) :
    ∃ k, arrayIndex queueNum key = .ok k ∧
      (s.queueUse k = false ∧ t = s ∧ y = ⟨-1, none⟩ ∨
        s.queueUse k = true ∧ t = { s with
            switchQueue := Function.update s.switchQueue k []
            ultrasonicQueue := Function.update s.ultrasonicQueue k []
            queueUse := Function.update s.queueUse k false } ∧
          y = ⟨1, some (.closed k)⟩) := by
  obtain ⟨k, hk, h⟩ := bind_ok.mp h
  have hrange := arrayIndex_val hk
  refine ⟨k, hk, ?_⟩
  split at h
  · next hc =>
    cases h
    obtain huse | hlow | hhigh := hc
    · exact Or.inl ⟨by simpa using huse, rfl, rfl⟩
    · omega
    · omega
  · next hc =>
    cases h
    have huse : s.queueUse k = true := by simpa using fun huse => hc (Or.inl huse)
    exact Or.inr ⟨huse, rfl, rfl⟩

lemma recv_cases {d : Sensor} (h : recv d s key = .ok (t, y)) :
    ∃ k, arrayIndex queueNum key = .ok k ∧
      (s.queue d k = [] ∧ t = s ∧ y = ⟨-1, none⟩ ∨
        ∃ x rest, s.queue d k = x :: rest ∧
          t = s.setQueue d (Function.update (s.queue d) k rest) ∧
          y = ⟨x.value, some (.received d k x)⟩) := by
  obtain ⟨k, hk, h⟩ := bind_ok.mp h
  refine ⟨k, hk, ?_⟩
  cases hq : s.queue d k with
  | nil =>
    rw [hq] at h
    cases h
    exact Or.inl ⟨rfl, rfl, rfl⟩
  | cons x rest =>
    rw [hq] at h
    cases h
    exact Or.inr ⟨x, rest, rfl, rfl, rfl⟩

lemma recv_changes {d : Sensor} (h : recv d s key = .ok (t, y)) : Changes s t y.effect := by
  obtain ⟨k, _, ⟨_, rfl, rfl⟩ | ⟨x, rest, hq, rfl, rfl⟩⟩ := recv_cases h
  · rfl
  · refine ⟨queueUse_setQueue .., ⟨rest, hq, queue_setQueue_self ..⟩, ?_⟩
    intro d' hd
    exact queue_setQueue_of_ne _ _ hd

lemma broadcast_ok {kmalloc use : Fin queueNum → Bool} {queue q : Fin queueNum → List (Data w)}
    {x : Data w} (h : broadcast kmalloc use queue x = .ok q) :
    q = fun i => if use i then queue i ++ [x] else queue i := by
  rw [broadcast] at h
  split at h
  · cases h
  · cases h
    rfl

lemma switchTaskletFunc_cases {kmalloc : Fin queueNum → Bool} {x : Data w}
    (h : switchTaskletFunc kmalloc s x = .ok (t, y)) :
    ¬ s.pre + 20 < x.timestamp ∧ t = s ∧ y = ⟨0, none⟩ ∨
      s.pre + 20 < x.timestamp ∧
        t = Driver.trigger { s with
          switchQueue := fun i =>
            if s.queueUse i then s.switchQueue i ++ [x] else s.switchQueue i
          pre := x.timestamp } ∧
        y = ⟨0, some (.sensed .switch x)⟩ := by
  rw [switchTaskletFunc] at h
  split at h
  · next hpre =>
    obtain ⟨q, hq, h⟩ := bind_ok.mp h
    obtain rfl := broadcast_ok hq
    cases h
    exact Or.inr ⟨hpre, rfl, rfl⟩
  · next hpre =>
    cases h
    exact Or.inl ⟨hpre, rfl, rfl⟩

lemma ultrasonicTaskletFunc_cases {kmalloc : Fin queueNum → Bool} {x : Data w}
    (h : ultrasonicTaskletFunc kmalloc s x = .ok (t, y)) :
    t = { s with ultrasonicQueue := fun i =>
        if s.queueUse i then s.ultrasonicQueue i ++ [x] else s.ultrasonicQueue i } ∧
      y = ⟨0, some (.sensed .ultrasonic x)⟩ := by
  obtain ⟨q, hq, h⟩ := bind_ok.mp h
  obtain rfl := broadcast_ok hq
  cases h
  exact ⟨rfl, rfl⟩

lemma ultrasonicIsr_cases (s : Driver w) (tmpTime : ℤ) (level : Bool) (jiffies : BitVec w) :
    s.echoValidFlag = 2 ∧ level = false ∧ ultrasonicIsr s tmpTime level jiffies = { s with
        echoStop := tmpTime, echoValidFlag := 3, ultrasonicPending := true
        ultrasonicDataTmp := ⟨centimetres s.echoStart tmpTime, jiffies⟩ } ∨
      ¬ (s.echoValidFlag = 2 ∧ level = false) ∧
        (ultrasonicIsr s tmpTime level jiffies = s ∨ s.echoValidFlag ≠ 3 ∧
          ultrasonicIsr s tmpTime level jiffies =
            { s with echoStart := tmpTime, echoValidFlag := 2 }) := by
  rw [ultrasonicIsr]
  split_ifs with h₁ hup h₂ hdown
  · exact Or.inr ⟨by omega, Or.inr ⟨by omega, rfl⟩⟩
  · exact Or.inr ⟨by omega, Or.inl rfl⟩
  · exact Or.inl ⟨h₂, by simpa using hdown, rfl⟩
  · exact Or.inr ⟨by simpa [h₂] using hdown, Or.inl rfl⟩
  · exact Or.inr ⟨by tauto, Or.inl rfl⟩

lemma ultrasonicIsr_frame (s : Driver w) (tmpTime : ℤ) (level : Bool) (jiffies : BitVec w) :
    ∃ flag start stop data pending, ultrasonicIsr s tmpTime level jiffies =
      { s with
        echoValidFlag := flag
        echoStart := start
        echoStop := stop
        ultrasonicDataTmp := data
        ultrasonicPending := pending } := by
  obtain ⟨_, _, heq⟩ | ⟨_, heq | ⟨_, heq⟩⟩ := ultrasonicIsr_cases s tmpTime level jiffies
  all_goals exact ⟨_, _, _, _, _, heq⟩

lemma queue_congr (hswitch : t.switchQueue = s.switchQueue)
    (hultrasonic : t.ultrasonicQueue = s.ultrasonicQueue) : t.queue = s.queue := by
  funext d
  cases d
  · exact hswitch
  · exact hultrasonic

lemma queue_trigger (s : Driver w) :
    s.trigger.queueUse = s.queueUse ∧ s.trigger.queue = s.queue := by
  rw [Driver.trigger]
  split
  · refine ⟨rfl, ?_⟩
    funext d
    cases d <;> rfl
  · exact ⟨rfl, rfl⟩

lemma data_trigger (s : Driver w) :
    s.trigger.switchDataTmp = s.switchDataTmp ∧ s.trigger.ultrasonicDataTmp = s.ultrasonicDataTmp ∧
      s.trigger.ultrasonicPending = s.ultrasonicPending := by
  rw [Driver.trigger]
  split <;> exact ⟨rfl, rfl, rfl⟩

lemma pre_trigger (s : Driver w) :
    s.trigger.pre = s.pre ∧ s.trigger.switchPending = s.switchPending := by
  rw [Driver.trigger]
  split <;> exact ⟨rfl, rfl⟩

lemma switchIoctl_changes {cmd : Command} (h : switchIoctl s cmd key = .ok (t, y)) :
    Changes s t y.effect := by
  cases cmd with
  | queueGet =>
    obtain ⟨k, _, ⟨_, rfl, rfl⟩ | ⟨huse, rfl, rfl⟩⟩ := switchQueueGet_cases h
    · rfl
    · refine ⟨huse, rfl, ?_⟩
      funext d
      cases d <;> rfl
  | queueClose =>
    obtain ⟨k, _, ⟨_, rfl, rfl⟩ | ⟨huse, rfl, rfl⟩⟩ := switchQueueClose_cases h
    · rfl
    · refine ⟨huse, rfl, ?_⟩
      intro d
      cases d <;> rfl
  | switchRecv | ultrasonicRecv => exact recv_changes h
  | unknown =>
    cases h
    rfl

lemma switchIoctl_queues {cmd : Command} (h : switchIoctl s cmd key = .ok (t, y)) :
    t = { s with
      switchQueue := t.switchQueue
      ultrasonicQueue := t.ultrasonicQueue
      queueUse := t.queueUse } := by
  cases cmd with
  | queueGet =>
    obtain ⟨k, _, ⟨_, rfl, _⟩ | ⟨_, rfl, _⟩⟩ := switchQueueGet_cases h <;> rfl
  | queueClose =>
    obtain ⟨k, _, ⟨_, rfl, _⟩ | ⟨_, rfl, _⟩⟩ := switchQueueClose_cases h <;> rfl
  | switchRecv | ultrasonicRecv =>
    obtain ⟨k, _, ⟨_, rfl, _⟩ | ⟨_, _, _, rfl, _⟩⟩ := recv_cases h <;> rfl
  | unknown =>
    cases h
    rfl

lemma switchTaskletFunc_changes {kmalloc : Fin queueNum → Bool} {x : Data w}
    (h : switchTaskletFunc kmalloc s x = .ok (t, y)) : Changes s t y.effect := by
  obtain ⟨_, rfl, rfl⟩ | ⟨_, rfl, rfl⟩ := switchTaskletFunc_cases h
  · rfl
  · refine ⟨(queue_trigger _).1, ?_, ?_⟩
    · intro i
      rw [(queue_trigger _).2]
      rfl
    · rintro (_ | _) hd
      · exact absurd rfl hd
      · rw [(queue_trigger _).2]
        rfl

lemma ultrasonicTaskletFunc_changes {kmalloc : Fin queueNum → Bool} {x : Data w}
    (h : ultrasonicTaskletFunc kmalloc s x = .ok (t, y)) : Changes s t y.effect := by
  obtain ⟨rfl, rfl⟩ := ultrasonicTaskletFunc_cases h
  refine ⟨rfl, fun i => rfl, ?_⟩
  rintro (_ | _) hd
  · rfl
  · exact absurd rfl hd

lemma perform_changes {e : Event w} (h : perform s e = .ok (t, y)) : Changes s t y.effect := by
  cases e with
  | ioctl cmd key => exact switchIoctl_changes h
  | switchTasklet kmalloc x => exact switchTaskletFunc_changes h
  | ultrasonicTasklet kmalloc x => exact ultrasonicTaskletFunc_changes h

end Perform

section Histories

structure Log (w : ℕ) where
  accepted : List (Data w)
  received : List (Data w)

def Log.after (d : Sensor) (i : Fin queueNum) (g : Log w) : Option (Effect w) → Log w
  | some (.opened k) => if k = i then ⟨[], []⟩ else g
  | some (.sensed d' x) => if d' = d then ⟨g.accepted ++ [x], g.received⟩ else g
  | some (.received d' k x) => if d' = d ∧ k = i then ⟨g.accepted, g.received ++ [x]⟩ else g
  | _ => g

def log (d : Sensor) (i : Fin queueNum) (ls : List (Event w × Reply w)) : Log w :=
  ls.foldl (fun g l => g.after d i l.2.effect) ⟨[], []⟩

structure Delivers (d : Sensor) (i : Fin queueNum) (s : Driver w) (g : Log w) : Prop where
  closed : s.queueUse i = false → s.queue d i = []
  opened : s.queueUse i = true → Balanced (fun _ => ()) g.accepted g.received (s.queue d i)

lemma Delivers.frame {d : Sensor} {i : Fin queueNum} {s t : Driver w} {g : Log w}
    (h : Delivers d i s g) (huse : t.queueUse i = s.queueUse i)
    (hq : t.queue d i = s.queue d i) : Delivers d i t g := by
  constructor
  · rw [huse, hq]
    exact h.closed
  · rw [huse, hq]
    exact h.opened

lemma Delivers.changes {d : Sensor} {i : Fin queueNum} {s t : Driver w} {g : Log w}
    {e : Option (Effect w)} (h : Delivers d i s g) (hc : Changes s t e) :
    Delivers d i t (g.after d i e) := by
  cases e with
  | none =>
    obtain rfl := hc
    exact h
  | some e =>
    cases e with
    | opened k =>
      obtain ⟨huse, hopen, hq⟩ := hc
      by_cases hk : k = i
      · subst hk
        have hempty : t.queue d k = [] := by rw [hq]; exact h.closed huse
        simp only [Log.after, if_pos]
        refine ⟨fun _ => hempty, fun _ => ?_⟩
        rw [hempty]
        exact balanced_nil
      · simp only [Log.after, if_neg hk]
        apply h.frame
        · rw [hopen, Function.update_of_ne (Ne.symm hk)]
        · rw [hq]
    | closed k =>
      obtain ⟨_, hclose, hq⟩ := hc
      by_cases hk : i = k
      · subst hk
        have huse : t.queueUse i = false := by rw [hclose, Function.update_self]
        have hempty : t.queue d i = [] := by rw [hq, Function.update_self]
        refine ⟨fun _ => hempty, fun hopen => ?_⟩
        rw [huse] at hopen
        cases hopen
      · apply h.frame
        · rw [hclose, Function.update_of_ne hk]
        · rw [hq, Function.update_of_ne hk]
    | sensed d' x =>
      obtain ⟨huse, hq, hother⟩ := hc
      by_cases hd : d' = d
      · subst hd
        simp only [Log.after, if_pos]
        constructor
        · intro hclosed
          rw [huse] at hclosed
          rw [hq, hclosed]
          exact h.closed hclosed
        · intro hopen
          rw [huse] at hopen
          rw [hq, if_pos hopen]
          exact (h.opened hopen).arrive x
      · simp only [Log.after, if_neg hd]
        apply h.frame
        · rw [huse]
        · rw [hother d (Ne.symm hd)]
    | received d' k x =>
      obtain ⟨huse, ⟨rest, hx, hq⟩, hother⟩ := hc
      by_cases hd : d' = d
      · subst hd
        by_cases hk : k = i
        · subst hk
          have hrest : t.queue d' k = rest := by rw [hq, Function.update_self]
          simp only [Log.after, and_self, if_pos]
          constructor
          · intro hclosed
            rw [huse] at hclosed
            rw [h.closed hclosed] at hx
            cases hx
          · intro hopen
            rw [huse] at hopen
            have hbalanced := h.opened hopen
            rw [hx] at hbalanced
            rw [hrest]
            exact hbalanced.depart (takes_head x rest)
        · simp only [Log.after, hk, and_false, if_false]
          apply h.frame
          · rw [huse]
          · rw [hq, Function.update_of_ne (Ne.symm hk)]
      · simp only [Log.after, hd, false_and, if_false]
        apply h.frame
        · rw [huse]
        · rw [hother d (Ne.symm hd)]

lemma delivers_run {ls : List (Event w × Reply w)} {s : Driver w} (h : Run Step .init ls s)
    (d : Sensor) (i : Fin queueNum) : Delivers d i s (log d i ls) := by
  have hstep : ∀ (s : Driver w) g l t, Delivers d i s g → Step s l t →
      Delivers d i t (g.after d i l.2.effect) :=
    fun _ _ _ _ hg hs => hg.changes (perform_changes hs)
  refine h.observed hstep ⟨fun _ => ?_, fun hopen => ?_⟩
  · cases d <;> rfl
  · cases hopen

end Histories

def Effect.key : Effect w → Option (Fin queueNum)
  | .opened k => some k
  | .closed k => some k
  | .sensed _ _ => none
  | .received _ k _ => some k

section Frame

variable {s t : Driver w} {y : Reply w} {cmd : Command} {key : ℤ} {k : Fin queueNum}

lemma switchIoctl_key (h : switchIoctl s cmd key = .ok (t, y))
    (hk : arrayIndex queueNum key = .ok k) : ∀ e, y.effect = some e → e.key = some k := by
  intro e he
  cases cmd with
  | queueGet =>
    obtain ⟨j, hj, ⟨_, _, rfl⟩ | ⟨_, _, rfl⟩⟩ := switchQueueGet_cases h
    · cases he
    · cases he
      exact congrArg some (Except.ok.inj (hj.symm.trans hk))
  | queueClose =>
    obtain ⟨j, hj, ⟨_, _, rfl⟩ | ⟨_, _, rfl⟩⟩ := switchQueueClose_cases h
    · cases he
    · cases he
      exact congrArg some (Except.ok.inj (hj.symm.trans hk))
  | switchRecv | ultrasonicRecv =>
    obtain ⟨j, hj, ⟨_, _, rfl⟩ | ⟨_, _, _, _, rfl⟩⟩ := recv_cases h
    · cases he
    · cases he
      exact congrArg some (Except.ok.inj (hj.symm.trans hk))
  | unknown =>
    cases h
    cases he

lemma switchIoctl_unsensed (h : switchIoctl s cmd key = .ok (t, y)) (d : Sensor) (x : Data w) :
    y.effect ≠ some (.sensed d x) := by
  cases cmd with
  | queueGet =>
    obtain ⟨_, _, ⟨_, _, rfl⟩ | ⟨_, _, rfl⟩⟩ := switchQueueGet_cases h <;> simp
  | queueClose =>
    obtain ⟨_, _, ⟨_, _, rfl⟩ | ⟨_, _, rfl⟩⟩ := switchQueueClose_cases h <;> simp
  | switchRecv | ultrasonicRecv =>
    obtain ⟨_, _, ⟨_, _, rfl⟩ | ⟨_, _, _, _, rfl⟩⟩ := recv_cases h <;> simp
  | unknown =>
    cases h
    simp

lemma switchIoctl_frame (h : switchIoctl s cmd key = .ok (t, y))
    (hk : arrayIndex queueNum key = .ok k) {j : Fin queueNum} (hj : j ≠ k) :
    t.queueUse j = s.queueUse j ∧ ∀ d, t.queue d j = s.queue d j := by
  have hkey := switchIoctl_key h hk
  have hc := switchIoctl_changes h
  cases he : y.effect with
  | none =>
    rw [he] at hc
    obtain rfl := hc
    exact ⟨rfl, fun _ => rfl⟩
  | some e =>
    have hek := hkey e he
    rw [he] at hc
    cases e with
    | opened i =>
      obtain rfl := Option.some.inj hek
      obtain ⟨_, huse, hq⟩ := hc
      exact ⟨by rw [huse, Function.update_of_ne hj], fun d => by rw [hq]⟩
    | closed i =>
      obtain rfl := Option.some.inj hek
      obtain ⟨_, huse, hq⟩ := hc
      exact ⟨by rw [huse, Function.update_of_ne hj], fun d => by rw [hq, Function.update_of_ne hj]⟩
    | sensed => cases hek
    | received d i x =>
      obtain rfl := Option.some.inj hek
      obtain ⟨huse, ⟨rest, _, hq⟩, hother⟩ := hc
      refine ⟨by rw [huse], fun d' => ?_⟩
      by_cases hd : d' = d
      · subst hd
        rw [hq, Function.update_of_ne hj]
      · rw [hother d' hd]

lemma broadcast_total (use : Fin queueNum → Bool) (queue : Fin queueNum → List (Data w))
    (x : Data w) : ∃ q, broadcast (fun _ => true) use queue x = .ok q := by
  rw [broadcast, if_neg (by simp)]
  exact ⟨_, rfl⟩

lemma recv_total (d : Sensor) (s : Driver w) (hk : arrayIndex queueNum key = .ok k) :
    ∃ t y, recv d s key = .ok (t, y) := by
  rw [recv, hk, ok_bind]
  cases s.queue d k <;> exact ⟨_, _, rfl⟩

lemma perform_total (s : Driver w) : (∀ cmd (key : ℤ), 0 ≤ key ∧ key < queueNum →
      ∃ t y, perform s (.ioctl cmd key) = .ok (t, y)) ∧
    (∀ x, ∃ t y, perform s (.switchTasklet (fun _ => true) x) = .ok (t, y)) ∧
    ∀ x, ∃ t y, perform s (.ultrasonicTasklet (fun _ => true) x) = .ok (t, y) := by
  refine ⟨?_, ?_, ?_⟩
  · intro cmd key hkey
    obtain ⟨k, hk⟩ := exists_arrayIndex hkey
    cases cmd with
    | queueGet | queueClose =>
      simp only [perform, switchIoctl, switchQueueGet, switchQueueClose, hk, ok_bind]
      split_ifs <;> exact ⟨_, _, rfl⟩
    | switchRecv => exact recv_total .switch s hk
    | ultrasonicRecv => exact recv_total .ultrasonic s hk
    | unknown => exact ⟨_, _, rfl⟩
  · intro x
    obtain ⟨q, hq⟩ := broadcast_total s.queueUse s.switchQueue x
    simp only [perform, switchTaskletFunc, hq, ok_bind]
    split_ifs <;> exact ⟨_, _, rfl⟩
  · intro x
    obtain ⟨q, hq⟩ := broadcast_total s.queueUse s.ultrasonicQueue x
    simp only [perform, ultrasonicTaskletFunc, hq, ok_bind]
    exact ⟨_, _, rfl⟩

end Frame

section Results

def Sensor.recv : Sensor → Command
  | .switch => .switchRecv
  | .ultrasonic => .ultrasonicRecv

lemma recv_returns {s t : Driver w} {y : Reply w} {d : Sensor} {key : ℤ} {k : Fin queueNum}
    (hk : arrayIndex queueNum key = .ok k) (h : switchIoctl s d.recv key = .ok (t, y)) :
    s.queue d k = [] ∧ y = ⟨-1, none⟩ ∨
      ∃ x, (s.queue d k).head? = some x ∧ y = ⟨x.value, some (.received d k x)⟩ := by
  have hrecv : recv d s key = .ok (t, y) := by
    cases d <;> exact h
  obtain ⟨j, hj, ⟨hq, _, hy⟩ | ⟨x, rest, hq, _, hy⟩⟩ := recv_cases hrecv
  · obtain rfl := Except.ok.inj (hj.symm.trans hk)
    exact Or.inl ⟨hq, hy⟩
  · obtain rfl := Except.ok.inj (hj.symm.trans hk)
    exact Or.inr ⟨x, by rw [hq]; rfl, hy⟩

/-- What one sensor has told since a queue was opened: the data that the executions of its tasklet
have processed, and the values that the receives from the queue have returned. A press is processed
when more than 20 ticks have passed since the last one, the time of which is `pre`. -/
structure History (w : ℕ) where
  pre : BitVec w
  processed : List (Data w)
  returned : List ℤ

def History.after (d : Sensor) (i : Fin queueNum) (g : History w) (l : Event w × Reply w) :
    History w :=
  match l.1 with
  | .ioctl cmd key =>
    if cmd = .queueGet ∧ key = i.val ∧ 0 ≤ l.2.ret then { g with processed := [], returned := [] }
    else if cmd = d.recv ∧ key = i.val ∧ l.2.effect.isSome then
      { g with returned := g.returned ++ [l.2.ret] }
    else g
  | .switchTasklet _ x =>
    if g.pre + 20 < x.timestamp then
      { g with
        pre := x.timestamp
        processed := if d = .switch then g.processed ++ [x] else g.processed }
    else g
  | .ultrasonicTasklet _ x =>
    if d = .ultrasonic then { g with processed := g.processed ++ [x] } else g

def history (d : Sensor) (i : Fin queueNum) (ls : List (Event w × Reply w)) : History w :=
  ls.foldl (History.after d i) ⟨0, [], []⟩

structure Tells (d : Sensor) (i : Fin queueNum) (s : Driver w) (g : History w) : Prop where
  pre : g.pre = s.pre
  delivers : ∃ taken, g.returned = taken.map Data.value ∧ Delivers d i s ⟨g.processed, taken⟩

section Tells

variable {d : Sensor} {i : Fin queueNum} {s t : Driver w} {g : History w} {y : Reply w}

lemma tells_get {key : ℤ} (hg : Tells d i s g) (h : switchQueueGet s key = .ok (t, y)) :
    Tells d i t (g.after d i (.ioctl .queueGet key, y)) := by
  have hrecv : Command.queueGet ≠ d.recv := by cases d <;> simp [Sensor.recv]
  have hget : switchIoctl s .queueGet key = .ok (t, y) := h
  have hc := switchIoctl_changes hget
  obtain ⟨taken, htaken, hd⟩ := hg.delivers
  have hkept := hd.changes hc
  obtain ⟨k, hk, ⟨_, rfl, rfl⟩ | ⟨_, rfl, rfl⟩⟩ := switchQueueGet_cases h
  · simpa [History.after, hrecv] using hg
  · rw [arrayIndex_val hk]
    by_cases hki : k = i
    · subst hki
      simp only [Log.after, if_true] at hkept
      simp only [History.after]
      rw [if_pos ⟨trivial, trivial, by decide⟩]
      exact ⟨hg.pre, [], rfl, hkept⟩
    · simp only [Log.after, if_neg hki] at hkept
      have hval : (k.val : ℤ) ≠ i.val := by
        have := Fin.val_ne_of_ne hki
        omega
      simp only [History.after, hval, false_and, and_false, if_false]
      exact ⟨hg.pre, taken, htaken, hkept⟩

lemma tells_recv {c : Sensor} {key : ℤ} (hg : Tells d i s g) (h : recv c s key = .ok (t, y)) :
    Tells d i t (g.after d i (.ioctl c.recv key, y)) := by
  have hget : c.recv ≠ .queueGet := by cases c <;> simp [Sensor.recv]
  have hpre : t.pre = s.pre := by
    obtain ⟨k, _, ⟨_, rfl, _⟩ | ⟨x, rest, _, rfl, _⟩⟩ := recv_cases h
    · rfl
    · cases c <;> rfl
  obtain ⟨taken, htaken, hd⟩ := hg.delivers
  have hkept := hd.changes (recv_changes h)
  obtain ⟨k, hk, ⟨_, rfl, rfl⟩ | ⟨x, rest, _, rfl, rfl⟩⟩ := recv_cases h
  · simpa [History.after, hget] using hg
  · rw [arrayIndex_val hk]
    simp only [History.after, hget, false_and, if_false, Option.isSome_some, and_true]
    by_cases hown : c = d ∧ k = i
    · obtain ⟨rfl, rfl⟩ := hown
      simp only [Log.after, and_self, if_true] at hkept
      rw [if_pos ⟨rfl, rfl⟩]
      exact ⟨hg.pre.trans hpre.symm, taken ++ [x], by simp [htaken], hkept⟩
    · simp only [Log.after, if_neg hown] at hkept
      have hne : ¬ (c.recv = d.recv ∧ (k.val : ℤ) = i.val) := by
        rintro ⟨hc, hval⟩
        apply hown
        exact ⟨by cases c <;> cases d <;> simp_all [Sensor.recv], Fin.ext (by omega)⟩
      rw [if_neg hne]
      exact ⟨hg.pre.trans hpre.symm, taken, htaken, hkept⟩

lemma tells_ioctl {cmd : Command} {key : ℤ} (hg : Tells d i s g)
    (h : switchIoctl s cmd key = .ok (t, y)) : Tells d i t (g.after d i (.ioctl cmd key, y)) := by
  cases cmd with
  | queueGet => exact tells_get hg h
  | switchRecv => exact tells_recv (c := .switch) hg h
  | ultrasonicRecv => exact tells_recv (c := .ultrasonic) hg h
  | queueClose =>
    have hrecv : Command.queueClose ≠ d.recv := by cases d <;> simp [Sensor.recv]
    obtain ⟨taken, htaken, hd⟩ := hg.delivers
    have hclose : switchIoctl s .queueClose key = .ok (t, y) := h
    have hkept := hd.changes (switchIoctl_changes hclose)
    have hg' : g.after d i (.ioctl .queueClose key, y) = g := by simp [History.after, hrecv]
    rw [hg']
    obtain ⟨k, _, ⟨_, rfl, rfl⟩ | ⟨_, rfl, rfl⟩⟩ := switchQueueClose_cases h
    · exact hg
    · exact ⟨hg.pre, taken, htaken, hkept⟩
  | unknown =>
    have hrecv : Command.unknown ≠ d.recv := by cases d <;> simp [Sensor.recv]
    cases h
    simpa [History.after, hrecv] using hg

lemma tells_step {e : Event w} (hg : Tells d i s g) (h : perform s e = .ok (t, y)) :
    Tells d i t (g.after d i (e, y)) := by
  cases e with
  | ioctl cmd key => exact tells_ioctl hg h
  | switchTasklet kmalloc x =>
    obtain ⟨taken, htaken, hd⟩ := hg.delivers
    have hkept := hd.changes (switchTaskletFunc_changes h)
    simp only [History.after, hg.pre]
    obtain ⟨hearly, rfl, rfl⟩ | ⟨hlate, rfl, rfl⟩ := switchTaskletFunc_cases h
    · rw [if_neg hearly]
      exact hg
    · rw [if_pos hlate]
      refine ⟨?_, taken, htaken, ?_⟩
      · rw [(pre_trigger _).1]
      · cases d <;> exact hkept
  | ultrasonicTasklet kmalloc x =>
    obtain ⟨taken, htaken, hd⟩ := hg.delivers
    have hkept := hd.changes (ultrasonicTaskletFunc_changes h)
    obtain ⟨rfl, rfl⟩ := ultrasonicTaskletFunc_cases h
    cases d with
    | switch => exact ⟨hg.pre, taken, htaken, hkept⟩
    | ultrasonic => exact ⟨hg.pre, taken, htaken, hkept⟩

lemma tells_run {ls : List (Event w × Reply w)} (h : Run Step .init ls s) (d : Sensor)
    (i : Fin queueNum) : Tells d i s (history d i ls) := by
  have hinit : Tells (w := w) d i .init ⟨0, [], []⟩ := by
    refine ⟨rfl, [], rfl, fun _ => ?_, fun hopen => ?_⟩
    · cases d <;> rfl
    · cases hopen
  have hstep : ∀ (s : Driver w) g l t, Tells d i s g → Step s l t → Tells d i t (g.after d i l) :=
    fun _ _ _ _ hg hs => tells_step hg hs
  exact h.observed hstep hinit

end Tells

theorem broadcast_fifo {ls : List (Event w × Reply w)} {s : Driver w} (h : Run Step .init ls s) :
    (∀ i d, s.queueUse i = false → s.queue d i = []) ∧
    (∀ i d, s.queueUse i = true → ∃ taken,
      (history d i ls).processed = taken ++ s.queue d i ∧
        (history d i ls).returned = taken.map Data.value) ∧
    (∀ d key k y t, arrayIndex queueNum key = .ok k → Step s (.ioctl d.recv key, y) t →
      s.queue d k = [] ∧ y = ⟨-1, none⟩ ∨
        ∃ x, (s.queue d k).head? = some x ∧ y = ⟨x.value, some (.received d k x)⟩) ∧
    (∀ cmd key k y t, arrayIndex queueNum key = .ok k → Step s (.ioctl cmd key, y) t →
      ∀ j, j ≠ k → t.queueUse j = s.queueUse j ∧ ∀ d, t.queue d j = s.queue d j) ∧
    (∀ cmd (key : ℤ), 0 ≤ key ∧ key < queueNum → ∃ t y, perform s (.ioctl cmd key) = .ok (t, y)) ∧
    (∀ x, ∃ t y, perform s (.switchTasklet (fun _ => true) x) = .ok (t, y)) ∧
    ∀ x, ∃ t y, perform s (.ultrasonicTasklet (fun _ => true) x) = .ok (t, y) := by
  refine ⟨?_, ?_, ?_, ?_, perform_total s⟩
  · exact fun i d => (delivers_run h d i).closed
  · intro i d hopen
    obtain ⟨taken, htaken, hd⟩ := (tells_run h d i).delivers
    exact ⟨taken, balanced_unit_iff.mp (hd.opened hopen), htaken⟩
  · exact fun d key k y t hk hs => recv_returns hk hs
  · exact fun cmd key k y t hk hs j hj => switchIoctl_frame hs hk hj

theorem broadcast_fifo_press : ∃ (ls : List (Event 8 × Reply 8)) (s : Driver 8),
    Run Step .init ls s ∧ s.queue .switch 0 = [⟨2, 30⟩] ∧ s.queue .ultrasonic 0 = [] ∧
      (history .switch 0 ls).processed = [⟨2, 30⟩] ∧ (history .switch 0 ls).returned = [] ∧
      (history .ultrasonic 0 ls).processed = [⟨57, 31⟩] ∧
      (history .ultrasonic 0 ls).returned =
        (history .ultrasonic 0 ls).processed.map Data.value := by
  obtain ⟨s, hrun, huse, hswitch, hultrasonic⟩ : ∃ s : Driver 8, Run Step .init
      [(.ioctl .queueGet 0, ⟨1, some (.opened 0)⟩),
        (.switchTasklet (fun _ => true) ⟨2, 30⟩, ⟨0, some (.sensed .switch ⟨2, 30⟩)⟩),
        (.ultrasonicTasklet (fun _ => true) ⟨57, 31⟩, ⟨0, some (.sensed .ultrasonic ⟨57, 31⟩)⟩),
        (.ioctl .ultrasonicRecv 0, ⟨57, some (.received .ultrasonic 0 ⟨57, 31⟩)⟩)] s ∧
      s.queueUse 0 = true ∧ s.queue .switch 0 = [⟨2, 30⟩] ∧ s.queue .ultrasonic 0 = [] :=
    ⟨_, .cons rfl (.cons rfl (.cons rfl (.cons rfl .nil))), rfl, rfl, rfl⟩
  obtain ⟨presses, hpresses, hnone⟩ := (broadcast_fifo hrun).2.1 0 .switch huse
  obtain ⟨measured, hmeasured, hone⟩ := (broadcast_fifo hrun).2.1 0 .ultrasonic huse
  have htaken : presses = [] := by simpa [history, History.after, Sensor.recv] using hnone.symm
  rw [htaken, hswitch] at hpresses
  rw [hultrasonic, List.append_nil] at hmeasured
  refine ⟨_, s, hrun, hswitch, hultrasonic, hpresses, ?_, rfl, by rw [hone, hmeasured]⟩
  rw [hnone, htaken]
  rfl

end Results

end EmbeddedSystem.Switch
