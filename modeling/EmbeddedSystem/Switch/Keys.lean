import EmbeddedSystem.Switch.Broadcast

/-! What the driver `switch.c` does for one key. The other keys do not matter to the calls with this
key, and what tasklets and handlers do to its queues. -/

namespace EmbeddedSystem.Switch

open Kernel

variable {w : ℕ} {s t : Driver w} {y : Reply w} {cmd : Command} {key key' : ℤ}

section Only

def atKey {α : Type} (key : ℤ) (f : Fin queueNum → α) (x : α) (i : Fin queueNum) : α :=
  if (i : ℤ) = key then f i else x

/-- The driver with the queues of `key` as they are, and the others closed. -/
def Driver.only (s : Driver w) (key : ℤ) : Driver w :=
  { s with
    switchQueue := atKey key s.switchQueue []
    ultrasonicQueue := atKey key s.ultrasonicQueue []
    queueUse := atKey key s.queueUse false }

lemma atKey_const {α : Type} (key : ℤ) (x : α) : atKey key (fun _ => x) x = fun _ => x := by
  funext i
  exact ite_self x

lemma atKey_congr {α : Type} {f g : Fin queueNum → α} {x : α}
    (h : ∀ k : Fin queueNum, (k : ℤ) = key → f k = g k) : atKey key f x = atKey key g x := by
  funext i
  by_cases hi : (i : ℤ) = key
  · rw [atKey, atKey, if_pos hi, if_pos hi, h i hi]
  · rw [atKey, atKey, if_neg hi, if_neg hi]

lemma update_atKey {α : Type} (f : Fin queueNum → α) (k : Fin queueNum) (x y : α) :
    Function.update (atKey k f y) k x = atKey k (Function.update f k x) y := by
  funext i
  by_cases hi : i = k
  · subst hi
    simp [atKey]
  · have hne : (i : ℤ) ≠ k := by
      intro heq
      exact hi (Fin.ext (by exact_mod_cast heq))
    rw [Function.update_of_ne hi, atKey, atKey, if_neg hne, if_neg hne]

lemma only_init (key : ℤ) : (.init : Driver w).only key = .init := by
  simp [Driver.only, Driver.init, atKey_const]

lemma only_queueUse (s : Driver w) (k : Fin queueNum) : (s.only k).queueUse k = s.queueUse k :=
  if_pos rfl

lemma only_queue (s : Driver w) (d : Sensor) (k : Fin queueNum) :
    (s.only k).queue d k = s.queue d k := by
  cases d <;> exact if_pos rfl

lemma only_setQueue (s : Driver w) (d : Sensor) (k : Fin queueNum) (xs : List (Data w)) :
    (s.only k).setQueue d (Function.update ((s.only k).queue d) k xs) =
      (s.setQueue d (Function.update (s.queue d) k xs)).only k := by
  cases d <;> simp only [Driver.only, Driver.setQueue, Driver.queue, update_atKey]

end Only

section Calls

def onlyResult (key : ℤ) (r : Driver w × Reply w) : Driver w × Reply w := (r.1.only key, r.2)

lemma switchQueueGet_only (s : Driver w) (key : ℤ) :
    switchQueueGet (s.only key) key = (switchQueueGet s key).map (onlyResult key) := by
  cases hk : arrayIndex queueNum key with
  | error e =>
    simp only [switchQueueGet, hk]
    rfl
  | ok k =>
    obtain rfl := arrayIndex_val hk
    simp only [switchQueueGet, hk, ok_bind, only_queueUse]
    split
    · rfl
    · simp only [Driver.only, update_atKey]
      rfl

lemma switchQueueClose_only (s : Driver w) (key : ℤ) :
    switchQueueClose (s.only key) key = (switchQueueClose s key).map (onlyResult key) := by
  cases hk : arrayIndex queueNum key with
  | error e =>
    simp only [switchQueueClose, hk]
    rfl
  | ok k =>
    obtain rfl := arrayIndex_val hk
    simp only [switchQueueClose, hk, ok_bind, only_queueUse]
    split
    · rfl
    · simp only [Driver.only, update_atKey]
      rfl

lemma recv_only (d : Sensor) (s : Driver w) (key : ℤ) :
    recv d (s.only key) key = (recv d s key).map (onlyResult key) := by
  cases hk : arrayIndex queueNum key with
  | error e =>
    simp only [recv, hk]
    rfl
  | ok k =>
    obtain rfl := arrayIndex_val hk
    simp only [recv, hk, ok_bind, only_queue]
    cases hq : s.queue d k with
    | nil => rfl
    | cons x rest =>
      simp only [only_setQueue]
      rfl

lemma switchIoctl_only (s : Driver w) (cmd : Command) (key : ℤ) :
    switchIoctl (s.only key) cmd key = (switchIoctl s cmd key).map (onlyResult key) := by
  cases cmd with
  | queueGet => exact switchQueueGet_only s key
  | queueClose => exact switchQueueClose_only s key
  | switchRecv => exact recv_only .switch s key
  | ultrasonicRecv => exact recv_only .ultrasonic s key
  | unknown => rfl

lemma switchIoctl_arrayIndex (h : switchIoctl s cmd key = .ok (t, y)) :
    cmd = .unknown ∨ ∃ k, arrayIndex queueNum key = .ok k := by
  cases cmd with
  | queueGet =>
    obtain ⟨k, hk, -⟩ := switchQueueGet_cases h
    exact Or.inr ⟨k, hk⟩
  | queueClose =>
    obtain ⟨k, hk, -⟩ := switchQueueClose_cases h
    exact Or.inr ⟨k, hk⟩
  | switchRecv | ultrasonicRecv =>
    obtain ⟨k, hk, -⟩ := recv_cases h
    exact Or.inr ⟨k, hk⟩
  | unknown => exact Or.inl rfl

lemma switchIoctl_only_other (h : switchIoctl s cmd key' = .ok (t, y)) (hne : key' ≠ key) :
    t.only key = s.only key := by
  have hsame : ∀ k : Fin queueNum, (k : ℤ) = key →
      t.queueUse k = s.queueUse k ∧ ∀ d, t.queue d k = s.queue d k := by
    intro k hk
    obtain rfl | ⟨k', hk'⟩ := switchIoctl_arrayIndex h
    · cases h
      exact ⟨rfl, fun _ => rfl⟩
    · apply switchIoctl_frame h hk'
      rintro rfl
      exact hne ((arrayIndex_val hk').trans hk)
  have huse : atKey key t.queueUse false = atKey key s.queueUse false :=
    atKey_congr fun k hk => (hsame k hk).1
  have hq : ∀ d, atKey key (t.queue d) [] = atKey key (s.queue d) [] :=
    fun d => atKey_congr fun k hk => (hsame k hk).2 d
  have hswitch : atKey key t.switchQueue [] = atKey key s.switchQueue [] := hq .switch
  have hultrasonic : atKey key t.ultrasonicQueue [] = atKey key s.ultrasonicQueue [] :=
    hq .ultrasonic
  rw [switchIoctl_queues h]
  simp only [Driver.only, huse, hswitch, hultrasonic]

end Calls

section Tasklets

variable {kmalloc : Fin queueNum → Bool} {x : Data w}

lemma broadcast_only {use : Fin queueNum → Bool} {queue q : Fin queueNum → List (Data w)}
    (h : broadcast kmalloc use queue x = .ok q) :
    broadcast kmalloc (atKey key use false) (atKey key queue []) x = .ok (atKey key q []) := by
  have hq := broadcast_ok h
  rw [broadcast] at h ⊢
  split at h
  · cases h
  · next hfree =>
    rw [if_neg]
    · rw [hq]
      refine congrArg Except.ok (funext fun i => ?_)
      by_cases hi : (i : ℤ) = key <;> simp [atKey, hi]
    · rintro ⟨i, huse, hnull⟩
      rw [atKey] at huse
      split at huse
      · exact hfree ⟨i, huse, hnull⟩
      · cases huse

lemma trigger_only (s : Driver w) (key : ℤ) : (s.only key).trigger = s.trigger.only key := by
  rw [Driver.trigger, Driver.trigger]
  split_ifs <;> first | rfl | contradiction

lemma switchTaskletFunc_only (h : switchTaskletFunc kmalloc s x = .ok (t, y)) (key : ℤ) :
    switchTaskletFunc kmalloc (s.only key) x = .ok (t.only key, y) := by
  rw [switchTaskletFunc] at h ⊢
  by_cases hpre : s.pre + 20 < x.timestamp
  · rw [if_pos hpre] at h
    obtain ⟨q, hq, h⟩ := bind_ok.mp h
    cases h
    have hpre' : (s.only key).pre + 20 < x.timestamp := hpre
    have hq' : broadcast kmalloc (s.only key).queueUse (s.only key).switchQueue x =
        .ok (atKey key q []) := broadcast_only hq
    rw [if_pos hpre', hq', ok_bind, ← trigger_only]
    rfl
  · rw [if_neg hpre] at h
    cases h
    exact if_neg hpre

lemma ultrasonicTaskletFunc_only (h : ultrasonicTaskletFunc kmalloc s x = .ok (t, y)) (key : ℤ) :
    ultrasonicTaskletFunc kmalloc (s.only key) x = .ok (t.only key, y) := by
  obtain ⟨q, hq, h⟩ := bind_ok.mp h
  cases h
  have hq' : broadcast kmalloc (s.only key).queueUse (s.only key).ultrasonicQueue x =
      .ok (atKey key q []) := broadcast_only hq
  rw [ultrasonicTaskletFunc, hq']
  rfl

lemma ultrasonicIsr_only (s : Driver w) (tmpTime : ℤ) (level : Bool) (jiffies : BitVec w)
    (key : ℤ) : (ultrasonicIsr s tmpTime level jiffies).only key =
      ultrasonicIsr (s.only key) tmpTime level jiffies := by
  rw [ultrasonicIsr, ultrasonicIsr]
  split_ifs <;> first | rfl | contradiction

end Tasklets

end EmbeddedSystem.Switch
