import EmbeddedSystem.Switch.Memory

namespace EmbeddedSystem.Switch.Memory

open Kernel Foundations

variable {A : Type} {w : ℕ}

section Abstraction

def System.driver (m : System A w) (q : Head → List A) : Driver w where
  switchQueue i := m.lists.values (q (.switch, i))
  ultrasonicQueue i := m.lists.values (q (.ultrasonic, i))
  queueUse := m.queueUse
  pre := m.pre
  switchDataTmp := m.switchDataTmp
  ultrasonicDataTmp := m.ultrasonicDataTmp
  switchPending := m.switchPending
  ultrasonicPending := m.ultrasonicPending
  echoValidFlag := m.echoValidFlag
  echoStart := m.echoStart
  echoStop := m.echoStop

def Represents (m : System A w) (s : Driver w) : Prop :=
  ∃ q, m.lists.Holds q ∧ s = m.driver q

lemma queue_driver (m : System A w) (q : Head → List A) (d : Sensor) (k : Fin queueNum) :
    (m.driver q).queue d k = m.lists.values (q (d, k)) := by
  cases d <;> rfl

lemma driver_update (m : System A w) (q : Head → List A) (d : Sensor) (k : Fin queueNum)
    (xs : List A) : m.driver (Function.update q (d, k) xs) =
      (m.driver q).setQueue d
        (Function.update ((m.driver q).queue d) k (m.lists.values xs)) := by
  have hself : ∀ d, (fun i => m.lists.values (Function.update q (d, k) xs (d, i))) =
      Function.update (fun i => m.lists.values (q (d, i))) k (m.lists.values xs) := by
    intro d
    funext i
    by_cases hi : i = k
    · subst hi
      simp
    · rw [Function.update_of_ne (by simpa using hi), Function.update_of_ne hi]
  have hother : ∀ d', d' ≠ d → (fun i => m.lists.values (Function.update q (d, k) xs (d', i))) =
      fun i => m.lists.values (q (d', i)) := by
    intro d' hd
    funext i
    rw [Function.update_of_ne (by simp [hd])]
  cases d with
  | switch =>
    have hultrasonic := hother .ultrasonic (by decide)
    simp only [System.driver, hself, hultrasonic]
    rfl
  | ultrasonic =>
    have hswitch := hother .switch (by decide)
    simp only [System.driver, hself, hswitch]
    rfl

lemma represents_init (junk : A → Data w) : Represents (.init junk) (Driver.init : Driver w) :=
  ⟨fun _ => [], Lists.holds_init junk, rfl⟩

lemma driver_trigger (m : System A w) (q : Head → List A) :
    m.trigger.driver q = (m.driver q).trigger := by
  by_cases hflag : m.echoValidFlag = 3
  · rw [System.trigger, if_pos hflag, Driver.trigger]
    exact (if_pos hflag).symm
  · rw [System.trigger, if_neg hflag, Driver.trigger]
    exact (if_neg hflag).symm

lemma lists_trigger (m : System A w) : m.trigger.lists = m.lists := by
  rw [System.trigger]
  split <;> rfl

def Refines (f : ℕ → OptionT (Except Fault) (System A w × Reply w))
    (x : Except Fault (Driver w × Reply w)) : Prop :=
  ∃ t y s', Returns f (t, y) ∧ x = .ok (s', y) ∧ Represents t s'

lemma refines_once {x : Except Fault (System A w × Reply w)} {z : Except Fault (Driver w × Reply w)}
    {t : System A w} {y : Reply w} {s' : Driver w} (hx : x = .ok (t, y)) (hz : z = .ok (s', y))
    (h : Represents t s') : Refines (fun _ => (x : OptionT (Except Fault) _)) z :=
  ⟨t, y, s', Returns.lift hx, hz, h⟩

end Abstraction

section Ioctls

variable [DecidableEq A] {m : System A w} {q : Head → List A} {key : ℤ} {k : Fin queueNum}

omit [DecidableEq A] in
lemma switchQueueGet_refines (h : m.lists.Holds q) (hk : arrayIndex queueNum key = .ok k) :
    Refines (fun _ => (switchQueueGet m key : OptionT (Except Fault) _))
      (Switch.switchQueueGet (m.driver q) key) := by
  by_cases huse : m.queueUse k ∨ key < 0 ∨ key ≥ queueNum
  · apply refines_once (t := m) (y := ⟨-1, none⟩)
    · rw [switchQueueGet, hk]
      exact if_pos huse
    · rw [Switch.switchQueueGet, hk]
      exact if_pos huse
    · exact ⟨q, h, rfl⟩
  · apply refines_once (y := ⟨1, some (.opened k)⟩)
    · rw [switchQueueGet, hk]
      exact if_neg huse
    · rw [Switch.switchQueueGet, hk]
      exact if_neg huse
    · exact ⟨q, h, rfl⟩

lemma switchQueueClose_refines (h : m.lists.Holds q) (hk : arrayIndex queueNum key = .ok k) :
    Refines (fun n => switchQueueClose n m key) (Switch.switchQueueClose (m.driver q) key) := by
  by_cases huse : !m.queueUse k ∨ key < 0 ∨ key ≥ queueNum
  · refine ⟨m, ⟨-1, none⟩, _, ?_, ?_, q, h, rfl⟩
    · apply (Returns.lift hk).bind
      simp only [if_pos huse]
      exact Returns.done _
    · rw [Switch.switchQueueClose, hk]
      exact if_pos huse
  · obtain ⟨l₁, hl₁, hholds₁, hval₁⟩ := h.drain (.switch, k)
    obtain ⟨l₂, hl₂, hholds₂, hval₂⟩ := hholds₁.drain (.ultrasonic, k)
    refine ⟨{ m with lists := l₂, queueUse := Function.update m.queueUse k false },
      ⟨1, some (.closed k)⟩, _, ?_, ?_, _, hholds₂, rfl⟩
    · apply (Returns.lift hk).bind
      simp only [if_neg huse]
      apply hl₁.bind
      apply hl₂.bind
      exact Returns.done _
    · rw [Switch.switchQueueClose, hk]
      refine (if_neg huse).trans ?_
      have hvalues : l₂.values = m.lists.values := by
        funext xs
        rw [Lists.values, Lists.values, hval₂, hval₁]
      rw [driver_update, driver_update]
      simp only [System.driver, hvalues]
      rfl

lemma recv_refines (d : Sensor) (h : m.lists.Holds q) (hk : arrayIndex queueNum key = .ok k) :
    Refines (fun _ => (recv d m key : OptionT (Except Fault) _))
      (Switch.recv d (m.driver q) key) := by
  cases hq : q (d, k) with
  | nil =>
    apply refines_once (t := m) (y := ⟨-1, none⟩)
    · rw [recv, hk]
      exact if_pos (h.listEmpty_iff.mpr hq)
    · rw [Switch.recv, hk, ok_bind, queue_driver, hq]
      rfl
    · exact ⟨q, h, rfl⟩
  | cons a xs =>
    have hring := h.ring (d, k)
    rw [hq] at hring
    have hempty : ¬ m.lists.listEmpty (d, k) = true := by
      rw [h.listEmpty_iff, hq]
      exact List.cons_ne_nil a xs
    have ha : m.lists.nodes.live a = true := h.live_of_mem (k := (d, k)) (by simp [hq])
    have hsplit : q (d, k) = [] ++ a :: xs := hq
    obtain ⟨lists, hdel, hfree⟩ := bind_ok.mp (h.taken_eq hsplit ha)
    apply refines_once (t := { m with lists := m.lists.taken a ha })
      (y := ⟨(m.lists.nodes.val a).value, some (.received d k (m.lists.nodes.val a))⟩)
    · rw [recv, hk, ok_bind, if_neg hempty, Lists.getNext_of_live rfl, hring.1]
      simp only [ok_bind, Ptr.entry, Ledger.read_of_live ha, hdel, hfree]
      rfl
    · rw [Switch.recv, hk, ok_bind, queue_driver, hq]
      rfl
    · refine ⟨_, h.taken hsplit ha, ?_⟩
      rw [driver_update]
      rfl

lemma switchIoctl_refines (h : m.lists.Holds q) (hk : arrayIndex queueNum key = .ok k)
    (cmd : Command) :
    Refines (fun n => switchIoctl n m cmd key) (Switch.switchIoctl (m.driver q) cmd key) := by
  cases cmd with
  | queueGet => exact switchQueueGet_refines h hk
  | queueClose => exact switchQueueClose_refines h hk
  | switchRecv => exact recv_refines .switch h hk
  | ultrasonicRecv => exact recv_refines .ultrasonic h hk
  | unknown => exact ⟨m, ⟨0, none⟩, m.driver q, Returns.done _, rfl, q, h, rfl⟩

lemma recv_index {e : Fault} (hk : arrayIndex queueNum key = .error e) (d : Sensor) :
    recv d m key = .error e := by
  rw [recv, hk]
  rfl

lemma switchIoctl_index {e : Fault} (hk : arrayIndex queueNum key = .error e) {cmd : Command}
    (hcmd : cmd ≠ .unknown) : Stops (fun n => switchIoctl n m cmd key) (.error .index) := by
  obtain ⟨-, rfl⟩ := arrayIndex_error_iff.mp hk
  cases cmd with
  | queueGet =>
    apply Stops.lift
    rw [switchQueueGet, hk]
    rfl
  | queueClose => exact (Stops.lift hk).error
  | switchRecv => exact Stops.lift (recv_index hk .switch)
  | ultrasonicRecv => exact Stops.lift (recv_index hk .ultrasonic)
  | unknown => exact absurd rfl hcmd

end Ioctls

section Tasklets

variable [DecidableEq A] {m : System A w} {q : Head → List A} {l : Nodes A w} {kmalloc : Alloc A w}
  {use : Fin queueNum → Bool} {x : Data w} {d : Sensor}

def OutOfMemory (kmalloc : Alloc A w) (use : Fin queueNum → Bool) : Prop :=
  ∃ i l, use i = true ∧ kmalloc i l = none

def Added (l : Nodes A w) (q : Head → List A) (d : Sensor) (use : Fin queueNum → Bool) (x : Data w)
    (is : List (Fin queueNum)) (l' : Nodes A w) : Prop :=
  ∃ q', l'.Holds q' ∧ ∀ k, l'.values (q' k) =
    l.values (q k) ++ if k.1 = d ∧ use k.2 = true ∧ k.2 ∈ is then [x] else []

lemma broadcastBody_cases (h : l.Holds q) (kmalloc : Alloc A w) (d : Sensor)
    (use : Fin queueNum → Bool) (x : Data w) (i : Fin queueNum) :
    (OutOfMemory kmalloc use ∧ broadcastBody kmalloc d use x l i = .error .null) ∨
      ∃ l', broadcastBody kmalloc d use x l i = .ok l' ∧ Added l q d use x [i] l' := by
  by_cases huse : use i = true
  · cases hnew : kmalloc i l with
    | none =>
      refine Or.inl ⟨⟨i, l, huse, hnew⟩, ?_⟩
      rw [broadcastBody, if_pos huse, hnew]
      rfl
    | some new =>
      refine Or.inr ⟨l.pushed new (d, i) x, ?_, _, h.pushed new (d, i) x, ?_⟩
      · rw [broadcastBody, if_pos huse, hnew]
        have hlive : (l.kmalloc new.node new.junk new.free).nodes.live new.node = true := by
          simp [Lists.kmalloc]
        simp only [Lists.store_of_live hlive, ok_bind]
        exact h.listAddTail new (d, i) x
      · rintro ⟨d', j⟩
        by_cases hk : (d', j) = (d, i)
        · cases hk
          rw [Function.update_self, Lists.values_append, h.values_pushed, Lists.values_new]
          simp [huse]
        · rw [Function.update_of_ne hk, h.values_pushed, if_neg, List.append_nil]
          rintro ⟨rfl, -, hj⟩
          exact hk (Prod.ext rfl (List.mem_singleton.mp hj))
  · refine Or.inr ⟨l, ?_, q, h, ?_⟩
    · rw [broadcastBody, if_neg huse]
      rfl
    · intro k
      rw [if_neg, List.append_nil]
      rintro ⟨-, hk, hi⟩
      rw [List.mem_singleton.mp hi] at hk
      exact huse hk

lemma foldlM_cases (h : l.Holds q) (kmalloc : Alloc A w) (d : Sensor)
    (use : Fin queueNum → Bool) (x : Data w) {is : List (Fin queueNum)} (hnodup : is.Nodup) :
    (OutOfMemory kmalloc use ∧ is.foldlM (broadcastBody kmalloc d use x) l = .error .null) ∨
      ∃ l', is.foldlM (broadcastBody kmalloc d use x) l = .ok l' ∧ Added l q d use x is l' := by
  induction is generalizing l q with
  | nil =>
    refine Or.inr ⟨l, rfl, q, h, ?_⟩
    intro k
    simp
  | cons i is ih =>
    obtain ⟨hi, his⟩ := List.nodup_cons.mp hnodup
    rw [List.foldlM_cons]
    obtain ⟨hnull, herror⟩ | ⟨l₁, hl₁, q₁, hq₁, hadded₁⟩ := broadcastBody_cases h kmalloc d use x i
    · rw [herror]
      exact Or.inl ⟨hnull, rfl⟩
    · rw [hl₁, ok_bind]
      obtain hnull | ⟨l₂, hl₂, q₂, hq₂, hadded₂⟩ := ih hq₁ his
      · exact Or.inl hnull
      · refine Or.inr ⟨l₂, hl₂, q₂, hq₂, ?_⟩
        intro k
        rw [hadded₂, hadded₁, List.append_assoc]
        congr 1
        by_cases hk : k.2 = i
        · simp [hk, hi]
        · simp [hk]

lemma broadcast_cases (h : m.lists.Holds q) (kmalloc : Alloc A w) (d : Sensor) (x : Data w) :
    (OutOfMemory kmalloc m.queueUse ∧
        broadcast kmalloc d m.queueUse x m.lists = .error .null) ∨
      ∃ l q', broadcast kmalloc d m.queueUse x m.lists = .ok l ∧ l.Holds q' ∧
        ({ m with lists := l } : System A w).driver q' = (m.driver q).setQueue d fun i =>
          if m.queueUse i then (m.driver q).queue d i ++ [x] else (m.driver q).queue d i := by
  obtain hnull | ⟨l, hl, q', hq', hadded⟩ :=
    foldlM_cases h kmalloc d m.queueUse x (List.nodup_finRange queueNum)
  · exact Or.inl hnull
  · refine Or.inr ⟨l, q', hl, hq', ?_⟩
    have hqueue : ∀ d' i, l.values (q' (d', i)) = if d' = d ∧ m.queueUse i = true then
        m.lists.values (q (d', i)) ++ [x] else m.lists.values (q (d', i)) := by
      intro d' i
      rw [hadded]
      simp only [List.mem_finRange, and_true]
      split <;> simp
    cases d <;> simp [System.driver, Driver.setQueue, Driver.queue, hqueue]

lemma broadcast_all (use : Fin queueNum → Bool) (queue : Fin queueNum → List (Data w))
    (x : Data w) : Switch.broadcast (fun _ => true) use queue x =
      .ok fun i => if use i then queue i ++ [x] else queue i :=
  if_neg (by simp)

lemma switchTaskletFunc_cases (h : m.lists.Holds q) (kmalloc : Alloc A w) (x : Data w) :
    (OutOfMemory kmalloc m.queueUse ∧ switchTaskletFunc kmalloc m x = .error .null) ∨
      Refines (fun _ => (switchTaskletFunc kmalloc m x : OptionT (Except Fault) _))
        (Switch.switchTaskletFunc (fun _ => true) (m.driver q) x) := by
  by_cases hpre : m.pre + 20 < x.timestamp
  · obtain ⟨hnull, herror⟩ | ⟨l, q', hl, hq', hdriver⟩ := broadcast_cases h kmalloc .switch x
    · refine Or.inl ⟨hnull, ?_⟩
      rw [switchTaskletFunc, if_pos hpre, herror]
      rfl
    · refine Or.inr (refines_once (y := ⟨0, some (.sensed .switch x)⟩)
        (t := System.trigger { m with lists := l, pre := x.timestamp }) ?_ ?_ ⟨q', ?_, rfl⟩)
      · rw [switchTaskletFunc, if_pos hpre, hl]
        rfl
      · rw [Switch.switchTaskletFunc]
        refine (if_pos hpre).trans ?_
        have hlists : ({ m with lists := l, pre := x.timestamp } : System A w).driver q' =
            { ({ m with lists := l } : System A w).driver q' with pre := x.timestamp } := rfl
        rw [broadcast_all, ok_bind, driver_trigger, hlists, hdriver]
        rfl
      · rw [lists_trigger]
        exact hq'
  · refine Or.inr (refines_once (t := m) (y := ⟨0, none⟩) ?_ ?_ ⟨q, h, rfl⟩)
    · rw [switchTaskletFunc, if_neg hpre]
      rfl
    · rw [Switch.switchTaskletFunc]
      exact if_neg hpre

lemma ultrasonicTaskletFunc_cases (h : m.lists.Holds q) (kmalloc : Alloc A w) (x : Data w) :
    (OutOfMemory kmalloc m.queueUse ∧ ultrasonicTaskletFunc kmalloc m x = .error .null) ∨
      Refines (fun _ => (ultrasonicTaskletFunc kmalloc m x : OptionT (Except Fault) _))
        (Switch.ultrasonicTaskletFunc (fun _ => true) (m.driver q) x) := by
  obtain ⟨hnull, herror⟩ | ⟨l, q', hl, hq', hdriver⟩ := broadcast_cases h kmalloc .ultrasonic x
  · refine Or.inl ⟨hnull, ?_⟩
    rw [ultrasonicTaskletFunc, herror]
    rfl
  · refine Or.inr (refines_once (y := ⟨0, some (.sensed .ultrasonic x)⟩)
      (t := { m with lists := l }) ?_ ?_ ⟨q', hq', rfl⟩)
    · rw [ultrasonicTaskletFunc, hl]
      rfl
    · rw [Switch.ultrasonicTaskletFunc, broadcast_all, ok_bind, hdriver]
      rfl

end Tasklets

section Exit

variable [DecidableEq A] {m : System A w} {q : Head → List A} {l : Nodes A w}

def Emptied (q : Head → List A) (d : Sensor) (is : List (Fin queueNum)) (l : Nodes A w) : Prop :=
  ∃ q', l.Holds q' ∧ (∀ i, i ∉ is → q' (d, i) = []) ∧ ∀ d' i, q (d', i) = [] → q' (d', i) = []

lemma Emptied.next {d : Sensor} {i : Fin queueNum} {is : List (Fin queueNum)}
    (h : Emptied q d (i :: is) l) :
    ∃ l', Returns (fun n => Lists.listForEachSafe id (d, i) Lists.takeBody n l) l' ∧
      Emptied q d is l' := by
  obtain ⟨q₁, hq₁, hleft, hkeep⟩ := h
  obtain ⟨l', hl', hq', -⟩ := hq₁.drain (d, i)
  refine ⟨l', hl', _, hq', ?_, ?_⟩
  · intro j hj
    by_cases hji : j = i
    · rw [hji, Function.update_self]
    · rw [Function.update_of_ne (by simpa using hji)]
      exact hleft j (by simp [hji, hj])
  · intro d' j hnil
    by_cases hk : (d', j) = (d, i)
    · rw [hk, Function.update_self]
    · rw [Function.update_of_ne hk]
      exact hkeep d' j hnil

lemma freeQueues_returns (h : l.Holds q) (d : Sensor) :
    ∃ l', Returns (fun n => freeQueues n d l) l' ∧ Emptied q d [] l' := by
  apply Returns.foldlM_left (Emptied q d)
  · exact fun i is l hl => hl.next
  · exact ⟨q, h, fun i hi => absurd (List.mem_finRange i) hi, fun _ _ hnil => hnil⟩

lemma switchExit_returns (h : m.lists.Holds q) :
    ∃ t, Returns (fun n => switchExit n m) t ∧ t.lists.nodes.AllFreed := by
  obtain ⟨l₁, hl₁, q₁, hq₁, hswitch, -⟩ := freeQueues_returns h .switch
  obtain ⟨l₂, hl₂, q₂, hq₂, hultrasonic, hkeep⟩ := freeQueues_returns hq₁ .ultrasonic
  refine ⟨{ m with lists := l₂ }, ?_, hq₂.nodes_freed_iff.mpr ?_⟩
  · exact hl₁.bind (hl₂.bind (Returns.done _))
  · rintro ⟨d, i⟩
    cases d with
    | switch => exact hkeep .switch i (hswitch i List.not_mem_nil)
    | ultrasonic => exact hultrasonic i List.not_mem_nil

end Exit

section Runs

variable [DecidableEq A] {m t : System A w} {s : Driver w} {junk : A → Data w}
  {ls : List (Event A w × Reply w)}

def Event.Starved (m : System A w) : Event A w → Prop
  | .ioctl .. => False
  | .switchTasklet kmalloc _ | .ultrasonicTasklet kmalloc _ => OutOfMemory kmalloc m.queueUse

def Event.InRange : Event A w → Prop
  | .ioctl cmd key => cmd = .unknown ∨ 0 ≤ key ∧ key < queueNum
  | _ => True

def Step (m : System A w) (l : Event A w × Reply w) (t : System A w) : Prop :=
  Returns (fun n => perform n m l.1) (t, l.2)

def label (l : Event A w × Reply w) : Switch.Event w × Reply w := (l.1.abs, l.2)

lemma perform_cases (h : Represents m s) (e : Event A w) :
    e.InRange ∧ Refines (fun n => perform n m e) (Switch.perform s e.abs) ∨
      ¬ e.InRange ∧ Stops (fun n => perform n m e) (.error .index) ∨
      e.Starved m ∧ Stops (fun n => perform n m e) (.error .null) := by
  obtain ⟨q, hq, rfl⟩ := h
  cases e with
  | ioctl cmd key =>
    cases hk : arrayIndex queueNum key with
    | ok k =>
      have hkey := arrayIndex_val hk
      refine Or.inl ⟨Or.inr (by omega), switchIoctl_refines hq hk cmd⟩
    | error e =>
      obtain ⟨hkey, -⟩ := arrayIndex_error_iff.mp hk
      by_cases hcmd : cmd = .unknown
      · subst hcmd
        refine Or.inl ⟨Or.inl rfl, m, ⟨0, none⟩, m.driver q, Returns.done _, rfl, q, hq, rfl⟩
      · refine Or.inr (Or.inl ⟨?_, switchIoctl_index hk hcmd⟩)
        rintro (h | h)
        · exact hcmd h
        · exact hkey h
  | switchTasklet kmalloc x =>
    obtain ⟨hnull, herror⟩ | hrefines := switchTaskletFunc_cases hq kmalloc x
    · exact Or.inr (Or.inr ⟨hnull, Stops.lift herror⟩)
    · exact Or.inl ⟨trivial, hrefines⟩
  | ultrasonicTasklet kmalloc x =>
    obtain ⟨hnull, herror⟩ | hrefines := ultrasonicTaskletFunc_cases hq kmalloc x
    · exact Or.inr (Or.inr ⟨hnull, Stops.lift herror⟩)
    · exact Or.inl ⟨trivial, hrefines⟩

lemma Step.represents {l : Event A w × Reply w} (h : Represents m s) (hs : Step m l t) :
    ∃ s', Switch.Step s (label l) s' ∧ Represents t s' := by
  obtain ⟨-, t', y, s', hreturns, hdriver, ht⟩ | ⟨-, hstops⟩ | ⟨-, hstops⟩ := perform_cases h l.1
  · cases hs.unique hreturns
    exact ⟨s', hdriver, ht⟩
  · obtain ⟨n, hn⟩ := hs.run
    cases hstops.eq_of_run (z := .ok (t, l.2)) hn
  · obtain ⟨n, hn⟩ := hs.run
    cases hstops.eq_of_run (z := .ok (t, l.2)) hn

lemma run_represents (h : Run Step (.init junk) ls m) :
    ∃ s, Run Switch.Step .init (ls.map label) s ∧ Represents m s := by
  obtain ⟨s, hrun, hs⟩ : ∃ s, Run (fun s l t => Switch.Step s (label l) t) .init ls s ∧
      Represents m s :=
    h.simulate (fun _ _ _ _ hr hstep => hstep.represents hr) (represents_init junk)
  exact ⟨s, hrun.map, hs⟩

theorem queues_in_memory (h : Run Step (.init junk) ls m) :
    (∃ q, m.lists.Holds q ∧ Run Switch.Step .init (ls.map label) (m.driver q) ∧
      ∀ d i, (m.queueUse i = false → q (d, i) = []) ∧
        (m.queueUse i = true → (log d i (ls.map label)).accepted =
          (log d i (ls.map label)).received ++ m.lists.values (q (d, i)))) ∧
    (∀ e, (e.InRange ∧ ∃ t y, Returns (fun n => perform n m e) (t, y)) ∨
      (¬ e.InRange ∧ Stops (fun n => perform n m e) (.error .index)) ∨
      e.Starved m ∧ Stops (fun n => perform n m e) (.error .null)) ∧
    ∃ t, Returns (fun n => switchExit n m) t ∧ t.lists.nodes.AllFreed := by
  obtain ⟨_, hrun, hm⟩ := run_represents h
  have hcases := perform_cases hm
  obtain ⟨q, hq, rfl⟩ := hm
  refine ⟨⟨q, hq, hrun, fun d i => ?_⟩, fun e => ?_, switchExit_returns hq⟩
  · have hdelivers := delivers_run hrun d i
    have hqueue := queue_driver m q d i
    refine ⟨fun huse => ?_, fun huse => ?_⟩
    · have hnil := hdelivers.closed huse
      rw [hqueue] at hnil
      exact List.map_eq_nil_iff.mp hnil
    · rw [← hqueue]
      exact SelectiveFifo.balanced_unit_iff.mp (hdelivers.opened huse)
  · exact (hcases e).imp_left fun ⟨he, t, y, _, hreturns, _⟩ => ⟨he, t, y, hreturns⟩

def reserved : Alloc (Fin queueNum) w := fun i l =>
  if h : l.nodes.live i = false then some ⟨i, ⟨.poison1, .poison2, ⟨0, 0⟩⟩, h⟩ else none

theorem queues_in_memory_press : ∃ m : System (Fin queueNum) 8,
    Run Step (.init fun _ => ⟨0, 0⟩) [(.ioctl .queueGet 0, ⟨1, some (.opened 0)⟩),
      (.switchTasklet reserved ⟨2, 30⟩, ⟨0, some (.sensed .switch ⟨2, 30⟩)⟩)] m ∧
    ∃ t, Returns (fun n => switchExit n m) t ∧ t.lists.nodes.AllFreed := by
  have hrun : ∃ m : System (Fin queueNum) 8,
      Run Step (.init fun _ => ⟨0, 0⟩) [(.ioctl .queueGet 0, ⟨1, some (.opened 0)⟩),
        (.switchTasklet reserved ⟨2, 30⟩, ⟨0, some (.sensed .switch ⟨2, 30⟩)⟩)] m :=
    ⟨_, .cons (Returns.lift rfl) (.cons (Returns.lift rfl) .nil)⟩
  obtain ⟨m, hrun⟩ := hrun
  exact ⟨m, hrun, (queues_in_memory hrun).2.2⟩

end Runs

end EmbeddedSystem.Switch.Memory
