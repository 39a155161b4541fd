import EmbeddedSystem.Coffer.System
import EmbeddedSystem.Switch.Broadcast

namespace EmbeddedSystem.Coffer

open Kernel Foundations Switch

variable {w : ℕ}

/-- When the app compares a press with the password, it has the distance that this very press
triggered. -/
def System.Judged (s : System w) : Prop :=
  s.app.pc = .judge → 0 ≤ s.app.ret → s.app.count < 5 →
    ∃ n, s.ghost.retTag = some n ∧ s.ghost.distanceTag = some (n, s.app.distance)

/-- No press is accepted during a measurement, no measurement ends before the previous one is
delivered, each measured value is one that `ioctl` returns unchanged, no measurement is under way
when the queue is opened, and the app finds a measurement exactly if it has a press. -/
def InStep (s : System w) : Move w → Prop
  | .call .queueGet opened => opened = true →
      s.driver.echoValidFlag = 3 ∧ s.driver.ultrasonicPending = false
  | .call .ultrasonicRecv opened => 0 ≤ s.app.ret ↔ opened = true ∧
      ∃ k, arrayIndex Switch.queueNum s.app.key = .ok k ∧ s.driver.ultrasonicQueue k ≠ []
  | .switchTasklet _ => s.isOpen = true →
      s.driver.pre + 20 < s.driver.switchDataTmp.timestamp → s.driver.echoValidFlag = 3
  | .echo tmpTime level _ => s.isOpen = true → s.echoEnds level = true →
      s.driver.ultrasonicPending = false ∧
        ioctlReturn (centimetres s.driver.echoStart tmpTime) =
          centimetres s.driver.echoStart tmpTime
  | _ => True

def Pc.awaits : Pc → Bool
  | .measure => true
  | .openMeasure => true
  | _ => false

def System.unjudged (s : System w) : List ℕ :=
  (if s.app.pc.awaits ∧ 0 ≤ s.app.ret then s.ghost.retTag.toList else []) ++ s.ghost.switchTags

def System.measuring (s : System w) : List ℕ :=
  s.ghost.ultrasonicTags.map Prod.fst ++
    (if s.driver.ultrasonicPending then [s.ghost.latched.1] else []) ++
    (if s.driver.echoValidFlag = 3 then [] else [s.ghost.trigger])

structure Unopened (s : System w) : Prop where
  closed : ∀ i, s.driver.queueUse i = false
  empty : ∀ d i, s.driver.queue d i = []
  tags : s.ghost.switchTags = [] ∧ s.ghost.ultrasonicTags = []
  lacking : s.app.pc = .measure ∨ s.app.pc = .judge → s.app.ret < 0

structure Opened (k : Fin Switch.queueNum) (s : System w) : Prop where
  key : arrayIndex Switch.queueNum s.app.key = .ok k
  running : s.app.pc ≠ .closing ∧ s.app.pc ≠ .getting
  use : s.driver.queueUse k = true
  values : ∀ x ∈ s.driver.switchQueue k, 0 ≤ x.value
  tags : s.ghost.switchTags.length = (s.driver.switchQueue k).length
  measures : (s.driver.ultrasonicQueue k).map Data.value = s.ghost.ultrasonicTags.map Prod.snd
  returned : ∀ m ∈ s.ghost.ultrasonicTags, ioctlReturn m.2 = m.2
  latched : s.driver.ultrasonicPending = true → ioctlReturn s.ghost.latched.2 = s.ghost.latched.2
  held : s.app.pc.awaits = true → 0 ≤ s.app.ret → ∃ n, s.ghost.retTag = some n
  paired : s.unjudged = s.measuring
  judged : s.Judged

structure Paired (s : System w) : Prop where
  pressed : 0 ≤ s.driver.switchDataTmp.value
  sensed : s.driver.ultrasonicPending = true → s.driver.ultrasonicDataTmp.value = s.ghost.latched.2
  queue : Unopened s ∨ ∃ k, Opened k s

section Invariant

variable {s t : System w} {k : Fin Switch.queueNum}

lemma isOpen_eq (hk : arrayIndex Switch.queueNum s.app.key = .ok k) :
    s.isOpen = s.driver.queueUse k := by
  rw [System.isOpen, hk]

lemma Unopened.isOpen (h : Unopened s) : s.isOpen = false := by
  rw [System.isOpen]
  split
  · exact h.closed _
  · rfl

lemma Unopened.frame {d : Driver w} {g : Ghost} (h : Unopened s)
    (huse : d.queueUse = s.driver.queueUse) (hq : ∀ e, d.queue e = s.driver.queue e)
    (hg : g.switchTags = [] ∧ g.ultrasonicTags = []) : Unopened ⟨d, s.app, g⟩ := by
  refine ⟨?_, ?_, hg, h.lacking⟩
  · rw [huse]
    exact h.closed
  · intro e i
    rw [hq]
    exact h.empty e i

lemma unjudged_of_awaits (h : s.app.pc.awaits = false) : s.unjudged = s.ghost.switchTags := by
  simp [System.unjudged, h]

lemma Judged.of_ne (h : s.app.pc ≠ .judge) : s.Judged := fun hpc => absurd hpc h

def Pc.calm : Pc → Bool
  | .outer => true
  | .recv => true
  | .verdict => true
  | .openRecv => true
  | _ => false

lemma Pc.calm_awaits {pc : Pc} (h : pc.calm = true) : pc.awaits = false := by
  cases pc <;> first | rfl | cases h

lemma Pc.calm_ne {pc : Pc} (h : pc.calm = true) :
    pc ≠ .closing ∧ pc ≠ .getting ∧ pc ≠ .measure ∧ pc ≠ .judge := by
  cases pc <;> simp_all [Pc.calm]

lemma Opened.local {a : App} (h : Opened k s) (hs : s.app.pc.awaits = false)
    (hkey : a.key = s.app.key) (hpc : a.pc.calm = true) : Opened k { s with app := a } := by
  obtain ⟨hclosing, hgetting, _, hjudge⟩ := Pc.calm_ne hpc
  refine ⟨?_, ⟨hclosing, hgetting⟩, h.use, h.values, h.tags, h.measures, h.returned, h.latched,
    ?_, ?_, Judged.of_ne hjudge⟩
  · rw [hkey]
    exact h.key
  · intro haw
    rw [Pc.calm_awaits hpc] at haw
    cases haw
  · rw [unjudged_of_awaits (Pc.calm_awaits hpc), ← unjudged_of_awaits hs]
    exact h.paired

lemma Unopened.local {a : App} (h : Unopened s) (hpc : a.pc.calm = true) :
    Unopened { s with app := a } := by
  obtain ⟨_, _, hmeasure, hjudge⟩ := Pc.calm_ne hpc
  refine ⟨h.closed, h.empty, h.tags, ?_⟩
  rintro (hm | hj)
  · exact absurd hm hmeasure
  · exact absurd hj hjudge

lemma Paired.local {a : App} (h : Paired s) (hs : s.app.pc.awaits = false)
    (hkey : a.key = s.app.key) (hpc : a.pc.calm = true) : Paired { s with app := a } := by
  refine ⟨h.pressed, h.sensed, ?_⟩
  obtain hun | ⟨k, hop⟩ := h.queue
  · exact Or.inl (hun.local hpc)
  · exact Or.inr ⟨k, hop.local hs hkey hpc⟩

lemma paired_start (h : Paired s) (hpc : s.app.pc = .outer) :
    Paired { s with app := s.app.start } := by
  apply h.local (by rw [hpc]; rfl)
  · rw [App.start]
    split <;> rfl
  · rw [App.start]
    split <;> rfl

lemma paired_judge {a : App} (h : Paired s) (hpc : s.app.pc = .judge)
    (ha : s.app.judge = .ok a) : Paired { s with app := a } := by
  rw [App.judge] at ha
  split at ha
  · cases ha
    exact h.local (by rw [hpc]; rfl) rfl rfl
  · obtain ⟨i, _, ha⟩ := bind_ok.mp ha
    cases ha
    exact h.local (by rw [hpc]; rfl) rfl rfl

lemma paired_verdict (h : Paired s) (hpc : s.app.pc = .verdict) :
    Paired { s with app := s.app.verdict.1 } := by
  apply h.local (by rw [hpc]; rfl)
  · rw [App.verdict]
    split_ifs <;> rfl
  · rw [App.verdict]
    split_ifs <;> rfl

lemma paired_openTest (h : Paired s) (hpc : s.app.pc = .openTest) :
    Paired { s with app := s.app.openTest.1 } := by
  apply h.local (by rw [hpc]; rfl)
  · rw [App.openTest]
    split_ifs <;> rfl
  · rw [App.openTest]
    split_ifs <;> rfl

def Button.value : Button → ℤ
  | .switch1 => 1
  | .switch2 => 2
  | .switch3 => 3

lemma Button.value_nonneg (b : Button) : 0 ≤ b.value := by
  cases b <;> decide

lemma Button.isr_eq (b : Button) (d : Driver w) (jiffies : BitVec w) :
    b.isr d jiffies = { d with switchDataTmp := ⟨b.value, jiffies⟩, switchPending := true } := by
  cases b <;> rfl

lemma paired_button (h : Paired s) (b : Button) (jiffies : BitVec w) :
    Paired { s with driver := b.isr s.driver jiffies } := by
  rw [b.isr_eq]
  refine ⟨b.value_nonneg, h.sensed, ?_⟩
  obtain hun | ⟨k, hop⟩ := h.queue
  · refine Or.inl (hun.frame rfl ?_ hun.tags)
    intro e
    cases e <;> rfl
  · exact Or.inr ⟨k, { hop with }⟩

lemma paired_echo (h : Paired s) (tmpTime : ℤ) (level : Bool) (jiffies : BitVec w)
    (hin : InStep s (.echo tmpTime level jiffies)) : Paired { s with
      driver := ultrasonicIsr s.driver tmpTime level jiffies
      ghost := if s.echoEnds level then
          { s.ghost with latched := (s.ghost.trigger, centimetres s.driver.echoStart tmpTime) }
        else s.ghost } := by
  obtain ⟨hflag, hlevel, heq⟩ | ⟨hnot, heq | ⟨hflag, heq⟩⟩ :=
    ultrasonicIsr_cases s.driver tmpTime level jiffies
  · have hends : s.echoEnds level = true := by simp [System.echoEnds, hflag, hlevel]
    rw [heq, if_pos hends]
    refine ⟨h.pressed, fun _ => rfl, ?_⟩
    obtain hun | ⟨k, hop⟩ := h.queue
    · refine Or.inl (hun.frame rfl ?_ hun.tags)
      intro e
      cases e <;> rfl
    · obtain ⟨hpending, hreturn⟩ := hin ((isOpen_eq hop.key).trans hop.use) hends
      refine Or.inr ⟨k, { hop with latched := fun _ => hreturn, paired := ?_ }⟩
      have hpaired := hop.paired
      simpa [System.unjudged, System.measuring, hpending, hflag] using hpaired
  · have hends : ¬ s.echoEnds level = true := by
      simpa [System.echoEnds] using hnot
    rw [heq, if_neg hends]
    exact h
  · have hends : ¬ s.echoEnds level = true := by
      simpa [System.echoEnds] using hnot
    rw [heq, if_neg hends]
    refine ⟨h.pressed, h.sensed, ?_⟩
    obtain hun | ⟨k, hop⟩ := h.queue
    · refine Or.inl (hun.frame rfl ?_ hun.tags)
      intro e
      cases e <;> rfl
    · refine Or.inr ⟨k, { hop with paired := ?_ }⟩
      have hpaired := hop.paired
      simpa [System.unjudged, System.measuring, hflag] using hpaired

lemma paired_switchTasklet (h : Paired s) {kmalloc : Fin Switch.queueNum → Bool} {d : Driver w}
    {y : Reply w} (hf : switchTaskletFunc kmalloc { s.driver with switchPending := false }
      s.driver.switchDataTmp = .ok (d, y)) (hin : InStep s (.switchTasklet kmalloc)) :
    Paired { s with
      driver := d
      ghost := if y.effect.isSome then
          s.ghost.pressed s.isOpen (s.driver.echoValidFlag = 3)
        else s.ghost } := by
  obtain ⟨_, rfl, rfl⟩ | ⟨hpre, rfl, rfl⟩ := switchTaskletFunc_cases hf
  · refine ⟨h.pressed, h.sensed, ?_⟩
    obtain hun | ⟨k, hop⟩ := h.queue
    · refine Or.inl (hun.frame rfl ?_ hun.tags)
      intro e
      cases e <;> rfl
    · exact Or.inr ⟨k, { hop with }⟩
  · obtain hun | ⟨k, hop⟩ := h.queue
    · refine ⟨?_, ?_, Or.inl ⟨?_, ?_, ?_, hun.lacking⟩⟩
      · rw [(data_trigger _).1]
        exact h.pressed
      · rw [(data_trigger _).2.1, (data_trigger _).2.2]
        exact h.sensed
      · rw [(queue_trigger _).1]
        exact hun.closed
      · intro d i
        rw [(queue_trigger _).2]
        cases d with
        | switch => simpa [Driver.queue, hun.closed i] using hun.empty .switch i
        | ultrasonic => exact hun.empty .ultrasonic i
      · rw [hun.isOpen]
        exact hun.tags
    · have hopen : s.isOpen = true := (isOpen_eq hop.key).trans hop.use
      have hflag : s.driver.echoValidFlag = 3 := hin hopen hpre
      rw [Driver.trigger, if_pos hflag]
      refine ⟨h.pressed, h.sensed, Or.inr ⟨k, hop.key, hop.running, hop.use, ?_, ?_, hop.measures,
        hop.returned, hop.latched, hop.held, ?_, hop.judged⟩⟩
      · intro x hx
        simp only [Driver.endTrigger, Driver.beginTrigger, hop.use, if_true, List.mem_append,
          List.mem_singleton] at hx
        rcases hx with hx | rfl
        · exact hop.values x hx
        · exact h.pressed
      · simp [Ghost.pressed, hopen, hop.tags, Driver.endTrigger, Driver.beginTrigger, hop.use]
      · have hpaired := hop.paired
        simp only [System.unjudged, System.measuring, hflag, if_true, List.append_nil] at hpaired
        simp [System.unjudged, System.measuring, Ghost.pressed, hopen, hflag, Driver.endTrigger,
          Driver.beginTrigger, ← List.append_assoc, hpaired]

lemma paired_ultrasonicTasklet (h : Paired s) {kmalloc : Fin Switch.queueNum → Bool} {d : Driver w}
    {y : Reply w} (hpending : s.driver.ultrasonicPending = true)
    (hf : ultrasonicTaskletFunc kmalloc { s.driver with ultrasonicPending := false }
      s.driver.ultrasonicDataTmp = .ok (d, y)) :
    Paired { s with driver := d, ghost := s.ghost.measured s.isOpen } := by
  obtain ⟨rfl, -⟩ := ultrasonicTaskletFunc_cases hf
  obtain hun | ⟨k, hop⟩ := h.queue
  · refine ⟨h.pressed, by simp, Or.inl ⟨hun.closed, ?_, ?_, hun.lacking⟩⟩
    · intro d i
      cases d with
      | switch => exact hun.empty .switch i
      | ultrasonic => simpa [Driver.queue, hun.closed i] using hun.empty .ultrasonic i
    · rw [hun.isOpen]
      exact hun.tags
  · have hopen : s.isOpen = true := (isOpen_eq hop.key).trans hop.use
    have hsensed := h.sensed hpending
    refine ⟨h.pressed, by simp, Or.inr ⟨k, hop.key, hop.running, hop.use, hop.values, ?_, ?_, ?_,
      by simp, ?_, ?_, ?_⟩⟩
    · rw [hopen]
      exact hop.tags
    · simp [Ghost.measured, hopen, hop.use, hop.measures, hsensed]
    · intro m hm
      simp only [Ghost.measured, hopen, if_true, List.mem_append, List.mem_singleton] at hm
      rcases hm with hm | rfl
      · exact hop.returned m hm
      · exact hop.latched hpending
    · rw [hopen]
      exact hop.held
    · have hpaired := hop.paired
      simpa [System.unjudged, System.measuring, Ghost.measured, hopen, hpending] using hpaired
    · rw [hopen]
      exact hop.judged

lemma unopened_recv (h : Unopened s) {d : Sensor} {key : ℤ} {t : Driver w} {y : Reply w}
    (hd : Switch.recv d s.driver key = .ok (t, y)) : t = s.driver ∧ y = ⟨-1, none⟩ := by
  obtain ⟨k, _, ⟨_, rfl, rfl⟩ | ⟨x, rest, hq, _, _⟩⟩ := recv_cases hd
  · exact ⟨rfl, rfl⟩
  · rw [h.empty d k] at hq
    cases hq

lemma unopened_ioctl (h : Unopened s) {cmd : Command} {d : Driver w} {y : Reply w}
    (hcmd : cmd = .queueClose ∨ cmd = .switchRecv ∨ cmd = .ultrasonicRecv)
    (hd : switchIoctl s.driver cmd s.app.key = .ok (d, y)) : d = s.driver ∧ y = ⟨-1, none⟩ := by
  obtain rfl | rfl | rfl := hcmd
  · obtain ⟨k, _, ⟨_, rfl, rfl⟩ | ⟨huse, _, _⟩⟩ := switchQueueClose_cases hd
    · exact ⟨rfl, rfl⟩
    · rw [h.closed k] at huse
      cases huse
  · exact unopened_recv h hd
  · exact unopened_recv h hd

lemma unopened_call (h : Unopened s) {cmd : Command} {opened : Bool} {d : Driver w} {y : Reply w}
    (hcmd : cmd = .queueClose ∨ cmd = .switchRecv ∨ cmd = .ultrasonicRecv)
    (hcall : libCall opened s.driver cmd s.app.key = .ok (d, y)) :
    d = s.driver ∧ y = ⟨-1, none⟩ := by
  obtain ⟨_, rfl, rfl⟩ | ⟨_, y', hd, rfl⟩ := libCall_cases hcall
  · exact ⟨rfl, rfl⟩
  · obtain ⟨rfl, rfl⟩ := unopened_ioctl h hcmd hd
    exact ⟨rfl, rfl⟩

lemma unopened_get (h : Paired s) (hun : Unopened s) {opened : Bool} {d : Driver w} {y : Reply w}
    (hcall : libCall opened s.driver .queueGet s.app.key = .ok (d, y))
    (hin : InStep s (.call .queueGet opened)) :
    Paired ⟨d, s.app.resume .queueGet y.ret .outer, s.ghost.received .queueGet y.effect⟩ := by
  have hfail : Unopened ⟨s.driver, { s.app with pc := .outer }, s.ghost⟩ := hun.local rfl
  obtain ⟨_, rfl, rfl⟩ | ⟨hopened, y', hd, rfl⟩ := libCall_cases hcall
  · exact ⟨h.pressed, h.sensed, Or.inl hfail⟩
  · obtain ⟨k, hk, ⟨_, rfl, rfl⟩ | ⟨_, rfl, rfl⟩⟩ := switchQueueGet_cases hd
    · exact ⟨h.pressed, h.sensed, Or.inl hfail⟩
    · obtain ⟨hflag, hpending⟩ := hin hopened
      have hswitch : s.driver.switchQueue k = [] := hun.empty .switch k
      have hultrasonic : s.driver.ultrasonicQueue k = [] := hun.empty .ultrasonic k
      refine ⟨h.pressed, h.sensed, Or.inr ⟨k, hk, ?_, ?_, ?_, ?_, ?_, ?_, ?_, ?_, ?_, ?_⟩⟩
      · simp [App.resume]
      · simp
      · simp [hswitch]
      · simp [Ghost.received, hswitch, hun.tags.1]
      · simp [Ghost.received, hultrasonic, hun.tags.2]
      · simp [Ghost.received, hun.tags.2]
      · simp [hpending]
      · simp [App.resume, Pc.awaits]
      · simp [System.unjudged, System.measuring, App.resume, Pc.awaits, Ghost.received, hun.tags,
          hpending, hflag]
      · exact Judged.of_ne (by simp [App.resume])

lemma Opened.lacksPress (hop : Opened k s) {pc : Pc} (hs : s.app.pc.awaits = false)
    (hpc : pc = .measure ∨ pc = .openMeasure) :
    Opened k ⟨s.driver, { s.app with ret := -1, pc := pc }, { s.ghost with retTag := none }⟩ := by
  have hrunning : pc ≠ .closing ∧ pc ≠ .getting ∧ pc ≠ .judge := by
    obtain rfl | rfl := hpc <;> simp
  refine ⟨hop.key, ⟨hrunning.1, hrunning.2.1⟩, hop.use, hop.values, hop.tags, hop.measures,
    hop.returned, hop.latched, by simp, ?_, Judged.of_ne hrunning.2.2⟩
  have hpaired := hop.paired
  rw [unjudged_of_awaits hs] at hpaired
  simpa [System.unjudged, System.measuring] using hpaired

lemma Opened.takesPress (hop : Opened k s) {pc : Pc} {x : Data w} {rest : List (Data w)}
    (hs : s.app.pc.awaits = false) (hpc : pc = .measure ∨ pc = .openMeasure)
    (hq : s.driver.switchQueue k = x :: rest) :
    Opened k ⟨{ s.driver with switchQueue := Function.update s.driver.switchQueue k rest },
      { s.app with ret := x.value, pc := pc },
      { s.ghost with
        retTag := s.ghost.switchTags.head?
        switchTags := s.ghost.switchTags.tail }⟩ := by
  have hrunning : pc ≠ .closing ∧ pc ≠ .getting ∧ pc ≠ .judge := by
    obtain rfl | rfl := hpc <;> simp
  have hawaits : pc.awaits = true := by
    obtain rfl | rfl := hpc <;> rfl
  have hvalue : 0 ≤ x.value := hop.values x (by simp [hq])
  have htags := hop.tags
  have hpaired := hop.paired
  rw [unjudged_of_awaits hs] at hpaired
  rw [hq] at htags
  cases hn : s.ghost.switchTags with
  | nil =>
    rw [hn] at htags
    cases htags
  | cons n tags =>
    rw [hn] at htags hpaired
    refine ⟨hop.key, ⟨hrunning.1, hrunning.2.1⟩, hop.use, ?_, ?_, hop.measures, hop.returned,
      hop.latched, fun _ _ => ⟨n, rfl⟩, ?_, Judged.of_ne hrunning.2.2⟩
    · intro z hz
      simp only [Function.update_self] at hz
      exact hop.values z (by simp [hq, hz])
    · simpa using htags
    · simpa [System.unjudged, System.measuring, hawaits, hvalue] using hpaired

lemma opened_switchRecv (h : Paired s) (hop : Opened k s) {pc : Pc} {opened : Bool} {d : Driver w}
    {y : Reply w} (hs : s.app.pc.awaits = false) (hpc : pc = .measure ∨ pc = .openMeasure)
    (hcall : libCall opened s.driver .switchRecv s.app.key = .ok (d, y)) :
    Paired ⟨d, s.app.resume .switchRecv y.ret pc, s.ghost.received .switchRecv y.effect⟩ := by
  obtain ⟨_, rfl, rfl⟩ | ⟨_, y', hd, rfl⟩ := libCall_cases hcall
  · exact ⟨h.pressed, h.sensed, Or.inr ⟨k, hop.lacksPress hs hpc⟩⟩
  · obtain ⟨j, hj, ⟨_, rfl, rfl⟩ | ⟨x, rest, hq, rfl, rfl⟩⟩ := recv_cases hd
    · exact ⟨h.pressed, h.sensed, Or.inr ⟨k, hop.lacksPress hs hpc⟩⟩
    · obtain rfl := Except.ok.inj (hop.key.symm.trans hj)
      have hswitch : s.driver.switchQueue k = x :: rest := hq
      have hvalue : 0 ≤ x.value := hop.values x (by simp [hswitch])
      have htakes := hop.takesPress hs hpc hswitch
      rw [← ioctlReturn_of_nonneg hvalue] at htakes
      exact ⟨h.pressed, h.sensed, Or.inr ⟨k, htakes⟩⟩

lemma Opened.lacksMeasure (hop : Opened k s) {pc : Pc} (hret : s.app.ret < 0)
    (hpc : pc = .judge ∨ pc = .openTest) :
    Opened k ⟨s.driver, { s.app with distance := -1, pc := pc },
      { s.ghost with distanceTag := none }⟩ := by
  have hrunning : pc ≠ .closing ∧ pc ≠ .getting ∧ pc.awaits = false := by
    obtain rfl | rfl := hpc <;> simp [Pc.awaits]
  refine ⟨hop.key, ⟨hrunning.1, hrunning.2.1⟩, hop.use, hop.values, hop.tags, hop.measures,
    hop.returned, hop.latched, by simp [hrunning.2.2], ?_, fun _ hnonneg => ?_⟩
  · have hpaired := hop.paired
    simpa [System.unjudged, System.measuring, hrunning.2.2, not_le.mpr hret] using hpaired
  · exact absurd hnonneg (not_le.mpr hret)

lemma Opened.takesMeasure (hop : Opened k s) {pc : Pc} {x : Data w} {rest : List (Data w)}
    (hs : s.app.pc.awaits = true) (hret : 0 ≤ s.app.ret) (hpc : pc = .judge ∨ pc = .openTest)
    (hq : s.driver.ultrasonicQueue k = x :: rest) :
    Opened k ⟨{ s.driver with ultrasonicQueue := Function.update s.driver.ultrasonicQueue k rest },
      { s.app with distance := ioctlReturn x.value, pc := pc },
      { s.ghost with
        distanceTag := s.ghost.ultrasonicTags.head?
        ultrasonicTags := s.ghost.ultrasonicTags.tail }⟩ := by
  have hrunning : pc ≠ .closing ∧ pc ≠ .getting ∧ pc.awaits = false := by
    obtain rfl | rfl := hpc <;> simp [Pc.awaits]
  obtain ⟨n, hn⟩ := hop.held hs hret
  have hpaired := hop.paired
  have hmeasures := hop.measures
  have hreturned := hop.returned
  rw [hq] at hmeasures
  cases hm : s.ghost.ultrasonicTags with
  | nil =>
    rw [hm] at hmeasures
    cases hmeasures
  | cons m tags =>
    rw [hm] at hmeasures hreturned
    obtain ⟨hx, hrest⟩ := List.cons.inj hmeasures
    -- the oldest press without a distance is the one that triggered the oldest measurement
    obtain ⟨hnm, htags⟩ : n = m.1 ∧ s.ghost.switchTags = tags.map Prod.fst ++
        (if s.driver.ultrasonicPending then [s.ghost.latched.1] else []) ++
        (if s.driver.echoValidFlag = 3 then [] else [s.ghost.trigger]) := by
      simpa [System.unjudged, System.measuring, hs, hret, hn, hm] using hpaired
    refine ⟨hop.key, ⟨hrunning.1, hrunning.2.1⟩, hop.use, hop.values, hop.tags, ?_, ?_,
      hop.latched, by simp [hrunning.2.2], ?_, fun _ _ _ => ⟨n, hn, ?_⟩⟩
    · simpa using hrest
    · intro z hz
      exact hreturned z (by simp at hz; simp [hz])
    · simpa [System.unjudged, System.measuring, hrunning.2.2] using htags
    · have hvalue : ioctlReturn x.value = m.2 := by
        rw [hx]
        exact hreturned m (by simp)
      simp [hvalue, hnm]

lemma opened_ultrasonicRecv (h : Paired s) (hop : Opened k s) {pc : Pc} {opened : Bool}
    {d : Driver w} {y : Reply w} (hs : s.app.pc.awaits = true) (hpc : pc = .judge ∨ pc = .openTest)
    (hcall : libCall opened s.driver .ultrasonicRecv s.app.key = .ok (d, y))
    (hin : InStep s (.call .ultrasonicRecv opened)) :
    Paired ⟨d, s.app.resume .ultrasonicRecv y.ret pc,
      s.ghost.received .ultrasonicRecv y.effect⟩ := by
  obtain ⟨hopened, rfl, rfl⟩ | ⟨hopened, y', hd, rfl⟩ := libCall_cases hcall
  · have hret : s.app.ret < 0 := by
      by_contra hnonneg
      have hfound := hin.mp (not_lt.mp hnonneg)
      rw [hopened] at hfound
      cases hfound.1
    exact ⟨h.pressed, h.sensed, Or.inr ⟨k, hop.lacksMeasure hret hpc⟩⟩
  · obtain ⟨j, hj, ⟨hq, rfl, rfl⟩ | ⟨x, rest, hq, rfl, rfl⟩⟩ := recv_cases hd
    · have hret : s.app.ret < 0 := by
        by_contra hnonneg
        obtain ⟨_, i, hi, hne⟩ := hin.mp (not_lt.mp hnonneg)
        obtain rfl := Except.ok.inj (hi.symm.trans hj)
        exact hne hq
      exact ⟨h.pressed, h.sensed, Or.inr ⟨k, hop.lacksMeasure hret hpc⟩⟩
    · obtain rfl := Except.ok.inj (hop.key.symm.trans hj)
      have hultrasonic : s.driver.ultrasonicQueue k = x :: rest := hq
      have hret : 0 ≤ s.app.ret := hin.mpr ⟨hopened, k, hop.key, by rw [hultrasonic]; simp⟩
      exact ⟨h.pressed, h.sensed, Or.inr ⟨k, hop.takesMeasure hs hret hpc hultrasonic⟩⟩

lemma paired_call (h : Paired s) {cmd : Command} {pc : Pc} {opened : Bool} {d : Driver w}
    {y : Reply w} (hpc : s.app.pc.call = some (cmd, pc))
    (hcall : libCall opened s.driver cmd s.app.key = .ok (d, y))
    (hin : InStep s (.call cmd opened)) :
    Paired ⟨d, s.app.resume cmd y.ret pc, s.ghost.received cmd y.effect⟩ := by
  obtain hun | ⟨k, hop⟩ := h.queue
  · cases hs : s.app.pc with
    | getting =>
      rw [hs] at hpc
      cases hpc
      exact unopened_get h hun hcall hin
    | measure =>
      rw [hs] at hpc
      cases hpc
      obtain ⟨rfl, rfl⟩ := unopened_call hun (by simp) hcall
      have hret := hun.lacking (Or.inl hs)
      exact ⟨h.pressed, h.sensed, Or.inl ⟨hun.closed, hun.empty, hun.tags, fun _ => hret⟩⟩
    | closing | recv | openRecv | openMeasure =>
      rw [hs] at hpc
      cases hpc
      obtain ⟨rfl, rfl⟩ := unopened_call hun (by simp) hcall
      exact ⟨h.pressed, h.sensed, Or.inl ⟨hun.closed, hun.empty, hun.tags, by simp [App.resume]⟩⟩
    | outer | judge | verdict | openTest =>
      rw [hs] at hpc
      cases hpc
  · cases hs : s.app.pc with
    | closing => exact absurd hs hop.running.1
    | getting => exact absurd hs hop.running.2
    | recv =>
      rw [hs] at hpc
      cases hpc
      exact opened_switchRecv h hop (by rw [hs]; rfl) (Or.inl rfl) hcall
    | measure =>
      rw [hs] at hpc
      cases hpc
      exact opened_ultrasonicRecv h hop (by rw [hs]; rfl) (Or.inl rfl) hcall hin
    | openRecv =>
      rw [hs] at hpc
      cases hpc
      exact opened_switchRecv h hop (by rw [hs]; rfl) (Or.inr rfl) hcall
    | openMeasure =>
      rw [hs] at hpc
      cases hpc
      exact opened_ultrasonicRecv h hop (by rw [hs]; rfl) (Or.inr rfl) hcall hin
    | outer | judge | verdict | openTest =>
      rw [hs] at hpc
      cases hpc

lemma paired_step {m : Move w} (h : Paired s) (hs : Step s m t) (hin : InStep s m) : Paired t := by
  cases hs with
  | call hpc hcall => exact paired_call h hpc hcall hin
  | start hpc => exact paired_start h hpc
  | judge hpc ha => exact paired_judge h hpc ha
  | verdict hpc => exact paired_verdict h hpc
  | openTest hpc => exact paired_openTest h hpc
  | button b jiffies => exact paired_button h b jiffies
  | echo tmpTime level jiffies => exact paired_echo h tmpTime level jiffies hin
  | switchTasklet _ hf => exact paired_switchTasklet h hf hin
  | ultrasonicTasklet hpending hf => exact paired_ultrasonicTasklet h hpending hf

lemma paired_init (key : ℤ) : Paired (System.init key : System w) := by
  refine ⟨le_rfl, by simp [System.init, Driver.init], Or.inl ⟨fun _ => rfl, ?_, ⟨rfl, rfl⟩, ?_⟩⟩
  · intro d i
    cases d <;> rfl
  · simp [System.init, App.init]

lemma Paired.judged (h : Paired s) : s.Judged := by
  obtain hun | ⟨k, hop⟩ := h.queue
  · intro hpc hret _
    exact absurd hret (not_le.mpr (hun.lacking (Or.inr hpc)))
  · exact hop.judged

end Invariant

theorem press_judged_with_own_distance {key : ℤ} {ms : List (Move w)} {s : System w}
    (h : Run (Guarded Step InStep) (.init key) ms s) : s.Judged :=
  (h.invariant (I := Paired) (fun _ _ _ hp he => paired_step hp he.1 he.2)
    (paired_init key)).judged

section Instances

theorem press_judged_with_own_distance_one :
    ∃ s : System 32, s.app.pc = .judge ∧ s.app.ret = 1 ∧ s.app.distance = 17 ∧ s.Judged := by
  obtain ⟨s, hrun, hpc, hret, hdistance⟩ : ∃ s : System 32,
      Run (Guarded Step InStep) (.init 0) [.call .queueClose true, .call .queueGet true, .start,
        .button .switch1 100, .switchTasklet (fun _ => true), .echo 5000 true 100,
        .echo 1005000 false 101, .ultrasonicTasklet (fun _ => true), .call .switchRecv true,
        .call .ultrasonicRecv true] s ∧ s.app.pc = .judge ∧ s.app.ret = 1 ∧
      s.app.distance = 17 := by
    refine ⟨_, .cons ⟨.call rfl rfl, trivial⟩ (.cons ⟨.call rfl rfl, fun _ => ⟨rfl, rfl⟩⟩
      (.cons ⟨.start rfl, trivial⟩ (.cons ⟨.button .switch1 100, trivial⟩
      (.cons ⟨.switchTasklet rfl rfl, fun _ _ => rfl⟩ (.cons ⟨.echo 5000 true 100, ?_⟩
      (.cons ⟨.echo 1005000 false 101, fun _ _ => ⟨rfl, rfl⟩⟩
      (.cons ⟨.ultrasonicTasklet rfl rfl, trivial⟩ (.cons ⟨.call rfl rfl, trivial⟩
      (.cons ⟨.call rfl rfl, ?_⟩ .nil))))))))), rfl, rfl, rfl⟩
    · intro _ hends
      cases hends
    · exact iff_of_true (by decide : (0 : ℤ) ≤ 1) ⟨rfl, 0, rfl, List.cons_ne_nil _ _⟩
  exact ⟨s, hpc, hret, hdistance, press_judged_with_own_distance hrun⟩

theorem press_judged_without_distance :
    ¬ ∀ (ms : List (Move 32)) (s : System 32), Run Step (.init 0) ms s → s.Judged := by
  intro h
  obtain ⟨s, hrun, hpc, hret, hcount, htag⟩ : ∃ s : System 32,
      Run Step (.init 0) [.call .queueClose true, .call .queueGet true, .start,
        .button .switch1 100, .switchTasklet (fun _ => true), .call .switchRecv true,
        .call .ultrasonicRecv true] s ∧ s.app.pc = .judge ∧ 0 ≤ s.app.ret ∧ s.app.count < 5 ∧
      s.ghost.distanceTag = none := by
    refine ⟨_, .cons (.call rfl rfl) (.cons (.call rfl rfl) (.cons (.start rfl)
      (.cons (.button .switch1 100) (.cons (.switchTasklet rfl rfl) (.cons (.call rfl rfl)
      (.cons (.call rfl rfl) .nil)))))), rfl, ?_, ?_, rfl⟩
    · exact (by decide : (0 : ℤ) ≤ 1)
    · exact (by decide : (0 : ℤ) < 5)
  obtain ⟨n, _, hn⟩ := h _ s hrun hpc hret hcount
  rw [htag] at hn
  cases hn

end Instances

end EmbeddedSystem.Coffer
