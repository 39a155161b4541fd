import EmbeddedSystem.Coffer.System
import EmbeddedSystem.Foundations.Runs
import EmbeddedSystem.StepMotor.Rotor

/-! The loop of `coffer_app.c` with the calls of its devices one by one. The switch calls may return
any values; the speaker makes no half-step. -/

namespace EmbeddedSystem.Coffer

open Kernel Foundations

/-- The state of the process: the device calls still to be made before the loop goes on, and the
position of the rotor. -/
structure Loop where
  app : App
  calls : List DeviceCall
  rotor : ℤ

inductive LoopMove
  | call (cmd : Switch.Command) (ret : ℤ)
  | start | judge | verdict | openTest
  | device (c : DeviceCall) (opened : Bool)
  deriving DecidableEq

def Loop.init (key : ℤ) : Loop := ⟨.init key, [], 0⟩

def DeviceCall.motor : DeviceCall → Option StepMotor.Command
  | .stepMotorOpen => some .motorOpen
  | .stepMotorClose => some .motorClose
  | .speakerCorrect | .speakerIncorrect => none

def deviceLib (opened : Bool) (c : DeviceCall) : Except Fault (List StepMotor.Coils × ℤ) :=
  if opened then
    match c.motor with
    | some cmd => StepMotor.stepMotorIoctl cmd
    | none => return ([], 0)
  else
    return ([], -1)

inductive LoopStep (s : Loop) : LoopMove → Loop → Prop
  | call {cmd : Switch.Command} {pc : Pc} {ret : ℤ} :
      s.calls = [] → s.app.pc.call = some (cmd, pc) →
      LoopStep s (.call cmd ret) { s with app := s.app.resume cmd ret pc }
  | start : s.calls = [] → s.app.pc = .outer → LoopStep s .start { s with app := s.app.start }
  | judge {a : App} :
      s.calls = [] → s.app.pc = .judge → s.app.judge = .ok a → LoopStep s .judge { s with app := a }
  | verdict :
      s.calls = [] → s.app.pc = .verdict →
      LoopStep s .verdict { s with app := s.app.verdict.1, calls := s.app.verdict.2 }
  | openTest :
      s.calls = [] → s.app.pc = .openTest →
      LoopStep s .openTest { s with app := s.app.openTest.1, calls := s.app.openTest.2 }
  | device {c : DeviceCall} {calls : List DeviceCall} {opened : Bool}
      {trace : List StepMotor.Coils} {ret : ℤ} :
      s.calls = c :: calls → deviceLib opened c = .ok (trace, ret) →
      LoopStep s (.device c opened)
        { s with calls := calls, rotor := StepMotor.rotate s.rotor trace }

def Succeeds (_ : Loop) : LoopMove → Prop
  | .device _ opened => opened = true
  | _ => True

section Histories

def LoopMove.motor : LoopMove → Option StepMotor.Command
  | .device c true => c.motor
  | _ => none

def motor (ls : List LoopMove) : List StepMotor.Command := ls.filterMap LoopMove.motor

def alternation (n : ℕ) : List StepMotor.Command :=
  (List.range n).map fun i => if i % 2 = 0 then .motorOpen else .motorClose

/-- The last switch value, and the values popped since the last `start` with their distances. -/
structure Round where
  value : ℤ
  popped : List (ℤ × ℤ)

def Round.after (r : Round) : LoopMove → Round
  | .start => ⟨r.value, []⟩
  | .call .switchRecv v => ⟨v, r.popped⟩
  | .call .ultrasonicRecv d => if r.value < 0 then r else ⟨r.value, r.popped ++ [(r.value, d)]⟩
  | _ => r

def round (ls : List LoopMove) : Round := ls.foldl Round.after ⟨0, []⟩

def digit (x : ℤ × ℤ) : ℤ × ℤ := (x.1, if x.2 ≥ 15 then 1 else 0)

def Unlocks (popped : List (ℤ × ℤ)) : Prop :=
  ∀ i : Fin 5, ∃ x, popped[i.val]? = some x ∧ digit x = myPassword i

lemma motor_snoc (ls : List LoopMove) (m : LoopMove) : motor (ls ++ [m]) = motor ls ++ motor [m] :=
  List.filterMap_append ..

lemma round_snoc (ls : List LoopMove) (m : LoopMove) : round (ls ++ [m]) = (round ls).after m := by
  rw [round, List.foldl_append]
  rfl

lemma alternation_succ (n : ℕ) : alternation (n + 1) =
    alternation n ++ [if n % 2 = 0 then .motorOpen else .motorClose] := by
  rw [alternation, List.range_succ, List.map_append]
  rfl

end Histories

section Rounds

variable {a b : App} {judged : List (ℤ × ℤ)}

def Agrees (judged : List (ℤ × ℤ)) : Prop :=
  ∀ i : Fin 5, ∀ x ∈ judged[i.val]?, digit x = myPassword i

structure Counted (a : App) (judged : List (ℤ × ℤ)) : Prop where
  flag : a.flag = 0
  count : a.count = judged.length
  bound : judged.length ≤ 5
  incorrect : a.incorrect = 0 ↔ Agrees judged

lemma agrees_snoc {x : ℤ × ℤ} {k : Fin 5} (hk : k.val = judged.length) :
    Agrees (judged ++ [x]) ↔ Agrees judged ∧ digit x = myPassword k := by
  constructor
  · intro h
    refine ⟨?_, ?_⟩
    · intro i y hy
      apply h i y
      exact List.getElem?_append_left (List.getElem?_eq_some_iff.mp hy).1 ▸ hy
    · apply h k x
      rw [hk, List.getElem?_concat_length]
      rfl
  · rintro ⟨hjudged, hx⟩ i y hy
    obtain hi | hi | hi := lt_trichotomy i.val judged.length
    · rw [List.getElem?_append_left hi] at hy
      exact hjudged i y hy
    · obtain rfl : i = k := Fin.ext (hi.trans hk.symm)
      rw [hi, List.getElem?_concat_length] at hy
      cases hy
      exact hx
    · rw [List.getElem?_eq_none (by simp; omega)] at hy
      cases hy

lemma Counted.unlocks {popped : List (ℤ × ℤ)} (h : Counted a judged) (hp : judged <+: popped)
    (hincorrect : a.incorrect = 0) (hcount : a.count = 5) : Unlocks popped := by
  obtain ⟨rest, rfl⟩ := hp
  intro i
  have hlen : i.val < judged.length := by
    have := h.count
    omega
  refine ⟨judged[i.val], ?_, ?_⟩
  · rw [List.getElem?_append_left hlen, List.getElem?_eq_getElem hlen]
  · apply h.incorrect.mp hincorrect i
    rw [List.getElem?_eq_getElem hlen]
    rfl

lemma judge_cases (h : a.judge = .ok b) :
    (a.ret < 0 ∨ a.count ≥ 5) ∧ b = { a with pc := .verdict } ∨
      ¬(a.ret < 0 ∨ a.count ≥ 5) ∧ ∃ k, arrayIndex 5 a.count = .ok k ∧ b = { a with
        distance := if a.distance ≥ 15 then 1 else 0
        incorrect := if digit (a.ret, a.distance) = myPassword k then a.incorrect else 1
        count := a.count + 1
        pc := .recv } := by
  rw [App.judge] at h
  split at h
  · next hbreak =>
    cases h
    exact Or.inl ⟨hbreak, rfl⟩
  · next hbreak =>
    obtain ⟨k, hk, h⟩ := bind_ok.mp h
    cases h
    refine Or.inr ⟨hbreak, k, hk, ?_⟩
    have hdigit : ((myPassword k).1 ≠ a.ret ∨ (myPassword k).2 ≠ if a.distance ≥ 15 then 1 else 0) ↔
        ¬ digit (a.ret, a.distance) = myPassword k := by
      rw [digit, Prod.ext_iff, not_and_or]
      exact or_congr ne_comm ne_comm
    simp only [hdigit, ite_not]

lemma Counted.judge_ok (h : Counted a judged) : ∃ b, a.judge = .ok b := by
  rw [App.judge]
  split
  · exact ⟨_, rfl⟩
  · next hbreak =>
    have hcount := h.count
    obtain ⟨k, hk⟩ := exists_arrayIndex (n := 5) (i := a.count) (by push_cast; omega)
    rw [hk]
    exact ⟨_, rfl⟩

lemma Counted.compare (h : Counted a judged) {k : Fin 5} (hk : arrayIndex 5 a.count = .ok k)
    (hbreak : ¬(a.ret < 0 ∨ a.count ≥ 5)) : Counted { a with
      distance := if a.distance ≥ 15 then 1 else 0
      incorrect := if digit (a.ret, a.distance) = myPassword k then a.incorrect else 1
      count := a.count + 1
      pc := .recv } (judged ++ [(a.ret, a.distance)]) := by
  have hcount := h.count
  have hval := arrayIndex_val hk
  refine ⟨h.flag, ?_, ?_, ?_⟩
  · simp [hcount]
  · simp only [List.length_append, List.length_singleton]
    omega
  · have hlen : k.val = judged.length := by omega
    rw [agrees_snoc hlen, ← h.incorrect]
    split
    · next hdigit => simp [hdigit]
    · next hdigit => simp [hdigit]

end Rounds

section Coordination

variable {s t : Loop} {m : LoopMove} {ls : List LoopMove} {key : ℤ}

def OpenAfter (key : ℤ) (ls : List LoopMove) : Prop :=
  ∃ s, Run (Guarded LoopStep Succeeds) (.init key) ls s ∧ s.app.flag = 1 ∧ s.app.pc = .openRecv

def InPhase (key : ℤ) (ls : List LoopMove) (a : App) : Prop :=
  match a.pc with
  | .closing | .getting | .outer => True
  | .recv => Counted a (round ls).popped
  | .measure => Counted a (round ls).popped ∧ (round ls).value = a.ret
  | .judge => ∃ judged, Counted a judged ∧
      (round ls).popped = judged ++ if a.ret < 0 then [] else [(a.ret, a.distance)]
  | .verdict => ∃ judged, Counted a judged ∧ judged <+: (round ls).popped
  | .openRecv => a.flag = 1
  | .openMeasure => a.flag = 1 ∧ ∃ js, OpenAfter key js ∧ ls = js ++ [.call .switchRecv a.ret]
  | .openTest => a.flag = 1 ∧ ∃ js d, OpenAfter key js ∧
      ls = js ++ [.call .switchRecv a.ret, .call .ultrasonicRecv d]

def Pending (key : ℤ) (ls : List LoopMove) : List DeviceCall → Prop
  | [] => True
  | [.speakerIncorrect] => True
  | [.speakerCorrect, .stepMotorOpen] =>
      ∃ js, ls = js ++ [.verdict] ∧ Unlocks (round js).popped
  | [.stepMotorOpen] =>
      ∃ js, ls = js ++ [.verdict, .device .speakerCorrect true] ∧ Unlocks (round js).popped
  | [.stepMotorClose] => ∃ js v d, OpenAfter key js ∧ 0 < v ∧
      ls = js ++ [.call .switchRecv v, .call .ultrasonicRecv d, .openTest]
  | _ => False

def issued (ls : List LoopMove) (s : Loop) : List StepMotor.Command :=
  motor ls ++ s.calls.filterMap DeviceCall.motor

structure Coordinated (key : ℤ) (ls : List LoopMove) (s : Loop) : Prop where
  run : Run (Guarded LoopStep Succeeds) (.init key) ls s
  phase : InPhase key ls s.app
  pending : Pending key ls s.calls
  waits : s.calls ≠ [] → s.app.pc = .outer
  alternates : issued ls s = alternation (issued ls s).length
  flag : s.app.flag = ((issued ls s).length % 2 : ℕ)
  rotor : s.rotor = if (motor ls).length % 2 = 0 then 0 else 1023

lemma Coordinated.local (h : Coordinated key ls s) {a : App} (hcalls : s.calls = [])
    (hrun : Run (Guarded LoopStep Succeeds) (.init key) (ls ++ [m]) { s with app := a })
    (hm : motor [m] = []) (hflag : a.flag = s.app.flag) (hphase : InPhase key (ls ++ [m]) a) :
    Coordinated key (ls ++ [m]) { s with app := a } := by
  have hmotor : motor (ls ++ [m]) = motor ls := by rw [motor_snoc, hm, List.append_nil]
  have hissued : issued (ls ++ [m]) { s with app := a } = issued ls s := by
    rw [issued, issued, hmotor]
  refine ⟨hrun, hphase, ?_, ?_, ?_, ?_, ?_⟩
  · simp only [hcalls]
    trivial
  · exact fun hne => absurd hcalls hne
  · rw [hissued]
    exact h.alternates
  · rw [hissued]
    exact hflag.trans h.flag
  · rw [hmotor]
    exact h.rotor

lemma Coordinated.call (h : Coordinated key ls s) {cmd : Switch.Command} {pc : Pc} {ret : ℤ}
    (hcalls : s.calls = []) (hpc : s.app.pc.call = some (cmd, pc))
    (hrun : Run (Guarded LoopStep Succeeds) (.init key) (ls ++ [.call cmd ret])
      { s with app := s.app.resume cmd ret pc }) :
    Coordinated key (ls ++ [.call cmd ret]) { s with app := s.app.resume cmd ret pc } := by
  have hphase := h.phase
  rw [InPhase] at hphase
  refine h.local hcalls hrun rfl (by cases cmd <;> rfl) ?_
  cases hat : s.app.pc with
  | closing | getting =>
    rw [hat] at hpc
    cases hpc
    trivial
  | recv =>
    rw [hat] at hpc hphase
    cases hpc
    refine ⟨?_, ?_⟩
    · rw [round_snoc]
      exact ⟨hphase.flag, hphase.count, hphase.bound, hphase.incorrect⟩
    · rw [round_snoc]
      rfl
  | measure =>
    rw [hat] at hpc hphase
    cases hpc
    obtain ⟨hcounted, hvalue⟩ := hphase
    refine ⟨(round ls).popped, ?_, ?_⟩
    · exact ⟨hcounted.flag, hcounted.count, hcounted.bound, hcounted.incorrect⟩
    · rw [round_snoc, Round.after, hvalue]
      split
      · next hempty =>
        have hempty' : (s.app.resume .ultrasonicRecv ret .judge).ret < 0 := hempty
        rw [if_pos hempty']
        exact (List.append_nil _).symm
      · next hpopped =>
        have hpopped' : ¬ (s.app.resume .ultrasonicRecv ret .judge).ret < 0 := hpopped
        rw [if_neg hpopped']
        rfl
  | openRecv =>
    rw [hat] at hpc hphase
    cases hpc
    exact ⟨hphase, ls, ⟨s, h.run, hphase, hat⟩, rfl⟩
  | openMeasure =>
    rw [hat] at hpc hphase
    cases hpc
    obtain ⟨hflag, js, hopen, hls⟩ := hphase
    refine ⟨hflag, js, ret, hopen, ?_⟩
    rw [hls, List.append_assoc]
    rfl
  | outer | judge | verdict | openTest =>
    rw [hat] at hpc
    cases hpc

lemma Coordinated.start (h : Coordinated key ls s) (hcalls : s.calls = [])
    (hrun : Run (Guarded LoopStep Succeeds) (.init key) (ls ++ [.start])
      { s with app := s.app.start }) :
    Coordinated key (ls ++ [.start]) { s with app := s.app.start } := by
  refine h.local hcalls hrun rfl ?_ ?_
  · rw [App.start]
    split <;> rfl
  · rw [App.start]
    split
    · next hflag =>
      refine ⟨hflag, ?_, ?_, ?_⟩
      · rw [round_snoc]
        rfl
      · rw [round_snoc]
        exact Nat.zero_le 5
      · refine iff_of_true rfl ?_
        rw [round_snoc]
        rintro i x ⟨⟩
    · next hflag =>
      have hparity := h.flag
      have hone : s.app.flag = 1 := by omega
      exact hone

lemma Coordinated.judge (h : Coordinated key ls s) {a : App} (hcalls : s.calls = [])
    (hpc : s.app.pc = .judge) (ha : s.app.judge = .ok a)
    (hrun : Run (Guarded LoopStep Succeeds) (.init key) (ls ++ [.judge]) { s with app := a }) :
    Coordinated key (ls ++ [.judge]) { s with app := a } := by
  have hphase := h.phase
  rw [InPhase, hpc] at hphase
  obtain ⟨judged, hcounted, hpopped⟩ := hphase
  obtain ⟨_, rfl⟩ | ⟨hbreak, k, hk, rfl⟩ := judge_cases ha
  · refine h.local hcalls hrun rfl rfl ⟨judged, ?_, ?_⟩
    · exact ⟨hcounted.flag, hcounted.count, hcounted.bound, hcounted.incorrect⟩
    · rw [round_snoc]
      exact ⟨_, hpopped.symm⟩
  · refine h.local hcalls hrun rfl rfl ?_
    have hret : ¬ s.app.ret < 0 := fun hret => hbreak (Or.inl hret)
    rw [if_neg hret] at hpopped
    have hnext := hcounted.compare hk hbreak
    rw [← hpopped] at hnext
    rw [InPhase, round_snoc]
    exact hnext

lemma Coordinated.issue (h : Coordinated key ls s) {a : App} {calls : List DeviceCall}
    (hcalls : s.calls = []) (hm : motor [m] = [])
    (hrun : Run (Guarded LoopStep Succeeds) (.init key) (ls ++ [m]) ⟨a, calls, s.rotor⟩)
    (hphase : InPhase key (ls ++ [m]) a) (hpending : Pending key (ls ++ [m]) calls)
    (hpc : calls ≠ [] → a.pc = .outer)
    (hflag : calls.filterMap DeviceCall.motor = [] ∧ a.flag = s.app.flag ∨
      calls.filterMap DeviceCall.motor = [.motorOpen] ∧ s.app.flag = 0 ∧ a.flag = 1 ∨
      calls.filterMap DeviceCall.motor = [.motorClose] ∧ s.app.flag = 1 ∧ a.flag = 0) :
    Coordinated key (ls ++ [m]) ⟨a, calls, s.rotor⟩ := by
  have hmotor : motor (ls ++ [m]) = motor ls := by rw [motor_snoc, hm, List.append_nil]
  have hbefore : issued ls s = motor ls := by
    rw [issued, hcalls]
    exact List.append_nil _
  have halternates := h.alternates
  have hparity := h.flag
  rw [hbefore] at halternates hparity
  have hissued : issued (ls ++ [m]) ⟨a, calls, s.rotor⟩ =
      motor ls ++ calls.filterMap DeviceCall.motor := by
    rw [issued, hmotor]
  refine ⟨hrun, hphase, hpending, hpc, ?_, ?_, ?_⟩
  · rw [hissued]
    obtain ⟨hnone, _⟩ | ⟨hone, hold, _⟩ | ⟨hone, hold, _⟩ := hflag
    · rw [hnone, List.append_nil]
      exact halternates
    · have heven : (motor ls).length % 2 = 0 := by omega
      rw [hone, List.length_append, List.length_singleton, alternation_succ, if_pos heven,
        ← halternates]
    · have hodd : ¬ (motor ls).length % 2 = 0 := by omega
      rw [hone, List.length_append, List.length_singleton, alternation_succ, if_neg hodd,
        ← halternates]
  · rw [hissued, List.length_append]
    obtain ⟨hnone, hsame⟩ | ⟨hone, hold, hnew⟩ | ⟨hone, hold, hnew⟩ := hflag
    · rw [hnone, hsame]
      exact hparity
    · rw [hone, List.length_singleton]
      simp only
      omega
    · rw [hone, List.length_singleton]
      simp only
      omega
  · rw [hmotor]
    exact h.rotor

lemma Coordinated.verdict (h : Coordinated key ls s) (hcalls : s.calls = [])
    (hpc : s.app.pc = .verdict)
    (hrun : Run (Guarded LoopStep Succeeds) (.init key) (ls ++ [.verdict])
      { s with app := s.app.verdict.1, calls := s.app.verdict.2 }) :
    Coordinated key (ls ++ [.verdict])
      { s with app := s.app.verdict.1, calls := s.app.verdict.2 } := by
  have hphase := h.phase
  rw [InPhase, hpc] at hphase
  obtain ⟨judged, hcounted, hpopped⟩ := hphase
  apply h.issue hcalls rfl hrun
  · rw [App.verdict]
    split_ifs <;> trivial
  · rw [App.verdict]
    split_ifs with hopen
    · exact ⟨ls, rfl, hcounted.unlocks hpopped hopen.1 hopen.2⟩
    · trivial
    · trivial
  · rw [App.verdict]
    split_ifs <;> exact fun _ => rfl
  · rw [App.verdict]
    split_ifs
    · exact Or.inr (Or.inl ⟨rfl, hcounted.flag, rfl⟩)
    · exact Or.inl ⟨rfl, rfl⟩
    · exact Or.inl ⟨rfl, rfl⟩

lemma Coordinated.openTest (h : Coordinated key ls s) (hcalls : s.calls = [])
    (hpc : s.app.pc = .openTest)
    (hrun : Run (Guarded LoopStep Succeeds) (.init key) (ls ++ [.openTest])
      { s with app := s.app.openTest.1, calls := s.app.openTest.2 }) :
    Coordinated key (ls ++ [.openTest])
      { s with app := s.app.openTest.1, calls := s.app.openTest.2 } := by
  have hphase := h.phase
  rw [InPhase, hpc] at hphase
  obtain ⟨hflag, js, d, hopen, hls⟩ := hphase
  apply h.issue hcalls rfl hrun
  · rw [App.openTest]
    split_ifs
    · trivial
    · exact hflag
  · rw [App.openTest]
    split_ifs with hpress
    · refine ⟨js, s.app.ret, d, hopen, hpress, ?_⟩
      rw [hls, List.append_assoc]
      rfl
    · trivial
  · rw [App.openTest]
    split_ifs
    · exact fun _ => rfl
    · exact fun hne => absurd rfl hne
  · rw [App.openTest]
    split_ifs
    · exact Or.inr (Or.inr ⟨rfl, hflag, rfl⟩)
    · exact Or.inl ⟨rfl, rfl⟩

lemma alternation_next {xs ys : List StepMotor.Command} {cmd : StepMotor.Command} {n : ℕ}
    (h : xs ++ cmd :: ys = alternation n) :
    cmd = if xs.length % 2 = 0 then .motorOpen else .motorClose := by
  have hget : (alternation n)[xs.length]? = some cmd := by
    rw [← h, List.getElem?_append_right le_rfl, Nat.sub_self]
    rfl
  have hlen : xs.length < n := by
    have := congrArg List.length h
    simp only [List.length_append, List.length_cons, alternation, List.length_map,
      List.length_range] at this
    omega
  rw [alternation, List.getElem?_map, List.getElem?_range hlen] at hget
  exact (Option.some.inj hget).symm

lemma alternation_prefix {xs ys : List StepMotor.Command} {n : ℕ} (h : xs ++ ys = alternation n) :
    xs = alternation xs.length := by
  have hlen := congrArg List.length h
  simp only [List.length_append, alternation, List.length_map, List.length_range] at hlen
  have htake : xs = (alternation n).take xs.length := by
    rw [← h, List.take_left]
  rw [alternation, ← List.map_take, List.take_range, Nat.min_eq_left (by omega)] at htake
  exact htake

lemma rotate_device {ms : List StepMotor.Command} {rest : List StepMotor.Command} {n : ℕ}
    {c : DeviceCall} {trace : List StepMotor.Coils} {ret p : ℤ}
    (halternates : ms ++ (c.motor.toList ++ rest) = alternation n)
    (hc : deviceLib true c = .ok (trace, ret)) (hp : p = if ms.length % 2 = 0 then 0 else 1023) :
    StepMotor.rotate p trace = if (ms ++ c.motor.toList).length % 2 = 0 then 0 else 1023 := by
  rw [deviceLib, if_pos rfl] at hc
  cases hm : c.motor with
  | none =>
    rw [hm] at hc
    cases hc
    simp only [Option.toList_none, List.append_nil]
    exact hp
  | some cmd =>
    rw [hm] at hc halternates
    have hcmd := alternation_next halternates
    simp only [Option.toList_some, List.length_append, List.length_singleton]
    by_cases heven : ms.length % 2 = 0
    · rw [if_pos heven] at hcmd hp
      obtain ⟨trace', htrace, hrotate⟩ := (StepMotor.rotate_command 0).1 p (Or.inl hp)
      have hodd : ¬ (ms.length + 1) % 2 = 0 := by omega
      rw [hcmd] at hc
      cases htrace.symm.trans hc
      rw [if_neg hodd]
      exact hrotate
    · rw [if_neg heven] at hcmd hp
      obtain ⟨trace', htrace, hrotate⟩ := (StepMotor.rotate_command 0).2 p (Or.inl hp)
      have heven' : (ms.length + 1) % 2 = 0 := by omega
      rw [hcmd] at hc
      cases htrace.symm.trans hc
      rw [if_pos heven']
      exact hrotate

lemma Coordinated.device (h : Coordinated key ls s) {c : DeviceCall} {calls : List DeviceCall}
    {trace : List StepMotor.Coils} {ret : ℤ} (hcalls : s.calls = c :: calls)
    (hc : deviceLib true c = .ok (trace, ret))
    (hrun : Run (Guarded LoopStep Succeeds) (.init key) (ls ++ [.device c true])
      { s with calls := calls, rotor := StepMotor.rotate s.rotor trace }) :
    Coordinated key (ls ++ [.device c true])
      { s with calls := calls, rotor := StepMotor.rotate s.rotor trace } := by
  have hmotor : motor (ls ++ [.device c true]) = motor ls ++ c.motor.toList := by
    rw [motor_snoc]
    cases c <;> rfl
  have hsplit : s.calls.filterMap DeviceCall.motor =
      c.motor.toList ++ calls.filterMap DeviceCall.motor := by
    rw [hcalls]
    cases c <;> rfl
  have hissued : issued (ls ++ [.device c true])
      { s with calls := calls, rotor := StepMotor.rotate s.rotor trace } = issued ls s := by
    rw [issued, issued, hmotor, hsplit, List.append_assoc]
  have hpc : s.app.pc = .outer := h.waits (by rw [hcalls]; exact List.cons_ne_nil _ _)
  have halternates := h.alternates
  refine ⟨hrun, ?_, ?_, fun _ => hpc, ?_, ?_, ?_⟩
  · rw [InPhase, hpc]
    trivial
  · have hpending := h.pending
    rw [hcalls] at hpending
    cases c with
    | speakerCorrect =>
      match calls, hpending with
      | [.stepMotorOpen], ⟨js, hls, hunlocks⟩ =>
        refine ⟨js, ?_, hunlocks⟩
        rw [hls, List.append_assoc]
        rfl
    | stepMotorOpen =>
      match calls, hpending with
      | [], _ => trivial
    | speakerIncorrect =>
      match calls, hpending with
      | [], _ => trivial
    | stepMotorClose =>
      match calls, hpending with
      | [], _ => trivial
  · rw [hissued]
    exact halternates
  · rw [hissued]
    exact h.flag
  · rw [hmotor]
    rw [issued, hsplit] at halternates
    exact rotate_device halternates hc h.rotor

lemma coordinated_step (h : Coordinated key ls s) (hs : Guarded LoopStep Succeeds s m t) :
    Coordinated key (ls ++ [m]) t := by
  have hrun := h.run.snoc hs
  obtain ⟨hstep, hsucceeds⟩ := hs
  cases hstep with
  | call hcalls hpc => exact h.call hcalls hpc hrun
  | start hcalls => exact h.start hcalls hrun
  | judge hcalls hpc ha => exact h.judge hcalls hpc ha hrun
  | verdict hcalls hpc => exact h.verdict hcalls hpc hrun
  | openTest hcalls hpc => exact h.openTest hcalls hpc hrun
  | device hcalls hc =>
    obtain rfl := hsucceeds
    exact h.device hcalls hc hrun

lemma coordinated_run (h : Run (Guarded LoopStep Succeeds) (.init key) ls s) :
    Coordinated key ls s := by
  apply h.induct_right (M := Coordinated key)
  · exact ⟨.nil, trivial, trivial, fun hne => absurd rfl hne, rfl, rfl, rfl⟩
  · exact fun _ _ _ _ _ ih hs => coordinated_step ih hs

lemma Coordinated.judge_ok (h : Coordinated key ls s) (hpc : s.app.pc = .judge) :
    ∃ a, s.app.judge = .ok a := by
  have hphase := h.phase
  rw [InPhase, hpc] at hphase
  obtain ⟨judged, hcounted, _⟩ := hphase
  exact hcounted.judge_ok

lemma pending_of_device {c : DeviceCall}
    (h : Run (Guarded LoopStep Succeeds) (.init key) (ls ++ [.device c true]) s) :
    ∃ calls, Pending key ls (c :: calls) := by
  obtain ⟨u, hu, hlast⟩ := h.split
  cases hlast with
  | cons hs _ =>
    cases hs.1 with
    | @device _ calls _ _ _ hcalls _ =>
      have hpending := (coordinated_run hu).pending
      rw [hcalls] at hpending
      exact ⟨calls, hpending⟩

end Coordination

section Results

variable {s : Loop} {ls : List LoopMove} {key : ℤ}

theorem motor_agrees_with_flag (h : Run (Guarded LoopStep Succeeds) (.init key) ls s) :
    motor ls = alternation (motor ls).length ∧
    (∀ ks, ls = ks ++ [.device .stepMotorOpen true] →
      ∃ js, ks = js ++ [.verdict, .device .speakerCorrect true] ∧ Unlocks (round js).popped) ∧
    (∀ ks, ls = ks ++ [.device .stepMotorClose true] →
      ∃ js v d, ks = js ++ [.call .switchRecv v, .call .ultrasonicRecv d, .openTest] ∧ 0 < v ∧
        OpenAfter key js) ∧
    (s.app.pc = .judge → ∃ a, s.app.judge = .ok a) ∧
    (s.app.pc = .outer → s.calls = [] →
      s.app.flag = 1 ∧ s.rotor = 1023 ∨ s.app.flag = 0 ∧ s.rotor = 0) := by
  have hcoordinated := coordinated_run h
  refine ⟨?_, ?_, ?_, ?_, ?_⟩
  · exact alternation_prefix hcoordinated.alternates
  · rintro ks rfl
    obtain ⟨calls, hpending⟩ := pending_of_device h
    match calls, hpending with
    | [], hpending => exact hpending
  · rintro ks rfl
    obtain ⟨calls, hpending⟩ := pending_of_device h
    match calls, hpending with
    | [], ⟨js, v, d, hopen, hv, hks⟩ => exact ⟨js, v, d, hks, hv, hopen⟩
  · exact hcoordinated.judge_ok
  · intro _ hcalls
    have hissued : issued ls s = motor ls := by
      rw [issued, hcalls]
      exact List.append_nil _
    have hflag := hcoordinated.flag
    have hrotor := hcoordinated.rotor
    rw [hissued] at hflag
    obtain heven | hodd := Nat.mod_two_eq_zero_or_one (motor ls).length
    · rw [heven] at hflag hrotor
      exact Or.inr ⟨hflag, hrotor⟩
    · rw [hodd] at hflag hrotor
      exact Or.inl ⟨hflag, hrotor⟩

def entered (v d : ℤ) : List LoopMove :=
  [.call .switchRecv v, .call .ultrasonicRecv d, .judge]

theorem motor_agrees_with_flag_open : ∃ ls s, Run (Guarded LoopStep Succeeds) (.init 0) ls s ∧
    motor ls = [.motorOpen] ∧ s.app.flag = 1 ∧ s.rotor = 1023 := by
  obtain ⟨trace, htrace, _⟩ := (StepMotor.rotate_command 0).1 0 (Or.inl rfl)
  have hrun : Run (Guarded LoopStep Succeeds) (.init 0)
      ([.call .queueClose (-1), .call .queueGet 1, .start] ++ entered 1 9 ++ entered 2 20 ++
        entered 3 14 ++ entered 3 15 ++ entered 1 (-1) ++ entered (-1) (-1) ++
        [.verdict, .device .speakerCorrect true, .device .stepMotorOpen true])
      ⟨⟨0, 1, 0, 5, -1, -1, .outer⟩, [], StepMotor.rotate 0 trace⟩ := by
    apply Run.cons ⟨.call rfl rfl, trivial⟩
    apply Run.cons ⟨.call rfl rfl, trivial⟩
    apply Run.cons ⟨.start rfl rfl, trivial⟩
    iterate 6
      apply Run.cons ⟨.call rfl rfl, trivial⟩
      apply Run.cons ⟨.call rfl rfl, trivial⟩
      apply Run.cons ⟨.judge rfl rfl rfl, trivial⟩
    apply Run.cons ⟨.verdict rfl rfl, trivial⟩
    apply Run.cons ⟨.device rfl rfl, rfl⟩
    exact .cons ⟨.device rfl htrace, rfl⟩ .nil
  obtain ⟨hflag, hrotor⟩ | ⟨hzero, _⟩ := (motor_agrees_with_flag hrun).2.2.2.2 rfl rfl
  · exact ⟨_, _, hrun, rfl, hflag, hrotor⟩
  · cases hzero

end Results

section Composition

variable {w : ℕ} {key : ℤ}

lemma deviceLib_total (c : DeviceCall) : ∃ trace ret, deviceLib true c = .ok (trace, ret) := by
  cases c with
  | stepMotorOpen => exact ⟨_, _, StepMotor.stepMotorIoctl_eq.1⟩
  | stepMotorClose => exact ⟨_, _, StepMotor.stepMotorIoctl_eq.2⟩
  | speakerCorrect | speakerIncorrect => exact ⟨_, _, rfl⟩

lemma devices_run (a : App) (calls : List DeviceCall) (p : ℤ) : ∃ ls p',
    Run (Guarded LoopStep Succeeds) ⟨a, calls, p⟩ ls ⟨a, [], p'⟩ := by
  induction calls generalizing p with
  | nil => exact ⟨[], p, .nil⟩
  | cons c calls ih =>
    obtain ⟨trace, ret, hc⟩ := deviceLib_total c
    obtain ⟨ls, p', hls⟩ := ih (StepMotor.rotate p trace)
    exact ⟨.device c true :: ls, p', .cons ⟨.device rfl hc, rfl⟩ hls⟩

lemma system_loop {ms : List (Move w)} {s : System w} (h : Run Step (.init key) ms s) :
    ∃ ls p, Run (Guarded LoopStep Succeeds) (.init key) ls ⟨s.app, [], p⟩ := by
  apply h.induct_right (M := fun _ s =>
    ∃ ls p, Run (Guarded LoopStep Succeeds) (.init key) ls ⟨s.app, [], p⟩)
  · exact ⟨[], 0, .nil⟩
  · intro ms s m t _ ih hs
    obtain ⟨ls, p, hls⟩ := ih
    cases hs with
    | call hpc => exact ⟨_, p, hls.snoc ⟨.call rfl hpc, trivial⟩⟩
    | start hpc => exact ⟨_, p, hls.snoc ⟨.start rfl hpc, trivial⟩⟩
    | judge hpc ha => exact ⟨_, p, hls.snoc ⟨.judge rfl hpc ha, trivial⟩⟩
    | verdict hpc =>
      obtain ⟨ks, p', hks⟩ := devices_run s.app.verdict.1 s.app.verdict.2 p
      exact ⟨_, p', (hls.snoc ⟨.verdict rfl hpc, trivial⟩).append hks⟩
    | openTest hpc =>
      obtain ⟨ks, p', hks⟩ := devices_run s.app.openTest.1 s.app.openTest.2 p
      exact ⟨_, p', (hls.snoc ⟨.openTest rfl hpc, trivial⟩).append hks⟩
    | button | echo | switchTasklet | ultrasonicTasklet => exact ⟨ls, p, hls⟩

theorem system_judges {ms : List (Move w)} {s : System w} (h : Run Step (.init key) ms s)
    (hpc : s.app.pc = .judge) : ∃ a, s.app.judge = .ok a := by
  obtain ⟨ls, p, hls⟩ := system_loop h
  exact (coordinated_run hls).judge_ok hpc

end Composition

end EmbeddedSystem.Coffer
