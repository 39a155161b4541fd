import EmbeddedSystem.Coffer.Loop
import EmbeddedSystem.Switch.Broadcast

/-! One password attempt of `coffer_app.c`: what its inner loop pops from the two queues of its key,
and when it opens the coffer. No event arrives during the attempt, and every open succeeds. -/

namespace EmbeddedSystem.Coffer

open Kernel Foundations Switch

variable {w : ℕ}

section Entries

variable {presses distances : List (Data w)} {n : ℕ}

def entry (q : List (Data w)) (i : ℕ) : ℤ := (q[i]?).elim (-1) fun x => ioctlReturn x.value

def attempt (presses distances : List (Data w)) (n : ℕ) : List (ℤ × ℤ) :=
  (List.range n).map fun i => (entry presses i, entry distances i)

def Matches (presses distances : List (Data w)) : Prop :=
  ∀ i : Fin 5, ∃ x, presses[i.val]? = some x ∧
    digit (x.value, (distances[i.val]?).elim (-1) Data.value) = myPassword i

/-- The number of entries that an attempt takes from each queue. -/
def popped (presses : List (Data w)) : ℕ :=
  min (presses.findIdx fun x => x.value < 0) 5 + 1

lemma attempt_length (presses distances : List (Data w)) (n : ℕ) :
    (attempt presses distances n).length = n := by
  simp [attempt]

lemma attempt_succ (presses distances : List (Data w)) (n : ℕ) :
    attempt presses distances (n + 1) =
      attempt presses distances n ++ [(entry presses n, entry distances n)] := by
  simp [attempt, List.range_succ]

lemma attempt_getElem (presses distances : List (Data w)) {i : ℕ} (hi : i < n) :
    (attempt presses distances n)[i]? = some (entry presses i, entry distances i) := by
  simp [attempt, hi]

lemma ioctlReturn_far_iff (v : ℤ) : ioctlReturn v ≥ 15 ↔ v ≥ 15 := by
  rw [ioctlReturn]
  split <;> omega

lemma entry_some {q : List (Data w)} {i : ℕ} {x : Data w} (h : q[i]? = some x) :
    entry q i = ioctlReturn x.value := by
  rw [entry, h]
  rfl

lemma entry_none {q : List (Data w)} {i : ℕ} (h : q[i]? = none) : entry q i = -1 := by
  rw [entry, h]
  rfl

lemma entry_head (q : List (Data w)) (n : ℕ) :
    entry q n = ((q.drop n).head?).elim (-1) fun x => ioctlReturn x.value := by
  rw [entry, List.head?_drop]

lemma entry_far_iff (q : List (Data w)) (i : ℕ) :
    entry q i ≥ 15 ↔ (q[i]?).elim (-1) Data.value ≥ 15 := by
  cases hi : q[i]? with
  | none => rw [entry_none hi]; rfl
  | some x =>
    rw [entry_some hi]
    exact ioctlReturn_far_iff x.value

lemma password_pos (i : Fin 5) : 0 < (myPassword i).1 := by
  fin_cases i <;> decide

lemma digit_entry_iff {i : ℕ} {x : Data w} (h : presses[i]? = some x) (k : Fin 5) :
    digit (entry presses i, entry distances i) = myPassword k ↔
      digit (x.value, (distances[i]?).elim (-1) Data.value) = myPassword k := by
  have hfar := entry_far_iff distances i
  have hpos := password_pos k
  rw [entry_some h, digit, digit, Prod.ext_iff, Prod.ext_iff]
  simp only [hfar]
  apply and_congr_left
  intro _
  rw [ioctlReturn]
  split
  · next hneg =>
    constructor
    · intro heq
      omega
    · intro heq
      omega
  · rfl

lemma matches_iff : Matches presses distances ↔ Agrees (attempt presses distances 5) := by
  constructor
  · intro h i y hy
    obtain ⟨x, hx, hdigit⟩ := h i
    rw [attempt_getElem presses distances i.isLt] at hy
    obtain rfl := Option.some.inj hy
    exact (digit_entry_iff hx i).mpr hdigit
  · intro h i
    have hdigit := h i _ (attempt_getElem presses distances i.isLt)
    cases hx : presses[i.val]? with
    | none =>
      have hpress : -1 = (myPassword i).1 := by
        rw [← hdigit, digit, entry_none hx]
      have hpos := password_pos i
      omega
    | some x => exact ⟨x, rfl, (digit_entry_iff hx i).mp hdigit⟩

lemma entry_neg_iff (q : List (Data w)) (i : ℕ) :
    entry q i < 0 ↔ ∀ x, q[i]? = some x → x.value < 0 := by
  cases hi : q[i]? with
  | none =>
    rw [entry_none hi]
    simp
  | some x =>
    rw [entry_some hi, ioctlReturn_neg_iff]
    simp

lemma popped_eq (hn : n ≤ 5) (hbefore : ∀ i < n, 0 ≤ entry presses i)
    (hstop : entry presses n < 0 ∨ n = 5) : popped presses = n + 1 := by
  set first := presses.findIdx fun x => x.value < 0 with hfirst
  have hle : n ≤ first := by
    by_contra hlt
    have hlt' : first < n := by omega
    have hneg : entry presses first < 0 := by
      rw [entry_neg_iff]
      intro x hx
      have hp := List.findIdx_of_getElem?_eq_some (hfirst ▸ hx)
      simpa using hp
    have := hbefore first hlt'
    omega
  have hmin : min first 5 = n := by
    obtain hneg | rfl := hstop
    · have hge : first ≤ n := by
        by_contra hlt
        have hlt' : n < first := by omega
        have hlen : n < presses.length := hlt'.trans_le List.findIdx_le_length
        have hnot := List.not_of_lt_findIdx (hfirst ▸ hlt')
        rw [entry_neg_iff] at hneg
        have hval := hneg presses[n] (List.getElem?_eq_getElem hlen)
        simp [hval] at hnot
      omega
    · omega
  rw [popped, ← hfirst, hmin]

end Entries

section Phases

variable {s t : System w} {m : Move w} {ms : List (Move w)} {k : Fin Switch.queueNum}
  {presses distances : List (Data w)} {n : ℕ}

def InAttempt (_ : System w) : Move w → Prop
  | .call _ opened => opened = true
  | .start | .judge | .button _ _ | .echo _ _ _ => True
  | _ => False

def System.Left (s : System w) (k : Fin Switch.queueNum) (presses distances : List (Data w)) :
    Prop :=
  s.driver.queue .switch k = presses ∧ s.driver.queue .ultrasonic k = distances

structure Judged (presses distances : List (Data w)) (a : App) (n : ℕ) : Prop where
  counted : Counted a (attempt presses distances n)
  pressed : ∀ i < n, 0 ≤ entry presses i

def Phase (k : Fin Switch.queueNum) (presses distances : List (Data w)) (s : System w) : Prop :=
  match s.app.pc with
  | .outer => s.app.flag = 0 ∧ s.Left k presses distances
  | .recv => ∃ n, Judged presses distances s.app n ∧
      s.Left k (presses.drop n) (distances.drop n)
  | .measure => ∃ n, Judged presses distances s.app n ∧ s.app.ret = entry presses n ∧
      s.Left k (presses.drop (n + 1)) (distances.drop n)
  | .judge => ∃ n, Judged presses distances s.app n ∧ s.app.ret = entry presses n ∧
      s.app.distance = entry distances n ∧
      s.Left k (presses.drop (n + 1)) (distances.drop (n + 1))
  | .verdict => ∃ n, Judged presses distances s.app n ∧ (entry presses n < 0 ∨ n = 5) ∧
      s.Left k (presses.drop (n + 1)) (distances.drop (n + 1))
  | _ => False

structure During (k : Fin Switch.queueNum) (presses distances : List (Data w)) (s : System w) :
    Prop where
  key : s.app.key = k.val
  phase : Phase k presses distances s

lemma libCall_pops {d d' : Driver w} {y : Reply w} {c : Sensor} {key : ℤ}
    (hkey : key = k.val) (h : libCall true d c.recv key = .ok (d', y)) :
    y.ret = ((d.queue c k).head?).elim (-1) (fun x => ioctlReturn x.value) ∧
      d'.queue c k = (d.queue c k).tail ∧ ∀ c', c' ≠ c → d'.queue c' = d.queue c' := by
  obtain ⟨hclosed, _⟩ | ⟨-, z, hz, rfl⟩ := libCall_cases h
  · cases hclosed
  · have hrecv : recv c d key = .ok (d', z) := by
      cases c <;> exact hz
    obtain ⟨j, hj, hcases⟩ := recv_cases hrecv
    have hjk : j = k := Fin.ext (by have := arrayIndex_val hj; omega)
    subst hjk
    obtain ⟨hq, rfl, rfl⟩ | ⟨x, rest, hq, rfl, rfl⟩ := hcases
    · rw [hq]
      exact ⟨rfl, rfl, fun _ _ => rfl⟩
    · rw [hq]
      refine ⟨rfl, ?_, fun c' hc' => queue_setQueue_of_ne d _ hc'⟩
      rw [queue_setQueue_self, Function.update_self]
      rfl

lemma Judged.resume {a : App} (h : Judged presses distances a n) {b : App} (hflag : b.flag = a.flag)
    (hcount : b.count = a.count) (hincorrect : b.incorrect = a.incorrect) :
    Judged presses distances b n := by
  obtain ⟨hcounted, hpressed⟩ := h
  refine ⟨⟨?_, ?_, hcounted.bound, ?_⟩, hpressed⟩
  · rw [hflag]
    exact hcounted.flag
  · rw [hcount]
    exact hcounted.count
  · rw [hincorrect]
    exact hcounted.incorrect

lemma During.call (h : During k presses distances s) {cmd : Command} {pc : Pc} {d : Driver w}
    {y : Reply w} {g : Ghost} (hpc : s.app.pc.call = some (cmd, pc))
    (hd : libCall true s.driver cmd s.app.key = .ok (d, y)) :
    During k presses distances ⟨d, s.app.resume cmd y.ret pc, g⟩ := by
  have hphase := h.phase
  rw [Phase] at hphase
  cases hat : s.app.pc with
  | recv =>
    rw [hat] at hpc hphase
    cases hpc
    obtain ⟨n, hjudged, hswitch, hultrasonic⟩ := hphase
    obtain ⟨hret, hpop, hkeep⟩ := libCall_pops (c := .switch) h.key hd
    refine ⟨h.key, n, hjudged.resume rfl rfl rfl, ?_, ?_, ?_⟩
    · rw [entry_head, ← hswitch]
      exact hret
    · rw [hpop, hswitch, List.tail_drop]
    · rw [hkeep .ultrasonic (by decide), hultrasonic]
  | measure =>
    rw [hat] at hpc hphase
    cases hpc
    obtain ⟨n, hjudged, hvalue, hswitch, hultrasonic⟩ := hphase
    obtain ⟨hret, hpop, hkeep⟩ := libCall_pops (c := .ultrasonic) h.key hd
    refine ⟨h.key, n, hjudged.resume rfl rfl rfl, hvalue, ?_, ?_, ?_⟩
    · rw [entry_head, ← hultrasonic]
      exact hret
    · rw [hkeep .switch (by decide), hswitch]
    · rw [hpop, hultrasonic, List.tail_drop]
  | outer | judge | verdict | openTest =>
    rw [hat] at hpc
    cases hpc
  | closing | getting | openRecv | openMeasure =>
    rw [hat] at hphase
    cases hphase

lemma During.start (h : During k presses distances s) (hpc : s.app.pc = .outer) :
    During k presses distances { s with app := s.app.start } := by
  have hphase := h.phase
  rw [Phase, hpc] at hphase
  obtain ⟨hflag, hleft⟩ := hphase
  rw [App.start, if_pos hflag]
  refine ⟨h.key, 0, ⟨⟨hflag, rfl, Nat.zero_le 5, iff_of_true rfl ?_⟩, ?_⟩, hleft⟩
  · rintro i x ⟨⟩
  · rintro i ⟨⟩

lemma During.judge (h : During k presses distances s) (hpc : s.app.pc = .judge) {a : App}
    (ha : s.app.judge = .ok a) : During k presses distances { s with app := a } := by
  have hphase := h.phase
  rw [Phase, hpc] at hphase
  obtain ⟨n, hjudged, hret, hdistance, hleft⟩ := hphase
  have hcount := hjudged.counted.count
  have hbound := hjudged.counted.bound
  rw [attempt_length] at hcount hbound
  obtain ⟨hbreak, rfl⟩ | ⟨hbreak, j, hj, rfl⟩ := judge_cases ha
  · refine ⟨h.key, n, hjudged.resume rfl rfl rfl, ?_, hleft⟩
    rw [← hret]
    obtain hneg | hfive := hbreak
    · exact Or.inl hneg
    · exact Or.inr (by omega)
  · have hnext := hjudged.counted.compare hj hbreak
    rw [hret, hdistance, ← attempt_succ] at hnext
    refine ⟨h.key, n + 1, ⟨?_, ?_⟩, hleft⟩
    · rw [hret, hdistance]
      exact hnext
    · intro i hi
      obtain hi | rfl := Nat.lt_succ_iff_lt_or_eq.mp hi
      · exact hjudged.pressed i hi
      · rw [← hret]
        exact not_lt.mp fun hneg => hbreak (Or.inl hneg)

lemma During.frame (h : During k presses distances s) {d : Driver w} {g : Ghost}
    (hqueue : d.queue = s.driver.queue) : During k presses distances ⟨d, s.app, g⟩ := by
  have hleft : ∀ p q, s.Left k p q → System.Left ⟨d, s.app, g⟩ k p q := by
    intro p q hpq
    rw [System.Left, hqueue]
    exact hpq
  have hphase := h.phase
  refine ⟨h.key, ?_⟩
  rw [Phase] at hphase ⊢
  cases hat : s.app.pc with
  | outer =>
    rw [hat] at hphase
    exact ⟨hphase.1, hleft _ _ hphase.2⟩
  | recv =>
    rw [hat] at hphase
    obtain ⟨n, hjudged, hpq⟩ := hphase
    exact ⟨n, hjudged, hleft _ _ hpq⟩
  | measure =>
    rw [hat] at hphase
    obtain ⟨n, hjudged, hret, hpq⟩ := hphase
    exact ⟨n, hjudged, hret, hleft _ _ hpq⟩
  | judge =>
    rw [hat] at hphase
    obtain ⟨n, hjudged, hret, hdistance, hpq⟩ := hphase
    exact ⟨n, hjudged, hret, hdistance, hleft _ _ hpq⟩
  | verdict =>
    rw [hat] at hphase
    obtain ⟨n, hjudged, hstop, hpq⟩ := hphase
    exact ⟨n, hjudged, hstop, hleft _ _ hpq⟩
  | closing | getting | openRecv | openMeasure | openTest =>
    rw [hat] at hphase
    cases hphase

lemma during_step (h : During k presses distances s) (hs : Guarded Step InAttempt s m t) :
    During k presses distances t := by
  obtain ⟨hs, hin⟩ := hs
  cases hs with
  | call hpc hd =>
    obtain rfl := hin
    exact h.call hpc hd
  | start hpc => exact h.start hpc
  | judge hpc ha => exact h.judge hpc ha
  | verdict | openTest | switchTasklet | ultrasonicTasklet => cases hin
  | button b jiffies =>
    apply h.frame
    cases b <;> exact queue_congr rfl rfl
  | echo tmpTime level jiffies =>
    obtain ⟨_, _, _, _, _, hisr⟩ := ultrasonicIsr_frame s.driver tmpTime level jiffies
    apply h.frame
    rw [hisr]
    exact queue_congr rfl rfl

lemma during_run (h : Run (Guarded Step InAttempt) s ms t) (hs : During k presses distances s) :
    During k presses distances t :=
  h.invariant (fun _ _ _ hs he => during_step hs he) hs

end Phases

section Progress

variable {s t : System w} {k : Fin Switch.queueNum} {presses distances : List (Data w)}

lemma libCall_total {cmd : Command} {c : Sensor} (hcmd : cmd = c.recv) (d : Driver w) {key : ℤ}
    (hkey : key = k.val) : ∃ d' y, libCall true d cmd key = .ok (d', y) := by
  have hk : arrayIndex Switch.queueNum key = .ok k := by
    rw [hkey]
    exact arrayIndex_fin k
  obtain ⟨d', y, hrecv⟩ := recv_total c d hk
  refine ⟨d', ⟨ioctlReturn y.ret, y.effect⟩, ?_⟩
  have hioctl : switchIoctl d cmd key = .ok (d', y) := by
    subst hcmd
    cases c <;> exact hrecv
  rw [libCall, if_pos rfl, hioctl]
  rfl

lemma iterate (h : During k presses distances s) (hpc : s.app.pc = .recv) :
    ∃ ms t, Run (Guarded Step InAttempt) s ms t ∧
      (t.app.pc = .verdict ∨ t.app.pc = .recv ∧ t.app.count = s.app.count + 1) := by
  obtain ⟨d, y, hd⟩ := libCall_total (c := .switch) rfl s.driver h.key
  have hcall : s.app.pc.call = some (.switchRecv, .measure) := by
    rw [hpc]
    rfl
  have hswitch : Guarded Step InAttempt s (.call .switchRecv true) _ := ⟨.call hcall hd, rfl⟩
  obtain ⟨d', y', hd'⟩ := libCall_total (c := .ultrasonic) rfl d h.key
  have hcall' : (s.app.resume .switchRecv y.ret .measure).pc.call =
      some (.ultrasonicRecv, .judge) := rfl
  have hultrasonic : Guarded Step InAttempt
      ⟨d, s.app.resume .switchRecv y.ret .measure, s.ghost.received .switchRecv y.effect⟩
      (.call .ultrasonicRecv true) _ := ⟨.call hcall' hd', rfl⟩
  have hjudging := during_step (during_step h hswitch) hultrasonic
  obtain ⟨_, hjudged, _⟩ := hjudging.phase
  obtain ⟨a, ha⟩ := hjudged.counted.judge_ok
  refine ⟨_, _, .cons hswitch (.cons hultrasonic (.single ⟨.judge rfl ha, trivial⟩)), ?_⟩
  obtain ⟨_, rfl⟩ | ⟨_, j, _, rfl⟩ := judge_cases ha
  · exact Or.inl rfl
  · exact Or.inr ⟨rfl, rfl⟩

lemma reaches_verdict (h : During k presses distances s) (hpc : s.app.pc = .recv) {n : ℕ}
    (hn : 5 - s.app.count ≤ n) :
    ∃ ms t, Run (Guarded Step InAttempt) s ms t ∧ t.app.pc = .verdict := by
  induction n generalizing s with
  | zero =>
    obtain ⟨ms, t, hrun, ht | ⟨ht, hcount⟩⟩ := iterate h hpc
    · exact ⟨ms, t, hrun, ht⟩
    · have hphase := (during_run hrun h).phase
      rw [Phase, ht] at hphase
      obtain ⟨i, hjudged, _⟩ := hphase
      have hlen := hjudged.counted.count
      have hbound := hjudged.counted.bound
      omega
  | succ n ih =>
    obtain ⟨ms, t, hrun, ht | ⟨ht, hcount⟩⟩ := iterate h hpc
    · exact ⟨ms, t, hrun, ht⟩
    · obtain ⟨ms', u, hrun', hu⟩ := ih (during_run hrun h) ht (by push_cast at hn; omega)
      exact ⟨ms ++ ms', u, hrun.append hrun', hu⟩

/-- The state of `coffer_app` before an attempt, with the given entries in its two queues. -/
structure Awaiting (k : Fin Switch.queueNum) (presses distances : List (Data w)) (s : System w) :
    Prop where
  key : s.app.key = k.val
  pc : s.app.pc = .outer
  flag : s.app.flag = 0
  left : s.Left k presses distances

lemma Awaiting.during (h : Awaiting k presses distances s) : During k presses distances s := by
  refine ⟨h.key, ?_⟩
  rw [Phase, h.pc]
  exact ⟨h.flag, h.left⟩

lemma Awaiting.reaches (h : Awaiting k presses distances s) :
    ∃ ms t, Run (Guarded Step InAttempt) s ms t ∧ t.app.pc = .verdict := by
  have hstart : Guarded Step InAttempt s .start { s with app := s.app.start } :=
    ⟨.start h.pc, trivial⟩
  have hpc : s.app.start.pc = .recv := by rw [App.start, if_pos h.flag]
  have hcount : s.app.start.count = 0 := by rw [App.start, if_pos h.flag]
  obtain ⟨ms, t, hrun, ht⟩ := reaches_verdict (n := 5) (during_step h.during hstart) hpc
    (by simp only [hcount]; decide)
  exact ⟨_, t, .cons hstart hrun, ht⟩

end Progress

section Results

variable {s t u : System w} {k : Fin Switch.queueNum} {presses distances : List (Data w)}
  {ms : List (Move w)} {calls : List DeviceCall} {n : ℕ}

lemma Awaiting.ends (h : Awaiting k presses distances s)
    (hrun : Run (Guarded Step InAttempt) s ms t) (hpc : t.app.pc = .verdict) :
    ∃ n, Judged presses distances t.app n ∧ (entry presses n < 0 ∨ n = 5) ∧
      t.Left k (presses.drop (n + 1)) (distances.drop (n + 1)) := by
  have hphase := (during_run hrun h.during).phase
  rw [Phase, hpc] at hphase
  exact hphase

lemma Judged.opens_iff {a : App} (h : Judged presses distances a n)
    (hstop : entry presses n < 0 ∨ n = 5) :
    a.incorrect = 0 ∧ a.count = 5 ↔ Matches presses distances := by
  have hcount := h.counted.count
  rw [attempt_length] at hcount
  constructor
  · rintro ⟨hincorrect, hfive⟩
    obtain rfl : n = 5 := by omega
    exact matches_iff.mpr (h.counted.incorrect.mp hincorrect)
  · intro hmatch
    have hfive : n = 5 := by
      obtain hneg | hfive := hstop
      · have hbound := h.counted.bound
        rw [attempt_length] at hbound
        by_contra hne
        have hlt : n < 5 := by omega
        obtain ⟨x, hx, hdigit⟩ := hmatch ⟨n, hlt⟩
        have hval := (entry_neg_iff presses n).mp hneg x hx
        have hpos := password_pos ⟨n, hlt⟩
        rw [← hdigit, digit] at hpos
        omega
      · exact hfive
    subst hfive
    exact ⟨h.counted.incorrect.mpr (matches_iff.mp hmatch), hcount⟩

lemma verdict_opens_iff (h : Awaiting k presses distances s)
    (hrun : Run (Guarded Step InAttempt) s ms t) (hs : Step t (.verdict calls) u) :
    (u.app.flag = 1 ↔ Matches presses distances) ∧
      (.stepMotorOpen ∈ calls ↔ Matches presses distances) := by
  cases hs with
  | verdict hpc =>
    obtain ⟨n, hjudged, hstop, -⟩ := h.ends hrun hpc
    rw [← hjudged.opens_iff hstop]
    have hflag := hjudged.counted.flag
    simp only [App.verdict]
    split_ifs with hopen hsome
    · simp [hopen]
    · simp [hopen, hflag]
    · simp [hopen, hflag]

theorem opens_for_password_iff (h : Awaiting k presses distances s) :
    (∃ ms t, Run (Guarded Step InAttempt) s ms t ∧ t.app.pc = .verdict) ∧
      ∀ ms t calls u, Run (Guarded Step InAttempt) s ms t → Step t (.verdict calls) u →
        ((u.app.flag = 1 ∧ .stepMotorOpen ∈ calls ↔
            presses.length = 5 ∧ Matches presses distances) ↔
          ¬ (5 < presses.length ∧ Matches presses distances)) := by
  refine ⟨h.reaches, ?_⟩
  intro ms t calls u hrun hs
  obtain ⟨hflag, hcalls⟩ := verdict_opens_iff h hrun hs
  have hlen : Matches presses distances → 5 ≤ presses.length := by
    intro hmatch
    obtain ⟨x, hx, -⟩ := hmatch 4
    exact (List.getElem?_eq_some_iff.mp hx).1
  rw [hflag, hcalls, and_self]
  constructor
  · rintro hiff ⟨hlong, hmatch⟩
    have := (hiff.mp hmatch).1
    omega
  · intro hshort
    constructor
    · intro hmatch
      have := hlen hmatch
      have : ¬ 5 < presses.length := fun hlong => hshort ⟨hlong, hmatch⟩
      exact ⟨by omega, hmatch⟩
    · exact And.right

lemma Awaiting.leaves (h : Awaiting k presses distances s)
    (hrun : Run (Guarded Step InAttempt) s ms t) (hpc : t.app.pc = .verdict) :
    t.driver.switchQueue k = presses.drop (popped presses) ∧
      t.driver.ultrasonicQueue k = distances.drop (popped presses) := by
  obtain ⟨n, hjudged, hstop, hleft⟩ := h.ends hrun hpc
  have hbound := hjudged.counted.bound
  rw [attempt_length] at hbound
  rw [popped_eq hbound hjudged.pressed hstop]
  exact hleft

theorem queues_emptied_iff (h : Awaiting k presses distances s) :
    (∃ ms t, Run (Guarded Step InAttempt) s ms t ∧ t.app.pc = .verdict) ∧
      ∀ ms t, Run (Guarded Step InAttempt) s ms t → t.app.pc = .verdict →
        (t.driver.switchQueue k = [] ∧ t.driver.ultrasonicQueue k = [] ↔
          presses.length ≤ popped presses ∧ distances.length ≤ popped presses) := by
  refine ⟨h.reaches, ?_⟩
  intro ms t hrun hpc
  obtain ⟨hswitch, hultrasonic⟩ := h.leaves hrun hpc
  rw [hswitch, hultrasonic, List.drop_eq_nil_iff, List.drop_eq_nil_iff]

end Results

section Instances

def coffer (presses distances : List ℤ) : System 8 where
  driver := { Driver.init with
    switchQueue := fun _ => presses.map fun v => ⟨v, 0⟩
    ultrasonicQueue := fun _ => distances.map fun v => ⟨v, 0⟩
    queueUse := fun _ => true }
  app := { App.init 0 with pc := .outer }
  ghost := .init

lemma coffer_awaiting (presses distances : List ℤ) :
    Awaiting 0 (presses.map fun v => ⟨v, 0⟩) (distances.map fun v => ⟨v, 0⟩)
      (coffer presses distances) :=
  ⟨rfl, rfl, rfl, rfl, rfl⟩

lemma password_matches (more : List ℤ) : Matches (w := 8)
    (([1, 2, 3, 3, 1] ++ more).map fun v => ⟨v, 0⟩) ([0, 20, 0, 20, 0].map fun v => ⟨v, 0⟩) := by
  intro i
  fin_cases i <;> exact ⟨_, rfl, by decide⟩

theorem password_opens : ∃ ms t calls u,
    Run (Guarded Step InAttempt) (coffer [1, 2, 3, 3, 1] [0, 20, 0, 20, 0]) ms t ∧
      Step t (.verdict calls) u ∧ u.app.flag = 1 ∧ .stepMotorOpen ∈ calls := by
  obtain ⟨⟨ms, t, hrun, hpc⟩, hopens⟩ :=
    opens_for_password_iff (coffer_awaiting [1, 2, 3, 3, 1] [0, 20, 0, 20, 0])
  have hs : Step t (.verdict t.app.verdict.2) { t with app := t.app.verdict.1 } := .verdict hpc
  have hiff := (hopens ms t _ _ hrun hs).mpr (by simp)
  exact ⟨ms, t, _, _, hrun, hs, hiff.mpr ⟨rfl, password_matches []⟩⟩

theorem six_presses_open : ¬ ∀ (s : System 8) (k : Fin Switch.queueNum)
    (presses distances : List (Data 8)) (ms : List (Move 8)) (t : System 8)
    (calls : List DeviceCall) (u : System 8), Awaiting k presses distances s →
      Run (Guarded Step InAttempt) s ms t → Step t (.verdict calls) u →
        (u.app.flag = 1 ∧ .stepMotorOpen ∈ calls ↔
          presses.length = 5 ∧ Matches presses distances) := by
  intro h
  have hawaiting := coffer_awaiting ([1, 2, 3, 3, 1] ++ [2]) [0, 20, 0, 20, 0]
  obtain ⟨ms, t, hrun, hpc⟩ := hawaiting.reaches
  have hs : Step t (.verdict t.app.verdict.2) { t with app := t.app.verdict.1 } := .verdict hpc
  obtain ⟨hflag, hcalls⟩ := verdict_opens_iff hawaiting hrun hs
  have hmatch := password_matches [2]
  have hfive := (h _ _ _ _ ms t _ _ hawaiting hrun hs).mp ⟨hflag.mpr hmatch, hcalls.mpr hmatch⟩
  exact absurd hfive.1 (by decide)

theorem password_empties : ∃ ms t,
    Run (Guarded Step InAttempt) (coffer [1, 2, 3, 3, 1] [0, 20, 0, 20, 0]) ms t ∧
      t.app.pc = .verdict ∧
        t.driver.switchQueue 0 = [] ∧ t.driver.ultrasonicQueue 0 = [] := by
  obtain ⟨⟨ms, t, hrun, hpc⟩, hempty⟩ :=
    queues_emptied_iff (coffer_awaiting [1, 2, 3, 3, 1] [0, 20, 0, 20, 0])
  exact ⟨ms, t, hrun, hpc, (hempty ms t hrun hpc).mpr (by decide)⟩

theorem seventh_press_left : ¬ ∀ (s : System 8) (k : Fin Switch.queueNum)
    (presses distances : List (Data 8)) (ms : List (Move 8)) (t : System 8),
    Awaiting k presses distances s → Run (Guarded Step InAttempt) s ms t → t.app.pc = .verdict →
      t.driver.switchQueue k = [] ∧ t.driver.ultrasonicQueue k = [] := by
  intro h
  have hawaiting := coffer_awaiting [1, 2, 3, 3, 1, 1, 1] [0, 20, 0, 20, 0]
  obtain ⟨ms, t, hrun, hpc⟩ := hawaiting.reaches
  have hempty := (h _ _ _ _ ms t hawaiting hrun hpc).1
  rw [(hawaiting.leaves hrun hpc).1] at hempty
  exact absurd hempty (by decide)

end Instances

end EmbeddedSystem.Coffer
