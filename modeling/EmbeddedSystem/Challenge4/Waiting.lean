import EmbeddedSystem.Challenge4.Driver
import EmbeddedSystem.Foundations.Runs
import EmbeddedSystem.Foundations.SelectiveFifo

namespace EmbeddedSystem.Challenge4

open Kernel Foundations Foundations.SelectiveFifo

section Segments

variable {o : Outcome} {s t : Driver} {y : Reply} {userBuf : MsgSt} {e : Fault}

def Changes (s t : Driver) : Option Effect → Prop
  | none => t = s
  | some (.appended m) => t = ⟨s.msgList ++ [m], s.msgCount + 1⟩
  | some (.removed m) => ∃ rest, s.msgList = m :: rest ∧ t = ⟨rest, s.msgCount - 1⟩

lemma ch4ReadTake_cases (h : ch4ReadTake o s userBuf = .ok (t, y)) :
    ∃ tmp rest, s.msgList = tmp :: rest ∧ t = ⟨rest, s.msgCount - 1⟩ ∧
      y.effect = some (.removed tmp) := by
  rw [ch4ReadTake] at h
  cases hq : s.msgList with
  | nil =>
    rw [hq] at h
    cases h
  | cons tmp rest =>
    rw [hq] at h
    obtain ⟨⟨bytes, ret⟩, _, h⟩ := bind_ok.mp h
    cases h
    exact ⟨tmp, rest, rfl, rfl, rfl⟩

lemma ch4ReadTake_changes (h : ch4ReadTake o s userBuf = .ok (t, y)) : Changes s t y.effect := by
  obtain ⟨tmp, rest, hq, ht, hy⟩ := ch4ReadTake_cases h
  rw [hy]
  exact ⟨rest, hq, ht⟩

lemma ch4Read_take (h : ch4Read o s userBuf = .ok (some (t, y))) :
    ch4ReadTake o s userBuf = .ok (t, y) := by
  rw [ch4Read] at h
  split at h
  · cases h
  · obtain ⟨r, hr, h⟩ := bind_ok.mp h
    cases h
    exact hr

lemma ch4Write_cases (h : ch4Write o s userBuf = .ok (t, y)) :
    t = s ∧ y.effect = none ∨
      ∃ m, t = ⟨s.msgList ++ [m], s.msgCount + 1⟩ ∧ y.effect = some (.appended m) := by
  rw [ch4Write] at h
  split at h
  · cases h
    exact Or.inl ⟨rfl, rfl⟩
  · cases hv : o.vmalloc with
    | false => simp [hv] at h; cases h
    | true =>
      simp only [hv] at h
      obtain ⟨-, -, h⟩ := bind_ok.mp h
      obtain ⟨⟨bytes, ret⟩, _, h⟩ := bind_ok.mp h
      cases hm : o.kmalloc with
      | false => simp [hm] at h; cases h
      | true =>
        simp only [hm] at h
        cases h
        exact Or.inr ⟨_, rfl, rfl⟩

lemma ch4Write_changes (h : ch4Write o s userBuf = .ok (t, y)) : Changes s t y.effect := by
  obtain ⟨ht, hy⟩ | ⟨m, ht, hy⟩ := ch4Write_cases h
  · rw [hy]
    exact ht
  · rw [hy]
    exact ht

lemma ch4ReadTake_total (o : Outcome) (userBuf : MsgSt) (hs : s.msgList ≠ []) :
    ∃ r, ch4ReadTake o s userBuf = .ok r := by
  rw [ch4ReadTake]
  cases hq : s.msgList with
  | nil => exact absurd hq hs
  | cons tmp rest =>
    obtain ⟨bytes, ret, hcopy⟩ := userCopy_msg o userBuf tmp
    exact ⟨_, by simp only [hcopy]; rfl⟩

lemma ch4Read_total (o : Outcome) (s : Driver) (userBuf : MsgSt) :
    ∃ r, ch4Read o s userBuf = .ok r := by
  rw [ch4Read]
  split
  · exact ⟨_, rfl⟩
  · next hs =>
    obtain ⟨r, hr⟩ := ch4ReadTake_total o userBuf hs
    exact ⟨some r, by rw [hr]; rfl⟩

lemma ch4Write_fault (h : ch4Write o s userBuf = .error e) : e = .null := by
  rw [ch4Write] at h
  split at h
  · cases h
  · cases hv : o.vmalloc with
    | false =>
      simp only [hv] at h
      cases h
      rfl
    | true =>
      obtain ⟨r, hr⟩ := userCopy_total (n := 132) o (by decide : (0 : ℤ) ≤ 132 ∧ (132 : ℤ) ≤ 132)
        (by decide) MsgSt.zero.bytes userBuf.bytes
      cases hm : o.kmalloc with
      | false =>
        simp only [hv, hm, Nat.cast_ofNat, hr] at h
        cases h
        rfl
      | true =>
        simp only [hv, hm, Nat.cast_ofNat, hr] at h
        cases h

end Segments

section Runs

variable {P : Type} [DecidableEq P] {s t : System P} {p : P} {m : Move} {ls : List (P × Move)}

lemma step_changes (h : Step s (p, m) t) : Changes s.driver t.driver m.effect := by
  cases h with
  | read _ hd => exact ch4ReadTake_changes (ch4Read_take hd)
  | readWoken _ hd => exact ch4ReadTake_changes hd
  | write _ hd => exact ch4Write_changes hd
  | _ => rfl

def appended (ls : List (P × Move)) : List MsgSt :=
  ls.filterMap fun l => match l.2.effect with
    | some (.appended m) => some m
    | _ => none

def removed (ls : List (P × Move)) : List MsgSt :=
  ls.filterMap fun l => match l.2.effect with
    | some (.removed m) => some m
    | _ => none

structure Counted (d : Driver) (appended removed : List MsgSt) : Prop where
  count : d.msgCount = BitVec.ofNat 32 d.msgList.length
  fifo : Balanced (fun _ => ()) appended removed d.msgList

lemma counted_run (h : Run Step (.init : System P) ls s) :
    Counted s.driver (appended ls) (removed ls) := by
  apply h.induct_right (M := fun ls s => Counted s.driver (appended ls) (removed ls))
  · exact ⟨rfl, balanced_nil⟩
  · rintro ls s ⟨p, m⟩ t - ih hs
    have hc := step_changes hs
    cases he : m.effect with
    | none =>
      rw [he] at hc
      rw [hc]
      simpa [appended, removed, he] using ih
    | some e =>
      cases e with
      | appended x =>
        rw [he] at hc
        rw [hc]
        have hfifo := ih.fifo.arrive x
        refine ⟨?_, by simpa [appended, removed, he] using hfifo⟩
        simp [ih.count, BitVec.ofNat_add]
      | removed x =>
        rw [he] at hc
        obtain ⟨rest, hq, hd⟩ := hc
        have hfifo := ih.fifo
        rw [hq] at hfifo
        have hrest := hfifo.depart (takes_head x rest)
        rw [hd]
        refine ⟨?_, by simpa [appended, removed, he] using hrest⟩
        have hcount := ih.count
        rw [hq, List.length_cons, BitVec.ofNat_add] at hcount
        simp only [hcount]
        exact BitVec.add_sub_cancel _ _

lemma Counted.toInt {d : Driver} {xs ys : List MsgSt} (h : Counted d xs ys)
    (hlt : d.msgList.length < 2 ^ 31) : d.msgCount.toInt = d.msgList.length := by
  rw [h.count]
  rw [BitVec.toInt_eq_toNat_of_lt, BitVec.toNat_ofNat, Nat.mod_eq_of_lt (by omega)]
  rw [BitVec.toNat_ofNat, Nat.mod_eq_of_lt (by omega)]
  omega

def Roomy (s : System P) (l : P × Move) : Prop :=
  ∀ x, l.2.effect = some (.appended x) → s.driver.msgList.length + 1 < 2 ^ 31

/-- A reader that retakes the lock after its wait finds a message. -/
def Stocked (s : System P) (l : P × Move) : Prop :=
  ∀ userBuf, s.phase l.1 = .woken userBuf → s.driver.msgList ≠ []

lemma changes_length {d d' : Driver} {e : Option Effect} (h : Changes d d' e)
    (he : ∀ x, e = some (.appended x) → d.msgList.length + 1 < 2 ^ 31)
    (hd : d.msgList.length < 2 ^ 31) : d'.msgList.length < 2 ^ 31 := by
  cases e with
  | none =>
    rw [h]
    exact hd
  | some e =>
    cases e with
    | appended x =>
      rw [h]
      simpa using he x rfl
    | removed x =>
      obtain ⟨rest, hq, rfl⟩ := h
      rw [hq, List.length_cons] at hd
      simp only
      omega

lemma count_run (h : Run (Guarded Step Roomy) (.init : System P) ls s) :
    s.driver.msgCount.toInt = s.driver.msgList.length := by
  have hlt : s.driver.msgList.length < 2 ^ 31 := by
    apply h.invariant (I := fun s => s.driver.msgList.length < 2 ^ 31)
    · rintro s ⟨p, m⟩ t hlt hs
      exact changes_length (step_changes hs.1) hs.2 hlt
    · exact Nat.two_pow_pos 31
  exact (counted_run h.unguard).toInt hlt

@[simp] lemma phase_set_self (s : System P) (p : P) (ph : Phase) : (s.set p ph).phase p = ph := by
  simp [System.set]

lemma phase_set_of_ne (s : System P) {p q : P} (ph : Phase) (h : q ≠ p) :
    (s.set p ph).phase q = s.phase q := by
  simp [System.set, h]

lemma faulted_step {q : P} {e : Fault} (hq : s.phase q = .faulted e) (h : Step s (p, m) t) :
    t.phase q = .faulted e := by
  cases h with
  | read | write => exact hq
  | sleep hph | wakeCount hph | wakeSignal hph | readFault hph | wokenFault hph | writeFault hph =>
    rw [phase_set_of_ne]
    · exact hq
    · rintro rfl
      rw [hph] at hq
      cases hq
  | readWoken hph =>
    rw [phase_set_of_ne]
    · exact hq
    · rintro rfl
      rw [hph] at hq
      cases hq

lemma headless_step {q : P} (hq : s.phase q ≠ .faulted .listHead) (h : Step s (p, m) t)
    (hstocked : Stocked s (p, m)) : t.phase q ≠ .faulted .listHead := by
  by_cases hp : q = p
  · subst hp
    cases h with
    | read | write => exact hq
    | sleep | wakeCount | wakeSignal | readWoken =>
      rw [phase_set_self]
      simp
    | @readFault _ o userBuf e _ hd =>
      obtain ⟨r, hr⟩ := ch4Read_total o s.driver userBuf
      rw [hr] at hd
      cases hd
    | @wokenFault _ o userBuf e hph hd =>
      obtain ⟨r, hr⟩ := ch4ReadTake_total o userBuf (hstocked userBuf hph)
      rw [hr] at hd
      cases hd
    | writeFault _ hd =>
      rw [phase_set_self, ch4Write_fault hd]
      simp
  · cases h with
    | read | write => exact hq
    | sleep | wakeCount | wakeSignal | readFault | wokenFault | writeFault =>
      rw [phase_set_of_ne _ _ hp]
      exact hq
    | readWoken =>
      rw [phase_set_of_ne _ _ hp]
      exact hq

lemma head_taken (h : Step s (p, m) t) (hstocked : ¬ Stocked s (p, m)) :
    t.phase p = .faulted .listHead := by
  simp only [Stocked, not_forall, not_not] at hstocked
  obtain ⟨userBuf, hph, hempty⟩ := hstocked
  cases h with
  | read hidle | sleep hidle | write hidle | readFault hidle | writeFault hidle =>
    rw [hph] at hidle
    cases hidle
  | wakeCount hwait | wakeSignal hwait =>
    rw [hph] at hwait
    cases hwait
  | readWoken _ hd =>
    rw [ch4ReadTake, hempty] at hd
    cases hd
  | wokenFault _ hd =>
    rw [ch4ReadTake, hempty] at hd
    cases hd
    exact phase_set_self ..

theorem reads_take_messages (h : Run (Guarded Step Roomy) (.init : System P) ls s) :
    s.driver.msgCount.toInt = s.driver.msgList.length ∧
    appended ls = removed ls ++ s.driver.msgList ∧
    (∀ p m t x, Step s (p, m) t → m.effect = some (.removed x) →
      s.driver.msgList.head? = some x) ∧
    ((∀ p, s.phase p ≠ .faulted .listHead) ↔
      Run (Guarded (Guarded Step Roomy) Stocked) .init ls s) := by
  refine ⟨count_run h, balanced_unit_iff.mp (counted_run h.unguard).fifo, ?_, ?_, ?_⟩
  · intro p m t x hs hm
    have hc := step_changes hs
    rw [hm] at hc
    obtain ⟨rest, hq, _⟩ := hc
    rw [hq]
    rfl
  · intro hsound
    apply h.guard
    rintro ls₁ ⟨p, m⟩ ls₂ s₁ t₁ - - hs hrest
    by_contra hstocked
    have hhead : t₁.phase p = .faulted .listHead := head_taken hs.1 hstocked
    exact hsound p (hrest.invariant (I := fun s => s.phase p = .faulted .listHead)
      (fun _ _ _ hq hstep => faulted_step hq hstep.1) hhead)
  · intro hrun p
    apply hrun.invariant (I := fun s => s.phase p ≠ .faulted .listHead)
    · rintro s ⟨q, m⟩ t hq ⟨hs, hstocked⟩
      exact headless_step hq hs.1 hstocked
    · simp [System.init]

end Runs

section Instances

def hello : MsgSt :=
  ⟨fun i => if i.val = 0 then 5 else if 4 ≤ i.val ∧ i.val < 9 then 104 else 0⟩

def written : Reply :=
  ⟨0, some (.appended ⟨copyBytes MsgSt.zero.bytes hello.bytes 132⟩), none⟩

lemma ch4Write_hello (s : Driver) : ch4Write .success s hello = .ok
    (⟨s.msgList ++ [⟨copyBytes MsgSt.zero.bytes hello.bytes 132⟩], s.msgCount + 1⟩, written) := by
  have hlen : ¬ hello.len.toInt ≥ bufSize := by decide
  have hcopy := userCopy_success (n := 132) (by decide : (0 : ℤ) ≤ 132 ∧ (132 : ℤ) ≤ 132)
    (by decide) MsgSt.zero.bytes hello.bytes
  rw [ch4Write, if_neg hlen]
  simp only [Nat.cast_ofNat, hcopy]
  rfl

theorem reads_take_messages_one :
    appended [((0 : Fin 2), Move.write written)] =
      [⟨copyBytes MsgSt.zero.bytes hello.bytes 132⟩] := by
  obtain ⟨s, hrun, hq⟩ : ∃ s : System (Fin 2), Run (Guarded Step Roomy) .init
      [(0, .write written)] s ∧
        s.driver.msgList = [⟨copyBytes MsgSt.zero.bytes hello.bytes 132⟩] := by
    have hwrite : Step (.init : System (Fin 2)) (0, .write written) _ :=
      .write rfl (ch4Write_hello _)
    refine ⟨_, .cons ⟨hwrite, ?_⟩ .nil, rfl⟩
    rintro x -
    exact (by decide : (0 : ℕ) + 1 < 2 ^ 31)
  rw [(reads_take_messages hrun).2.1, hq]
  rfl

theorem read_takes_list_head :
    ¬ ∀ (ls : List (Fin 3 × Move)) (s : System (Fin 3)), Run Step .init ls s →
      ∀ p, s.phase p ≠ .faulted .listHead := by
  intro h
  have hrun : ∃ ls s, Run Step (.init : System (Fin 3)) ls s ∧
      s.phase 1 = .faulted .listHead := by
    refine ⟨_, _, .cons (@Step.sleep _ _ _ 0 .success .zero rfl rfl)
      (.cons (@Step.sleep _ _ _ 1 .success .zero rfl rfl)
      (.cons (.write (p := 2) rfl (ch4Write_hello _)) (.cons (.wakeCount (p := 0) rfl ?_)
      (.cons (.wakeCount (p := 1) rfl ?_) (.cons (.readWoken (p := 0) (o := .success) rfl rfl)
      (.cons (.wokenFault (p := 1) (o := .success) rfl rfl) .nil)))))), rfl⟩
    · exact (by decide : 0 < ((0 : BitVec 32) + 1).toInt)
    · exact (by decide : 0 < ((0 : BitVec 32) + 1).toInt)
  obtain ⟨ls, s, hrun, hhead⟩ := hrun
  exact h ls s hrun 1 hhead

end Instances

end EmbeddedSystem.Challenge4
