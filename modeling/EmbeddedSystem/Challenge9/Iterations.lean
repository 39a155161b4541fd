import EmbeddedSystem.Challenge9.SafeRegister

/-! The applications of challenge 9, which read, or write the numbers `1..n`, in a loop. When one of
them writes, the values that the driver prints rise. -/

namespace EmbeddedSystem.Challenge9

open Kernel Foundations

section Model

variable {P A : Type} {w : ℕ}

inductive Op
  | read | write
  deriving DecidableEq

structure Apps (P A : Type) (w : ℕ) where
  driver : System P A w
  i : P → ℕ

def Move.Inside : Move A w → Prop
  | .load | .print _ | .work | .assign .. | .kfree _ | .fault _ => True
  | _ => False

def Move.Returns : Move A w → Prop
  | .readUnlock .. | .writeUnlock => True
  | _ => False

variable [DecidableEq P] [DecidableEq A]

def Apps.init (junk : Heap A (BitVec w)) (data : A) : Apps P A w := ⟨.init junk data, fun _ => 1⟩

inductive AppStep (v : Version) (op : P → Op) (n : P → ℕ) (s : Apps P A w) :
    P × Move A w → Apps P A w → Prop
  | read {p : P} {t : System P A w} :
      op p = .read → s.i p ≤ n p → Step v s.driver (p, .readLock) t →
      AppStep v op n s (p, .readLock) { s with driver := t }
  | write {p : P} {t : System P A w} :
      op p = .write → s.i p ≤ n p →
      Step v s.driver (p, .writeLock (BitVec.ofNat w (s.i p))) t →
      AppStep v op n s (p, .writeLock (BitVec.ofNat w (s.i p))) { s with driver := t }
  | inside {p : P} {m : Move A w} {t : System P A w} :
      m.Inside → Step v s.driver (p, m) t → AppStep v op n s (p, m) { s with driver := t }
  | returns {p : P} {m : Move A w} {t : System P A w} :
      m.Returns → Step v s.driver (p, m) t →
      AppStep v op n s (p, m) ⟨t, Function.update s.i p (s.i p + 1)⟩

end Model

section Iterations

variable {P : Type} {w : ℕ} {op : P → Op} {n i j : P → ℕ} {r r' : Register.State P (BitVec w)}
  {p q : P} {m : Register.Move (BitVec w)}

inductive Iterates [DecidableEq P] (op : P → Op) (n i : P → ℕ) :
    P × Register.Move (BitVec w) → (P → ℕ) → Prop
  | readCall {p : P} : op p = .read → i p ≤ n p → Iterates op n i (p, .readCall) i
  | writeCall {p : P} :
      op p = .write → i p ≤ n p → Iterates op n i (p, .writeCall (BitVec.ofNat w (i p))) i
  | sample {p : P} : Iterates op n i (p, .sample) i
  | assign {p : P} {x : BitVec w} : Iterates op n i (p, .assign x) i
  | readReturn {p : P} {x : BitVec w} :
      Iterates op n i (p, .readReturn x) (Function.update i p (i p + 1))
  | writeReturn {p : P} : Iterates op n i (p, .writeReturn) (Function.update i p (i p + 1))

def Writes (value : BitVec w) (i n : ℕ) : Register.Call (BitVec w) → Prop
  | .idle => value.toNat + 1 = i ∧ i ≤ n + 1
  | .writing x => value.toNat + 1 = i ∧ i ≤ n ∧ x = BitVec.ofNat w i
  | .written => value.toNat = i ∧ i ≤ n
  | .reading | .sampled _ => False

lemma Writes.le {value : BitVec w} {i n : ℕ} {c : Register.Call (BitVec w)}
    (h : Writes value i n c) : value.toNat ≤ i := by
  cases c with
  | idle | writing => exact Nat.le_of_succ_le h.1.le
  | written => exact h.1.le
  | reading | sampled => exact h.elim

lemma Writes.last {value : BitVec w} {i n : ℕ} {c : Register.Call (BitVec w)}
    (h : Writes value i n c) (hi : i = n + 1) : value.toNat = n := by
  subst hi
  cases c with
  | idle => exact Nat.succ.inj h.1
  | writing => exact absurd h.2.1 (Nat.not_succ_le_self n)
  | written => exact absurd h.2 (Nat.not_succ_le_self n)
  | reading | sampled => exact h.elim

def Reads : Register.Call (BitVec w) → Prop
  | .writing _ | .written => False
  | _ => True

structure Counts (op : P → Op) (n i : P → ℕ) (r : Register.State P (BitVec w)) : Prop where
  reader : ∀ p, op p = .read → Reads (r.call p)
  writer : ∀ p, op p = .write → Writes r.value (i p) (n p) (r.call p)

variable [DecidableEq P]

lemma Counts.set (h : Counts op n i r) {c : Register.Call (BitVec w)} {k : ℕ}
    (hreader : op p = .read → Reads c) (hwriter : op p = .write → Writes r.value k (n p) c) :
    Counts op n (Function.update i p k) (r.set p c) := by
  refine ⟨fun q hq => ?_, fun q hq => ?_⟩ <;> by_cases hqp : q = p
  · subst hqp
    simpa [Register.State.set] using hreader hq
  · simpa [Register.State.set, hqp] using h.reader q hq
  · subst hqp
    simpa [Register.State.set] using hwriter hq
  · simpa [Register.State.set, hqp] using h.writer q hq

lemma Counts.stay (h : Counts op n i r) {c : Register.Call (BitVec w)}
    (hreader : op p = .read → Reads c) (hwriter : op p = .write → Writes r.value (i p) (n p) c) :
    Counts op n i (r.set p c) := by
  have hset := h.set hreader hwriter
  rwa [Function.update_eq_self] at hset

lemma counts_step (hone : ∀ p q, op p = .write → op q = .write → p = q) (hn : ∀ p, n p < 2 ^ w)
    (h : Counts op n i r) (hs : Register.Step r (p, m) r') (hi : Iterates op n i (p, m) j) :
    Register.Raises BitVec.toNat r (p, m) ∧ Counts op n j r' := by
  have hreader := h.reader p
  have hwriter := h.writer p
  cases hs with
  | readCall hp =>
    cases hi with
    | readCall hop _ =>
      refine ⟨trivial, h.stay (fun _ => trivial) fun hw => ?_⟩
      rw [hop] at hw
      cases hw
  | sample hp =>
    cases hi
    rw [hp] at hwriter
    exact ⟨trivial, h.stay (fun _ => trivial) fun hw => (hwriter hw).elim⟩
  | readReturn hp =>
    cases hi
    rw [hp] at hwriter
    exact ⟨trivial, h.set (fun _ => trivial) fun hw => (hwriter hw).elim⟩
  | writeCall hp =>
    cases hi with
    | writeCall hop hle =>
      rw [hp] at hwriter
      refine ⟨trivial, h.stay (fun hr => ?_) fun hw => ⟨(hwriter hw).1, hle, rfl⟩⟩
      rw [hop] at hr
      cases hr
  | @assign _ x hp =>
    cases hi
    rw [hp] at hreader hwriter
    have hop : op p = .write := by
      cases hop : op p with
      | read => exact (hreader hop).elim
      | write => rfl
    obtain ⟨hvalue, hle, rfl⟩ := hwriter hop
    have hnat : (BitVec.ofNat w (i p)).toNat = i p := by
      rw [BitVec.toNat_ofNat, Nat.mod_eq_of_lt]
      exact hle.trans_lt (hn p)
    have hraises : r.value.toNat ≤ (BitVec.ofNat w (i p)).toNat := by omega
    refine ⟨hraises, fun q hq => ?_, fun q hq => ?_⟩
    · have hne : q ≠ p := by
        rintro rfl
        rw [hop] at hq
        cases hq
      simpa [Register.State.set, hne] using h.reader q hq
    · obtain rfl := hone q p hq hop
      simpa [Register.State.set, Writes, hnat] using hle
  | writeReturn hp =>
    cases hi
    rw [hp] at hreader hwriter
    refine ⟨trivial, h.set (fun hr => (hreader hr).elim) fun hw => ?_⟩
    obtain ⟨hvalue, hle⟩ := hwriter hw
    exact ⟨congrArg (· + 1) hvalue, Nat.succ_le_succ hle⟩

end Iterations

section Results

variable {P A : Type} {w : ℕ} [DecidableEq P] [DecidableEq A] {v : Version} {op : P → Op}
  {n : P → ℕ} {s t : Apps P A w} {l : P × Move A w} {ls : List (P × Move A w)}
  {g : Register.Seen P ℕ} {junk : Heap A (BitVec w)} {data : A}

lemma AppStep.step (h : AppStep v op n s l t) : Step v s.driver l t.driver := by
  cases h with
  | read _ _ h | write _ _ h | inside _ h | returns _ h => exact h

lemma app_iterates {p : P} {m : Move A w} (h : AppStep v op n s (p, m) t) :
    match m.register with
    | none => t.i = s.i
    | some m => Iterates op n s.i (p, m) t.i := by
  cases h with
  | read hop hle _ => exact .readCall hop hle
  | write hop hle _ => exact .writeCall hop hle
  | inside hin _ =>
    cases m <;> first | rfl | exact .sample | exact .assign | exact hin.elim
  | returns hret _ =>
    cases m <;> first | exact .readReturn | exact .writeReturn | exact hret.elim

/-- A read prints its value after its load and again before it ends. -/
def see (g : Register.Seen P ℕ) (l : P × Move A w) : Register.Seen P ℕ :=
  match l.2 with
  | .print data => g.shown data.toNat
  | _ =>
    match labels l with
    | none => g
    | some m => g.observe BitVec.toNat m

def seen (ls : List (P × Move A w)) : Register.Seen P ℕ := ls.foldl see (.init 0)

structure Climbs (v : Version) (op : P → Op) (n : P → ℕ) (s : Apps P A w)
    (g : Register.Seen P ℕ) : Prop where
  safe : Safe v s.driver
  apart : Apart s.driver
  counts : Counts op n s.i s.driver.register
  rising : Register.Rising BitVec.toNat s.driver.register g

lemma print_sampled {d d' : System P A w} {p : P} {m : Move A w} {x : BitVec w} (hsafe : Safe v d)
    (hapart : Apart d) (h : Step v d (p, m) d') (hm : m = .print x) :
    d.register.call p = .sampled x := by
  have hval : ∀ {a : A} {y : BitVec w}, d.heap.read a = .ok y → d.heap.val a = y := by
    intro a y hread
    rw [Heap.read] at hread
    split at hread
    · exact Except.ok.inj hread
    · cases hread
  have hsound := hsafe.read p
  cases h with
  | @print _ old data hp hread =>
    cases hm
    have hcall : d.call p = _ := call_of_ne (hapart.reading (by simp [hp]))
    rw [hp, ReadPhase.call, hval hread] at hcall
    exact hcall
  | @printAgain _ old data again hp hread =>
    cases hm
    have hcall : d.call p = _ := call_of_ne (hapart.reading (by simp [hp]))
    rw [hp] at hsound
    rw [hp, ReadPhase.call, hsound.2, hval hread] at hcall
    exact hcall
  | _ => cases hm

omit [DecidableEq A] in
lemma see_labels {g : Register.Seen P ℕ} {p : P} {m : Move A w} (hm : ∀ x, m ≠ .print x) :
    see g (p, m) = match labels (p, m) with
      | none => g
      | some m => g.observe BitVec.toNat m := by
  cases m <;> first | rfl | exact absurd rfl (hm _)

lemma climbs_step (hone : ∀ p q, op p = .write → op q = .write → p = q) (hn : ∀ p, n p < 2 ^ w)
    (h : Climbs v op n s g) (hs : AppStep v op n s l t) : Climbs v op n t (see g l) := by
  obtain ⟨p, m⟩ := l
  have hregister := step_register h.safe h.apart hs.step
  have hiterates := app_iterates hs
  have hsafe := safe_step h.safe hs.step
  have hapart := apart_step h.apart hs.step
  cases hm : m.register with
  | none =>
    rw [hm] at hiterates
    have hlabel : labels (p, m) = none := by simp [labels, hm]
    rw [hlabel] at hregister
    have hsame : t.driver.register = s.driver.register := hregister
    refine ⟨hsafe, hapart, ?_, ?_⟩
    · rw [hsame, hiterates]
      exact h.counts
    · rw [hsame]
      by_cases hprint : ∃ x, m = .print x
      · obtain ⟨x, rfl⟩ := hprint
        exact h.rising.shown (print_sampled h.safe h.apart hs.step rfl)
      · rw [see_labels (not_exists.mp hprint), hlabel]
        exact h.rising
  | some m' =>
    rw [hm] at hiterates
    have hlabel : labels (p, m) = some (p, m') := by simp [labels, hm]
    rw [hlabel] at hregister
    obtain ⟨hraises, hcounts⟩ := counts_step hone hn h.counts hregister hiterates
    have hprint : ∀ x, m ≠ .print x := by
      rintro x rfl
      cases hm
    refine ⟨hsafe, hapart, hcounts, ?_⟩
    rw [see_labels hprint, hlabel]
    exact Register.rising_step h.rising hregister hraises

lemma climbs_run (hone : ∀ p q, op p = .write → op q = .write → p = q) (hn : ∀ p, n p < 2 ^ w)
    (h : Run (AppStep v op n) (.init junk data) ls s) : Climbs v op n s (seen ls) := by
  have hstep : ∀ (s : Apps P A w) g l t, Climbs v op n s g → AppStep v op n s l t →
      Climbs v op n t (see g l) := fun _ _ _ _ => climbs_step hone hn
  refine h.observed hstep ⟨safe_init, ?_, ?_, ?_⟩
  · rintro u ⟨⟩
  · have hinit : (Apps.init junk data : Apps P A w).driver.register = .init 0 := register_init
    rw [hinit]
    exact ⟨fun _ _ => trivial, fun p _ => ⟨by simp [Register.State.init, Apps.init],
      Nat.le_add_left 1 (n p)⟩⟩
  · have hinit : (Apps.init junk data : Apps P A w).driver.register = .init 0 := register_init
    rw [hinit]
    refine ⟨Nat.zero_le _, ?_, ?_⟩
    · intro p hp
      cases hp
    · intro p x hp
      cases hp

theorem iterations_rise (hone : ∀ p q, op p = .write → op q = .write → p = q)
    (hn : ∀ p, n p < 2 ^ w) (h : Run (AppStep v op n) (.init junk data) ls s) :
    (∀ p x t, AppStep v op n s (p, .print x) t → (seen ls).floor p ≤ x.toNat ∧
      ∀ q, op q = .write → x.toNat ≤ s.i q) ∧
    (∀ p x y t, AppStep v op n s (p, .readUnlock x y) t → x = y) ∧
    ∀ p, op p = .write → s.i p = n p + 1 →
      s.driver.heap.read s.driver.myData = .ok (BitVec.ofNat w (n p)) := by
  have hc := climbs_run hone hn h
  refine ⟨?_, ?_, ?_⟩
  · intro p x t ht
    obtain ⟨hfloor, hle⟩ := hc.rising.sampled p x (print_sampled hc.safe hc.apart ht.step rfl)
    exact ⟨hfloor, fun q hq => hle.trans (hc.counts.writer q hq).le⟩
  · intro p x y t ht
    have hread := hc.safe.read p
    rw [readUnlock_inv ht.step rfl] at hread
    exact hread
  · intro p hp hi
    have hvalue := (hc.counts.writer p hp).last hi
    rw [Heap.read_of_live hc.safe.live, ← hvalue, BitVec.ofNat_toNat, BitVec.setWidth_eq]
    rfl

def onlyWriter (p q : P) : Op := if q = p then .write else .read

theorem iterations_rise_two : ∃ (ls : List (Fin 3 × Move ℕ 64)) (s : Apps (Fin 3) ℕ 64),
    Run (AppStep .simpleRcu (onlyWriter 1) fun _ => 1) (.init ⟨fun _ => false, fun _ => 0⟩ 0) ls s ∧
      s.i 1 = 2 ∧ s.driver.heap.read s.driver.myData = .ok 1 ∧ (seen ls).floor 2 = 1 ∧
      ∀ x t, AppStep .simpleRcu (onlyWriter 1) (fun _ => 1) s (2, .print x) t →
        1 ≤ x.toNat ∧ x.toNat ≤ 2 := by
  obtain ⟨s, hrun, hi⟩ : ∃ s : Apps (Fin 3) ℕ 64,
      Run (AppStep .simpleRcu (onlyWriter 1) fun _ => 1) (.init ⟨fun _ => false, fun _ => 0⟩ 0)
        [(1, .writeLock 1), (1, .work), (1, .work), (1, .work), (1, .assign 0 1), (1, .work),
          (1, .work), (1, .kfree 0), (1, .writeUnlock), (0, .readLock), (0, .load), (0, .print 1),
          (2, .readLock), (2, .load)] s ∧ s.i 1 = 2 := by
    refine ⟨_, .cons (.write rfl le_rfl (.writeLock rfl rfl))
      (.cons (.inside trivial (@Step.kmalloc _ _ _ _ _ _ _ 1 1 0 5 rfl rfl))
      (.cons (.inside trivial (.store rfl rfl)) (.cons (.inside trivial (.loadOld rfl))
      (.cons (.inside trivial (.assign rfl)) (.cons (.inside trivial (.synchronizeRcu rfl))
      (.cons (.inside trivial (.synchronized rfl fun _ => rfl))
      (.cons (.inside trivial (.kfree rfl rfl))
      (.cons (.returns trivial (.writeUnlock rfl))
      (.cons (.read rfl le_rfl (.readLock rfl nofun trivial))
      (.cons (.inside trivial (.load rfl)) (.cons (.inside trivial (.print rfl rfl))
      (.cons (.read rfl le_rfl (.readLock rfl nofun trivial))
      (.cons (.inside trivial (.load rfl)) .nil))))))))))))), rfl⟩
  obtain ⟨hprint, -, hlast⟩ := iterations_rise (by decide) (fun _ => by decide) hrun
  refine ⟨_, s, hrun, hi, hlast 1 rfl hi, rfl, fun x t ht => ?_⟩
  obtain ⟨hfloor, hle⟩ := hprint 2 x t ht
  exact ⟨hfloor, (hle 1 rfl).trans_eq hi⟩

end Results

end EmbeddedSystem.Challenge9
