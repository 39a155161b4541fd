import EmbeddedSystem.Foundations.Runs
import EmbeddedSystem.KuIpc.Effects

/-! The calls of `ku_ipc_lib.c`, made by any number of single-threaded processes over one driver.
A call tests `queue_use`, opens the device, issues its ioctl, tests the result (after which it may
issue the ioctl again), and closes the device and returns. Each ioctl is one step of the driver. -/

namespace EmbeddedSystem.KuIpc

open Kernel Foundations

inductive Verdict
  | again
  | done (ret : ℤ) (queueUse : Fin queueNum → Bool)

/-- A call of the library: the index and the test of `queue_use` on which it returns -1, the
request, and the test of the result, which reads the caller's buffer. -/
structure Routine where
  key : ℤ
  refuses : Bool → Bool
  request : Request
  test : (Fin queueNum → Bool) → ℤ → Msgbuf → Except Fault Verdict

def kuMsgget (key : ℤ) (msgflg : BitVec 32) : Routine where
  key := key
  refuses use := use
  request := .msgget ⟨key, msgflg⟩
  test queueUse ret _ :=
    if ret < 0 then
      return .done ret queueUse
    else do
      let i ← arrayIndex queueNum ret
      return .done ret (Function.update queueUse i true)

def kuMsgclose (msqid : ℤ) : Routine where
  key := msqid
  refuses use := !use
  request := .msgclose msqid
  test queueUse ret _ :=
    if ret < 0 then
      return .done ret queueUse
    else do
      let i ← arrayIndex queueNum msqid
      return .done ret (Function.update queueUse i false)

def kuMsgsnd (msqid : ℤ) (msgp : Msgbuf) (msgsz : ℤ) (msgflg : BitVec 32) : Routine where
  key := msqid
  refuses use := !use
  -- `msgtyp` is not set, and no send reads it
  request := .msgsnd ⟨msqid, msgp, msgsz, 0, msgflg⟩
  test queueUse ret _ :=
    if msgflg &&& kuIpcNowait ≠ 0 then
      return .done ret queueUse
    else if ret < 0 then
      return .again
    else
      return .done ret queueUse

def receivedSize (queueUse : Fin queueNum → Bool) (buf : Msgbuf) : Except Fault Verdict := do
  let n ← strlen buf.text
  return .done (sizeofLong + n + 1) queueUse

def kuMsgrcv (msqid : ℤ) (msgp : Msgbuf) (msgsz : ℤ) (msgtyp : BitVec 64) (msgflg : BitVec 32) :
    Routine where
  key := msqid
  refuses use := !use
  request := .msgrcv ⟨msqid, msgp, msgsz, msgtyp, msgflg⟩
  test queueUse ret buf :=
    if msgflg &&& kuIpcNowait ≠ 0 then
      if ret = -1 then return .done ret queueUse
      else if ret = -2 then return .done (-1) queueUse
      else receivedSize queueUse buf
    else
      if ret = -1 then return .again
      else if ret = -2 then return .done (-1) queueUse
      else receivedSize queueUse buf

inductive Call
  | msgget (key : ℤ) (msgflg : BitVec 32)
  | msgclose (msqid : ℤ)
  | msgsnd (msqid : ℤ) (msgp : Msgbuf) (msgsz : ℤ) (msgflg : BitVec 32)
  | msgrcv (msqid : ℤ) (msgp : Msgbuf) (msgsz : ℤ) (msgtyp : BitVec 64) (msgflg : BitVec 32)
  deriving DecidableEq

def Call.routine : Call → Routine
  | .msgget key msgflg => kuMsgget key msgflg
  | .msgclose msqid => kuMsgclose msqid
  | .msgsnd msqid msgp msgsz msgflg => kuMsgsnd msqid msgp msgsz msgflg
  | .msgrcv msqid msgp msgsz msgtyp msgflg => kuMsgrcv msqid msgp msgsz msgtyp msgflg

lemma Call.of_msgget {c : Call} {q : Qid} (h : c.routine.request = .msgget q) :
    c = .msgget q.key q.msgflg := by
  cases c <;> cases h
  rfl

lemma Call.of_msgclose {c : Call} {msqid : ℤ} (h : c.routine.request = .msgclose msqid) :
    c = .msgclose msqid := by
  cases c <;> cases h
  rfl

def Call.buf : Call → Msgbuf
  | .msgsnd _ msgp _ _ => msgp
  | .msgrcv _ msgp _ _ _ => msgp
  | _ => .zero

inductive Phase
  | idle
  | opening (c : Call)
  | calling (c : Call)
  | testing (c : Call) (ret : ℤ) (buf : Msgbuf)
  | closing (c : Call) (ret : ℤ) (buf : Msgbuf)
  deriving DecidableEq

structure Process where
  queueUse : Fin queueNum → Bool
  phase : Phase

structure System (P : Type) where
  driver : Driver
  process : P → Process

inductive Move
  | call (c : Call)
  | openDev (success : Bool)
  | ioctl (o : Outcome) (y : Reply)
  | test
  | ret (c : Call) (ret : ℤ) (buf : Msgbuf)

def Move.effect : Move → Option Effect
  | .ioctl _ y => y.effect
  | _ => none

variable {P : Type} [DecidableEq P]

def System.init : System P := ⟨.init, fun _ => ⟨fun _ => false, .idle⟩⟩

def System.set (s : System P) (p : P) (queueUse : Fin queueNum → Bool) (phase : Phase) : System P :=
  { s with process := Function.update s.process p ⟨queueUse, phase⟩ }

section Set

variable (s : System P) (p q : P) (use : Fin queueNum → Bool) (ph : Phase)

@[simp] lemma driver_set : (s.set p use ph).driver = s.driver := rfl

@[simp] lemma process_set_self : (s.set p use ph).process p = ⟨use, ph⟩ := by
  simp [System.set]

variable {p q} in
lemma process_set_of_ne (h : q ≠ p) : (s.set p use ph).process q = s.process q := by
  simp [System.set, h]

end Set

def Verdict.next (c : Call) (buf : Msgbuf) (queueUse : Fin queueNum → Bool) :
    Verdict → (Fin queueNum → Bool) × Phase
  | .again => (queueUse, .calling c)
  | .done ret queueUse' => (queueUse', .closing c ret buf)

inductive Step (s : System P) : P × Move → System P → Prop
  | refused {p : P} {c : Call} {i : Fin queueNum} :
      (s.process p).phase = .idle → arrayIndex queueNum c.routine.key = .ok i →
      c.routine.refuses ((s.process p).queueUse i) = true →
      Step s (p, .call c) (s.set p (s.process p).queueUse (.closing c (-1) c.buf))
  | call {p : P} {c : Call} {i : Fin queueNum} :
      (s.process p).phase = .idle → arrayIndex queueNum c.routine.key = .ok i →
      c.routine.refuses ((s.process p).queueUse i) = false →
      Step s (p, .call c) (s.set p (s.process p).queueUse (.opening c))
  | opened {p : P} {c : Call} : (s.process p).phase = .opening c →
      Step s (p, .openDev true) (s.set p (s.process p).queueUse (.calling c))
  | unopened {p : P} {c : Call} : (s.process p).phase = .opening c →
      Step s (p, .openDev false) (s.set p (s.process p).queueUse (.closing c (-1) c.buf))
  | ioctl {p : P} {c : Call} {o : Outcome} {d : Driver} {y : Reply} :
      (s.process p).phase = .calling c → kuIpcIoctl o s.driver c.routine.request = .ok (d, y) →
      Step s (p, .ioctl o y) ({ s with driver := d }.set p (s.process p).queueUse
        (.testing c (ioctlReturn y.ret) (y.buf.getD c.buf)))
  | test {p : P} {c : Call} {ret : ℤ} {buf : Msgbuf} {v : Verdict} :
      (s.process p).phase = .testing c ret buf →
      c.routine.test (s.process p).queueUse ret buf = .ok v →
      Step s (p, .test) (s.set p (v.next c buf (s.process p).queueUse).1
        (v.next c buf (s.process p).queueUse).2)
  | ret {p : P} {c : Call} {ret : ℤ} {buf : Msgbuf} : (s.process p).phase = .closing c ret buf →
      Step s (p, .ret c ret buf) (s.set p (s.process p).queueUse .idle)

lemma Step.others {s t : System P} {p q : P} {m : Move} (h : Step s (p, m) t) (hq : q ≠ p) :
    t.process q = s.process q := by
  cases h with
  | ioctl => exact process_set_of_ne _ _ _ hq
  | _ => exact process_set_of_ne _ _ _ hq

lemma step_changes {s t : System P} {p : P} {m : Move} (h : Step s (p, m) t) :
    Changes s.driver t.driver m.effect := by
  cases h with
  | ioctl _ hd => exact kuIpcIoctl_changes hd
  | _ => rfl

lemma Step.deterministic {s t t' : System P} {l : P × Move} (h : Step s l t) (h' : Step s l t') :
    t = t' := by
  cases h with
  | refused hph hi hr =>
    cases h' with
    | refused => rfl
    | call _ hi' hr' =>
      obtain rfl := Except.ok.inj (hi.symm.trans hi')
      exact absurd (hr.symm.trans hr') (by decide)
  | call hph hi hr =>
    cases h' with
    | call => rfl
    | refused _ hi' hr' =>
      obtain rfl := Except.ok.inj (hi.symm.trans hi')
      exact absurd (hr.symm.trans hr') (by decide)
  | opened hph | unopened hph =>
    cases h' with
    | _ hph' =>
      cases hph.symm.trans hph'
      rfl
  | ioctl hph hd =>
    cases h' with
    | ioctl hph' hd' =>
      cases hph.symm.trans hph'
      obtain ⟨rfl, -⟩ := Prod.mk.inj (Except.ok.inj (hd.symm.trans hd'))
      rfl
  | test hph hv =>
    cases h' with
    | test hph' hv' =>
      cases hph.symm.trans hph'
      obtain rfl := Except.ok.inj (hv.symm.trans hv')
      rfl
  | ret =>
    cases h'
    rfl

def perProcess {γ : Type} (f : γ → Move → γ) (g : P → γ) (l : P × Move) : P → γ :=
  Function.update g l.1 (f (g l.1) l.2)

def history {γ : Type} (f : γ → Move → γ) (x : γ) (ls : List (P × Move)) : P → γ :=
  ls.foldl (perProcess f) fun _ => x

lemma history_prod {γ δ : Type} (f : γ → Move → γ) (f' : δ → Move → δ) (x : γ) (x' : δ)
    (ls : List (P × Move)) (p : P) :
    history (fun y m => (f y.1 m, f' y.2 m)) (x, x') ls p =
      (history f x ls p, history f' x' ls p) := by
  induction ls using List.reverseRecOn with
  | nil => rfl
  | append_singleton ls l ih =>
    simp only [history, List.foldl_append, List.foldl_cons, List.foldl_nil] at ih ⊢
    by_cases hp : p = l.1
    · subst hp
      simp only [perProcess, Function.update_self, ih]
    · simpa only [perProcess, Function.update_of_ne hp] using ih

lemma history_invariant {γ : Type} {f : γ → Move → γ} {x : γ} {L : Process → γ → Prop}
    {C : System P → P × Move → Prop}
    (hmove : ∀ s p m t y, L (s.process p) y → Step s (p, m) t → C s (p, m) →
      L (t.process p) (f y m))
    (hinit : L ⟨fun _ => false, .idle⟩ x) {ls : List (P × Move)} {s : System P}
    (h : Run (Guarded Step C) .init ls s) (p : P) : L (s.process p) (history f x ls p) := by
  suffices hall : ∀ p, L (s.process p) (ls.foldl (perProcess f) (fun _ => x) p) from hall p
  refine Run.observed (I := fun (s : System P) (g : P → γ) => ∀ p, L (s.process p) (g p)) ?_ h
    fun _ => hinit
  rintro s g ⟨p, m⟩ t hs ⟨hstep, hc⟩ q
  by_cases hq : q = p
  · subst hq
    rw [perProcess, Function.update_self]
    exact hmove s q m t (g q) (hs q) hstep hc
  · rw [perProcess, Function.update_of_ne hq, hstep.others hq]
    exact hs q

end EmbeddedSystem.KuIpc
