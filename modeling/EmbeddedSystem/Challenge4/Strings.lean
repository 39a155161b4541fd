import EmbeddedSystem.Challenge4.Driver
import EmbeddedSystem.Foundations.Runs

/-! The strings that `ch4_mod_201711395.c` stores and prints. `ch4_write` compares the length in the
user's buffer with `BUF_SIZE`, and copies the buffer afterwards; in between, another thread may have
written to it. -/

namespace EmbeddedSystem.Challenge4

open Kernel Foundations

def MsgSt.str (m : MsgSt) : Fin 128 → UInt8 := fun i => m.bytes ⟨i.val + 4, by omega⟩

/-- `ch4_write` when the check reads `len`, and the copy reads `userBuf`. -/
def ch4WriteReread (o : Outcome) (s : Driver) (len : BitVec 32) (userBuf : MsgSt) :
    Except Fault (Driver × Reply) :=
  if len.toInt ≥ bufSize then
    return (s, ⟨-1, none, none⟩)
  else do
    if !o.vmalloc then throw .null
    let (bytes, ret) ← userCopy o MsgSt.zero.bytes userBuf.bytes sizeofMsgSt
    if !o.kmalloc then throw .null
    return (⟨s.msgList ++ [⟨bytes⟩], s.msgCount + 1⟩, ⟨ret, some (.appended ⟨bytes⟩), none⟩)

lemma ch4Write_eq (o : Outcome) (s : Driver) (userBuf : MsgSt) :
    ch4Write o s userBuf = ch4WriteReread o s userBuf.len userBuf := rfl

def MsgSt.text (m : MsgSt) : Except Fault (List UInt8) := do
  let n ← strlen m.str
  return (List.ofFn m.str).take n

def printAll (s : Driver) : Except Fault (List (ℕ × List UInt8)) :=
  s.msgList.zipIdx.mapM fun m => do return (m.2, ← m.1.text)

def procCh4Show : Driver → Except Fault (List (ℕ × List UInt8)) := printAll

def ch4ExitPrint : Driver → Except Fault (List (ℕ × List UInt8)) := printAll

def ch4ReadPrint (s : Driver) : Except Fault (List UInt8) :=
  match s.msgList with
  | [] => throw .listHead
  | tmp :: _ => tmp.text

inductive Request
  | read (o : Outcome) (userBuf : MsgSt)
  | write (o : Outcome) (len : BitVec 32) (userBuf : MsgSt)

def Request.serve (s : Driver) : Request → Except Fault (Driver × Reply)
  | .read o userBuf => ch4ReadTake o s userBuf
  | .write o len userBuf => ch4WriteReread o s len userBuf

def RequestStep (s : Driver) (r : Request) (t : Driver) : Prop := ∃ y, r.serve s = .ok (t, y)

def Fits (m : MsgSt) : Prop := (0 ≤ m.len.toInt ∧ m.len.toInt < bufSize) ∧ Terminated m.str

def Printable (s : Driver) : Prop :=
  (∃ lines, procCh4Show s = .ok lines) ∧ (∃ lines, ch4ExitPrint s = .ok lines) ∧
    (s.msgList ≠ [] → ∃ text, ch4ReadPrint s = .ok text)

def received (o : Outcome) (userBuf : MsgSt) : MsgSt :=
  ⟨copyBytes MsgSt.zero.bytes userBuf.bytes (sizeofMsgSt - min o.uncopied sizeofMsgSt)⟩

/-- The length that is copied is in the bounds, and some byte of the string is 0 or not copied. -/
def Proper (o : Outcome) (userBuf : MsgSt) : Prop :=
  (0 ≤ (received o userBuf).len.toInt ∧ (received o userBuf).len.toInt < bufSize) ∧
    (0 < o.uncopied ∨ Terminated userBuf.str)

section Printing

variable {s : Driver} {m : MsgSt}

lemma text_total (h : Terminated m.str) : ∃ text, m.text = .ok text := by
  rw [MsgSt.text, strlen_of_terminated h]
  exact ⟨_, rfl⟩

lemma mapM_total {α β : Type} {f : α → Except Fault β} {xs : List α}
    (h : ∀ x ∈ xs, ∃ y, f x = .ok y) : ∃ ys, xs.mapM f = .ok ys := by
  induction xs with
  | nil => exact ⟨[], rfl⟩
  | cons x xs ih =>
    obtain ⟨y, hy⟩ := h x (by simp)
    obtain ⟨ys, hys⟩ := ih fun x' hx' => h x' (by simp [hx'])
    refine ⟨y :: ys, ?_⟩
    rw [List.mapM_cons, hy, ok_bind, hys]
    rfl

lemma printAll_total (h : ∀ m ∈ s.msgList, Terminated m.str) :
    ∃ lines, printAll s = .ok lines := by
  apply mapM_total
  rintro ⟨m, i⟩ hm
  obtain ⟨text, htext⟩ := text_total (h m (List.fst_mem_of_mem_zipIdx hm))
  refine ⟨(i, text), ?_⟩
  rw [htext]
  rfl

lemma printable (h : ∀ m ∈ s.msgList, Terminated m.str) : Printable s := by
  refine ⟨printAll_total h, printAll_total h, ?_⟩
  intro hlist
  rw [ch4ReadPrint]
  cases hq : s.msgList with
  | nil => exact absurd hq hlist
  | cons tmp rest => exact text_total (h tmp (by simp [hq]))

end Printing

section Writes

variable {o : Outcome} {s t : Driver} {y : Reply} {len : BitVec 32} {userBuf : MsgSt}

lemma terminated_received :
    Terminated (received o userBuf).str ↔ 0 < o.uncopied ∨ Terminated userBuf.str := by
  by_cases ho : 0 < o.uncopied
  · refine iff_of_true ⟨⟨127, by decide⟩, ?_⟩ (Or.inl ho)
    have hlast : ¬ 127 + 4 < sizeofMsgSt - min o.uncopied sizeofMsgSt := by
      change ¬ 131 < 132 - min o.uncopied 132
      omega
    exact if_neg hlast
  · have hall : received o userBuf = userBuf := by
      have hzero : o.uncopied = 0 := by omega
      rw [received, hzero]
      exact congrArg MsgSt.mk (funext fun i => if_pos i.isLt)
    rw [hall]
    exact ⟨Or.inr, fun h => h.resolve_left ho⟩

lemma fits_received : Fits (received o userBuf) ↔ Proper o userBuf :=
  and_congr_right fun _ => terminated_received

lemma ch4WriteReread_cases (h : ch4WriteReread o s len userBuf = .ok (t, y)) :
    (bufSize ≤ len.toInt ∧ y = ⟨-1, none, none⟩ ∧ t = s) ∨
      ¬ bufSize ≤ len.toInt ∧ y.effect = some (.appended (received o userBuf)) ∧
        t.msgList = s.msgList ++ [received o userBuf] := by
  rw [ch4WriteReread] at h
  split at h
  · next hlen =>
    cases h
    exact Or.inl ⟨hlen, rfl, rfl⟩
  · next hlen =>
    cases hv : o.vmalloc with
    | false => simp [hv] at h; cases h
    | true =>
      cases hm : o.kmalloc with
      | false => simp [hv, hm] at h; cases h
      | true =>
        simp only [hv, hm] at h
        cases h
        exact Or.inr ⟨hlen, rfl, rfl⟩

end Writes

section Runs

variable {s t : Driver} {rs : List Request}

lemma fits_step {r : Request} (hs : ∀ m ∈ s.msgList, Fits m) (h : RequestStep s r t)
    (hr : ∀ o len userBuf, r = .write o len userBuf → bufSize ≤ len.toInt ∨ Proper o userBuf) :
    ∀ m ∈ t.msgList, Fits m := by
  obtain ⟨y, h⟩ := h
  cases r with
  | read o userBuf =>
    rw [Request.serve, ch4ReadTake] at h
    cases hq : s.msgList with
    | nil =>
      rw [hq] at h
      cases h
    | cons tmp rest =>
      rw [hq] at h
      cases h
      exact fun m hm => hs m (by simp [hq, hm])
  | write o len userBuf =>
    obtain ⟨-, -, rfl⟩ | ⟨hlen, -, ht⟩ := ch4WriteReread_cases h
    · exact hs
    · have hproper := (hr o len userBuf rfl).resolve_left hlen
      intro m hm
      rw [ht, List.mem_append, List.mem_singleton] at hm
      obtain hm | rfl := hm
      · exact hs m hm
      · exact fits_received.mpr hproper

theorem writes_fit_iff (rs : List Request) :
    ((∀ js o len userBuf ks t u y, rs = js ++ .write o len userBuf :: ks →
        Run RequestStep .init js t → ch4WriteReread o t len userBuf = .ok (u, y) →
        (∃ m, y.effect = some (.appended m) ∧ u.msgList = t.msgList ++ [m] ∧ Fits m) ∨
          y = ⟨-1, none, none⟩ ∧ u = t) ∧
      ∀ js ks t, rs = js ++ ks → Run RequestStep .init js t → Printable t) ↔
    ∀ js o len userBuf ks t u, rs = js ++ .write o len userBuf :: ks →
      Run RequestStep .init js t → RequestStep t (.write o len userBuf) u →
      bufSize ≤ len.toInt ∨ Proper o userBuf := by
  constructor
  · rintro ⟨h, -⟩ js o len userBuf ks t u hsplit ht ⟨y, hu⟩
    obtain ⟨hlen, -, -⟩ | ⟨hlen, hy, -⟩ := ch4WriteReread_cases hu
    · exact Or.inl hlen
    · obtain ⟨m, hm, -, hfits⟩ | ⟨rfl, -⟩ := h js o len userBuf ks t u y hsplit ht hu
      · rw [hy] at hm
        cases hm
        exact Or.inr (fits_received.mp hfits)
      · cases hy
  · intro h
    refine ⟨?_, ?_⟩
    · intro js o len userBuf ks t u y hsplit ht hu
      obtain ⟨-, hy, rfl⟩ | ⟨hlen, hy, hlist⟩ := ch4WriteReread_cases hu
      · exact Or.inr ⟨hy, rfl⟩
      · have hproper := (h js o len userBuf ks t u hsplit ht ⟨y, hu⟩).resolve_left hlen
        exact Or.inl ⟨_, hy, hlist, fits_received.mpr hproper⟩
    · intro js ks t hsplit ht
      have hfits : ∀ m ∈ t.msgList, Fits m := by
        apply ht.induct_prefix (M := fun _ t => ∀ m ∈ t.msgList, Fits m) hsplit nofun
        intro as r bs t u hbs hat ih hu
        apply fits_step ih hu
        rintro o len userBuf rfl
        exact h as o len userBuf bs t u hbs hat hu
      exact printable fun m hm => (hfits m hm).2

def unterminated : MsgSt := ⟨fun i => if i.val < 4 then 0 else 0x61⟩

theorem unterminated_stored : ¬ ∀ (o : Outcome) (s t : Driver) (len : BitVec 32) (userBuf : MsgSt)
    (y : Reply), ch4WriteReread o s len userBuf = .ok (t, y) →
      (∃ m, y.effect = some (.appended m) ∧ t.msgList = s.msgList ++ [m] ∧ Fits m) ∨
        y = ⟨-1, none, none⟩ ∧ t = s := by
  intro h
  obtain ⟨m, hm, -, hfits⟩ | ⟨hy, -⟩ := h .success .init _ 0 unterminated _ rfl
  · cases hm
    obtain ⟨-, hcopied | ⟨i, hi⟩⟩ := fits_received.mp hfits
    · exact absurd hcopied (by decide)
    · have hbyte : unterminated.str i = 0x61 := by simp [unterminated, MsgSt.str]
      rw [hbyte] at hi
      exact absurd hi (by decide)
  · cases hy

end Runs

end EmbeddedSystem.Challenge4
