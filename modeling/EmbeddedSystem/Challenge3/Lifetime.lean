import EmbeddedSystem.Challenge3.Memory
import EmbeddedSystem.Foundations.Runs

namespace EmbeddedSystem.Challenge3.Memory

open Kernel Foundations
open Challenge4 (MsgSt Reply sizeofMsgSt)

variable {A B : Type} [DecidableEq A] [DecidableEq B]

section Calls

variable {m t : System A B} {q : Unit → List A} {xs : List A} {a : A} {s : Driver}
  {userBuf : MsgSt} {r : Request} {y : Reply}

def Represents (m : System A B) (s : Driver) : Prop :=
  ∃ q, m.Linked q ∧ m.contents (q ()) = s.msgList

omit [DecidableEq B] in
lemma listEmpty_iff (h : m.Linked q) : m.lists.listEmpty () = true ↔ q () = [] := by
  have hring := h.ring ()
  cases hq : q () with
  | nil =>
    rw [hq] at hring
    simp [Lists.listEmpty, hring.1]
  | cons a xs =>
    rw [hq] at hring
    simp [Lists.listEmpty, hring.1]

lemma ch3Read_nil (h : m.Linked q) (hq : q () = []) :
    ch3Read .success m userBuf = .ok (m, ⟨-1, none, none⟩) := by
  rw [ch3Read, if_pos ((listEmpty_iff h).mpr hq)]
  rfl

lemma ch3Read_cons (h : m.Linked q) (hq : q () = a :: xs) (ha : m.lists.nodes.live a = true)
    (hb : m.bufs.live (m.lists.nodes.val a) = true) :
    ch3Read .success m userBuf = .ok (m.removed a ha hb,
      ⟨0, some (.removed (m.bufs.val (m.lists.nodes.val a))),
        some (m.bufs.val (m.lists.nodes.val a))⟩) := by
  have hempty : ¬ m.lists.listEmpty () = true := by
    rw [listEmpty_iff h, hq]
    exact List.cons_ne_nil a xs
  have hring := h.ring ()
  rw [hq] at hring
  rw [ch3Read, if_neg hempty, Lists.getNext_of_live rfl, hring.1]
  simp only [ok_bind, Ptr.entry, Ledger.read_of_live ha, Ledger.read_of_live hb, copy_whole]
  have hsplit : q () = [] ++ a :: xs := hq
  exact h.removed_eq hsplit ha hb fun m => (m, _)

lemma ch3Write_accepts (h : m.Linked q) (new : Fresh m) (hlen : ¬ userBuf.len.toInt ≥ 128) :
    ch3Write .success m new userBuf =
      .ok (m.appended new () userBuf, ⟨0, some (.appended userBuf), none⟩) := by
  have hbuf := Messages.live_new_buf new
  have hnode := Messages.live_new_node new
  rw [ch3Write, if_neg hlen]
  simp only [Outcome.success, Bool.not_true, Bool.false_eq_true, if_false]
  apply bind_ok.mpr
  refine ⟨_, Ledger.write_of_live hbuf _, ?_⟩
  apply bind_ok.mpr
  refine ⟨_, Ledger.read_of_live hbuf, ?_⟩
  apply bind_ok.mpr
  refine ⟨_, copy_whole _ _, ?_⟩
  apply bind_ok.mpr
  refine ⟨_, Ledger.write_of_live (by simp) _, ?_⟩
  apply bind_ok.mpr
  refine ⟨_, Lists.store_of_live hnode _, ?_⟩
  apply bind_ok.mpr
  refine ⟨_, Ledger.read_of_live hnode, ?_⟩
  apply bind_ok.mpr
  refine ⟨_, Ledger.read_of_live (by simp), ?_⟩
  apply bind_ok.mpr
  refine ⟨_, h.listAddTail new (), ?_⟩
  rw [Ledger.stored_stored]
  rfl

lemma ch3Ioctl_represents (h : Represents m s) (new : Fresh m) (r : Request) :
    ∃ t s' y, ch3Ioctl .success m new r = .ok (t, y) ∧
      Challenge3.ch3Ioctl .success s r = .ok (s', y) ∧ Represents t s' := by
  obtain ⟨q, hq, hlist⟩ := h
  cases r with
  | read userBuf =>
    cases hxs : q () with
    | nil =>
      rw [hxs] at hlist
      refine ⟨m, s, _, ch3Read_nil hq hxs, ?_, q, hq, ?_⟩
      · rw [Challenge3.ch3Ioctl, Challenge3.ch3Read, ← hlist]
        rfl
      · rw [hxs, hlist]
    | cons a xs =>
      have ha := hq.live_of_mem (k := ()) (a := a) (by simp [hxs])
      have hb := Messages.live_buf hq.bufs ha
      have hxs' : q () = [] ++ a :: xs := hxs
      rw [hxs] at hlist
      refine ⟨_, _, _, ch3Read_cons hq hxs ha hb, Challenge3.ch3Read_cons hlist.symm, _,
        hq.removed hxs', ?_⟩
      rw [Function.update_self]
      rfl
  | write userBuf =>
    by_cases hlen : userBuf.len.toInt ≥ 128
    · refine ⟨m, s, _, ?_, Challenge3.ch3Write_rejects hlen, q, hq, hlist⟩
      rw [ch3Ioctl, ch3Write, if_pos hlen]
      rfl
    · refine ⟨_, _, _, ch3Write_accepts hq new hlen, Challenge3.ch3Write_accepts hlen, _,
        hq.appended new () userBuf, ?_⟩
      rw [Function.update_self, Messages.contents_append, hq.contents_appended,
        Messages.contents_new, hlist]
  | unknown => exact ⟨m, s, _, rfl, rfl, q, hq, hlist⟩

end Calls

section Exit

variable {m : System A B} {q : Unit → List A}

omit [DecidableEq B] in
lemma exitBody_inv {a : A} {s t : System A B} (h : exitBody (.node a) s = .ok t) :
    t.lists.next = s.lists.next ∧ t.lists.prev = s.lists.prev ∧
      ∀ b, b ≠ a → t.lists.nodes.live b = s.lists.nodes.live b := by
  obtain ⟨tmp, htmp, h⟩ := bind_ok.mp h
  cases htmp
  obtain ⟨msg, -, h⟩ := bind_ok.mp h
  obtain ⟨str, -, h⟩ := bind_ok.mp h
  obtain ⟨lists, hfree, h⟩ := bind_ok.mp h
  cases h
  exact Lists.kfree_inv hfree

structure Left (m : System A B) (xs : List A) (s : System A B) : Prop where
  bufs : s.bufs = m.bufs
  val : s.lists.nodes.val = m.lists.nodes.val
  nodup : xs.Nodup
  live : ∀ a, s.lists.nodes.live a = true ↔ a ∈ xs
  liveBufs : ∀ a ∈ xs, m.bufs.live (m.lists.nodes.val a) = true

omit [DecidableEq B] in
lemma Left.free {a : A} {xs : List A} {s : System A B} (h : Left m (a :: xs) s) :
    ∃ t, exitBody (.node a) s = .ok t ∧ Left m xs t := by
  obtain ⟨hbufs, hval, hnodup, hlive, hliveBufs⟩ := h
  obtain ⟨hout, hnodup⟩ := List.nodup_cons.mp hnodup
  have ha : s.lists.nodes.live a = true := (hlive a).mpr List.mem_cons_self
  have hb : s.bufs.live (s.lists.nodes.val a) = true := by
    rw [hbufs, hval]
    exact hliveBufs a List.mem_cons_self
  refine ⟨{ s with lists := { s.lists with nodes := s.lists.nodes.freed a ha } }, ?_, hbufs, hval,
    hnodup, ?_, fun b hb => hliveBufs b (List.mem_cons_of_mem _ hb)⟩
  · rw [exitBody, Ptr.entry, ok_bind, Ledger.read_of_live ha, ok_bind,
      Ledger.read_of_live hb, ok_bind, Lists.kfree_of_live ha]
    rfl
  · intro b
    by_cases hba : b = a
    · subst hba
      simp [hout]
    · simp [hba, hlive]

omit [DecidableEq B] in
lemma ch3Exit_returns (h : m.Linked q) :
    ∃ t, Returns (fun n => ch3Exit n m) t ∧ t.bufs = m.bufs ∧ t.lists.nodes.AllFreed := by
  have hlive : ∀ a ∈ q (), m.lists.nodes.live a = true := fun a ha => h.live_of_mem ha
  have hstart : Left m (q ()) m := by
    refine ⟨rfl, rfl, h.nodup (), ?_, fun a ha => Messages.live_buf h.bufs (hlive a ha)⟩
    intro a
    rw [h.live]
    exact ⟨fun ⟨_, ha⟩ => ha, fun ha => ⟨(), ha⟩⟩
  obtain ⟨t, ht, hleft⟩ := foldlM_left (Left m) (fun _ _ _ hs => hs.free) hstart
  refine ⟨t, ?_, hleft.bufs, ?_⟩
  · apply (h.ring ()).returns_forEachSafe Messages.lists hlive (h.nodup ()) _ ht
    exact fun _ _ _ => exitBody_inv
  · rw [Ledger.allFreed_iff]
    intro a
    simpa using (hleft.live a).not

end Exit

section Runs

variable {m₀ m : System A B} {rs : List Request} {junk : A → B} {junkBuf : B → MsgSt}

def Step (m : System A B) (r : Request) (t : System A B) : Prop :=
  ∃ (new : Fresh m) (y : Reply), ch3Ioctl .success m new r = .ok (t, y)

def DriverStep (s : Driver) (r : Request) (t : Driver) : Prop :=
  ∃ y, Challenge3.ch3Ioctl .success s r = .ok (t, y)

/-- In the run of `rs` to `m` and in the exit that ends it nothing is accessed that is not
allocated, and all that was allocated is freed once. -/
def FreedOnce (m₀ : System A B) (rs : List Request) (m : System A B) : Prop :=
  (∀ js r ks t (new : Fresh t), rs = js ++ r :: ks → Run Step m₀ js t →
    ∃ u y, ch3Ioctl .success t new r = .ok (u, y)) ∧
  ∃ t, Returns (fun n => ch3Exit n m) t ∧ t.AllFreed

theorem run_represents (h : Run Step (.init junk junkBuf) rs m) :
    ∃ s, Run DriverStep Driver.init rs s ∧ Represents m s := by
  have hinit : Represents (.init junk junkBuf : System A B) Driver.init :=
    ⟨_, Messages.linked_init junk junkBuf, rfl⟩
  apply h.simulate (R := Represents) _ hinit
  rintro m s r t hm ⟨new, y, hcall⟩
  obtain ⟨t', s', y', hcall', hdriver, ht⟩ := ch3Ioctl_represents hm new r
  rw [hcall] at hcall'
  cases hcall'
  exact ⟨s', ⟨y, hdriver⟩, ht⟩

lemma freedOnce_iff (h : Run Step (.init junk junkBuf) rs m) :
    FreedOnce (.init junk junkBuf) rs m ↔ m.lists.listEmpty () = true := by
  obtain ⟨s, -, q, hq, -⟩ := run_represents h
  obtain ⟨t, ht, hbufs, hnodes⟩ := ch3Exit_returns hq
  have hcalls : ∀ js r ks t (new : Fresh t), rs = js ++ r :: ks →
      Run Step (.init junk junkBuf : System A B) js t →
      ∃ u y, ch3Ioctl .success t new r = .ok (u, y) := by
    intro js r ks t new _ hrun
    obtain ⟨s, -, ht⟩ := run_represents hrun
    obtain ⟨u, _, y, hcall, -⟩ := ch3Ioctl_represents ht new r
    exact ⟨u, y, hcall⟩
  have hbuf : m.bufs.AllFreed ↔ q () = [] := by
    rw [Messages.bufs_freed_iff hq.bufs, hq.nodes_freed_iff]
    exact ⟨fun hnil => hnil (), fun hnil _ => hnil⟩
  rw [listEmpty_iff hq, ← hbuf, ← hbufs]
  constructor
  · rintro ⟨-, u, hu, -, hfreed⟩
    rwa [← hu.unique ht]
  · intro hfreed
    exact ⟨hcalls, t, ht, hnodes, hfreed⟩

theorem freed_once_iff (h : Run Step (.init junk junkBuf) rs m) :
    FreedOnce (.init junk junkBuf) rs m ↔ m.lists.listEmpty () = true :=
  freedOnce_iff h

end Runs

section Examples

def blank : System ℕ ℕ := .init (fun _ => 0) fun _ => MsgSt.zero

def firstAlloc : Fresh blank := ⟨0, 0, ⟨.poison1, .poison2, 0⟩, .zero, rfl, rfl⟩

lemma linked_first : (blank.appended firstAlloc () .zero).Linked
    (Function.update (fun _ => []) () [0]) :=
  (Messages.linked_init _ _).appended firstAlloc () .zero

lemma first_write : Step blank (.write .zero) (blank.appended firstAlloc () .zero) :=
  ⟨firstAlloc, _, ch3Write_accepts (Messages.linked_init _ _) firstAlloc (by decide)⟩

theorem freed_once_read : ∃ m, Run Step blank [.write .zero, .read .zero] m ∧
    FreedOnce blank [.write .zero, .read .zero] m := by
  have hread : Step (blank.appended firstAlloc () .zero) (.read .zero) _ :=
    ⟨⟨1, 1, ⟨.poison1, .poison2, 0⟩, .zero, rfl, rfl⟩, _, ch3Read_cons linked_first rfl rfl rfl⟩
  have hrun := Run.cons first_write (.single hread)
  refine ⟨_, hrun, (freed_once_iff hrun).mpr ?_⟩
  have hnodes : Function.update (fun _ => []) () [0] () = [] ++ 0 :: [] := rfl
  exact (listEmpty_iff (linked_first.removed hnodes)).mpr rfl

theorem unread_leaks :
    ¬ ∀ (rs : List Request) (m : System ℕ ℕ), Run Step blank rs m → FreedOnce blank rs m := by
  intro hall
  have hrun : Run Step blank [.write .zero] (blank.appended firstAlloc () .zero) :=
    .single first_write
  have hempty := (freedOnce_iff hrun).mp (hall _ _ hrun)
  rw [listEmpty_iff linked_first] at hempty
  cases hempty

end Examples

end EmbeddedSystem.Challenge3.Memory
