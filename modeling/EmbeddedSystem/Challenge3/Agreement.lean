import EmbeddedSystem.Challenge3.Driver
import EmbeddedSystem.Foundations.Runs

namespace EmbeddedSystem.Challenge3

open Kernel Foundations
open Challenge4 (MsgSt Effect Reply ch4Read ch4ReadTake ch4Write)

def ch4Ioctl (o : Outcome) (s : Challenge4.Driver) :
    Request → Except Fault (Option (Challenge4.Driver × Reply))
  | .read userBuf => ch4Read o s userBuf
  | .write userBuf => do
    let r ← ch4Write o s userBuf
    return some r
  | .unknown => return some (s, ⟨0, none, none⟩)

def Listed (msgList : List MsgSt) : Request → Prop
  | .read _ => msgList ≠ []
  | _ => True

def Step3 (s : Driver) (l : Request × Reply) (t : Driver) : Prop :=
  Listed s.msgList l.1 ∧ ch3Ioctl .success s l.1 = .ok (t, l.2)

def Step4 (s : Challenge4.Driver) (l : Request × Reply) (t : Challenge4.Driver) : Prop :=
  Listed s.msgList l.1 ∧ ch4Ioctl .success s l.1 = .ok (some (t, l.2))

def accepted (ls : List (Request × Reply)) : List MsgSt :=
  ls.filterMap fun l => match l.1 with
    | .write userBuf => if l.2.ret = 0 then some userBuf else none
    | _ => none

def delivered (ls : List (Request × Reply)) : List MsgSt :=
  ls.filterMap fun l => match l.1 with
    | .read _ => l.2.buf
    | _ => none

structure Agrees (s : Driver) (t : Challenge4.Driver) : Prop where
  list : t.msgList = s.msgList
  count : t.msgCount = BitVec.ofNat 32 t.msgList.length

section Steps

variable {s s' : Driver} {t t' : Challenge4.Driver} {r : Request} {y : Reply} {userBuf : MsgSt}
  {ls : List (Request × Reply)}

lemma ch4Read_cons {tmp : MsgSt} {rest : List MsgSt} (ht : t.msgList = tmp :: rest) :
    ch4Read .success t userBuf =
      .ok (some (⟨rest, t.msgCount - 1⟩, ⟨0, some (.removed tmp), some tmp⟩)) := by
  rw [ch4Read, if_neg (by simp [ht]), ch4ReadTake, ht]
  simp only [copy_whole, ok_bind]
  rfl

lemma ch4Write_accepts (hlen : ¬ userBuf.len.toInt ≥ 128) :
    ch4Write .success t userBuf = .ok (⟨t.msgList ++ [userBuf], t.msgCount + 1⟩,
      ⟨0, some (.appended userBuf), none⟩) := by
  rw [ch4Write, if_neg (by exact_mod_cast hlen)]
  simp only [Outcome.success, Bool.not_true]
  have hcopy := copy_whole MsgSt.zero userBuf
  simp only [Outcome.success] at hcopy
  rw [hcopy]
  rfl

lemma ch4Write_rejects (hlen : userBuf.len.toInt ≥ 128) :
    ch4Write .success t userBuf = .ok (t, ⟨-1, none, none⟩) := by
  rw [ch4Write, if_pos (by exact_mod_cast hlen)]
  rfl

lemma count_removed {n : ℕ} : BitVec.ofNat 32 (n + 1) - 1 = BitVec.ofNat 32 n := by
  rw [BitVec.ofNat_add]
  exact BitVec.add_sub_cancel _ _

lemma requests_agree (h : Agrees s t) (hr : Listed s.msgList r) : ∃ s' t' y,
    ch3Ioctl .success s r = .ok (s', y) ∧ ch4Ioctl .success t r = .ok (some (t', y)) ∧
      Agrees s' t' := by
  cases r with
  | read userBuf =>
    obtain ⟨tmp, rest, hs⟩ := List.exists_cons_of_ne_nil hr
    have ht : t.msgList = tmp :: rest := h.list.trans hs
    refine ⟨_, _, _, ch3Read_cons hs, ch4Read_cons ht, rfl, ?_⟩
    rw [h.count, ht, List.length_cons]
    exact count_removed
  | write userBuf =>
    by_cases hlen : userBuf.len.toInt ≥ 128
    · refine ⟨s, t, _, ch3Write_rejects hlen, ?_, h⟩
      simp only [ch4Ioctl, ch4Write_rejects hlen, ok_bind]
      rfl
    · refine ⟨_, ⟨t.msgList ++ [userBuf], t.msgCount + 1⟩, _, ch3Write_accepts hlen, ?_, ?_, ?_⟩
      · simp only [ch4Ioctl, ch4Write_accepts hlen, ok_bind]
        rfl
      · rw [h.list]
      · rw [List.length_append, List.length_singleton, BitVec.ofNat_add, ← h.count]
        rfl
  | unknown => exact ⟨s, t, _, rfl, rfl, h⟩

lemma step3_matched {l : Request × Reply} (h : Agrees s t) (hs : Step3 s l s') :
    ∃ t', Step4 t l t' ∧ Agrees s' t' := by
  obtain ⟨r, y⟩ := l
  obtain ⟨hr, hy⟩ := hs
  obtain ⟨s'', t', y', h3, h4, hagree⟩ := requests_agree h hr
  obtain ⟨rfl, rfl⟩ := Prod.mk.inj (Except.ok.inj (h3.symm.trans hy))
  exact ⟨t', ⟨by rw [h.list]; exact hr, h4⟩, hagree⟩

lemma step4_matched {l : Request × Reply} (h : Agrees s t) (ht : Step4 t l t') :
    ∃ s', Step3 s l s' ∧ Agrees s' t' := by
  obtain ⟨r, y⟩ := l
  obtain ⟨hr, hy⟩ := ht
  rw [h.list] at hr
  obtain ⟨s', t'', y', h3, h4, hagree⟩ := requests_agree h hr
  obtain ⟨rfl, rfl⟩ := Prod.mk.inj (Option.some.inj (Except.ok.inj (h4.symm.trans hy)))
  exact ⟨s', ⟨hr, h3⟩, hagree⟩

lemma accepted_snoc (ls : List (Request × Reply)) (l : Request × Reply) :
    accepted (ls ++ [l]) = accepted ls ++ accepted [l] :=
  List.filterMap_append ..

lemma delivered_snoc (ls : List (Request × Reply)) (l : Request × Reply) :
    delivered (ls ++ [l]) = delivered ls ++ delivered [l] :=
  List.filterMap_append ..

lemma step3_balance (h : accepted ls = delivered ls ++ s.msgList) (hs : Step3 s (r, y) s') :
    accepted (ls ++ [(r, y)]) = delivered (ls ++ [(r, y)]) ++ s'.msgList := by
  obtain ⟨hr, hy⟩ := hs
  rw [accepted_snoc, delivered_snoc, h]
  cases r with
  | read userBuf =>
    obtain ⟨tmp, rest, hlist⟩ := List.exists_cons_of_ne_nil hr
    cases (ch3Read_cons hlist).symm.trans hy
    simp [accepted, delivered, hlist]
  | write userBuf =>
    by_cases hlen : userBuf.len.toInt ≥ 128
    · cases (ch3Write_rejects hlen).symm.trans hy
      simp [accepted, delivered]
    · cases (ch3Write_accepts hlen).symm.trans hy
      simp [accepted, delivered]
  | unknown =>
    cases hy
    simp [accepted, delivered]

lemma balance_run (h : Run Step3 .init ls s) : accepted ls = delivered ls ++ s.msgList := by
  apply h.induct_right (M := fun ls s => accepted ls = delivered ls ++ s.msgList)
  · rfl
  · rintro ls s ⟨r, y⟩ t - ih hs
    exact step3_balance ih hs

lemma step3_rejected (h : Step3 s (.write userBuf, y) s') (hret : y.ret ≠ 0) : s' = s := by
  by_cases hlen : userBuf.len.toInt ≥ 128
  · cases (ch3Write_rejects hlen).symm.trans h.2
    rfl
  · cases (ch3Write_accepts hlen).symm.trans h.2
    exact absurd rfl hret

lemma step4_rejected (h : Step4 t (.write userBuf, y) t') (hret : y.ret ≠ 0) : t' = t := by
  have hcall := h.2
  by_cases hlen : userBuf.len.toInt ≥ 128
  · simp only [ch4Ioctl, ch4Write_rejects hlen, ok_bind] at hcall
    cases hcall
    rfl
  · simp only [ch4Ioctl, ch4Write_accepts hlen, ok_bind] at hcall
    cases hcall
    exact absurd rfl hret

end Steps

section Results

lemma agrees_init : Agrees .init .init := ⟨rfl, rfl⟩

theorem drivers_agree :
    (∀ ls s, Run Step3 .init ls s → ∃ t, Run Step4 .init ls t ∧ t.msgList = s.msgList) ∧
    (∀ ls t, Run Step4 .init ls t → ∃ s, Run Step3 .init ls s ∧ s.msgList = t.msgList) ∧
    (∀ ls s r, Run Step3 .init ls s → Listed s.msgList r → ∃ y t, Step3 s (r, y) t) ∧
    (∀ ls s, Run Step3 .init ls s → accepted ls = delivered ls ++ s.msgList) ∧
    (∀ ls t, Run Step4 .init ls t → accepted ls = delivered ls ++ t.msgList ∧
      t.msgCount = BitVec.ofNat 32 t.msgList.length) ∧
    (∀ s userBuf y t, Step3 s (.write userBuf, y) t → y.ret ≠ 0 → t = s) ∧
    ∀ s userBuf y t, Step4 s (.write userBuf, y) t → y.ret ≠ 0 → t = s := by
  have hforward : ∀ {ls s}, Run Step3 .init ls s → ∃ t, Run Step4 .init ls t ∧ Agrees s t := by
    intro ls s h
    apply h.simulate (R := Agrees) _ agrees_init
    exact fun _ _ _ _ hr hs => step3_matched hr hs
  have hbackward : ∀ {ls t}, Run Step4 .init ls t → ∃ s, Run Step3 .init ls s ∧ Agrees s t := by
    intro ls t h
    apply h.simulate (R := fun t s => Agrees s t) _ agrees_init
    exact fun _ _ _ _ hr ht => step4_matched hr ht
  refine ⟨?_, ?_, ?_, ?_, ?_, ?_, ?_⟩
  · intro ls s h
    obtain ⟨t, ht, hagree⟩ := hforward h
    exact ⟨t, ht, hagree.list⟩
  · intro ls t h
    obtain ⟨s, hs, hagree⟩ := hbackward h
    exact ⟨s, hs, hagree.list.symm⟩
  · intro ls s r h hr
    obtain ⟨t, -, hagree⟩ := hforward h
    obtain ⟨s', -, y, h3, -⟩ := requests_agree hagree hr
    exact ⟨y, s', hr, h3⟩
  · exact fun ls s h => balance_run h
  · intro ls t h
    obtain ⟨s, hs, hagree⟩ := hbackward h
    rw [hagree.list]
    exact ⟨balance_run hs, by rw [← hagree.list]; exact hagree.count⟩
  · exact fun s userBuf y t => step3_rejected
  · exact fun s userBuf y t => step4_rejected

end Results

end EmbeddedSystem.Challenge3
