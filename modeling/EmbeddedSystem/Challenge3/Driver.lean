import EmbeddedSystem.Challenge4.Driver

/-! The driver `ch3_mod_201711395.c`, whose reads do not wait. Both calls run under `my_lock`. Its
`struct msg_st` is that of challenge 4. -/

namespace EmbeddedSystem.Challenge3

open Kernel
open Challenge4 (MsgSt Effect Reply userCopy_msg sizeofMsgSt)

structure Driver where
  msgList : List MsgSt

def Driver.init : Driver := ⟨[]⟩

def ch3Read (o : Outcome) (s : Driver) (userBuf : MsgSt) : Except Fault (Driver × Reply) :=
  match s.msgList with
  | [] => return (s, ⟨-1, none, none⟩)
  | tmp :: rest => do
    let (bytes, ret) ← userCopy o userBuf.bytes tmp.bytes sizeofMsgSt
    return (⟨rest⟩, ⟨ret, some (.removed tmp), some ⟨bytes⟩⟩)

def ch3Write (o : Outcome) (s : Driver) (userBuf : MsgSt) : Except Fault (Driver × Reply) :=
  if userBuf.len.toInt ≥ 128 then
    return (s, ⟨-1, none, none⟩)
  else do
    if !o.vmalloc then throw .null
    let (bytes, ret) ← userCopy o MsgSt.zero.bytes userBuf.bytes sizeofMsgSt
    if !o.kmalloc then throw .null
    return (⟨s.msgList ++ [⟨bytes⟩]⟩, ⟨ret, some (.appended ⟨bytes⟩), none⟩)

inductive Request
  | read (userBuf : MsgSt)
  | write (userBuf : MsgSt)
  | unknown
  deriving DecidableEq

def ch3Ioctl (o : Outcome) (s : Driver) : Request → Except Fault (Driver × Reply)
  | .read userBuf => ch3Read o s userBuf
  | .write userBuf => ch3Write o s userBuf
  | .unknown => return (s, ⟨0, none, none⟩)

section Cases

variable {o : Outcome} {s t : Driver} {y : Reply} {userBuf : MsgSt}

lemma copy_whole (dst src : MsgSt) :
    userCopy .success dst.bytes src.bytes sizeofMsgSt = .ok (src.bytes, 0) := by
  rw [userCopy_success (n := 132) (by decide) (by decide)]
  have hbytes : copyBytes dst.bytes src.bytes (Int.toNat sizeofMsgSt) = src.bytes := by
    funext i
    exact if_pos i.isLt
  rw [hbytes]

lemma ch3Read_cons {tmp : MsgSt} {rest : List MsgSt} (hs : s.msgList = tmp :: rest) :
    ch3Read .success s userBuf = .ok (⟨rest⟩, ⟨0, some (.removed tmp), some tmp⟩) := by
  rw [ch3Read, hs]
  simp only [copy_whole, ok_bind]
  rfl

lemma ch3Write_accepts (hlen : ¬ userBuf.len.toInt ≥ 128) :
    ch3Write .success s userBuf =
      .ok (⟨s.msgList ++ [userBuf]⟩, ⟨0, some (.appended userBuf), none⟩) := by
  rw [ch3Write, if_neg hlen]
  simp only [Outcome.success, Bool.not_true]
  have hcopy := copy_whole MsgSt.zero userBuf
  simp only [Outcome.success] at hcopy
  rw [hcopy]
  rfl

lemma ch3Write_rejects (hlen : userBuf.len.toInt ≥ 128) :
    ch3Write o s userBuf = .ok (s, ⟨-1, none, none⟩) := by
  rw [ch3Write, if_pos hlen]
  rfl

end Cases

end EmbeddedSystem.Challenge3
