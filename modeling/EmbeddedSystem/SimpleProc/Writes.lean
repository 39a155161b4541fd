import EmbeddedSystem.SimpleProc.Driver

namespace EmbeddedSystem.SimpleProc

open Kernel Kernel.Scan

def written (ubuf : Fin 128 → UInt8) (n : ℕ) : List UInt8 := (List.ofFn ubuf).take n

def textOf (bytes : List UInt8) : List UInt8 := bytes.takeWhile fun c => c != 0

def nameField (text : List UInt8) : List UInt8 :=
  match intField text with
  | none => []
  | some (_, rest) => strField (rest.dropWhile isspace)

/-- Whatever the stack holds, the write has one and the same effect and result. -/
def Determined (o : Outcome) (s : Info) (ubuf : Fin 128 → UInt8) (n : ℕ) : Prop :=
  ∃ t y, (∀ prior, procInfoWrite o s prior ubuf n = .ok (t, y)) ∧ y.ret ≤ n ∧
    y.stored ≤ sizeofName

variable {o : Outcome} {s : Info} {ubuf : Fin 128 → UInt8} {n : ℕ} {text : List UInt8}

section Scanning

lemma scanIdName_text (h : 0 ∉ text) (hname : (nameField text).length < sizeofName) (s : Info) :
    ∃ t stored, stored ≤ sizeofName ∧
      ∀ rest, scanIdName (text ++ 0 :: rest) s = .ok (t, stored) := by
  unfold nameField at hname
  cases hint : intField text with
  | none =>
    refine ⟨s, 0, Nat.zero_le _, fun rest => ?_⟩
    rw [scanIdName, scanInt_text h, hint]
    rfl
  | some r =>
    obtain ⟨id, text'⟩ := r
    rw [hint] at hname
    have htext' : 0 ∉ text' := fun h' => h (intField_mem hint h')
    have hspaces := notMem_dropWhile htext' isspace
    obtain ⟨-, hnone⟩ | ⟨text'', hsome⟩ := scanString_text hspaces hname s.name
    · refine ⟨⟨id, s.name⟩, 0, Nat.zero_le _, fun rest => ?_⟩
      rw [scanIdName, scanInt_text h, hint]
      simp only [Option.map_some, ok_bind]
      rw [skipSpaces_text, ok_bind, hnone]
      rfl
    · refine ⟨⟨id, putWord s.name 0 (strField (text'.dropWhile isspace))⟩, _, hname, ?_⟩
      intro rest
      rw [scanIdName, scanInt_text h, hint]
      simp only [Option.map_some, ok_bind]
      rw [skipSpaces_text, ok_bind, hsome]
      simp only [ok_bind]
      rw [skipSpaces_text]
      rfl

lemma scanIdName_error (h : 0 ∉ text) (hname : sizeofName ≤ (nameField text).length) (s : Info)
    (rest : List UInt8) : scanIdName (text ++ 0 :: rest) s = .error .index := by
  unfold nameField at hname
  cases hint : intField text with
  | none =>
    rw [hint] at hname
    cases hname
  | some r =>
    obtain ⟨id, text'⟩ := r
    rw [hint] at hname
    have htext' : 0 ∉ text' := fun h' => h (intField_mem hint h')
    rw [scanIdName, scanInt_text h, hint]
    simp only [Option.map_some, ok_bind]
    rw [skipSpaces_text, ok_bind,
      scanString_error (notMem_dropWhile htext' isspace) (by decide) hname]
    rfl

end Scanning

section Buffer

lemma textOf_split {bytes : List UInt8} (h : 0 ∈ bytes) :
    ∃ rest, bytes = textOf bytes ++ 0 :: rest := by
  induction bytes with
  | nil => cases h
  | cons c bytes ih =>
    by_cases hc : c = 0
    · subst hc
      exact ⟨bytes, rfl⟩
    · obtain ⟨rest, hrest⟩ := ih ((List.mem_cons.mp h).resolve_left (Ne.symm hc))
      have htext : textOf (c :: bytes) = c :: textOf bytes :=
        List.takeWhile_cons_of_pos (by simpa using hc)
      exact ⟨rest, by rw [htext, List.cons_append, ← hrest]⟩

lemma notMem_textOf (bytes : List UInt8) : 0 ∉ textOf bytes := by
  intro h
  have hne := List.all_takeWhile (p := fun c : UInt8 => c != 0) (l := bytes)
  exact absurd (List.all_eq_true.mp hne 0 h) (by decide)

lemma ofFn_copyBytes {m : ℕ} (prior ubuf : Fin m → UInt8) (n : ℕ) :
    List.ofFn (copyBytes prior ubuf n) = (List.ofFn ubuf).take n ++ (List.ofFn prior).drop n := by
  apply List.ext_getElem
  · simp only [List.length_append, List.length_take, List.length_drop, List.length_ofFn]
    omega
  · intro i h₁ h₂
    rw [List.length_ofFn] at h₁
    rw [List.getElem_ofFn, copyBytes, List.getElem_append]
    by_cases hi : i < n
    · have htake : i < ((List.ofFn ubuf).take n).length := by
        simp only [List.length_take, List.length_ofFn]
        omega
      rw [if_pos hi, dif_pos htake, List.getElem_take, List.getElem_ofFn]
    · have htake : ((List.ofFn ubuf).take n).length = n := by
        simp only [List.length_take, List.length_ofFn]
        omega
      rw [if_neg hi, dif_neg (by omega), List.getElem_drop, List.getElem_ofFn]
      congr 2
      omega

lemma strlen_text {m : ℕ} {buf : Fin m → UInt8} {rest : List UInt8} (h : 0 ∉ text)
    (hbuf : List.ofFn buf = text ++ 0 :: rest) : strlen buf = .ok text.length := by
  have hlength : textLength buf = text.length := by
    rw [textLength, hbuf, List.findIdx_append, if_neg (by simpa using h), List.findIdx_cons]
    simp
  have hm : text.length < m := by
    have := congrArg List.length hbuf
    simp only [List.length_ofFn, List.length_append, List.length_cons] at this
    omega
  rw [strlen, hlength, if_pos hm]

end Buffer

section Writes

lemma userCopy_write (o : Outcome) (prior ubuf : Fin 128 → UInt8) (hn : n ≤ bufSize) :
    userCopy o prior ubuf n =
      .ok (copyBytes prior ubuf (n - min o.uncopied n), (min o.uncopied n : ℕ)) := by
  have hsize : sizeT (n : ℤ) = n := by
    have := sizeT_of_nonneg (Int.natCast_nonneg n) (by unfold bufSize at hn; omega)
    omega
  rw [userCopy, hsize, if_pos hn]

lemma write_complete (s : Info) (prior : Fin 128 → UInt8) (hn : n ≤ bufSize)
    (hcopy : min o.uncopied n = 0) :
    procInfoWrite o s prior ubuf n = (do
      let (info, stored) ←
        scanIdName (written ubuf n ++ (List.ofFn prior).drop n) ⟨s.id, fun _ => 0⟩
      let len ← strlen (copyBytes prior ubuf n)
      return (info, ⟨len, stored⟩)) := by
  rw [procInfoWrite, if_neg (Nat.not_lt.mpr hn), userCopy_write o prior ubuf hn, hcopy, ok_bind]
  simp only [Nat.cast_zero, ne_eq, not_true_eq_false, if_false, Nat.sub_zero, ofFn_copyBytes]
  rfl

lemma unterminated_undetermined (hn : n ≤ bufSize) (hcopy : min o.uncopied n = 0)
    (h : 0 ∉ written ubuf n) : ¬ Determined o s ubuf n := by
  rintro ⟨t, y, hall, -⟩
  have hwrite := hall fun _ => 0x61
  rw [write_complete s _ hn hcopy] at hwrite
  obtain ⟨⟨info, stored⟩, -, hwrite⟩ := bind_ok.mp hwrite
  obtain ⟨len, hlen, -⟩ := bind_ok.mp hwrite
  have hoverread : strlen (copyBytes (fun _ => 0x61) ubuf n) = .error .overread := by
    refine strlen_error_iff.mpr ⟨?_, rfl⟩
    rintro ⟨i, hi⟩
    have hmem : (0 : UInt8) ∈ List.ofFn (copyBytes (fun _ => 0x61) ubuf n) :=
      List.mem_ofFn.mpr ⟨i, hi⟩
    rw [ofFn_copyBytes] at hmem
    obtain hmem | hmem := List.mem_append.mp hmem
    · exact h hmem
    · obtain ⟨j, hj⟩ := List.mem_ofFn.mp (List.mem_of_mem_drop hmem)
      exact absurd hj (by decide)
  rw [hoverread] at hlen
  cases hlen

lemma terminated_determined_iff (hn : n ≤ bufSize) (hcopy : min o.uncopied n = 0)
    (h : 0 ∈ written ubuf n) :
    Determined o s ubuf n ↔ (nameField (textOf (written ubuf n))).length < sizeofName := by
  obtain ⟨rest, hrest⟩ := textOf_split h
  have htext := notMem_textOf (written ubuf n)
  have hbuf : ∀ prior : Fin 128 → UInt8, written ubuf n ++ (List.ofFn prior).drop n =
      textOf (written ubuf n) ++ 0 :: (rest ++ (List.ofFn prior).drop n) := by
    intro prior
    conv_lhs => rw [hrest]
    rw [List.append_assoc, List.cons_append]
  constructor
  · rintro ⟨t, y, hall, -⟩
    by_contra hname
    have hwrite := hall fun _ => 0
    rw [write_complete s _ hn hcopy, hbuf, scanIdName_error htext (not_lt.mp hname)] at hwrite
    cases hwrite
  · intro hname
    obtain ⟨t, stored, hstored, hscan⟩ := scanIdName_text htext hname ⟨s.id, fun _ => 0⟩
    refine ⟨t, ⟨(textOf (written ubuf n)).length, stored⟩, fun prior => ?_, ?_, hstored⟩
    · have hlen : strlen (copyBytes prior ubuf n) = .ok (textOf (written ubuf n)).length :=
        strlen_text htext ((ofFn_copyBytes prior ubuf n).trans (hbuf prior))
      rw [write_complete s prior hn hcopy, hbuf, hscan, ok_bind]
      simp only
      rw [hlen]
      rfl
    · have hle := (List.takeWhile_sublist (fun c : UInt8 => c != 0) (l := written ubuf n)).length_le
      have htake := List.length_take_le n (List.ofFn ubuf)
      exact Int.ofNat_le.mpr (hle.trans htake)

theorem write_determined_iff (o : Outcome) (s : Info) (ubuf : Fin 128 → UInt8) (n : ℕ) :
    Determined o s ubuf n ↔ bufSize < n ∨ 0 < min o.uncopied n ∨
      0 ∈ written ubuf n ∧ (nameField (textOf (written ubuf n))).length < sizeofName := by
  by_cases hn : bufSize < n
  · refine iff_of_true ⟨s, ⟨-1, 0⟩, fun prior => ?_, ?_, Nat.zero_le _⟩ (Or.inl hn)
    · rw [procInfoWrite, if_pos hn]
      rfl
    · change (-1 : ℤ) ≤ n
      omega
  · have hle : n ≤ bufSize := Nat.not_lt.mp hn
    by_cases hcopy : 0 < min o.uncopied n
    · refine iff_of_true ⟨s, ⟨-1, 0⟩, fun prior => ?_, ?_, Nat.zero_le _⟩ (Or.inr (Or.inl hcopy))
      · have hleft : ((min o.uncopied n : ℕ) : ℤ) ≠ 0 := by omega
        rw [procInfoWrite, if_neg hn, userCopy_write o prior ubuf hle, ok_bind]
        simp only
        rw [if_pos hleft]
        rfl
      · change (-1 : ℤ) ≤ n
        omega
    · have hzero : min o.uncopied n = 0 := by omega
      rw [or_iff_right hn, or_iff_right hcopy]
      by_cases h : 0 ∈ written ubuf n
      · rw [terminated_determined_iff hle hzero h, and_iff_right h]
      · exact iff_of_false (unterminated_undetermined hle hzero h) fun hc => h hc.1

def unended : Fin 128 → UInt8 := fun i => [0x31, 0x20, 0x61].getD i.val 0

theorem write_undetermined : ¬ ∀ (o : Outcome) (s : Info) (ubuf : Fin 128 → UInt8) (n : ℕ),
    n ≤ bufSize → Determined o s ubuf n := by
  intro h
  exact unterminated_undetermined (by decide) rfl (by decide)
    (h .success .init unended 3 (by decide))

end Writes

end EmbeddedSystem.SimpleProc
