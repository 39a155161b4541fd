import EmbeddedSystem.Kernel.Memory

/-! The conversions `%d` and `%s` of the kernel's `sscanf`, on the part of a buffer that is left.
They read byte by byte; a byte behind the buffer is an `overread`. -/

namespace EmbeddedSystem.Kernel.Scan

def isspace (c : UInt8) : Bool := 9 ≤ c && c ≤ 13 || c == 32 || c == 160

def isdigit (c : UInt8) : Bool := 48 ≤ c && c ≤ 57

def peek : List UInt8 → Except Fault UInt8
  | [] => throw .overread
  | c :: _ => return c

def skipSpaces : List UInt8 → Except Fault (List UInt8)
  | [] => throw .overread
  | c :: str => if isspace c then skipSpaces str else return c :: str

def addDigit (res : ℕ) (c : UInt8) : ℕ := (res * 10 + (c.toNat - 48)) % 2 ^ 64

-- `_parse_integer` to the base 10; the result is an `unsigned long long`.
def parseInteger (res : ℕ) : List UInt8 → Except Fault (ℕ × List UInt8)
  | [] => throw .overread
  | c :: str => if isdigit c then parseInteger (addDigit res c) str else return (res, c :: str)

def simpleStrtol (str : List UInt8) : Except Fault (ℤ × List UInt8) := do
  if (← peek str) = 45 then
    let (res, next) ← parseInteger 0 str.tail
    return (-res, next)
  else
    let (res, next) ← parseInteger 0 str
    return (res, next)

def nextDigit (str : List UInt8) : Except Fault UInt8 := do
  let digit ← peek str
  if digit = 45 then peek str.tail else return digit

-- `%d`, which matches nothing without a digit.
def scanInt (str : List UInt8) : Except Fault (Option (BitVec 32 × List UInt8)) := do
  if (← peek str) = 0 then
    return none
  else
    let str ← skipSpaces str
    let digit ← nextDigit str
    if isdigit digit then
      let (val, next) ← simpleStrtol str
      return some (BitVec.ofInt 32 val, next)
    else
      return none

variable {m : ℕ}

-- Up to the next white space, from the index `i` on; the terminator is stored as well. The
-- second component counts the bytes that are stored.
def copyWord (s : Fin m → UInt8) (i : ℕ) :
    List UInt8 → Except Fault ((Fin m → UInt8) × ℕ × List UInt8)
  | [] => throw .overread
  | c :: str =>
    if c ≠ 0 ∧ isspace c = false then do
      let k ← arrayIndex m i
      copyWord (Function.update s k c) (i + 1) str
    else do
      let k ← arrayIndex m i
      return (Function.update s k 0, i + 1, c :: str)

-- `%s` without a width.
def scanString (s : Fin m → UInt8) (str : List UInt8) :
    Except Fault (Option ((Fin m → UInt8) × ℕ × List UInt8)) := do
  if (← peek str) = 0 then
    return none
  else
    let str ← skipSpaces str
    let r ← copyWord s 0 str
    return some r

section Text

/-! What the conversions make of a text that ends with a NUL. -/

def signed (str : List UInt8) : Bool := str.headD 0 == 45

def digits (str : List UInt8) : List UInt8 := if signed str then str.tail else str

def value (str : List UInt8) : ℤ :=
  let res := ((digits str).takeWhile isdigit).foldl addDigit 0
  if signed str then -res else res

def intField (text : List UInt8) : Option (BitVec 32 × List UInt8) :=
  if isdigit ((digits (text.dropWhile isspace)).headD 0) then
    some (BitVec.ofInt 32 (value (text.dropWhile isspace)),
      (digits (text.dropWhile isspace)).dropWhile isdigit)
  else none

def word (text : List UInt8) : List UInt8 := text.takeWhile fun c => !isspace c

def strField (text : List UInt8) : List UInt8 := word (text.dropWhile isspace)

def put (s : Fin m → UInt8) (i : ℕ) (c : UInt8) : Fin m → UInt8 :=
  fun k => if k.val = i then c else s k

def putWord (s : Fin m → UInt8) (i : ℕ) : List UInt8 → Fin m → UInt8
  | [] => put s i 0
  | c :: w => putWord (put s i c) (i + 1) w

variable {text rest : List UInt8} {s : Fin m → UInt8} {i : ℕ}

lemma peek_text (text rest : List UInt8) : peek (text ++ 0 :: rest) = .ok (text.headD 0) := by
  cases text <;> rfl

lemma headD_eq_zero_iff (h : 0 ∉ text) : text.headD 0 = 0 ↔ text = [] := by
  cases text with
  | nil => simp
  | cons c text =>
    have hc : c ≠ 0 := fun he => h (by simp [he])
    simpa using hc

lemma skipSpaces_text (text rest : List UInt8) :
    skipSpaces (text ++ 0 :: rest) = .ok (text.dropWhile isspace ++ 0 :: rest) := by
  induction text with
  | nil => rfl
  | cons c text ih =>
    rw [List.cons_append, skipSpaces]
    cases hc : isspace c with
    | true => rw [if_pos rfl, ih, List.dropWhile_cons_of_pos hc]
    | false =>
      rw [if_neg Bool.false_ne_true, List.dropWhile_cons_of_neg (by simp [hc])]
      rfl

lemma parseInteger_text (res : ℕ) (text rest : List UInt8) :
    parseInteger res (text ++ 0 :: rest) =
      .ok ((text.takeWhile isdigit).foldl addDigit res, text.dropWhile isdigit ++ 0 :: rest) := by
  induction text generalizing res with
  | nil => rfl
  | cons c text ih =>
    rw [List.cons_append, parseInteger]
    cases hc : isdigit c with
    | true =>
      rw [if_pos rfl, ih, List.takeWhile_cons_of_pos hc, List.dropWhile_cons_of_pos hc]
      rfl
    | false =>
      rw [if_neg Bool.false_ne_true, List.takeWhile_cons_of_neg (by simp [hc]),
        List.dropWhile_cons_of_neg (by simp [hc])]
      rfl

lemma tail_text (hne : text ≠ []) : (text ++ 0 :: rest).tail = text.tail ++ 0 :: rest := by
  cases text with
  | nil => exact absurd rfl hne
  | cons c text => rfl

lemma digits_text (text rest : List UInt8) :
    (if text.headD 0 = 45 then (text ++ 0 :: rest).tail else text ++ 0 :: rest) =
      digits text ++ 0 :: rest := by
  by_cases hsign : text.headD 0 = 45
  · have hne : text ≠ [] := by
      rintro rfl
      cases hsign
    rw [if_pos hsign, tail_text hne, digits, signed, hsign]
    rfl
  · rw [if_neg hsign, digits, signed, if_neg (by simpa using hsign)]

lemma nextDigit_text (text rest : List UInt8) :
    nextDigit (text ++ 0 :: rest) = .ok ((digits text).headD 0) := by
  rw [nextDigit, peek_text, ok_bind, ← peek_text (digits text) rest, ← digits_text]
  by_cases hsign : text.headD 0 = 45
  · rw [if_pos hsign, if_pos hsign]
  · rw [if_neg hsign, if_neg hsign, peek_text]
    rfl

lemma simpleStrtol_text (text rest : List UInt8) :
    simpleStrtol (text ++ 0 :: rest) =
      .ok (value text, (digits text).dropWhile isdigit ++ 0 :: rest) := by
  have hdigits := digits_text text rest
  rw [simpleStrtol, peek_text, ok_bind, value, signed]
  by_cases hsign : text.headD 0 = 45
  · rw [if_pos hsign] at hdigits ⊢
    rw [hdigits, parseInteger_text, if_pos (by simpa using hsign)]
    rfl
  · rw [if_neg hsign] at hdigits ⊢
    rw [hdigits, parseInteger_text, if_neg (by simpa using hsign)]
    rfl

lemma scanInt_text (h : 0 ∉ text) (rest : List UInt8) :
    scanInt (text ++ 0 :: rest) =
      .ok ((intField text).map fun r => (r.1, r.2 ++ 0 :: rest)) := by
  rw [scanInt, peek_text, ok_bind]
  by_cases hnil : text = []
  · subst hnil
    rfl
  · rw [if_neg (mt (headD_eq_zero_iff h).mp hnil), skipSpaces_text, ok_bind, nextDigit_text,
      ok_bind, simpleStrtol_text, intField]
    cases isdigit ((digits (text.dropWhile isspace)).headD 0) <;> rfl

lemma intField_mem {v : BitVec 32} {text' : List UInt8} (h : intField text = some (v, text'))
    {c : UInt8} (hc : c ∈ text') : c ∈ text := by
  unfold intField at h
  split at h
  · cases h
    have hdigits : c ∈ digits (text.dropWhile isspace) := (List.dropWhile_sublist _).mem hc
    have hstr : c ∈ text.dropWhile isspace := by
      rw [digits] at hdigits
      split at hdigits
      · exact List.mem_of_mem_tail hdigits
      · exact hdigits
    exact (List.dropWhile_sublist _).mem hstr
  · cases h

lemma word_of_space {c : UInt8} (hc : isspace c = true) (text : List UInt8) :
    word (c :: text) = [] := List.takeWhile_cons_of_neg (by simp [hc])

lemma word_cons {c : UInt8} (hc : isspace c = false) (text : List UInt8) :
    word (c :: text) = c :: word text := List.takeWhile_cons_of_pos (by simp [hc])

lemma update_eq_put {k : Fin m} (hk : arrayIndex m i = .ok k) (s : Fin m → UInt8) (c : UInt8) :
    Function.update s k c = put s i c := by
  have hi : i = k.val := by exact_mod_cast arrayIndex_val hk
  funext j
  simp only [put, hi, Function.update_apply, Fin.ext_iff]

lemma copyWord_text (h : 0 ∉ text) (hm : i + (word text).length < m) (rest : List UInt8) :
    copyWord s i (text ++ 0 :: rest) = .ok (putWord s i (word text),
      i + (word text).length + 1, text.dropWhile (fun c => !isspace c) ++ 0 :: rest) := by
  have hindex : ∃ k, arrayIndex m i = .ok k := exists_arrayIndex (by omega)
  obtain ⟨k, hk⟩ := hindex
  induction text generalizing s i k with
  | nil =>
    rw [List.nil_append, copyWord, if_neg (by simp), hk, ok_bind, update_eq_put hk]
    rfl
  | cons c text ih =>
    have hc : c ≠ 0 := fun he => h (by simp [he])
    have htext : 0 ∉ text := fun he => h (by simp [he])
    rw [List.cons_append, copyWord]
    cases hspace : isspace c with
    | true =>
      rw [if_neg (by simp), hk, ok_bind, update_eq_put hk, word_of_space hspace,
        List.dropWhile_cons_of_neg (by simp [hspace])]
      rfl
    | false =>
      have hword := word_cons hspace text
      rw [hword, List.length_cons] at hm
      obtain ⟨k', hk'⟩ := exists_arrayIndex (n := m) (i := ((i + 1 : ℕ) : ℤ)) (by omega)
      rw [if_pos ⟨hc, rfl⟩, hk, ok_bind, update_eq_put hk, ih htext (by omega) k' hk', hword,
        List.length_cons, List.dropWhile_cons_of_pos (by simp [hspace]), putWord]
      congr 3
      omega

lemma copyWord_error (h : 0 ∉ text) (hm : m ≤ i + (word text).length) (rest : List UInt8) :
    copyWord s i (text ++ 0 :: rest) = .error .index := by
  induction text generalizing s i with
  | nil =>
    have hindex : arrayIndex m i = .error .index :=
      arrayIndex_error_iff.mpr ⟨by simp [word] at hm; omega, rfl⟩
    rw [List.nil_append, copyWord, if_neg (by simp), hindex]
    rfl
  | cons c text ih =>
    have hc : c ≠ 0 := fun he => h (by simp [he])
    have htext : 0 ∉ text := fun he => h (by simp [he])
    rw [List.cons_append, copyWord]
    cases hspace : isspace c with
    | true =>
      rw [word_of_space hspace] at hm
      have hindex : arrayIndex m i = .error .index :=
        arrayIndex_error_iff.mpr ⟨by simp at hm; omega, rfl⟩
      rw [if_neg (by simp), hindex]
      rfl
    | false =>
      rw [word_cons hspace, List.length_cons] at hm
      rw [if_pos ⟨hc, rfl⟩]
      cases hindex : arrayIndex m i with
      | error e =>
        obtain ⟨-, rfl⟩ := arrayIndex_error_iff.mp hindex
        rfl
      | ok k =>
        rw [ok_bind]
        exact ih htext (by omega)

lemma notMem_dropWhile (h : 0 ∉ text) (f : UInt8 → Bool) : 0 ∉ text.dropWhile f :=
  fun h' => h ((List.dropWhile_sublist f).mem h')

lemma scanString_text (h : 0 ∉ text) (hm : (strField text).length < m) (s : Fin m → UInt8) :
    (text = [] ∧ ∀ rest, scanString s (text ++ 0 :: rest) = .ok none) ∨
      ∃ text', ∀ rest, scanString s (text ++ 0 :: rest) = .ok (some
        (putWord s 0 (strField text), (strField text).length + 1, text' ++ 0 :: rest)) := by
  by_cases hnil : text = []
  · subst hnil
    exact Or.inl ⟨rfl, fun _ => rfl⟩
  · refine Or.inr ⟨(text.dropWhile isspace).dropWhile fun c => !isspace c, fun rest => ?_⟩
    rw [scanString, peek_text, ok_bind, if_neg (mt (headD_eq_zero_iff h).mp hnil),
      skipSpaces_text, ok_bind,
      copyWord_text (notMem_dropWhile h _) (by simpa [strField] using hm), zero_add]
    rfl

lemma scanString_error (h : 0 ∉ text) (hpos : 0 < m) (hm : m ≤ (strField text).length)
    (s : Fin m → UInt8) (rest : List UInt8) :
    scanString s (text ++ 0 :: rest) = .error .index := by
  have hnil : text ≠ [] := by
    rintro rfl
    exact absurd hm (not_le.mpr hpos)
  rw [scanString, peek_text, ok_bind, if_neg (mt (headD_eq_zero_iff h).mp hnil),
    skipSpaces_text, ok_bind,
    copyWord_error (notMem_dropWhile h _) (by simpa [strField] using hm)]
  rfl

end Text

lemma copyWord_terminated {s s' : Fin m → UInt8} {i stored : ℕ} {str str' : List UInt8}
    (h : copyWord s i str = .ok (s', stored, str')) : Terminated s' := by
  induction str generalizing s i with
  | nil => cases h
  | cons c str ih =>
    rw [copyWord] at h
    split at h
    · obtain ⟨k, -, h⟩ := bind_ok.mp h
      exact ih h
    · obtain ⟨k, -, h⟩ := bind_ok.mp h
      cases h
      exact ⟨k, Function.update_self k 0 s⟩

lemma scanString_terminated {s s' : Fin m → UInt8} {stored : ℕ} {str str' : List UInt8}
    (h : scanString s str = .ok (some (s', stored, str'))) : Terminated s' := by
  obtain ⟨c, -, h⟩ := bind_ok.mp h
  split at h
  · cases h
  · obtain ⟨str'', -, h⟩ := bind_ok.mp h
    obtain ⟨r, hr, h⟩ := bind_ok.mp h
    cases h
    exact copyWord_terminated hr

end EmbeddedSystem.Kernel.Scan
