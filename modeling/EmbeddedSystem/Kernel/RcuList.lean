import EmbeddedSystem.Kernel.Memory

/-! Linked lists in memory: nodes with a `struct list_head` and a value, the stores of
`list_add_tail_rcu` and `list_replace_rcu`, and the order of the nodes from the list head. -/

namespace EmbeddedSystem.Kernel

abbrev Addr := ℕ

abbrev listHead : Addr := 0

abbrev listPoison2 : Addr := 0x200

structure Memory (α : Type) where
  live : Addr → Bool
  next : Addr → Addr
  prev : Addr → Addr
  val : Addr → α

variable {α : Type}

def Memory.touch (m : Memory α) (a : Addr) : Except Fault Unit :=
  if m.live a then return () else throw .freed

@[simp] lemma touch_of_live {m : Memory α} {a : Addr} (h : m.live a = true) :
    m.touch a = .ok () := if_pos h

def Memory.initListHead (junk : Memory α) : Memory α where
  live a := a = listHead
  next := Function.update junk.next listHead listHead
  prev := Function.update junk.prev listHead listHead
  val := junk.val

def Memory.kmalloc (m : Memory α) (a : Addr) (junk : Memory α) : Memory α where
  live := Function.update m.live a true
  next := Function.update m.next a (junk.next a)
  prev := Function.update m.prev a (junk.prev a)
  val := Function.update m.val a (junk.val a)

def Memory.store (m : Memory α) (a : Addr) (v : α) : Memory α :=
  { m with val := Function.update m.val a v }

def Memory.kfree (m : Memory α) (a : Addr) : Memory α :=
  { m with live := Function.update m.live a false }

def Memory.listAddTailRcu (m : Memory α) (new : Addr) : Memory α :=
  { m with
    next := Function.update (Function.update m.next new listHead) (m.prev listHead) new
    prev := Function.update (Function.update m.prev new (m.prev listHead)) listHead new }

def Memory.memcpy (m : Memory α) (new old : Addr) : Except Fault (Memory α) := do
  m.touch old
  m.touch new
  return { m with
    next := Function.update m.next new (m.next old)
    prev := Function.update m.prev new (m.prev old)
    val := Function.update m.val new (m.val old) }

section Replace

-- `new->next = old->next; new->prev = old->prev;`
def Memory.replaceCopy (m : Memory α) (old new : Addr) : Except Fault (Memory α) := do
  m.touch old
  m.touch new
  return { m with
    next := Function.update m.next new (m.next old)
    prev := Function.update m.prev new (m.prev old) }

-- `rcu_assign_pointer(list_next_rcu(new->prev), new);`
def Memory.replacePublish (m : Memory α) (new : Addr) : Except Fault (Memory α) := do
  m.touch new
  m.touch (m.prev new)
  return { m with next := Function.update m.next (m.prev new) new }

-- `new->next->prev = new;`
def Memory.replaceBack (m : Memory α) (new : Addr) : Except Fault (Memory α) := do
  m.touch new
  m.touch (m.next new)
  return { m with prev := Function.update m.prev (m.next new) new }

-- `old->prev = LIST_POISON2;`
def Memory.replacePoison (m : Memory α) (old : Addr) : Except Fault (Memory α) := do
  m.touch old
  return { m with prev := Function.update m.prev old listPoison2 }

end Replace

def Memory.entries (m : Memory α) : ℕ → Addr → Option (List α)
  | 0, a => if a = listHead then some [] else none
  | n + 1, a =>
    if a = listHead then some []
    else if m.live a then (m.entries n (m.next a)).map (m.val a :: ·)
    else none

structure Chain (n : ℕ) (m : Memory α) (spine : ℕ → Addr) (vals : ℕ → α) : Prop where
  first : spine 0 = listHead
  last : ∀ i, n < i → spine i = listHead
  inner : ∀ i, 1 ≤ i → i ≤ n → spine i ≠ listHead
  inj : ∀ i j, 1 ≤ i → i ≤ n → 1 ≤ j → j ≤ n → spine i = spine j → i = j
  live : ∀ i, i ≤ n → m.live (spine i) = true
  next : ∀ i, i ≤ n → m.next (spine i) = spine (i + 1)
  val : ∀ i, 1 ≤ i → i ≤ n → m.val (spine i) = vals i

def Back (m : Memory α) (spine : ℕ → Addr) (i : ℕ) : Prop := m.prev (spine (i + 1)) = spine i

def Off (n : ℕ) (spine : ℕ → Addr) (a : Addr) : Prop := ∀ i, i ≤ n → a ≠ spine i

structure Agree (m m' : Memory α) (a : Addr) : Prop where
  live : ∀ b, b ≠ a → m'.live b = m.live b
  next : ∀ b, b ≠ a → m'.next b = m.next b
  prev : ∀ b, b ≠ a → m'.prev b = m.prev b
  val : ∀ b, b ≠ a → m'.val b = m.val b

section Agree

variable {m m' : Memory α} {a : Addr}

lemma kmalloc_agree (m junk : Memory α) (a : Addr) : Agree m (m.kmalloc a junk) a := by
  constructor <;> exact fun b hb => Function.update_of_ne hb ..

lemma store_agree (m : Memory α) (a : Addr) (v : α) : Agree m (m.store a v) a :=
  ⟨fun _ _ => rfl, fun _ _ => rfl, fun _ _ => rfl, fun _ hb => Function.update_of_ne hb ..⟩

lemma kfree_agree (m : Memory α) (a : Addr) : Agree m (m.kfree a) a :=
  ⟨fun _ hb => Function.update_of_ne hb .., fun _ _ => rfl, fun _ _ => rfl, fun _ _ => rfl⟩

lemma Agree.trans {m'' : Memory α} (h : Agree m m' a) (h' : Agree m' m'' a) : Agree m m'' a where
  live b hb := (h'.live b hb).trans (h.live b hb)
  next b hb := (h'.next b hb).trans (h.next b hb)
  prev b hb := (h'.prev b hb).trans (h.prev b hb)
  val b hb := (h'.val b hb).trans (h.val b hb)

end Agree

section Chain

variable {n k : ℕ} {m m' : Memory α} {spine : ℕ → Addr} {vals : ℕ → α} {a : Addr} {v : α}

lemma Chain.frame (h : Chain n m spine vals)
    (hlive : ∀ i, i ≤ n → m'.live (spine i) = m.live (spine i))
    (hnext : ∀ i, i ≤ n → m'.next (spine i) = m.next (spine i))
    (hval : ∀ i, i ≤ n → m'.val (spine i) = m.val (spine i)) : Chain n m' spine vals := by
  refine ⟨h.first, h.last, h.inner, h.inj, ?_, ?_, ?_⟩
  · intro i hi
    rw [hlive i hi]
    exact h.live i hi
  · intro i hi
    rw [hnext i hi]
    exact h.next i hi
  · intro i hi hin
    rw [hval i hin]
    exact h.val i hi hin

lemma Chain.agree (h : Chain n m spine vals) (ha : Off n spine a) (hm : Agree m m' a) :
    Chain n m' spine vals := by
  apply h.frame
  · exact fun i hi => hm.live _ (ha i hi).symm
  · exact fun i hi => hm.next _ (ha i hi).symm
  · exact fun i hi => hm.val _ (ha i hi).symm

lemma Chain.ne_head (h : Chain n m spine vals) (ha : Off n spine a) : a ≠ listHead := by
  rw [← h.first]
  exact ha 0 (Nat.zero_le n)

lemma Chain.ne_of_off (h : Chain n m spine vals) (ha : Off n spine a) (i : ℕ) : spine i ≠ a := by
  by_cases hi : i ≤ n
  · exact (ha i hi).symm
  · rw [h.last i (by omega)]
    exact (h.ne_head ha).symm

lemma Chain.unique {spine' : ℕ → Addr} {vals' : ℕ → α} (h : Chain n m spine vals)
    (h' : Chain n m' spine' vals')
    (hnext : ∀ i, i ≤ n → m'.next (spine i) = m.next (spine i)) : spine' = spine := by
  have hle : ∀ i, i ≤ n + 1 → spine' i = spine i := by
    intro i hi
    induction i with
    | zero => rw [h.first, h'.first]
    | succ i ih =>
      rw [← h.next i (by omega), ← h'.next i (by omega), ih (by omega), hnext i (by omega)]
  funext i
  by_cases hi : i ≤ n + 1
  · exact hle i hi
  · rw [h.last i (by omega), h'.last i (by omega)]

lemma Chain.back_agree (h : Chain n m spine vals) (ha : Off n spine a) (hm : Agree m m' a) {i : ℕ}
    (hb : Back m spine i) : Back m' spine i := by
  rw [Back, hm.prev _ (h.ne_of_off ha (i + 1))]
  exact hb

lemma Chain.ne (h : Chain n m spine vals) {i j : ℕ} (hi : i ≤ n) (hj : j ≤ n) (hij : i ≠ j) :
    spine i ≠ spine j := by
  intro heq
  by_cases hi₀ : i = 0
  · subst hi₀
    rw [h.first] at heq
    exact h.inner j (by omega) hj heq.symm
  · by_cases hj₀ : j = 0
    · subst hj₀
      rw [h.first] at heq
      exact h.inner i (by omega) hi heq
    · exact hij (h.inj i j (by omega) hi (by omega) hj heq)

lemma Chain.succ_ne (h : Chain n m spine vals) {i j : ℕ} (hi : i ≤ n) (hj : j ≤ n) (hij : i ≠ j) :
    spine (i + 1) ≠ spine (j + 1) := by
  by_cases hin : i + 1 ≤ n
  · by_cases hjn : j + 1 ≤ n
    · exact h.ne hin hjn (by omega)
    · rw [h.last (j + 1) (by omega)]
      exact h.inner (i + 1) (by omega) hin
  · rw [h.last (i + 1) (by omega)]
    exact (h.inner (j + 1) (by omega) (by omega)).symm

lemma Chain.live_succ (h : Chain n m spine vals) (i : ℕ) : m.live (spine (i + 1)) = true := by
  by_cases hi : i + 1 ≤ n
  · exact h.live _ hi
  · rw [h.last _ (by omega), ← h.first]
    exact h.live 0 (Nat.zero_le n)

lemma Chain.off_of_dead (h : Chain n m spine vals) (ha : m.live a = false) : Off n spine a := by
  rintro i hi rfl
  rw [h.live i hi] at ha
  cases ha

lemma chain_initListHead (junk : Memory α) (vals : ℕ → α) :
    Chain 0 junk.initListHead (fun _ => listHead) vals where
  first := rfl
  last _ _ := rfl
  inner _ hi hin := by omega
  inj _ _ hi hin := by omega
  live _ _ := by simp [Memory.initListHead]
  next _ _ := by simp [Memory.initListHead]
  val _ hi hin := by omega

lemma Chain.addTail (h : Chain n m spine vals) (hb : Back m spine n) (ha : Off n spine a)
    (hlive : m.live a = true) (hval : m.val a = vals (n + 1)) :
    Chain (n + 1) (m.listAddTailRcu a) (Function.update spine (n + 1) a) vals := by
  have hprev : m.prev listHead = spine n := by
    rw [← h.last (n + 1) (Nat.lt_succ_self n)]
    exact hb
  have hold : ∀ i, i ≤ n → Function.update spine (n + 1) a i = spine i :=
    fun i hi => Function.update_of_ne (by omega) ..
  refine ⟨?_, ?_, ?_, ?_, ?_, ?_, ?_⟩
  · rw [hold 0 (Nat.zero_le n)]
    exact h.first
  · intro i hi
    rw [Function.update_of_ne (by omega)]
    exact h.last i (by omega)
  · intro i hi hin
    by_cases hik : i = n + 1
    · subst hik
      rw [Function.update_self]
      exact h.ne_head ha
    · rw [hold i (by omega)]
      exact h.inner i hi (by omega)
  · intro i j hi hin hj hjn heq
    by_cases hik : i = n + 1
    · subst hik
      by_cases hjk : j = n + 1
      · exact hjk.symm
      · rw [Function.update_self, hold j (by omega)] at heq
        exact absurd heq (ha j (by omega))
    · by_cases hjk : j = n + 1
      · subst hjk
        rw [Function.update_self, hold i (by omega)] at heq
        exact absurd heq.symm (ha i (by omega))
      · rw [hold i (by omega), hold j (by omega)] at heq
        exact h.inj i j hi (by omega) hj (by omega) heq
  · intro i hi
    by_cases hik : i = n + 1
    · subst hik
      rwa [Function.update_self]
    · rw [hold i (by omega)]
      exact h.live i (by omega)
  · intro i hi
    simp only [Memory.listAddTailRcu, hprev]
    by_cases hik : i = n + 1
    · subst hik
      rw [Function.update_self, Function.update_of_ne (ha n le_rfl), Function.update_self,
        Function.update_of_ne (by omega)]
      exact (h.last (n + 1 + 1) (by omega)).symm
    · rw [hold i (by omega)]
      by_cases hin : i = n
      · subst hin
        rw [Function.update_self, Function.update_self]
      · rw [Function.update_of_ne (h.ne (by omega) le_rfl hin),
          Function.update_of_ne (ha i (by omega)).symm, hold (i + 1) (by omega)]
        exact h.next i (by omega)
  · intro i hi hin
    by_cases hik : i = n + 1
    · subst hik
      rw [Function.update_self]
      exact hval
    · rw [hold i (by omega)]
      exact h.val i hi (by omega)

lemma Chain.back_addTail (h : Chain n m spine vals) (hb : ∀ i, i ≤ n → Back m spine i)
    (ha : Off n spine a) {i : ℕ} (hi : i ≤ n + 1) :
    Back (m.listAddTailRcu a) (Function.update spine (n + 1) a) i := by
  have hprev : m.prev listHead = spine n := by
    rw [← h.last (n + 1) (Nat.lt_succ_self n)]
    exact hb n le_rfl
  simp only [Back, Memory.listAddTailRcu, hprev]
  by_cases hik : i = n + 1
  · subst hik
    have hlast : Function.update spine (n + 1) a (n + 1 + 1) = listHead := by
      rw [Function.update_of_ne (by omega)]
      exact h.last _ (by omega)
    rw [hlast, Function.update_self, Function.update_self]
  · have hpos : Function.update spine (n + 1) a i = spine i := Function.update_of_ne hik ..
    rw [hpos]
    by_cases hin : i = n
    · subst hin
      rw [Function.update_self, Function.update_of_ne (h.ne_head ha), Function.update_self]
    · have hsucc : Function.update spine (n + 1) a (i + 1) = spine (i + 1) :=
        Function.update_of_ne (by omega) ..
      rw [hsucc, Function.update_of_ne (h.inner _ (by omega) (by omega)),
        Function.update_of_ne (h.ne_of_off ha _)]
      exact hb i (by omega)

lemma Chain.publish (h : Chain n m spine vals) (hk : 1 ≤ k) (hkn : k ≤ n)
    (ha : Off n spine a) (hlive : m.live a = true) (hnext : m.next a = spine (k + 1))
    (hval : m.val a = v) :
    Chain n { m with next := Function.update m.next (spine (k - 1)) a }
      (Function.update spine k a) (Function.update vals k v) := by
  refine ⟨?_, ?_, ?_, ?_, ?_, ?_, ?_⟩
  · rw [Function.update_of_ne (by omega)]
    exact h.first
  · intro i hi
    rw [Function.update_of_ne (by omega)]
    exact h.last i hi
  · intro i hi hin
    by_cases hik : i = k
    · subst hik
      rw [Function.update_self]
      exact h.ne_head ha
    · rw [Function.update_of_ne hik]
      exact h.inner i hi hin
  · intro i j hi hin hj hjn heq
    by_cases hik : i = k
    · subst hik
      by_cases hji : j = i
      · exact hji.symm
      · rw [Function.update_self, Function.update_of_ne hji] at heq
        exact absurd heq (ha j hjn)
    · by_cases hjk : j = k
      · subst hjk
        rw [Function.update_self, Function.update_of_ne hik] at heq
        exact absurd heq.symm (ha i hin)
      · rw [Function.update_of_ne hik, Function.update_of_ne hjk] at heq
        exact h.inj i j hi hin hj hjn heq
  · intro i hi
    by_cases hik : i = k
    · subst hik
      rwa [Function.update_self]
    · rw [Function.update_of_ne hik]
      exact h.live i hi
  · intro i hi
    by_cases hik : i = k
    · subst hik
      rw [Function.update_self, Function.update_of_ne (by omega)]
      simp only
      rw [Function.update_of_ne (ha (i - 1) (by omega))]
      exact hnext
    · rw [Function.update_of_ne hik]
      simp only
      by_cases hip : i = k - 1
      · subst hip
        rw [Function.update_self, Nat.sub_add_cancel hk, Function.update_self]
      · rw [Function.update_of_ne (h.ne hi (by omega) hip), Function.update_of_ne (by omega)]
        exact h.next i hi
  · intro i hi hin
    by_cases hik : i = k
    · subst hik
      rw [Function.update_self, Function.update_self]
      exact hval
    · rw [Function.update_of_ne hik, Function.update_of_ne hik]
      exact h.val i hi hin

lemma Chain.off_publish (h : Chain n m spine vals) (hkn : k ≤ n) (ha : Off n spine a) :
    Off n (Function.update spine k a) (spine k) := by
  intro i hi
  by_cases hik : i = k
  · subst hik
    rw [Function.update_self]
    exact (ha i hi).symm
  · rw [Function.update_of_ne hik]
    exact h.ne hkn hi (Ne.symm hik)

lemma Chain.entries (h : Chain n m spine vals) (hk : k ≤ n) :
    m.entries k (spine (n + 1 - k)) = some ((List.range' (n + 1 - k) k).map vals) := by
  induction k with
  | zero =>
    rw [Memory.entries, if_pos (h.last _ (by omega))]
    rfl
  | succ k ih =>
    have hpos : n + 1 - (k + 1) + 1 = n + 1 - k := by omega
    rw [Memory.entries, if_neg (h.inner _ (by omega) (by omega)),
      if_pos (h.live _ (by omega)), h.next _ (by omega), hpos, ih (by omega),
      h.val _ (by omega) (by omega), List.range'_succ, hpos]
    rfl

end Chain

end EmbeddedSystem.Kernel
