import EmbeddedSystem.Challenge9.Driver
import EmbeddedSystem.Foundations.Register

namespace EmbeddedSystem.Challenge9

open Kernel Foundations

section Invariant

variable {P A : Type} {w : ℕ}

def ReadPhase.held : ReadPhase A w → Option A
  | .loaded old | .printed old _ => some old
  | _ => none

def WritePhase.Keeps (pending : Bool) (a : A) : WritePhase A → Prop
  | .synchronizeRcu old => a = old
  | .waiting old => a = old ∧ pending = true
  | _ => False

def System.At (s : System P A w) (p : P) (a : A) : Prop :=
  a = s.myData ∨ ∃ u, s.write = some u ∧ u.phase.Keeps (s.pending p) a

def ReadPhase.Sound (heap : Heap A (BitVec w)) (At : A → Prop) : ReadPhase A w → Prop
  | .loaded old => At old
  | .printed old data => At old ∧ data = heap.val old
  | .reprinted data again => data = again
  | .faulted _ => False
  | _ => True

def WritePhase.Sound (heap : Heap A (BitVec w)) (myData : A) (arg : BitVec w) :
    WritePhase A → Prop
  | .store new => heap.live new = true ∧ new ≠ myData
  | .load new => heap.live new = true ∧ new ≠ myData ∧ heap.val new = arg
  | .assign old new => heap.live new = true ∧ new ≠ myData ∧ heap.val new = arg ∧ old = myData
  | .synchronizeRcu old | .waiting old | .kfree old => heap.live old = true ∧ old ≠ myData
  | _ => True

structure Safe (v : Version) (s : System P A w) : Prop where
  live : s.heap.live s.myData = true
  read : ∀ p, (s.reader p).Sound s.heap (s.At p)
  write : ∀ u, s.write = some u → u.phase.Sound s.heap s.myData u.arg
  exclusive : v = .simpleRwlock → s.write ≠ none → ∀ p, (s.reader p).inSection = false

variable {v : Version} {s t : System P A w} {p : P} {a : A}

lemma ReadPhase.Sound.mono {heap heap' : Heap A (BitVec w)} {At At' : A → Prop}
    {ph : ReadPhase A w} (h : ph.Sound heap At) (hat : ∀ a, ph.held = some a → At a → At' a)
    (hval : ∀ a, At a → heap'.val a = heap.val a) : ph.Sound heap' At' := by
  cases ph with
  | loaded old => exact hat old rfl h
  | printed old data => exact ⟨hat old rfl h.1, h.2.trans (hval old h.1).symm⟩
  | _ => exact h

lemma Safe.live_at (hs : Safe v s) (ha : s.At p a) : s.heap.live a = true := by
  obtain rfl | ⟨⟨q, arg, ph⟩, hu, hkeeps⟩ := ha
  · exact hs.live
  · have hsound := hs.write _ hu
    cases ph with
    | synchronizeRcu old =>
      obtain rfl : a = old := hkeeps
      exact hsound.1
    | waiting old =>
      obtain ⟨rfl, -⟩ : a = old ∧ _ := hkeeps
      exact hsound.1
    | _ => cases hkeeps

lemma at_myData {u : Write P A w} (hw : s.write = some u) (hu : ∀ b a, ¬ u.phase.Keeps b a)
    (ha : s.At p a) : a = s.myData := by
  obtain ha | ⟨u', hu', hkeeps⟩ := ha
  · exact ha
  · rw [hw] at hu'
    cases hu'
    exact absurd hkeeps (hu _ _)

lemma Safe.loaded (hs : Safe v s) {old : A} (hp : s.reader p = .loaded old) :
    s.heap.read old = .ok (s.heap.val old) := by
  have hread := hs.read p
  rw [hp] at hread
  exact Heap.read_of_live (hs.live_at hread)

lemma Safe.printed (hs : Safe v s) {old : A} {data : BitVec w}
    (hp : s.reader p = .printed old data) : s.heap.read old = .ok (s.heap.val old) := by
  have hread := hs.read p
  rw [hp] at hread
  exact Heap.read_of_live (hs.live_at hread.1)

lemma Safe.advance (hs : Safe v s) {heap : Heap A (BitVec w)} {myData : A}
    {write : Option (Write P A w)} {pending : P → Bool} (hlive : heap.live myData = true)
    (hwrite : ∀ u, write = some u → u.phase.Sound heap myData u.arg)
    (hat : ∀ p a, (s.reader p).held = some a → s.At p a →
      System.At ⟨heap, myData, s.reader, write, pending⟩ p a)
    (hval : ∀ p a, s.At p a → heap.val a = s.heap.val a) (hlock : s.write ≠ none) :
    Safe v ⟨heap, myData, s.reader, write, pending⟩ := by
  refine ⟨hlive, ?_, hwrite, ?_⟩
  · intro p
    exact (hs.read p).mono (hat p) (hval p)
  · intro hv _ p
    exact hs.exclusive hv hlock p

lemma Safe.work (hs : Safe v s) {u : Write P A w} (hw : s.write = some u)
    (hu : ∀ b a, ¬ u.phase.Keeps b a) {heap : Heap A (BitVec w)} {write : Option (Write P A w)}
    (hlive : heap.live s.myData = true) (hval : heap.val s.myData = s.heap.val s.myData)
    (hwrite : ∀ u, write = some u → u.phase.Sound heap s.myData u.arg) :
    Safe v ⟨heap, s.myData, s.reader, write, s.pending⟩ := by
  have hmine : ∀ p a, s.At p a → a = s.myData := fun p a => at_myData hw hu
  apply hs.advance hlive hwrite
  · intro p a _ ha
    exact Or.inl (hmine p a ha)
  · intro p a ha
    rw [hmine p a ha]
    exact hval
  · simp [hw]

variable [DecidableEq P]

lemma Safe.set (hs : Safe v s) {ph : ReadPhase A w} (hph : ph.Sound s.heap (s.At p))
    (hsection : (s.reader p).inSection = false → ph.inSection = true →
      v = .simpleRwlock → s.write = none) : Safe v (s.set p ph) := by
  refine ⟨hs.live, ?_, hs.write, ?_⟩
  · apply (Function.forall_update_iff s.reader fun q ph => ph.Sound s.heap (s.At q)).mpr
    exact ⟨hph, fun q _ => hs.read q⟩
  · intro hv hw
    have hout := hs.exclusive hv hw
    apply (Function.forall_update_iff s.reader fun _ ph => ph.inSection = false).mpr
    refine ⟨?_, fun q _ => hout q⟩
    by_contra hin
    exact hw (hsection (hout p) (by simpa using hin) hv)

lemma Safe.leave (hs : Safe v s) (p : P) :
    Safe v { s.set p .idle with pending := Function.update s.pending p false } := by
  have hset : Safe v (s.set p .idle) := by
    refine hs.set trivial ?_
    intro _ hin
    cases hin
  refine ⟨hset.live, ?_, hset.write, hset.exclusive⟩
  intro q
  by_cases hqp : q = p
  · subst hqp
    simp [System.set, ReadPhase.Sound]
  · apply (hset.read q).mono
    · rintro a - (ha | ⟨u, hu, hkeeps⟩)
      · exact Or.inl ha
      · refine Or.inr ⟨u, hu, ?_⟩
        simp only [Function.update_of_ne hqp]
        exact hkeeps
    · exact fun _ _ => rfl

omit [DecidableEq P] in
lemma Safe.lock (hs : Safe v s) (hv : v.writeLock s) (arg : BitVec w) :
    Safe v { s with write := some ⟨p, arg, .kmalloc⟩ } := by
  have hfree : s.write = none := by
    cases v with
    | simpleRcu => exact hv
    | simpleRwlock => exact hv.1
  refine ⟨hs.live, ?_, ?_, ?_⟩
  · intro q
    apply (hs.read q).mono
    · rintro a - (ha | ⟨u, hu, -⟩)
      · exact Or.inl ha
      · rw [hfree] at hu
        cases hu
    · exact fun _ _ => rfl
  · rintro u ⟨⟩
    trivial
  · rintro rfl -
    exact hv.2

end Invariant

section Writes

variable {P A : Type} {w : ℕ} {v : Version} {s : System P A w} {p : P} {old new : A}
  {arg junk : BitVec w}

lemma Safe.loadOld (hs : Safe v s) (hw : s.write = some ⟨p, arg, .load new⟩) :
    Safe v { s with write := some ⟨p, arg, .assign s.myData new⟩ } := by
  obtain ⟨hnew, hne, hval⟩ := hs.write _ hw
  apply hs.work hw (fun _ _ hkeeps => hkeeps) hs.live rfl
  rintro u ⟨⟩
  exact ⟨hnew, hne, hval, rfl⟩

lemma Safe.assign (hs : Safe v s) (hw : s.write = some ⟨p, arg, .assign old new⟩) :
    Safe v { s with myData := new, write := some ⟨p, arg, v.assigned old⟩ } := by
  obtain ⟨hnew, hne, hval, rfl⟩ := hs.write _ hw
  have hlocked : s.write ≠ none := by simp [hw]
  have hmine : ∀ q a, s.At q a → a = s.myData :=
    fun q a => at_myData hw fun _ _ hkeeps => hkeeps
  apply hs.advance hnew
  · rintro u ⟨⟩
    cases v <;> exact ⟨hs.live, hne.symm⟩
  · intro q a hheld ha
    obtain rfl := hmine q a ha
    cases v with
    | simpleRcu => exact Or.inr ⟨_, rfl, rfl⟩
    | simpleRwlock =>
      -- the write lock keeps the readers out
      have hout := hs.exclusive rfl hlocked q
      cases hq : s.reader q with
      | idle =>
        rw [hq] at hheld
        cases hheld
      | _ =>
        rw [hq] at hout
        cases hout
  · exact fun _ _ _ => rfl
  · exact hlocked

lemma Safe.synchronizeRcu (hs : Safe v s) (hw : s.write = some ⟨p, arg, .synchronizeRcu old⟩) :
    Safe v { s with
      write := some ⟨p, arg, .waiting old⟩
      pending := fun q => (s.reader q).inSection } := by
  have hold := hs.write _ hw
  apply hs.advance hs.live
  · rintro u ⟨⟩
    exact hold
  · rintro q a hheld (ha | ⟨u, hu, hkeeps⟩)
    · exact Or.inl ha
    · rw [hw] at hu
      cases hu
      refine Or.inr ⟨_, rfl, hkeeps, ?_⟩
      cases hq : s.reader q with
      | idle =>
        rw [hq] at hheld
        cases hheld
      | _ => simp [hq, ReadPhase.inSection]
  · exact fun _ _ _ => rfl
  · simp [hw]

lemma Safe.synchronized (hs : Safe v s) (hw : s.write = some ⟨p, arg, .waiting old⟩)
    (hgrace : ∀ q, s.pending q = false) : Safe v { s with write := some ⟨p, arg, .kfree old⟩ } := by
  have hold := hs.write _ hw
  apply hs.advance hs.live
  · rintro u ⟨⟩
    exact hold
  · rintro q a - (ha | ⟨u, hu, hkeeps⟩)
    · exact Or.inl ha
    · rw [hw] at hu
      cases hu
      obtain ⟨-, hpending⟩ : _ ∧ s.pending q = true := hkeeps
      rw [hgrace q] at hpending
      cases hpending
  · exact fun _ _ _ => rfl
  · simp [hw]

variable [DecidableEq A] {heap : Heap A (BitVec w)}

lemma Safe.kmalloc (hs : Safe v s) (hw : s.write = some ⟨p, arg, .kmalloc⟩)
    (hnew : s.heap.live new = false) :
    Safe v { s with heap := s.heap.kmalloc new junk, write := some ⟨p, arg, .store new⟩ } := by
  have hne : s.myData ≠ new := Heap.ne_of_live hs.live hnew
  apply hs.work hw (fun _ _ hkeeps => hkeeps)
  · simpa [Heap.kmalloc, hne] using hs.live
  · exact Function.update_of_ne hne ..
  · rintro u ⟨⟩
    exact ⟨by simp [Heap.kmalloc], hne.symm⟩

lemma Safe.store (hs : Safe v s) (hw : s.write = some ⟨p, arg, .store new⟩)
    (hstore : s.heap.write new arg = .ok heap) :
    Safe v { s with heap := heap, write := some ⟨p, arg, .load new⟩ } := by
  obtain ⟨hnew, hne⟩ := hs.write _ hw
  rw [Heap.write_of_live hnew] at hstore
  cases hstore
  apply hs.work hw (fun _ _ hkeeps => hkeeps)
  · exact hs.live
  · exact Function.update_of_ne hne.symm ..
  · rintro u ⟨⟩
    exact ⟨hnew, hne, Function.update_self ..⟩

lemma Safe.kfree (hs : Safe v s) (hw : s.write = some ⟨p, arg, .kfree old⟩)
    (hfree : s.heap.kfree old = .ok heap) :
    Safe v { s with heap := heap, write := some ⟨p, arg, .unlock⟩ } := by
  obtain ⟨hold, hne⟩ := hs.write _ hw
  rw [Heap.kfree_of_live hold] at hfree
  cases hfree
  apply hs.work hw (fun _ _ hkeeps => hkeeps)
  · simpa only [Function.update_of_ne hne.symm] using hs.live
  · rfl
  · rintro u ⟨⟩
    trivial

end Writes

section Register

variable {P A : Type} {w : ℕ}

def ReadPhase.call (heap : Heap A (BitVec w)) : ReadPhase A w → Register.Call (BitVec w)
  | .idle | .faulted _ => .idle
  | .locked => .reading
  | .loaded old => .sampled (heap.val old)
  | .printed _ data => .sampled data
  | .reprinted data _ => .sampled data

def WritePhase.call (arg : BitVec w) : WritePhase A → Register.Call (BitVec w)
  | .kmalloc | .store _ | .load _ | .assign _ _ | .faulted _ => .writing arg
  | .synchronizeRcu _ | .waiting _ | .kfree _ | .unlock => .written

def Move.register : Move A w → Option (Register.Move (BitVec w))
  | .readLock => some .readCall
  | .load => some .sample
  | .readUnlock data _ => some (.readReturn data)
  | .writeLock arg => some (.writeCall arg)
  | .assign _ arg => some (.assign arg)
  | .writeUnlock => some .writeReturn
  | _ => none

def labels (l : P × Move A w) : Option (P × Register.Move (BitVec w)) :=
  l.2.register.map (Prod.mk l.1)

def Apart (s : System P A w) : Prop := ∀ u, s.write = some u → s.reader u.writer = .idle

variable {v : Version} {s : System P A w} {p : P} {arg : BitVec w}

lemma Apart.reading (hs : Apart s) (hp : s.reader p ≠ .idle) :
    ∀ u, s.write = some u → u.writer ≠ p := by
  rintro u hu rfl
  exact hp (hs u hu)

lemma ReadPhase.Sound.call {heap heap' : Heap A (BitVec w)} {At : A → Prop} {ph : ReadPhase A w}
    (h : ph.Sound heap At) (hval : ∀ a, At a → heap'.val a = heap.val a) :
    ph.call heap' = ph.call heap := by
  cases ph with
  | loaded old => exact congrArg Register.Call.sampled (hval old h)
  | _ => rfl

variable [DecidableEq P]

def System.call (s : System P A w) (p : P) : Register.Call (BitVec w) :=
  match s.write with
  | none => (s.reader p).call s.heap
  | some u => if u.writer = p then u.phase.call u.arg else (s.reader p).call s.heap

def System.register (s : System P A w) : Register.State P (BitVec w) :=
  ⟨s.heap.val s.myData, s.call⟩

lemma apart_set (hs : Apart s) {ph : ReadPhase A w}
    (hp : ∀ u, s.write = some u → u.writer ≠ p) : Apart (s.set p ph) := by
  intro u hu
  simp only [System.set, Function.update_of_ne (hp u hu)]
  exact hs u hu

lemma call_of_ne {q : P} (hq : ∀ u, s.write = some u → u.writer ≠ q) :
    s.call q = (s.reader q).call s.heap := by
  rw [System.call]
  cases hw : s.write with
  | none => rfl
  | some u => exact if_neg (hq u hw)

lemma call_writer {u : Write P A w} (hw : s.write = some u) :
    s.call u.writer = u.phase.call u.arg := by
  rw [System.call, hw]
  exact if_pos rfl

lemma register_set {ph : ReadPhase A w} (hp : ∀ u, s.write = some u → u.writer ≠ p) :
    (s.set p ph).register = s.register.set p (ph.call s.heap) := by
  simp only [System.register, Register.State.set, Register.State.mk.injEq]
  refine ⟨rfl, ?_⟩
  funext q
  by_cases hqp : q = p
  · subst hqp
    have hcall : (s.set q ph).call q = ((s.set q ph).reader q).call s.heap := call_of_ne hp
    rw [hcall]
    simp [System.set]
  · rw [Function.update_of_ne hqp]
    simp [System.call, System.set, hqp]

lemma register_write (hs : Safe v s) {ph : WritePhase A} (hw : s.write = some ⟨p, arg, ph⟩)
    {heap : Heap A (BitVec w)} (hval : ∀ q a, s.At q a → heap.val a = s.heap.val a) (myData : A)
    (ph' : WritePhase A) (pending : P → Bool) :
    System.register ⟨heap, myData, s.reader, some ⟨p, arg, ph'⟩, pending⟩ =
      Register.State.set ⟨heap.val myData, s.call⟩ p (ph'.call arg) := by
  simp only [System.register, Register.State.set, Register.State.mk.injEq, true_and]
  funext q
  by_cases hqp : q = p
  · subst hqp
    simp [System.call]
  · rw [Function.update_of_ne hqp, call_of_ne, call_of_ne]
    · exact (hs.read q).call (hval q)
    · rw [hw]
      rintro _ ⟨⟩
      exact Ne.symm hqp
    · rintro _ ⟨⟩
      exact Ne.symm hqp

lemma register_quiet (hs : Safe v s) {ph ph' : WritePhase A} (hw : s.write = some ⟨p, arg, ph⟩)
    (hph : ph'.call arg = ph.call arg) {heap : Heap A (BitVec w)}
    (hval : ∀ q a, s.At q a → heap.val a = s.heap.val a) (pending : P → Bool) :
    System.register ⟨heap, s.myData, s.reader, some ⟨p, arg, ph'⟩, pending⟩ = s.register := by
  have hcall : s.call p = ph.call arg := call_writer hw
  rw [register_write hs hw hval, Register.State.set, hph, ← hcall,
    Function.update_eq_self, hval p _ (Or.inl rfl)]
  rfl

lemma register_lock (hw : s.write = none) :
    System.register { s with write := some ⟨p, arg, .kmalloc⟩ } =
      s.register.set p (.writing arg) := by
  simp only [System.register, Register.State.set, Register.State.mk.injEq, true_and]
  funext q
  by_cases hqp : q = p
  · subst hqp
    simp [System.call, WritePhase.call]
  · simp [System.call, hw, hqp, Ne.symm hqp]

lemma register_unlock (ha : Apart s) {u : Write P A w} (hw : s.write = some u) :
    System.register { s with write := none } = s.register.set u.writer .idle := by
  simp only [System.register, Register.State.set, Register.State.mk.injEq, true_and]
  funext q
  by_cases hq : q = u.writer
  · subst hq
    simp [System.call, ha u hw, ReadPhase.call]
  · simp [System.call, hw, hq, Ne.symm hq]

end Register

section Runs

variable {P A : Type} {w : ℕ} [DecidableEq P] [DecidableEq A] {v : Version} {s t : System P A w}
  {p : P} {m : Move A w} {ls : List (P × Move A w)} {junk : Heap A (BitVec w)} {data : A}

omit [DecidableEq P] in
lemma safe_init : Safe v (System.init junk data : System P A w) where
  live := by simp [System.init, Heap.kmalloc]
  read _ := trivial
  write _ hu := by cases hu
  exclusive _ hw := absurd rfl hw

lemma safe_step (hs : Safe v s) (h : Step v s (p, m) t) : Safe v t := by
  have hread := hs.read p
  cases h with
  | readLock hp hwriter hlock =>
    refine hs.set trivial ?_
    rintro - - rfl
    exact hlock
  | load hp =>
    refine hs.set (Or.inl rfl) ?_
    simp [hp, ReadPhase.inSection]
  | print hp hdata =>
    rw [hs.loaded hp] at hdata
    cases hdata
    rw [hp] at hread
    refine hs.set ⟨hread, rfl⟩ ?_
    simp [hp, ReadPhase.inSection]
  | printAgain hp hagain =>
    rw [hs.printed hp] at hagain
    cases hagain
    rw [hp] at hread
    refine hs.set hread.2 ?_
    simp [hp, ReadPhase.inSection]
  | readUnlock => exact hs.leave p
  | printFault hp he =>
    rw [hs.loaded hp] at he
    cases he
  | printAgainFault hp he =>
    rw [hs.printed hp] at he
    cases he
  | writeLock _ hlock => exact hs.lock hlock _
  | kmalloc hw hnew => exact hs.kmalloc hw hnew
  | kmallocNull hw =>
    apply hs.work hw (fun _ _ hkeeps => hkeeps) hs.live rfl
    rintro u ⟨⟩
    trivial
  | store hw hstore => exact hs.store hw hstore
  | loadOld hw => exact hs.loadOld hw
  | assign hw => exact hs.assign hw
  | synchronizeRcu hw => exact hs.synchronizeRcu hw
  | synchronized hw hgrace => exact hs.synchronized hw hgrace
  | kfree hw hfree => exact hs.kfree hw hfree
  | writeUnlock hw =>
    apply hs.work hw (fun _ _ hkeeps => hkeeps) hs.live rfl
    rintro u ⟨⟩
  | storeFault hw he =>
    rw [Heap.write_of_live (hs.write _ hw).1] at he
    cases he
  | kfreeFault hw he =>
    rw [Heap.kfree_of_live (hs.write _ hw).1] at he
    cases he
  | unknown => exact hs

lemma safe_run (h : Run (Step v) (.init junk data) ls s) : Safe v s := by
  apply h.invariant (I := Safe v)
  · rintro s ⟨p, m⟩ t hs hstep
    exact safe_step hs hstep
  · exact safe_init

lemma apart_step (hs : Apart s) (h : Step v s (p, m) t) : Apart t := by
  cases h with
  | readLock _ hwriter => exact apart_set hs hwriter
  | load hp | print hp | printAgain hp | printFault hp | printAgainFault hp | readUnlock hp =>
    exact apart_set hs (hs.reading (by simp [hp]))
  | writeLock hp =>
    rintro u ⟨⟩
    exact hp
  | kmalloc hw | kmallocNull hw | store hw | loadOld hw | assign hw | synchronizeRcu hw
  | synchronized hw | kfree hw | storeFault hw | kfreeFault hw =>
    have hidle := hs _ hw
    rintro u ⟨⟩
    exact hidle
  | writeUnlock => rintro u ⟨⟩
  | unknown => exact hs

lemma apart_run (h : Run (Step v) (.init junk data) ls s) : Apart s := by
  apply h.invariant (I := Apart)
  · rintro s ⟨p, m⟩ t hs hstep
    exact apart_step hs hstep
  · rintro u ⟨⟩

lemma step_register (hs : Safe v s) (ha : Apart s) (h : Step v s (p, m) t) :
    Silent Register.Step s.register (labels (p, m)) t.register := by
  have hcall : ∀ {ph : ReadPhase A w}, s.reader p = ph → ph ≠ .idle →
      s.register.call p = ph.call s.heap := by
    rintro _ rfl hp
    exact call_of_ne (ha.reading hp)
  have hquiet : ∀ {ph ph' : ReadPhase A w}, s.reader p = ph → ph ≠ .idle →
      ph'.call s.heap = ph.call s.heap → (s.set p ph').register = s.register := by
    rintro ph ph' hp hph heq
    rw [register_set (ha.reading (by rwa [hp])), heq, ← hcall hp hph, Register.State.set,
      Function.update_eq_self]
  have hidle : ∀ u, s.write = some u → s.register.call u.writer = u.phase.call u.arg :=
    fun u hu => call_writer hu
  cases h with
  | readLock hp hwriter _ =>
    rw [register_set hwriter]
    apply Register.Step.readCall
    have hreader := call_of_ne hwriter
    rw [hp] at hreader
    exact hreader
  | load hp =>
    rw [register_set (ha.reading (by simp [hp]))]
    apply Register.Step.sample
    exact hcall hp (by simp)
  | print hp hdata =>
    rw [hs.loaded hp] at hdata
    cases hdata
    exact hquiet hp (by simp) rfl
  | printAgain hp hagain => exact hquiet hp (by simp) rfl
  | printFault hp he =>
    rw [hs.loaded hp] at he
    cases he
  | printAgainFault hp he =>
    rw [hs.printed hp] at he
    cases he
  | @readUnlock _ data again hp =>
    have hset : (s.set p .idle).register = s.register.set p .idle :=
      register_set (ha.reading (by simp [hp]))
    refine Eq.subst (motive := fun r => Register.Step s.register _ r) hset.symm ?_
    apply Register.Step.readReturn
    exact hcall hp (by simp)
  | writeLock hp hlock =>
    have hfree : s.write = none := by
      cases v with
      | simpleRcu => exact hlock
      | simpleRwlock => exact hlock.1
    rw [register_lock hfree]
    apply Register.Step.writeCall
    have hreader : s.call p = (s.reader p).call s.heap := call_of_ne (by simp [hfree])
    rw [hp] at hreader
    exact hreader
  | kmalloc hw hnew =>
    refine register_quiet hs hw rfl ?_ s.pending
    intro q a ha
    exact Function.update_of_ne (Heap.ne_of_live (hs.live_at ha) hnew) ..
  | kmallocNull hw | loadOld hw | synchronized hw =>
    exact register_quiet hs hw rfl (fun _ _ _ => rfl) s.pending
  | synchronizeRcu hw =>
    exact register_quiet hs hw rfl (fun _ _ _ => rfl) fun q => (s.reader q).inSection
  | store hw hstore =>
    obtain ⟨hnew, hne⟩ := hs.write _ hw
    rw [Heap.write_of_live hnew] at hstore
    cases hstore
    refine register_quiet hs hw rfl ?_ s.pending
    intro q a ha
    obtain rfl : a = s.myData := at_myData hw (fun _ _ hkeeps => hkeeps) ha
    exact Function.update_of_ne hne.symm ..
  | assign hw =>
    obtain ⟨-, -, hval, rfl⟩ := hs.write _ hw
    have hstep := Register.Step.assign (hidle _ hw)
    rw [register_write hs hw fun _ _ _ => rfl, hval]
    cases v <;> exact hstep
  | kfree hw hfree =>
    obtain ⟨hold, -⟩ := hs.write _ hw
    rw [Heap.kfree_of_live hold] at hfree
    cases hfree
    exact register_quiet hs hw rfl (fun _ _ _ => rfl) s.pending
  | writeUnlock hw =>
    rw [register_unlock ha hw]
    exact Register.Step.writeReturn (hidle _ hw)
  | storeFault hw he =>
    rw [Heap.write_of_live (hs.write _ hw).1] at he
    cases he
  | kfreeFault hw he =>
    rw [Heap.kfree_of_live (hs.write _ hw).1] at he
    cases he
  | unknown => rfl

lemma register_init :
    (System.init junk data : System P A w).register = .init 0 := by
  simp only [System.register, System.init, Register.State.init, Register.State.mk.injEq]
  exact ⟨Function.update_self .., rfl⟩

lemma register_run (h : Run (Step v) (.init junk data) ls s) :
    Run Register.Step (.init 0) (ls.filterMap labels) s.register := by
  have hsim : ∀ (s : System P A w) l t, Safe v s ∧ Apart s → Step v s l t →
      Silent Register.Step s.register (labels l) t.register := by
    rintro s ⟨p, m⟩ t ⟨hs, ha⟩ hstep
    exact step_register hs ha hstep
  have hkeep : ∀ (s : System P A w) l t, Safe v s ∧ Apart s → Step v s l t →
      Safe v t ∧ Apart t := by
    rintro s ⟨p, m⟩ t ⟨hs, ha⟩ hstep
    exact ⟨safe_step hs hstep, apart_step ha hstep⟩
  have hinit : (System.init junk data : System P A w).register = .init 0 := register_init
  rw [← hinit]
  exact h.project hkeep hsim ⟨safe_init, by rintro u ⟨⟩⟩

end Runs

section Cells

variable {P A : Type} {w : ℕ}

def WritePhase.unfreed : WritePhase A → List A
  | .synchronizeRcu old | .waiting old | .kfree old => [old]
  | _ => []

def System.unfreed (s : System P A w) : List A :=
  match s.write with
  | none => []
  | some u => u.phase.unfreed

def replaced (ls : List (P × Move A w)) : List A :=
  ls.filterMap fun l => match l.2 with
    | .assign old _ => some old
    | _ => none

def freed (ls : List (P × Move A w)) : List A :=
  ls.filterMap fun l => match l.2 with
    | .kfree old => some old
    | _ => none

variable [DecidableEq P] [DecidableEq A] {v : Version} {s t : System P A w} {p : P} {m : Move A w}
  {ls : List (P × Move A w)} {junk : Heap A (BitVec w)} {data : A}

lemma unfreed_step (hs : Safe v s) (h : Step v s (p, m) t) :
    s.unfreed ++ replaced [(p, m)] = freed [(p, m)] ++ t.unfreed := by
  cases h with
  | assign hw =>
    simp only [System.unfreed, hw]
    cases v <;> rfl
  | writeLock hp hlock =>
    have hfree : s.write = none := by
      cases v with
      | simpleRcu => exact hlock
      | simpleRwlock => exact hlock.1
    simp only [System.unfreed, hfree]
    rfl
  | storeFault hw he =>
    rw [Heap.write_of_live (hs.write _ hw).1] at he
    cases he
  | kfreeFault hw he =>
    rw [Heap.kfree_of_live (hs.write _ hw).1] at he
    cases he
  | kmalloc hw | kmallocNull hw | store hw | loadOld hw | synchronizeRcu hw | synchronized hw
  | kfree hw | writeUnlock hw =>
    simp only [System.unfreed, hw]
    rfl
  | _ => exact List.append_nil _

lemma freed_run (h : Run (Step v) (.init junk data) ls s) :
    replaced ls = freed ls ++ s.unfreed := by
  apply h.induct_right (M := fun ls s => replaced ls = freed ls ++ s.unfreed)
  · rfl
  · rintro ls s ⟨p, m⟩ t hr ih hs
    calc replaced (ls ++ [(p, m)]) = replaced ls ++ replaced [(p, m)] := List.filterMap_append ..
      _ = freed ls ++ (s.unfreed ++ replaced [(p, m)]) := by rw [ih, List.append_assoc]
      _ = freed ls ++ (freed [(p, m)] ++ t.unfreed) := by rw [unfreed_step (safe_run hr) hs]
      _ = freed (ls ++ [(p, m)]) ++ t.unfreed := by
        rw [← List.append_assoc]
        congr 1
        exact (List.filterMap_append ..).symm

end Cells

section Results

variable {P A : Type} {w : ℕ} [DecidableEq P] [DecidableEq A] {v : Version} {s : System P A w}
  {ls : List (P × Move A w)} {junk : Heap A (BitVec w)} {data : A}

lemma readUnlock_inv {p : P} {m : Move A w} {t : System P A w} {x y : BitVec w}
    (h : Step v s (p, m) t) (hm : m = .readUnlock x y) : s.reader p = .reprinted x y := by
  cases h with
  | readUnlock hp =>
    cases hm
    exact hp
  | _ => cases hm

lemma kfree_inv {p : P} {m : Move A w} {t : System P A w} {old : A} (h : Step v s (p, m) t)
    (hm : m = .kfree old) : ∃ arg, s.write = some ⟨p, arg, .kfree old⟩ := by
  cases h with
  | kfree hw =>
    cases hm
    exact ⟨_, hw⟩
  | _ => cases hm

theorem safe_register (h : Run (Step v) (.init junk data) ls s) :
    Run Register.Step (.init 0) (ls.filterMap labels) s.register ∧
    (∀ p e, s.reader p ≠ .faulted e) ∧
    (∀ p x y t, Step v s (p, .readUnlock x y) t →
      x = y ∧ x ∈ (Register.history 0 (ls.filterMap labels)).window p) ∧
    s.heap.read s.myData = .ok (Register.history 0 (ls.filterMap labels)).value ∧
    (∀ p old t, Step v s (p, .kfree old) t → s.heap.live old = true ∧ old ≠ s.myData) ∧
    replaced ls = freed ls ++ s.unfreed ∧ (s.write = none → replaced ls = freed ls) := by
  have hs := safe_run h
  have hr := register_run h
  have hf := Register.follows_run hr
  refine ⟨hr, ?_, ?_, ?_, ?_, freed_run h, ?_⟩
  · intro p e hp
    have hread := hs.read p
    rw [hp] at hread
    exact hread
  · intro p x y t hstep
    have hp := readUnlock_inv hstep rfl
    have hread := hs.read p
    rw [hp] at hread
    refine ⟨hread, hf.sampled p x ?_⟩
    have hcall : s.call p = (s.reader p).call s.heap :=
      call_of_ne ((apart_run h).reading (by simp [hp]))
    rw [hp] at hcall
    exact hcall
  · rw [Heap.read_of_live hs.live, ← hf.value]
    rfl
  · intro p old t hstep
    obtain ⟨arg, hw⟩ := kfree_inv hstep rfl
    exact hs.write _ hw
  · intro hw
    rw [freed_run h, System.unfreed, hw]
    exact List.append_nil _

def staleRead {P A : Type} (reader writer : P) (old : A) : List (P × Move A 8) :=
  [(reader, .readLock), (reader, .load), (writer, .writeLock 7), (writer, .work), (writer, .work),
    (writer, .work), (writer, .assign old 7), (reader, .print 0), (reader, .print 0)]

lemma staleRead_run : ∃ s : System (Fin 2) (Fin 2) 8,
    Run (Step .simpleRcu) (.init ⟨fun _ => false, fun _ => 0⟩ 0) (staleRead 0 1 0) s ∧
      s.reader 0 = .reprinted 0 0 := by
  refine ⟨_, .cons (.readLock (p := 0) rfl (by rintro u ⟨⟩) trivial) (.cons (.load (p := 0) rfl)
    (.cons (.writeLock (p := 1) rfl rfl)
    (.cons (@Step.kmalloc _ _ _ _ _ _ _ 1 7 0 1 rfl rfl)
    (.cons (.store (p := 1) rfl rfl) (.cons (.loadOld (p := 1) rfl)
    (.cons (.assign (p := 1) rfl) (.cons (.print (p := 0) rfl rfl)
    (.cons (.printAgain (p := 0) rfl rfl) .nil)))))))), ?_⟩
  rfl

theorem safe_register_stale : (0 : BitVec 8) ∈
    (Register.history 0 ((staleRead (0 : Fin 2) 1 (0 : Fin 2)).filterMap labels)).window 0 := by
  obtain ⟨s, hrun, hp⟩ := staleRead_run
  exact ((safe_register hrun).2.2.1 0 0 0 _ (.readUnlock hp)).2

end Results

end EmbeddedSystem.Challenge9
