import EmbeddedSystem.SimpleWorkqueue.Driver

namespace EmbeddedSystem.SimpleWorkqueue

open Kernel Foundations

variable {C A : Type} [DecidableEq A] {s t : System C A} {c : C} {a : A} {rest : List A}
  {heap heap' : Ledger A MyWork} {stmt stmt' : Stmt} {item item' : MyWork}

section Items

def System.held (s : System C A) : Option A :=
  match s.isr with
  | .testWork | .initWork | .queueWork => s.work
  | _ => none

def Stmt.Has (item : MyWork) : Stmt → Prop
  | .call | .year => True
  | .month => item.year = 2020
  | .day => item.year = 2020 ∧ item.month = 6
  | .print | .kfree => item.year = 2020 ∧ item.month = 6 ∧ item.day = 14

structure Kept (item item' : MyWork) : Prop where
  func : item.func = .myWorkFunc → item'.func = .myWorkFunc
  year : item.year = 2020 → item'.year = 2020
  month : item.month = 6 → item'.month = 6
  day : item.day = 14 → item'.day = 14

lemma Kept.refl (item : MyWork) : Kept item item := ⟨id, id, id, id⟩

lemma Stmt.Has.mono (h : stmt.Has item) (hkept : Kept item item') : stmt.Has item' := by
  cases stmt with
  | call | year => trivial
  | month => exact hkept.year h
  | day => exact ⟨hkept.year h.1, hkept.month h.2⟩
  | print | kfree => exact ⟨hkept.year h.1, hkept.month h.2.1, hkept.day h.2.2⟩

structure Stored [Fintype C] (s : System C A) : Prop where
  live : ∀ a, (s.heap.live a).toNat = s.held.toList.count a + ∑ c, (s.items c).count a
  func : ∀ c, ∀ a ∈ s.items c, (s.heap.val a).func = .myWorkFunc
  has : ∀ c a rest, s.items c = a :: rest → (s.worker c).Has (s.heap.val a)
  busy : ∀ c, s.worker c ≠ .call → s.items c ≠ []

variable [Fintype C]

lemma Stored.live_item (h : Stored s) (ha : a ∈ s.items c) : s.heap.live a = true := by
  have hcount := h.live a
  have hpos : 0 < (s.items c).count a := List.count_pos_iff.mpr ha
  have hle : (s.items c).count a ≤ ∑ c, (s.items c).count a :=
    Finset.single_le_sum (f := fun c => (s.items c).count a) (fun _ _ => Nat.zero_le _)
      (Finset.mem_univ c)
  cases hlive : s.heap.live a with
  | true => rfl
  | false =>
    rw [hlive] at hcount
    simp only [Bool.toNat_false] at hcount
    omega

lemma Stored.live_held (h : Stored s) (ha : s.held = some a) : s.heap.live a = true := by
  have hcount := h.live a
  rw [ha] at hcount
  cases hlive : s.heap.live a with
  | true => rfl
  | false =>
    rw [hlive] at hcount
    simp at hcount
    omega

omit [DecidableEq A] in
lemma sum_update [DecidableEq C] (f : C → ℕ) (c : C) (n : ℕ) :
    ∑ d, Function.update f c n d + f c = ∑ d, f d + n := by
  rw [Finset.sum_update_of_mem (Finset.mem_univ c), ← Finset.add_sum_erase _ f (Finset.mem_univ c),
    Finset.sdiff_singleton_eq_erase]
  omega

lemma count_update [DecidableEq C] (items : C → List A) (c : C) (xs : List A) (a : A) :
    ∑ d, (Function.update items c xs d).count a + (items c).count a =
      ∑ d, (items d).count a + xs.count a := by
  have hupdate : ∀ d, (Function.update items c xs d).count a =
      Function.update (fun d => (items d).count a) c (xs.count a) d := by
    intro d
    by_cases hd : d = c
    · subst hd
      simp
    · simp [hd]
  rw [Finset.sum_congr rfl fun d _ => hupdate d]
  exact sum_update ..

lemma Stored.keep (h : Stored s) (hitems : t.items = s.items) (hworker : t.worker = s.worker)
    (hlive : ∀ a, (t.heap.live a).toNat + s.held.toList.count a =
      (s.heap.live a).toNat + t.held.toList.count a)
    (hval : ∀ c, ∀ a ∈ s.items c, Kept (s.heap.val a) (t.heap.val a)) : Stored t := by
  refine ⟨?_, ?_, ?_, ?_⟩
  · intro a
    have hs := h.live a
    have ht := hlive a
    rw [hitems]
    omega
  · intro c a ha
    rw [hitems] at ha
    exact (hval c a ha).func (h.func c a ha)
  · intro c a rest heq
    rw [hitems] at heq
    rw [hworker]
    exact (h.has c a rest heq).mono (hval c a (by simp [heq]))
  · rw [hitems, hworker]
    exact h.busy

end Items

section Statements

lemma kept_stored (heap : Ledger A MyWork) (h : Kept (heap.val a) item') (b : A) :
    Kept (heap.val b) ((heap.stored a item').val b) := by
  by_cases hb : b = a
  · subst hb
    rw [Ledger.val_stored, Function.update_self]
    exact h
  · rw [Ledger.val_stored, Function.update_of_ne hb]
    exact Kept.refl _

lemma assign_of_live (ha : heap.live a = true) (f : MyWork → MyWork) :
    assign heap a f = .ok (heap.stored a (f (heap.val a))) := by
  rw [assign, Ledger.read_of_live ha, ok_bind, Ledger.write_of_live ha]

lemma assign_ok {f : MyWork → MyWork} (h : assign heap a f = .ok heap') :
    heap' = heap.stored a (f (heap.val a)) := by
  cases ha : heap.live a with
  | true =>
    rw [assign_of_live ha] at h
    cases h
    rfl
  | false =>
    obtain ⟨item, hread, -⟩ := bind_ok.mp h
    simp [Heap.read, ha] at hread

lemma run_cases (hrun : stmt.run heap a = .ok (heap', stmt')) :
    (stmt ≠ .kfree ∧ stmt' ≠ .call ∧ heap'.live = heap.live ∧
      (∀ b, Kept (heap.val b) (heap'.val b)) ∧
      (stmt.Has (heap.val a) → stmt'.Has (heap'.val a))) ∨
    (stmt = .kfree ∧ stmt' = .call ∧ ∃ ha, heap' = heap.freed a ha) := by
  cases stmt with
  | call =>
    obtain ⟨item, -, hrun⟩ := bind_ok.mp hrun
    split at hrun
    · cases hrun
      exact Or.inl ⟨nofun, nofun, rfl, fun _ => Kept.refl _, fun _ => trivial⟩
    · cases hrun
  | year =>
    obtain ⟨heap, hassign, hrun⟩ := bind_ok.mp hrun
    cases hrun
    obtain rfl := assign_ok hassign
    refine Or.inl ⟨nofun, nofun, rfl, kept_stored _ ⟨id, fun _ => rfl, id, id⟩, fun _ => ?_⟩
    simp [Stmt.Has]
  | month =>
    obtain ⟨heap, hassign, hrun⟩ := bind_ok.mp hrun
    cases hrun
    obtain rfl := assign_ok hassign
    refine Or.inl ⟨nofun, nofun, rfl, kept_stored _ ⟨id, id, fun _ => rfl, id⟩, fun h => ?_⟩
    simpa [Stmt.Has] using h
  | day =>
    obtain ⟨heap, hassign, hrun⟩ := bind_ok.mp hrun
    cases hrun
    obtain rfl := assign_ok hassign
    refine Or.inl ⟨nofun, nofun, rfl, kept_stored _ ⟨id, id, id, fun _ => rfl⟩, fun h => ?_⟩
    simpa [Stmt.Has] using h
  | print =>
    obtain ⟨item, -, hrun⟩ := bind_ok.mp hrun
    cases hrun
    exact Or.inl ⟨nofun, nofun, rfl, fun _ => Kept.refl _, id⟩
  | kfree =>
    obtain ⟨freed, hfree, hrun⟩ := bind_ok.mp hrun
    cases hrun
    rw [Ledger.kfree] at hfree
    split at hfree
    · next ha =>
      cases hfree
      exact Or.inr ⟨rfl, rfl, ha, rfl⟩
    · cases hfree

def Stmt.next : Stmt → Stmt
  | .call => .year
  | .year => .month
  | .month => .day
  | .day => .print
  | .print => .kfree
  | .kfree => .call

lemma run_next (hrun : stmt.run heap a = .ok (heap', stmt')) : stmt' = stmt.next := by
  cases stmt with
  | call =>
    obtain ⟨item, -, hrun⟩ := bind_ok.mp hrun
    split at hrun
    · cases hrun
      rfl
    · cases hrun
  | year | month | day | print | kfree =>
    obtain ⟨_, -, hrun⟩ := bind_ok.mp hrun
    cases hrun
    rfl

lemma run_returns (hlive : heap.live a = true) (hfunc : (heap.val a).func = .myWorkFunc) :
    ∃ r, stmt.run heap a = .ok r := by
  cases stmt with
  | call => exact ⟨(heap, .year), by rw [Stmt.run, Ledger.read_of_live hlive, ok_bind, hfunc]; rfl⟩
  | year | month | day => exact ⟨_, by rw [Stmt.run, assign_of_live hlive]; rfl⟩
  | print => exact ⟨(heap, .kfree), by rw [Stmt.run, Ledger.read_of_live hlive]; rfl⟩
  | kfree => exact ⟨_, by rw [Stmt.run, Ledger.kfree_of_live hlive]; rfl⟩

end Statements

section Steps

variable [DecidableEq C] [Fintype C] {m : Move C A}

def System.Leaves (s : System C A) : Prop :=
  match s.life with
  | .freeIrq => False
  | .gpioFree | .flush => s.myWq ≠ .destroyed
  | .flushing left => s.myWq = .created ∧ ∀ c, left c = (s.items c).length
  | .destroy | .returned => ∀ c, s.items c = []
  | .faulted _ => s.myWq = .null

structure Handles (s : System C A) : Prop where
  work : s.isr = .initWork ∨ s.isr = .queueWork → s.work ≠ none
  func : s.isr = .queueWork → ∀ a, s.work = some a → (s.heap.val a).func = .myWorkFunc
  wq : s.isr ≠ .idle → s.isr ≠ .testWq → s.myWq ≠ .null
  irq : s.isr ≠ .idle → s.irq = true
  life : s.irq = true ∧ s.life = .freeIrq ∧ s.myWq ≠ .destroyed ∨ s.irq = false ∧ s.Leaves

omit [DecidableEq A] [DecidableEq C] [Fintype C] in
lemma Handles.created (h : Handles s) (hidle : s.isr ≠ .idle) (htest : s.isr ≠ .testWq) :
    s.myWq = .created := by
  obtain ⟨-, -, hwq⟩ | ⟨hirq, -⟩ := h.life
  · cases hs : s.myWq with
    | null => exact absurd hs (h.wq hidle htest)
    | created => rfl
    | destroyed => exact absurd hs hwq
  · rw [h.irq hidle] at hirq
    cases hirq

omit [DecidableEq A] [DecidableEq C] [Fintype C] in
lemma Handles.handle (h : Handles s) {isr : Isr} (hirq : s.irq = true)
    (hfirst : isr = .idle ∨ isr = .testWq ∨ isr = .kmalloc ∧ s.myWq ≠ .null) :
    Handles { s with isr := isr } := by
  refine ⟨?_, ?_, ?_, fun _ => hirq, h.life⟩
  all_goals obtain rfl | rfl | ⟨rfl, hwq⟩ := hfirst <;> simp_all

omit [DecidableEq C] in
lemma Stored.handle (h : Stored s) {isr : Isr}
    (hheld : ({ s with isr := isr } : System C A).held = s.held) :
    Stored { s with isr := isr } := by
  refine h.keep rfl rfl (fun a => ?_) fun _ _ _ => Kept.refl _
  rw [hheld]

omit [DecidableEq C] in
lemma handled_isr (h : Stored s) (hi : Handles s) (hplain : s.isr.Plain) :
    ∃ t, s.isr.run s = .ok t ∧ Stored t ∧ Handles t := by
  cases hisr : s.isr with
  | testWq =>
    have hirq : s.irq = true := hi.irq (by simp [hisr])
    refine ⟨_, rfl, ?_, ?_⟩
    · apply h.handle
      by_cases hwq : s.myWq = .null <;> simp [System.held, hisr, hwq]
    · apply hi.handle hirq
      by_cases hwq : s.myWq = .null
      · exact Or.inl (if_pos hwq)
      · exact Or.inr (Or.inr ⟨if_neg hwq, hwq⟩)
  | testWork =>
    have hirq : s.irq = true := hi.irq (by simp [hisr])
    refine ⟨_, rfl, ?_, ?_⟩
    · apply h.handle
      by_cases hwork : s.work = none <;> simp [System.held, hisr, hwork]
    · by_cases hwork : s.work = none
      · exact hi.handle hirq (Or.inl (if_pos hwork))
      · rw [if_neg hwork]
        refine ⟨fun _ => hwork, nofun, fun _ _ => ?_, fun _ => hirq, hi.life⟩
        exact hi.wq (by simp [hisr]) (by simp [hisr])
  | initWork =>
    have hirq : s.irq = true := hi.irq (by simp [hisr])
    obtain ⟨a, ha⟩ := Option.ne_none_iff_exists'.mp (hi.work (Or.inl hisr))
    have hheld : s.held = some a := by
      rw [System.held, hisr]
      exact ha
    have hlive := h.live_held hheld
    have hinit : initWorkAt s.heap s.work =
        .ok (s.heap.stored a { s.heap.val a with func := .myWorkFunc }) := by
      rw [ha]
      exact assign_of_live hlive _
    refine ⟨_, by rw [Isr.run, hinit]; rfl, ?_, ?_⟩
    · have hkept : Kept (s.heap.val a) { s.heap.val a with func := .myWorkFunc } :=
        ⟨fun _ => rfl, id, id, id⟩
      refine h.keep rfl rfl (fun b => ?_) fun c b _ => kept_stored _ hkept b
      rw [hheld]
      simp [System.held, ha]
    · refine ⟨fun _ => by simp [ha], ?_, fun _ _ => ?_, fun _ => hirq, hi.life⟩
      · intro _ b hb
        cases ha.symm.trans hb
        simp
      · exact hi.wq (by simp [hisr]) (by simp [hisr])
  | idle | kmalloc | queueWork =>
    rw [hisr] at hplain
    exact hplain.elim

lemma handled_queueWork (h : Stored s) (hi : Handles s) (hisr : s.isr = .queueWork)
    (hwork : s.work = some a) (c : C) :
    ∃ t, queueWork s c a = .ok t ∧ Stored t ∧ Handles t := by
  have hirq : s.irq = true := hi.irq (by simp [hisr])
  have hwq : s.myWq = .created := hi.created (by simp [hisr]) (by simp [hisr])
  have hheld : s.held = some a := by
    rw [System.held, hisr]
    exact hwork
  have hlive := h.live_held hheld
  refine ⟨_, by rw [queueWork, if_neg (by simp [hwq]), Ledger.read_of_live hlive]; rfl, ?_, ?_⟩
  · refine ⟨?_, ?_, ?_, ?_⟩
    · intro b
      have hcount := h.live b
      have hsum := count_update s.items c (s.items c ++ [a]) b
      rw [hheld] at hcount
      simp only [System.held, Option.toList_none, List.count_nil, List.count_append,
        Option.toList_some] at hcount hsum ⊢
      omega
    · intro d b hb
      by_cases hd : d = c
      · subst hd
        simp only [Function.update_self, List.mem_append, List.mem_singleton] at hb
        obtain hb | rfl := hb
        · exact h.func d b hb
        · exact hi.func hisr b hwork
      · simp only [Function.update_of_ne hd] at hb
        exact h.func d b hb
    · intro d b rest heq
      by_cases hd : d = c
      · subst hd
        simp only [Function.update_self] at heq
        cases hitems : s.items d with
        | nil =>
          have hcall : s.worker d = .call := by
            by_contra hbusy
            exact h.busy d hbusy hitems
          simp [hcall, Stmt.Has]
        | cons b' rest' =>
          rw [hitems] at heq
          cases heq
          exact h.has d _ _ hitems
      · simp only [Function.update_of_ne hd] at heq
        exact h.has d b rest heq
    · intro d hbusy
      by_cases hd : d = c
      · subst hd
        simp
      · simp only [Function.update_of_ne hd]
        exact h.busy d hbusy
  · refine ⟨nofun, nofun, nofun, fun _ => hirq, ?_⟩
    obtain hlife | ⟨hoff, -⟩ := hi.life
    · exact Or.inl hlife
    · rw [hirq] at hoff
      cases hoff

lemma stored_worked (h : Stored s) (heq : s.items c = a :: rest)
    (hlive : heap.live = s.heap.live) (hkept : ∀ b, Kept (s.heap.val b) (heap.val b))
    (hhas : stmt.Has (heap.val a)) :
    Stored { s with heap := heap, worker := Function.update s.worker c stmt } := by
  refine ⟨?_, ?_, ?_, ?_⟩
  · rw [hlive]
    exact h.live
  · exact fun d b hb => (hkept b).func (h.func d b hb)
  · intro d b rest' heq'
    by_cases hd : d = c
    · subst hd
      cases heq.symm.trans heq'
      simpa using hhas
    · simpa [hd] using (h.has d b rest' heq').mono (hkept b)
  · intro d hbusy
    by_cases hd : d = c
    · subst hd
      simp [heq]
    · simp only [Function.update_of_ne hd] at hbusy ⊢
      exact h.busy d hbusy

lemma stored_freed (h : Stored s) (heq : s.items c = a :: rest) (ha : s.heap.live a = true)
    (life : Life C) : Stored { s with
      heap := s.heap.freed a ha
      items := Function.update s.items c rest
      worker := Function.update s.worker c .call
      life := life } := by
  refine ⟨?_, ?_, ?_, ?_⟩
  · intro b
    have hcount := h.live b
    have hsum := count_update s.items c rest b
    rw [heq, List.count_cons] at hsum
    by_cases hb : b = a
    · subst hb
      rw [ha] at hcount
      simp only [Ledger.live_freed, Function.update_self, Bool.toNat_false, Bool.toNat_true,
        System.held, beq_self_eq_true, if_true] at hcount hsum ⊢
      omega
    · have hne : (a == b) = false := beq_false_of_ne (Ne.symm hb)
      simp only [Ledger.live_freed, Function.update_of_ne hb, System.held, hne, Bool.false_eq_true,
        if_false] at hcount hsum ⊢
      omega
  · intro d b hb
    apply h.func d b
    by_cases hd : d = c
    · subst hd
      simp only [Function.update_self] at hb
      rw [heq]
      exact List.mem_cons_of_mem a hb
    · simpa only [Function.update_of_ne hd] using hb
  · intro d b rest' heq'
    by_cases hd : d = c
    · subst hd
      simp [Stmt.Has]
    · simp only [Function.update_of_ne hd] at heq' ⊢
      exact h.has d b rest' heq'
  · intro d hbusy
    by_cases hd : d = c
    · subst hd
      simp at hbusy
    · simp only [Function.update_of_ne hd] at hbusy ⊢
      exact h.busy d hbusy

omit [Fintype C] [DecidableEq A] in
lemma leaves_freed (h : s.Leaves) (heq : s.items c = a :: rest) (heap : Ledger A MyWork)
    (worker : C → Stmt) : System.Leaves { s with
      heap := heap
      items := Function.update s.items c rest
      worker := worker
      life := s.life.finished c } := by
  rw [System.Leaves] at h
  cases hlife : s.life with
  | freeIrq =>
    rw [hlife] at h
    exact h.elim
  | gpioFree | flush | faulted e =>
    rw [hlife] at h
    exact h
  | flushing left =>
    rw [hlife] at h
    refine ⟨h.1, fun d => ?_⟩
    by_cases hd : d = c
    · subst hd
      simp [h.2, heq]
    · simp [hd, h.2]
  | destroy | returned =>
    rw [hlife] at h
    rw [h c] at heq
    cases heq

lemma handled_work (h : Stored s) (hi : Handles s) (heq : s.items c = a :: rest) :
    ∃ heap stmt, (s.worker c).run s.heap a = .ok (heap, stmt) ∧
      Stored (s.worked c rest heap stmt) ∧ Handles (s.worked c rest heap stmt) := by
  have hmem : a ∈ s.items c := by simp [heq]
  obtain ⟨⟨heap, stmt⟩, hrun⟩ : ∃ r, (s.worker c).run s.heap a = .ok r :=
    run_returns (h.live_item hmem) (h.func c a hmem)
  refine ⟨heap, stmt, hrun, ?_⟩
  obtain ⟨-, hstmt, hlive, hkept, hhas⟩ | ⟨-, rfl, ha, rfl⟩ := run_cases hrun
  · rw [System.worked, if_neg hstmt]
    refine ⟨stored_worked h heq hlive hkept (hhas (h.has c a rest heq)), ?_⟩
    exact ⟨hi.work, fun hisr b hb => (hkept b).func (hi.func hisr b hb), hi.wq, hi.irq, hi.life⟩
  · rw [System.worked, if_pos rfl]
    refine ⟨stored_freed h heq ha _, hi.work, hi.func, hi.wq, hi.irq, ?_⟩
    obtain ⟨hirq, hlife, hwq⟩ | ⟨hoff, hleaves⟩ := hi.life
    · refine Or.inl ⟨hirq, ?_, hwq⟩
      simp only [hlife]
      rfl
    · exact Or.inr ⟨hoff, leaves_freed hleaves heq _ _⟩

omit [DecidableEq A] [DecidableEq C] [Fintype C] in
lemma Handles.idle (hi : Handles s) (hirq : s.irq = false) : s.isr = .idle := by
  by_contra hidle
  rw [hi.irq hidle] at hirq
  cases hirq

omit [DecidableEq A] [DecidableEq C] [Fintype C] in
lemma Handles.leaves (hi : Handles s) (hlife : s.life ≠ .freeIrq) : s.irq = false ∧ s.Leaves := by
  obtain ⟨-, hfree, -⟩ | hleaves := hi.life
  · exact absurd hfree hlife
  · exact hleaves

omit [DecidableEq A] [DecidableEq C] [Fintype C] in
lemma Handles.leaves_of_off (hi : Handles s) (hirq : s.irq = false) : s.Leaves := by
  obtain ⟨hon, -⟩ | ⟨-, hleaves⟩ := hi.life
  · rw [hirq] at hon
    cases hon
  · exact hleaves

omit [DecidableEq A] [DecidableEq C] [Fintype C] in
lemma Handles.exit (hi : Handles s) (hirq : s.irq = false) {myWq : Wq} {life : Life C}
    (hleaves : System.Leaves { s with myWq := myWq, life := life }) :
    Handles { s with myWq := myWq, life := life } := by
  refine ⟨hi.work, hi.func, fun hidle => absurd (hi.idle hirq) hidle, hi.irq, ?_⟩
  exact Or.inr ⟨hirq, hleaves⟩

lemma handled_step (h : Stored s) (hi : Handles s) (hs : Step s m t) : Stored t ∧ Handles t := by
  cases hs with
  | interrupt hirq hidle =>
    exact ⟨h.handle (by simp [System.held, hidle]), hi.handle hirq (Or.inr (Or.inl rfl))⟩
  | @kmalloc a junk ha hisr =>
    have hheld : s.held = none := by simp [System.held, hisr]
    have hwq := hi.wq (by simp [hisr]) (by simp [hisr])
    refine ⟨h.keep rfl rfl (fun b => ?_) fun c b hb => ?_, nofun, nofun, fun _ _ => hwq, ?_,
      hi.life⟩
    · rw [hheld]
      by_cases hb : b = a
      · subst hb
        simp [System.held, ha]
      · simp [System.held, hb, Ne.symm hb]
    · have hne : b ≠ a := Heap.ne_of_live (h.live_item hb) ha
      simp only [Ledger.val_kmalloc, Function.update_of_ne hne]
      exact Kept.refl _
    · exact fun _ => hi.irq (by simp [hisr])
  | kmallocNull hisr =>
    have hwq := hi.wq (by simp [hisr]) (by simp [hisr])
    refine ⟨h.keep rfl rfl (fun b => ?_) fun _ _ _ => Kept.refl _, nofun, nofun, fun _ _ => hwq, ?_,
      hi.life⟩
    · simp [System.held, hisr]
    · exact fun _ => hi.irq (by simp [hisr])
  | isr hplain hrun =>
    obtain ⟨t, hrun', hs, hi⟩ := handled_isr h hi hplain
    cases hrun.symm.trans hrun'
    exact ⟨hs, hi⟩
  | isrFault hplain hrun =>
    obtain ⟨t, hrun', -⟩ := handled_isr h hi hplain
    cases hrun.symm.trans hrun'
  | queueWork hisr hwork hrun =>
    obtain ⟨t, hrun', hs, hi⟩ := handled_queueWork h hi hisr hwork _
    cases hrun.symm.trans hrun'
    exact ⟨hs, hi⟩
  | @queueWorkFault c _ _ hisr hwork hrun =>
    obtain ⟨t, hrun', -⟩ := handled_queueWork h hi hisr hwork c
    cases hrun.symm.trans hrun'
  | work heq hrun =>
    obtain ⟨heap, stmt, hrun', hs, hi⟩ := handled_work h hi heq
    cases hrun.symm.trans hrun'
    exact ⟨hs, hi⟩
  | workFault heq hrun =>
    obtain ⟨heap, stmt, hrun', -⟩ := handled_work h hi heq
    cases hrun.symm.trans hrun'
  | freeIrq hlife hidle =>
    refine ⟨⟨h.live, h.func, h.has, h.busy⟩, hi.work, hi.func, hi.wq, ?_, Or.inr ⟨rfl, ?_⟩⟩
    · exact fun hne => absurd hidle hne
    · obtain ⟨-, -, hwq⟩ | ⟨-, hleaves⟩ := hi.life
      · exact hwq
      · rw [System.Leaves, hlife] at hleaves
        exact hleaves.elim
  | gpioFree hlife =>
    obtain ⟨hirq, hleaves⟩ := hi.leaves (by simp [hlife])
    rw [System.Leaves, hlife] at hleaves
    exact ⟨⟨h.live, h.func, h.has, h.busy⟩, hi.exit hirq hleaves⟩
  | flush hlife hnull =>
    obtain ⟨hirq, hleaves⟩ := hi.leaves (by simp [hlife])
    rw [System.Leaves, hlife] at hleaves
    have hwq : s.myWq = .created := by
      cases hs : s.myWq with
      | null => exact absurd hs hnull
      | created => rfl
      | destroyed => exact absurd hs hleaves
    exact ⟨⟨h.live, h.func, h.has, h.busy⟩, hi.exit hirq ⟨hwq, fun _ => rfl⟩⟩
  | flushNull hlife hnull =>
    obtain ⟨hirq, -⟩ := hi.leaves (by simp [hlife])
    exact ⟨⟨h.live, h.func, h.has, h.busy⟩, hi.exit hirq hnull⟩
  | flushed hlife hleft =>
    obtain ⟨hirq, hleaves⟩ := hi.leaves (by simp [hlife])
    rw [System.Leaves, hlife] at hleaves
    refine ⟨⟨h.live, h.func, h.has, h.busy⟩, hi.exit hirq fun c => ?_⟩
    have hlength := hleaves.2 c
    rw [hleft c] at hlength
    exact List.length_eq_zero_iff.mp hlength.symm
  | destroyWorkqueue hlife hempty =>
    obtain ⟨hirq, -⟩ := hi.leaves (by simp [hlife])
    exact ⟨⟨h.live, h.func, h.has, h.busy⟩, hi.exit hirq hempty⟩

omit [DecidableEq C] in
lemma handled_init (created : Bool) (junk : A → MyWork) :
    Stored (.init created junk : System C A) ∧ Handles (.init created junk : System C A) := by
  constructor
  · refine ⟨?_, ?_, ?_, fun c hbusy => absurd rfl hbusy⟩
    · simp [System.init, System.held, Ledger.empty]
    · rintro c a ⟨⟩
    · rintro c a rest ⟨⟩
  · refine ⟨?_, ?_, fun hidle => absurd rfl hidle, fun _ => rfl, Or.inl ⟨rfl, rfl, ?_⟩⟩
    · rintro (⟨⟨⟩⟩ | ⟨⟨⟩⟩)
    · rintro ⟨⟩
    · cases created <;> simp [System.init]

end Steps

end EmbeddedSystem.SimpleWorkqueue
