import EmbeddedSystem.SimpleWorkqueue.Items

namespace EmbeddedSystem.SimpleWorkqueue

open Kernel Foundations

variable {C A : Type} [DecidableEq A] [DecidableEq C] [Fintype C] {s t : System C A} {c : C} {a : A}
  {m : Move C A} {ls ms : List (Move C A)} {created : Bool} {junk : A → MyWork}

section Logs

structure Log (C A : Type) where
  queued : C → List A
  called : C → List A
  freed : C → List A
  dates : C → List (ℤ × ℤ × ℤ)

def Log.init : Log C A := ⟨fun _ => [], fun _ => [], fun _ => [], fun _ => []⟩

def Log.observe (g : Log C A) : Move C A → Log C A
  | .queueWork c a => { g with queued := Function.update g.queued c (g.queued c ++ [a]) }
  | .call c a => { g with called := Function.update g.called c (g.called c ++ [a]) }
  | .kfree c a => { g with freed := Function.update g.freed c (g.freed c ++ [a]) }
  | .print c year month day =>
    { g with dates := Function.update g.dates c (g.dates c ++ [(year, month, day)]) }
  | _ => g

def log (ls : List (Move C A)) : Log C A := ls.foldl Log.observe .init

variable {g : Log C A}

def Stmt.begun (items : List A) : Stmt → List A
  | .call => []
  | _ => items.take 1

def Stmt.printed : Stmt → List (ℤ × ℤ × ℤ)
  | .kfree => [(2020, 6, 14)]
  | _ => []

structure Ordered (s : System C A) (g : Log C A) : Prop where
  queued : ∀ c, g.queued c = g.freed c ++ s.items c
  called : ∀ c, g.called c = g.freed c ++ (s.worker c).begun (s.items c)
  dates : ∀ c, g.dates c =
    List.replicate (g.freed c).length (2020, 6, 14) ++ (s.worker c).printed

omit [DecidableEq A] [Fintype C] in
lemma Ordered.work (h : Ordered s g) {g' : Log C A} {stmt : Stmt} {heap : Ledger A MyWork}
    (hfreed : g'.freed = g.freed) (hqueued : g'.queued = g.queued)
    (hcalled : ∀ d, g'.called d =
      if d = c then g.freed c ++ stmt.begun (s.items c) else g.called d)
    (hdates : ∀ d, g'.dates d =
      if d = c then List.replicate (g.freed c).length (2020, 6, 14) ++ stmt.printed
      else g.dates d) :
    Ordered { s with heap := heap, worker := Function.update s.worker c stmt } g' := by
  refine ⟨?_, fun d => ?_, fun d => ?_⟩
  · rw [hfreed, hqueued]
    exact h.queued
  · rw [hfreed, hcalled]
    by_cases hd : d = c
    · subst hd
      simp
    · simpa [hd] using h.called d
  · rw [hfreed, hdates]
    by_cases hd : d = c
    · subst hd
      simp
    · simpa [hd] using h.dates d

lemma ordered_work {rest : List A} {heap : Ledger A MyWork} {stmt : Stmt} (h : Ordered s g)
    (hstored : Stored s) (heq : s.items c = a :: rest)
    (hrun : (s.worker c).run s.heap a = .ok (heap, stmt)) :
    Ordered (s.worked c rest heap stmt) (g.observe ((s.worker c).move c a (s.heap.val a))) := by
  have hcalled := h.called c
  have hdates := h.dates c
  have hhas := hstored.has c a rest heq
  obtain rfl := run_next hrun
  cases hstmt : s.worker c with
  | call =>
    rw [hstmt] at hcalled hdates
    refine h.work rfl rfl (fun d => ?_) fun d => ?_
    · by_cases hd : d = c
      · subst hd
        simp [Stmt.move, Log.observe, hcalled, Stmt.begun, Stmt.next, heq]
      · simp [Stmt.move, Log.observe, hd]
    · by_cases hd : d = c
      · subst hd
        exact hdates.trans (if_pos rfl).symm
      · exact (if_neg hd).symm
  | year | month | day =>
    rw [hstmt] at hcalled hdates
    refine h.work rfl rfl (fun d => ?_) fun d => ?_
    · by_cases hd : d = c
      · subst hd
        exact hcalled.trans (if_pos rfl).symm
      · exact (if_neg hd).symm
    · by_cases hd : d = c
      · subst hd
        exact hdates.trans (if_pos rfl).symm
      · exact (if_neg hd).symm
  | print =>
    rw [hstmt] at hcalled hdates hhas
    obtain ⟨hyear, hmonth, hday⟩ := hhas
    refine h.work rfl rfl (fun d => ?_) fun d => ?_
    · by_cases hd : d = c
      · subst hd
        exact hcalled.trans (if_pos rfl).symm
      · exact (if_neg hd).symm
    · by_cases hd : d = c
      · subst hd
        simp [Stmt.move, Log.observe, hdates, Stmt.printed, Stmt.next, hyear, hmonth, hday]
      · simp [Stmt.move, Log.observe, hd]
  | kfree =>
    rw [hstmt] at hcalled hdates
    have hqueued := h.queued c
    refine ⟨fun d => ?_, fun d => ?_, fun d => ?_⟩ <;> by_cases hd : d = c
    · subst hd
      simp [Stmt.move, Log.observe, System.worked, Stmt.next, hqueued, heq]
    · simpa [Stmt.move, Log.observe, System.worked, Stmt.next, hd] using h.queued d
    · subst hd
      simp [Stmt.move, Log.observe, System.worked, Stmt.next, hcalled, Stmt.begun, heq]
    · simpa [Stmt.move, Log.observe, System.worked, Stmt.next, hd] using h.called d
    · subst hd
      simp [Stmt.move, Log.observe, System.worked, Stmt.next, hdates, Stmt.printed,
        List.replicate_add]
    · simpa [Stmt.move, Log.observe, System.worked, Stmt.next, hd] using h.dates d

omit [DecidableEq C] [Fintype C] in
lemma isr_frame (hrun : s.isr.run s = .ok t) :
    t.items = s.items ∧ t.worker = s.worker ∧ t.myWq = s.myWq := by
  cases hisr : s.isr with
  | initWork =>
    rw [hisr] at hrun
    obtain ⟨_, -, hrun⟩ := bind_ok.mp hrun
    cases hrun
    exact ⟨rfl, rfl, rfl⟩
  | idle | testWq | kmalloc | testWork | queueWork =>
    rw [hisr] at hrun
    cases hrun
    exact ⟨rfl, rfl, rfl⟩

omit [DecidableEq A] [Fintype C] in
lemma queueWork_ok (h : queueWork s c a = .ok t) :
    t = { s with items := Function.update s.items c (s.items c ++ [a]), isr := .idle } := by
  rw [queueWork] at h
  split at h
  · cases h
  · obtain ⟨_, -, h⟩ := bind_ok.mp h
    cases h
    rfl

omit [DecidableEq A] in
lemma begun_append {stmt : Stmt} {items : List A} (a : A) (hbusy : stmt ≠ .call → items ≠ []) :
    stmt.begun (items ++ [a]) = stmt.begun items := by
  cases items with
  | nil =>
    have hcall : stmt = .call := by
      by_contra hne
      exact hbusy hne rfl
    rw [hcall]
    rfl
  | cons b rest => cases stmt <;> rfl

lemma ordered_step (h : Ordered s g) (hstored : Stored s) (hi : Handles s) (hs : Step s m t) :
    Ordered t (g.observe m) := by
  cases hs with
  | interrupt | kmalloc | kmallocNull | isrFault | workFault | freeIrq | gpioFree | flush
  | flushNull | flushed | destroyWorkqueue => exact ⟨h.queued, h.called, h.dates⟩
  | isr hplain hrun =>
    obtain ⟨hitems, hworker, -⟩ := isr_frame hrun
    refine ⟨?_, ?_, ?_⟩
    · rw [hitems]
      exact h.queued
    · rw [hitems, hworker]
      exact h.called
    · rw [hworker]
      exact h.dates
  | @queueWork c a t hisr hwork hrun =>
    obtain rfl := queueWork_ok hrun
    refine ⟨fun d => ?_, fun d => ?_, h.dates⟩ <;> by_cases hd : d = c
    · subst hd
      simp [Log.observe, h.queued]
    · simpa [Log.observe, hd] using h.queued d
    · subst hd
      simpa [Log.observe, begun_append a (hstored.busy d)] using h.called d
    · simpa [Log.observe, hd] using h.called d
  | @queueWorkFault c _ _ hisr hwork hrun =>
    obtain ⟨t, hrun', -⟩ := handled_queueWork hstored hi hisr hwork c
    cases hrun.symm.trans hrun'
  | work heq hrun => exact ordered_work h hstored heq hrun

end Logs

section Results

def Stmt.done : Stmt → ℕ
  | .call => 0
  | .year => 1
  | .month => 2
  | .day => 3
  | .print => 4
  | .kfree => 5

def Life.rest : Life C → ℕ
  | .freeIrq => 5
  | .gpioFree => 4
  | .flush => 3
  | .flushing _ => 2
  | .destroy => 1
  | .returned | .faulted _ => 0

def System.todo (s : System C A) (c : C) : ℕ := 6 * (s.items c).length - (s.worker c).done

def System.left (s : System C A) : ℕ := ∑ c, s.todo c + s.life.rest

structure Inv (created : Bool) (s : System C A) (g : Log C A) : Prop where
  stored : Stored s
  handles : Handles s
  ordered : Ordered s g
  null : s.myWq = .null → created = false

omit [Fintype C] in
lemma null_step (hs : Step s m t) (hnull : t.myWq = .null) : s.myWq = .null := by
  cases hs with
  | isr hplain hrun => exact (isr_frame hrun).2.2.symm.trans hnull
  | queueWork hisr hwork hrun =>
    obtain rfl := queueWork_ok hrun
    exact hnull
  | @work c a rest heap stmt =>
    rw [System.worked] at hnull
    split at hnull <;> exact hnull
  | destroyWorkqueue => cases hnull
  | _ => exact hnull

lemma Inv.step {g : Log C A} (hinv : Inv created s g) (hs : Step s m t) :
    Inv created t (g.observe m) := by
  obtain ⟨hstored, hhandles⟩ := handled_step hinv.stored hinv.handles hs
  exact ⟨hstored, hhandles, ordered_step hinv.ordered hinv.stored hinv.handles hs,
    fun hnull => hinv.null (null_step hs hnull)⟩

lemma inv_run (h : Run Step (.init created junk) ls s) : Inv created s (log ls) := by
  have hstep : ∀ (s : System C A) (g : Log C A) m t, Inv created s g → Step s m t →
      Inv created t (g.observe m) := fun _ _ _ _ => Inv.step
  obtain ⟨hstored, hhandles⟩ := handled_init (C := C) created junk
  refine h.observed hstep ⟨hstored, hhandles, ⟨fun _ => rfl, fun _ => rfl, fun _ => rfl⟩, ?_⟩
  cases created <;> simp [System.init]

omit [DecidableEq A] in
lemma left_worked {rest : List A} {heap : Ledger A MyWork} (heq : s.items c = a :: rest) :
    s.left = (s.worked c rest heap (s.worker c).next).left + 1 := by
  have htodo : (s.worked c rest heap (s.worker c).next).todo =
      Function.update s.todo c (s.todo c - 1) := by
    funext d
    by_cases hd : d = c
    · subst hd
      cases hstmt : s.worker d <;>
        simp [System.todo, System.worked, hstmt, Stmt.next, Stmt.done, heq] <;> omega
    · cases hstmt : s.worker c <;> simp [System.todo, System.worked, Stmt.next, hd]
  have hlife : (s.worked c rest heap (s.worker c).next).life.rest = s.life.rest := by
    cases hstmt : s.worker c <;> simp only [System.worked, Stmt.next]
    all_goals cases s.life <;> rfl
  have hpos : 0 < s.todo c := by
    cases hstmt : s.worker c <;> simp [System.todo, hstmt, heq, Stmt.done] <;> omega
  have hsum := sum_update s.todo c (s.todo c - 1)
  rw [System.left, System.left, htodo, hlife]
  omega

lemma left_step {g : Log C A} (hinv : Inv true s g) (hirq : s.irq = false) (hs : Step s m t) :
    t.irq = false ∧ s.left = t.left + 1 := by
  have hidle := hinv.handles.idle hirq
  cases hs with
  | interrupt hon _ =>
    rw [hirq] at hon
    cases hon
  | kmalloc _ hisr | kmallocNull hisr | queueWork hisr _ _ | queueWorkFault hisr _ _ =>
    rw [hidle] at hisr
    cases hisr
  | isr hplain _ | isrFault hplain _ =>
    rw [hidle] at hplain
    exact hplain.elim
  | @work c a rest heap stmt heq hrun =>
    obtain rfl := run_next hrun
    refine ⟨?_, left_worked heq⟩
    rw [System.worked]
    split <;> exact hirq
  | workFault heq hrun =>
    obtain ⟨heap, stmt, hrun', -⟩ := handled_work hinv.stored hinv.handles heq
    cases hrun.symm.trans hrun'
  | flushNull _ hnull => cases hinv.null hnull
  | freeIrq hlife _ =>
    have hleaves := hinv.handles.leaves_of_off hirq
    rw [System.Leaves, hlife] at hleaves
    exact hleaves.elim
  | gpioFree hlife | flush hlife _ | flushed hlife _ | destroyWorkqueue hlife _ =>
    refine ⟨hirq, ?_⟩
    simp only [System.left, hlife]
    rfl

lemma left_enabled {g : Log C A} (hinv : Inv true s g) (hirq : s.irq = false)
    (hlife : s.life ≠ .returned) : ∃ m t, Step s m t := by
  by_cases hitems : ∃ c a rest, s.items c = a :: rest
  · obtain ⟨c, a, rest, heq⟩ := hitems
    obtain ⟨heap, stmt, hrun, -⟩ := handled_work hinv.stored hinv.handles heq
    exact ⟨_, _, .work heq hrun⟩
  · have hempty : ∀ c, s.items c = [] := by
      intro c
      cases heq : s.items c with
      | nil => rfl
      | cons a rest => exact absurd ⟨c, a, rest, heq⟩ hitems
    have hnull : s.myWq ≠ .null := fun hnull => by cases hinv.null hnull
    have hleaves := hinv.handles.leaves_of_off hirq
    rw [System.Leaves] at hleaves
    cases hl : s.life with
    | freeIrq =>
      rw [hl] at hleaves
      exact hleaves.elim
    | gpioFree => exact ⟨_, _, .gpioFree hl⟩
    | flush => exact ⟨_, _, .flush hl hnull⟩
    | flushing left =>
      rw [hl] at hleaves
      refine ⟨_, _, .flushed hl fun c => ?_⟩
      rw [hleaves.2 c, hempty c]
      rfl
    | destroy => exact ⟨_, _, .destroyWorkqueue hl hempty⟩
    | returned => exact absurd hl hlife
    | faulted e =>
      rw [hl] at hleaves
      exact absurd hleaves hnull

lemma left_run {g : Log C A} (hinv : Inv true s g) (hirq : s.irq = false) (h : Run Step s ms t) :
    ms.length + t.left = s.left ∧ t.irq = false ∧ ∃ g', Inv true t g' := by
  induction h generalizing g with
  | nil => exact ⟨Nat.zero_add _, hirq, g, hinv⟩
  | cons hs _ ih =>
    obtain ⟨hirq', hleft⟩ := left_step hinv hirq hs
    obtain ⟨hlength, hoff⟩ := ih (hinv.step hs) hirq'
    refine ⟨?_, hoff⟩
    rw [List.length_cons]
    omega

omit [DecidableEq C] in
lemma Inv.returned {g : Log C A} (hinv : Inv created s g) (hlife : s.life = .returned) :
    s.irq = false ∧ s.isr = .idle ∧ ∀ c, s.items c = [] := by
  obtain ⟨hirq, hleaves⟩ := hinv.handles.leaves (by simp [hlife])
  rw [System.Leaves, hlife] at hleaves
  exact ⟨hirq, hinv.handles.idle hirq, hleaves⟩

omit [DecidableEq C] in
lemma Inv.faulted {g : Log C A} (hinv : Inv created s g) {e : Fault} (hlife : s.life = .faulted e) :
    created = false := by
  obtain ⟨-, hleaves⟩ := hinv.handles.leaves (by simp [hlife])
  rw [System.Leaves, hlife] at hleaves
  exact hinv.null hleaves

omit [DecidableEq C] in
lemma left_zero_iff {g : Log C A} (hinv : Inv true s g) : s.left = 0 ↔ s.life = .returned := by
  constructor
  · intro hleft
    have hrest : s.life.rest = 0 := Nat.eq_zero_of_add_eq_zero_left hleft
    cases hlife : s.life with
    | returned => rfl
    | faulted e => cases hinv.faulted hlife
    | freeIrq | gpioFree | flush | flushing | destroy => simp [hlife, Life.rest] at hrest
  · intro hlife
    obtain ⟨-, -, hitems⟩ := hinv.returned hlife
    simp [System.left, System.todo, hitems, hlife, Life.rest]

theorem work_done_once (h : Run Step (.init created junk) ls s) :
    (∀ e, s.life = .faulted e → created = false) ∧
    (∀ c, (log ls).queued c = (log ls).freed c ++ s.items c ∧
      (log ls).called c = (log ls).freed c ++ (s.worker c).begun (s.items c) ∧
      (log ls).dates c =
        List.replicate ((log ls).freed c).length (2020, 6, 14) ++ (s.worker c).printed) ∧
    (s.life = .returned → s.heap.AllFreed ∧ (∀ c, (log ls).freed c = (log ls).queued c) ∧
      ∀ m t, ¬ Step s m t) := by
  have hinv := inv_run h
  refine ⟨fun e => hinv.faulted, fun c => ?_, fun hlife => ?_⟩
  · exact ⟨hinv.ordered.queued c, hinv.ordered.called c, hinv.ordered.dates c⟩
  · obtain ⟨hirq, hidle, hitems⟩ := hinv.returned hlife
    refine ⟨Ledger.allFreed_iff.mpr fun a => ?_, fun c => ?_, fun m t hs => ?_⟩
    · have hcount := hinv.stored.live a
      simpa [System.held, hidle, hitems] using hcount
    · rw [hinv.ordered.queued c, hitems c, List.append_nil]
    · cases hs with
      | interrupt hon _ =>
        rw [hirq] at hon
        cases hon
      | kmalloc _ hisr | kmallocNull hisr | queueWork hisr _ _ | queueWorkFault hisr _ _ =>
        rw [hidle] at hisr
        cases hisr
      | isr hplain _ | isrFault hplain _ =>
        rw [hidle] at hplain
        exact hplain.elim
      | @work c _ _ _ _ heq _ | @workFault c _ _ _ heq _ =>
        rw [hitems c] at heq
        cases heq
      | freeIrq hl _ | gpioFree hl | flush hl _ | flushNull hl _ | flushed hl _
      | destroyWorkqueue hl _ =>
        rw [hlife] at hl
        cases hl

def oneItem {C A : Type} (c : C) (a : A) : List (Move C A) :=
  [.interrupt, .isr, .isr, .isr, .isr, .queueWork c a, .exit]

def oneFlush {C A : Type} (c : C) (a : A) (year month day : ℤ) : List (Move C A) :=
  [.exit, .call c a, .exit, .assign c, .assign c, .assign c, .print c year month day, .kfree c a,
    .exit, .exit]

lemma oneItem_run : ∃ s : System (Fin 2) ℕ,
    Run Step (.init true fun _ => ⟨.junk, 0, 0, 0⟩) (oneItem 0 5) s ∧ s.irq = false ∧
      s.items 0 = [5] ∧ ∃ t, Run Step s (oneFlush 0 5 2020 6 14) t ∧ t.life = .returned := by
  have work {s : System (Fin 2) ℕ} {m : Move (Fin 2) ℕ} {heap : Ledger ℕ MyWork} {stmt : Stmt}
      (hitems : s.items 0 = [5]) (hrun : (s.worker 0).run s.heap 5 = .ok (heap, stmt))
      (hm : (s.worker 0).move 0 5 (s.heap.val 5) = m) : Step s m (s.worked 0 [] heap stmt) :=
    hm ▸ .work hitems hrun
  refine ⟨_, .cons (.interrupt rfl rfl) (.cons (.isr trivial rfl)
    (.cons (@Step.kmalloc _ _ _ _ _ 5 ⟨.junk, 0, 0, 0⟩ rfl rfl) (.cons (.isr trivial rfl)
    (.cons (.isr trivial rfl) (.cons (.queueWork rfl rfl rfl) (.cons (.freeIrq rfl rfl) .nil)))))),
    rfl, rfl, _, .cons (.gpioFree rfl) (.cons (work rfl rfl rfl) (.cons (.flush rfl (by decide))
    (.cons (work rfl rfl rfl) (.cons (work rfl rfl rfl) (.cons (work rfl rfl rfl)
    (.cons (work rfl rfl rfl) (.cons (work rfl rfl rfl) (.cons (.flushed rfl ?_)
    (.cons (.destroyWorkqueue rfl ?_) .nil))))))))), rfl⟩
  · decide
  · decide

theorem work_done_once_one : ∃ s : System (Fin 2) ℕ, s.life = .returned ∧ s.heap.AllFreed ∧
    (log (oneItem (0 : Fin 2) 5 ++ oneFlush 0 5 2020 6 14)).freed 0 = [5] := by
  obtain ⟨s, hs, -, -, t, ht, hlife⟩ := oneItem_run
  have hrun := hs.append ht
  obtain ⟨hfreed, hdone, -⟩ := (work_done_once hrun).2.2 hlife
  exact ⟨t, hlife, hfreed, hdone 0⟩

theorem exit_returns (h : Run Step (.init true junk) ls s) (hirq : s.irq = false) :
    ∃ n, ∀ ms t, Run Step s ms t → ms.length ≤ n ∧
      (ms.length = n ↔ t.life = .returned) ∧ (ms.length < n → ∃ m u, Step t m u) := by
  refine ⟨s.left, fun ms t ht => ?_⟩
  obtain ⟨hlength, hoff, g, hinv⟩ := left_run (inv_run h) hirq ht
  have hzero := left_zero_iff hinv
  refine ⟨by omega, ?_, fun hlt => ?_⟩
  · rw [← hzero]
    constructor <;> intro heq <;> omega
  · apply left_enabled hinv hoff
    rw [Ne, ← hzero]
    omega

theorem exit_returns_one : ∃ (s : System (Fin 2) ℕ) (n : ℕ), s.items 0 = [5] ∧
    ∀ ms t, Run Step s ms t → ms.length ≤ n := by
  obtain ⟨s, hs, hirq, hitems, -⟩ := oneItem_run
  obtain ⟨n, hn⟩ := exit_returns hs hirq
  exact ⟨s, n, hitems, fun ms t ht => (hn ms t ht).1⟩

end Results

end EmbeddedSystem.SimpleWorkqueue
