import EmbeddedSystem.SensorProc.Driver

namespace EmbeddedSystem.SensorProc

open Kernel Foundations

variable {R A : Type}

def first : List A → Ptr Unit A
  | [] => .head ()
  | a :: _ => .node a

section Walk

variable {l : Nodes A} {u : Ptr Unit A} {xs ys : List A} {a : A}

lemma first_mem (xs : List A) : first xs ∈ (.head () :: ptrs xs : List (Ptr Unit A)) := by
  cases xs <;> simp [first]

lemma next_eq_first (h : l.Seg u xs (.head ())) : l.next u = first xs := by
  cases xs with
  | nil => exact h.1
  | cons a xs => exact h.1

lemma next_of_split (h : l.Ring () (xs ++ a :: ys)) : l.next (.node a) = first ys :=
  next_eq_first (Lists.seg_append.mp h).2

end Walk

def Show.At (xs : List A) : Show A → Prop
  | .waiting => xs ≠ []
  | .loop pos q index out => xs ≠ [] ∧ ∃ ys zs, xs = ys ++ zs ∧ pos = first zs ∧
      out.length = ys.length ∧ index = .ofNat 32 ys.length ∧ ∀ b bs, zs = b :: bs → q = first bs
  | .formatted _ q index out => ∃ ys b zs, xs = ys ++ b :: zs ∧ out.length = ys.length ∧
      index = .ofNat 32 ys.length ∧ q = first zs
  | .faulted _ => False
  | _ => True

def Isr.Pending [DecidableEq A] (l lists : Nodes A) : Isr A → Prop
  | .allocated (some a) => ∃ new : l.New, new.node = a ∧
      lists = l.kmalloc new.node new.junk new.free
  | .faulted e => e = .null ∧ lists = l
  | _ => lists = l

def Show.Tells (times : List Timespec) (procBuf : String) : Show A → Prop
  | .loop _ _ _ out => out = report (times.take out.length)
  | .formatted _ _ index out => out = report (times.take out.length) ∧
      ∃ time, times[out.length]? = some time ∧ procBuf = line index time
  | .copied => procBuf = "empty list\n"
  | _ => True

section Act

variable [DecidableEq A] {l : Nodes A} {xs : List A} {ph ph' : Show A} {procBuf procBuf' : String}

structure Walkable (l : Nodes A) (xs : List A) : Prop where
  ring : l.Ring () xs
  live : ∀ a ∈ xs, l.nodes.live a = true

lemma report_snoc (times : List Timespec) (time : Timespec) :
    report (times ++ [time]) = report times ++ [printed (line (.ofNat 32 times.length) time)] :=
  List.mapIdx_concat

omit [DecidableEq A] in
lemma Walkable.getNext (hl : Walkable l xs) {u : Ptr Unit A} (hu : u ∈ .head () :: ptrs xs) :
    l.getNext u = .ok (l.next u) :=
  Lists.getNext_of_live (Lists.live_of_mem hl.live hu)

lemma Walkable.listEmpty_iff (hl : Walkable l xs) : l.listEmpty () = true ↔ xs = [] := by
  have hhead : l.next (.head ()) = first xs := next_eq_first hl.ring
  cases xs <;> simp [Lists.listEmpty, hhead, first]

omit [DecidableEq A] in
lemma Walkable.sprintf (hl : Walkable l xs) {a : A} (ha : a ∈ xs) (index : BitVec 32) :
    sprintf l (.node a) index = .ok (line index (l.nodes.val a)) := by
  rw [SensorProc.sprintf, Ptr.entry, ok_bind, Ledger.read_of_live (hl.live a ha)]
  rfl

def Buffered (times : List Timespec) (procBuf : String) : Prop :=
  procBuf = "" ∨ procBuf = "empty list\n" ∨
    ∃ index, ∃ time ∈ times, procBuf = line index time

lemma Buffered.append {times : List Timespec} (h : Buffered times procBuf)
    (times' : List Timespec) :
    Buffered (times ++ times') procBuf := by
  obtain h | h | ⟨index, time, htime, h⟩ := h
  · exact Or.inl h
  · exact Or.inr (Or.inl h)
  · exact Or.inr (Or.inr ⟨index, time, List.mem_append_left _ htime, h⟩)

lemma Buffered.fits {times : List Timespec} (h : Buffered times procBuf)
    (htimes : ∀ time ∈ times, time.tvSec.natAbs ≤ 2 ^ 63) : procBuf.length < procBufSize := by
  obtain rfl | rfl | ⟨index, time, htime, rfl⟩ := h
  · decide
  · decide
  · exact line_fits (htimes time htime)

lemma Walkable.act (hl : Walkable l xs) (h : ph.At xs) (procBuf : String) :
    ∃ ph' procBuf', ph.act l procBuf = .ok (ph', procBuf') ∧ ph'.At xs ∧
      (ph'.Locked → ph.Locked ∨ ph = .waiting) ∧
      (procBuf' = procBuf ∨ ph.Writes ∧ Buffered (l.values xs) procBuf') ∧
      (ph.Tells (l.values xs) procBuf → ph'.Tells (l.values xs) procBuf') := by
  have hhead : l.next (.head ()) = first xs := next_eq_first hl.ring
  cases ph with
  | returned out => exact ⟨_, _, rfl, h, fun hlocked => Or.inl hlocked, Or.inl rfl, id⟩
  | cleared =>
    refine ⟨_, _, rfl, ?_, ?_, Or.inl rfl, ?_⟩ <;> cases hempty : l.listEmpty ()
    · intro hnil
      rw [hl.listEmpty_iff.mpr hnil] at hempty
      cases hempty
    · trivial
    · exact fun hlocked => hlocked.elim
    · exact fun hlocked => hlocked.elim
    · exact fun _ => trivial
    · exact fun _ => trivial
  | empty =>
    exact ⟨_, _, rfl, trivial, fun hlocked => hlocked.elim,
      Or.inr ⟨trivial, Or.inr (Or.inl rfl)⟩, fun _ => rfl⟩
  | copied =>
    exact ⟨_, _, rfl, trivial, fun hlocked => hlocked.elim, Or.inl rfl, fun _ => trivial⟩
  | waiting =>
    refine ⟨.loop (first xs) (l.next (first xs)) 0 [], procBuf, ?_, ?_, ?_, Or.inl rfl,
      fun _ => rfl⟩
    · rw [Show.act, hl.getNext List.mem_cons_self, ok_bind, hhead, hl.getNext (first_mem xs)]
      rfl
    · refine ⟨h, [], xs, rfl, rfl, rfl, rfl, ?_⟩
      rintro b bs rfl
      have hring : l.Ring () ([] ++ b :: bs) := hl.ring
      exact next_of_split hring
    · exact fun _ => Or.inr rfl
  | loop pos q index out =>
    obtain ⟨hne, ys, zs, rfl, rfl, hout, rfl, hq⟩ := h
    cases zs with
    | nil =>
      exact ⟨.returned out, procBuf, rfl, trivial, fun hlocked => hlocked.elim, Or.inl rfl,
        fun _ => trivial⟩
    | cons b bs =>
      have hb : b ∈ ys ++ b :: bs := by simp
      have htime : (l.values (ys ++ b :: bs))[ys.length]? = some (l.nodes.val b) := by
        simp [Lists.values]
      refine ⟨.formatted (.node b) q _ out, line (.ofNat 32 ys.length) (l.nodes.val b), ?_,
        ⟨ys, b, bs, rfl, hout, rfl, hq b bs rfl⟩, fun _ => Or.inl trivial, ?_, ?_⟩
      · rw [Show.act, first, if_neg (by simp), hl.sprintf hb]
        rfl
      · have hmem := List.mem_of_getElem? htime
        exact Or.inr ⟨by simp [first, Show.Writes], Or.inr (Or.inr ⟨_, _, hmem, rfl⟩)⟩
      · exact fun htells => ⟨htells, _, hout ▸ htime, rfl⟩
  | formatted pos q index out =>
    obtain ⟨ys, b, zs, rfl, hout, rfl, rfl⟩ := h
    have hfirst : first zs ∈ .head () :: ptrs (ys ++ b :: zs) := by
      obtain h | h := List.mem_cons.mp (first_mem zs)
      · exact List.mem_cons.mpr (Or.inl h)
      · exact List.mem_cons_of_mem _ (by simp_all [ptrs])
    refine ⟨.loop (first zs) (l.next (first zs)) (.ofNat 32 ys.length + 1)
      (out ++ [printed procBuf]), procBuf, ?_, ?_, fun _ => Or.inl trivial, Or.inl rfl, ?_⟩
    · rw [Show.act, hl.getNext hfirst]
      rfl
    · refine ⟨by simp, ys ++ [b], zs, by simp, rfl, by simp [hout], ?_, ?_⟩
      · rw [List.length_append, List.length_singleton, BitVec.ofNat_add]
        rfl
      rintro c cs rfl
      have hring : l.Ring () ((ys ++ [b]) ++ c :: cs) := by simpa using hl.ring
      exact next_of_split hring
    · rintro ⟨htells, time, htime, rfl⟩
      rw [hout] at htells htime
      rw [Show.Tells, List.length_append, List.length_singleton, hout, List.take_add_one, htime]
      have hlength : ((l.values (ys ++ b :: zs)).take ys.length).length = ys.length := by
        simp [Lists.values]
      rw [Option.toList_some, report_snoc, hlength, htells]
  | faulted e => exact h.elim

lemma Walkable.returned (hl : Walkable l xs) (h : ph.At xs)
    (htells : ph.Tells (l.values xs) procBuf)
    (hph : ¬ ph.Returned) {out : List String}
    (hact : ph.act l procBuf = .ok (.returned out, procBuf')) :
    ph = .copied ∧ out = [printed "empty list\n"] ∨
      l.values xs ≠ [] ∧ out = report (l.values xs) := by
  cases ph with
  | returned => exact absurd trivial hph
  | cleared =>
    cases hempty : l.listEmpty () <;> simp [Show.act, hempty, pure, Except.pure] at hact
  | empty => cases hact
  | copied =>
    cases hact
    exact Or.inl ⟨rfl, by rw [htells]⟩
  | waiting =>
    obtain ⟨_, _, hact⟩ := bind_ok.mp hact
    obtain ⟨_, _, hact⟩ := bind_ok.mp hact
    cases hact
  | loop pos q index out =>
    obtain ⟨hne, ys, zs, rfl, rfl, hout, rfl, -⟩ := h
    cases zs with
    | nil =>
      cases hact
      refine Or.inr ⟨by simpa [Lists.values] using hne, ?_⟩
      rw [Show.Tells] at htells
      rw [htells, List.append_nil, List.take_of_length_le (by simp [Lists.values, hout])]
    | cons b bs =>
      rw [Show.act, first, if_neg (by simp)] at hact
      obtain ⟨_, _, hact⟩ := bind_ok.mp hact
      cases hact
  | formatted =>
    obtain ⟨_, _, hact⟩ := bind_ok.mp hact
    cases hact
  | faulted => cases hact

end Act

section Invariant

variable [DecidableEq A] {s t : System R A} {l : Nodes A} {q : Unit → List A}

structure Shape (s : System R A) (l : Nodes A) (q : Unit → List A) : Prop where
  holds : l.Holds q
  pending : s.isr.Pending l s.lists
  places : ∀ r, (s.reader r).At (q ())
  alone : ∀ r r', (s.reader r).Locked → (s.reader r').Locked → r = r'
  removed : s.life ≠ .running → ∀ r, (s.reader r).Returned
  freed : s.life = .irqFreed → s.isr = .idle

lemma Shape.lists_cases (h : Shape s l q) :
    s.lists = l ∨ ∃ new : l.New, s.isr = .allocated (some new.node) ∧
      s.lists = l.kmalloc new.node new.junk new.free := by
  have hpending := h.pending
  cases hisr : s.isr with
  | idle =>
    rw [hisr] at hpending
    exact Or.inl hpending
  | faulted e =>
    rw [hisr] at hpending
    exact Or.inl hpending.2
  | allocated node =>
    rw [hisr] at hpending
    cases node with
    | none => exact Or.inl hpending
    | some a =>
      obtain ⟨new, rfl, hlists⟩ := hpending
      exact Or.inr ⟨new, rfl, hlists⟩

lemma Shape.walkable (h : Shape s l q) :
    Walkable s.lists (q ()) ∧ s.lists.values (q ()) = l.values (q ()) := by
  have hlive : ∀ a ∈ q (), l.nodes.live a = true := fun a ha => h.holds.live_of_mem ha
  obtain hlists | ⟨new, -, hlists⟩ := h.lists_cases <;> rw [hlists]
  · exact ⟨⟨h.holds.ring (), hlive⟩, rfl⟩
  · have hne : ∀ a ∈ q (), a ≠ new.node := fun a ha => Heap.ne_of_live (hlive a ha) new.free
    refine ⟨⟨h.holds.ring_kmalloc new _ (), ?_⟩, ?_⟩
    · intro a ha
      simp [Lists.kmalloc, hne a ha, hlive a ha]
    · apply List.map_congr_left
      intro a ha
      simp [Lists.kmalloc, hne a ha]

omit [DecidableEq A] in
lemma Show.At.append {ph : Show A} {xs : List A} (h : ph.At xs) (hph : ¬ ph.Locked) (a : A) :
    ph.At (xs ++ [a]) := by
  cases ph with
  | waiting => simp [Show.At]
  | loop | formatted => exact absurd trivial hph
  | faulted => exact h
  | _ => trivial

lemma shape_init (junk : A → Timespec) :
    Shape (.init junk : System R A) (.init junk) fun _ => [] where
  holds := Lists.holds_init junk
  pending := rfl
  places _ := trivial
  alone _ _ hr := hr.elim
  removed hlife := absurd rfl hlife
  freed hlife := by cases hlife

lemma Shape.detect (h : Shape s l q) (node : Option A) (hisr : s.isr = .allocated node)
    (time : Timespec) :
    (node = none ∧ s.lists = l ∧ SensorProc.detect s.lists time node = .error .null) ∨
      ∃ new : l.New, SensorProc.detect s.lists time node = .ok (l.pushed new () time) := by
  have hpending := h.pending
  rw [hisr] at hpending
  cases node with
  | none => exact Or.inl ⟨rfl, hpending, rfl⟩
  | some a =>
    obtain ⟨new, rfl, hlists⟩ := hpending
    refine Or.inr ⟨new, ?_⟩
    have hlive : (l.kmalloc new.node new.junk new.free).nodes.live new.node = true := by
      simp [Lists.kmalloc]
    rw [SensorProc.detect, hlists, Lists.store_of_live hlive, ok_bind]
    exact h.holds.listAddTail new () time

lemma Shape.pushed (h : Shape s l q) (hunlocked : s.Unlocked) (hisr : s.isr ≠ .idle)
    (new : l.New) (time : Timespec) :
    Shape { s with lists := l.pushed new () time, isr := .idle } (l.pushed new () time)
      (Function.update q () (q () ++ [new.node])) where
  holds := h.holds.pushed new () time
  pending := rfl
  places r := by
    rw [Function.update_self]
    exact (h.places r).append (hunlocked r) new.node
  alone := h.alone
  removed := h.removed
  freed hfreed := absurd (h.freed hfreed) hisr

lemma Shape.free (h : Shape s l q) (hlife : s.life = .irqFreed) :
    ∃ l', Returns (fun n => Lists.listForEachSafe id () exitBody n s.lists) l' ∧
      l'.nodes.AllFreed := by
  have hlists : s.lists = l := by
    obtain hlists | ⟨_, hisr, _⟩ := h.lists_cases
    · exact hlists
    · rw [h.freed hlife] at hisr
      cases hisr
  rw [hlists]
  obtain ⟨l', hreturns, hl'⟩ : ∃ l', Returns
      (fun n => Lists.listForEachSafe id () exitBody n l) l' ∧ l'.Holds fun _ => [] := by
    apply Lists.returns_forEachSafe_taking (fun xs (l' : Nodes A) => l'.Holds fun _ => xs)
    · exact fun xs l' hl' => ⟨hl'.ring (), fun a ha => hl'.live_of_mem (k := ()) ha⟩
    · intro a xs l' hl'
      have ha : l'.nodes.live a = true := hl'.live_of_mem (k := ()) List.mem_cons_self
      have hk : (fun _ : Unit => a :: xs) () = [] ++ a :: xs := rfl
      refine ⟨l'.taken a ha, ?_, hl'.taken (k := ()) hk ha⟩
      rw [exitBody, Ptr.entry, ok_bind, Ledger.read_of_live ha, ok_bind]
      exact hl'.taken_eq (k := ()) hk ha
    · show l.Holds fun _ => q ()
      exact h.holds
  exact ⟨l', hreturns, hl'.nodes_freed_iff.mpr fun _ => rfl⟩

lemma Shape.running (h : Shape s l q) {r : R} (hr : ¬ (s.reader r).Returned) :
    s.life = .running := by
  by_contra hlife
  exact hr (h.removed hlife r)

variable [DecidableEq R]

lemma Shape.goOn (h : Shape s l q) {r : R} {ph : Show A} {procBuf : String}
    (hlife : s.life = .running) (hat : ph.At (q ()))
    (hlocked : ph.Locked → (s.reader r).Locked ∨ s.Unlocked) :
    Shape ({ s with procBuf := procBuf }.set r ph) l q where
  holds := h.holds
  pending := h.pending
  places r' := by
    by_cases hr : r' = r
    · subst hr
      simpa [System.set] using hat
    · simpa [System.set, hr] using h.places r'
  alone r₁ r₂ h₁ h₂ := by
    have hother : ∀ r', r' ≠ r → ph.Locked → ¬ (s.reader r').Locked := by
      intro r' hr' hph hr
      obtain hself | hall := hlocked hph
      · exact hr' (h.alone r' r hr hself)
      · exact hall r' hr
    by_cases hr₁ : r₁ = r <;> by_cases hr₂ : r₂ = r <;>
      simp only [System.set, hr₁, hr₂, Function.update_self, ne_eq, not_false_eq_true,
        Function.update_of_ne] at h₁ h₂ ⊢
    · exact absurd h₂ (hother r₂ hr₂ h₁)
    · exact absurd h₁ (hother r₁ hr₁ h₂)
    · exact h.alone r₁ r₂ h₁ h₂
  removed hne := absurd hlife hne
  freed hfreed := by
    have hkept : (System.set { s with procBuf := procBuf } r ph).life = s.life := rfl
    rw [hkept, hlife] at hfreed
    cases hfreed

def Inv (s : System R A) (times : List Timespec) : Prop :=
  (s.life ≠ .left ∧ ∃ l q, Shape s l q ∧ l.values (q ()) = times) ∨
    s.life = .left ∧ (∀ r, (s.reader r).Returned) ∧ s.isr = .idle ∧ s.lists.nodes.AllFreed

omit [DecidableEq R] in
lemma Show.Returned.act {ph : Show A} (h : ph.Returned) (l : Nodes A) (procBuf : String) :
    ph.act l procBuf = .ok (ph, procBuf) := by
  cases ph with
  | returned => rfl
  | _ => exact h.elim

lemma inv_step {times : List Timespec} {m : Move R} (h : Inv s times) (hs : Step s m t) :
    Inv t (times ++ detections [m]) := by
  obtain ⟨hlife, l, q, h, rfl⟩ | ⟨hlife, hreturned, hidle, hfreed⟩ := h
  · have hwalk := h.walkable.1
    cases hs with
    | kmalloc new hlife' hisr =>
      have hlists := h.pending
      rw [hisr] at hlists
      have hshape : Shape { s with
          lists := s.lists.kmalloc new.node new.junk new.free, isr := .allocated (some new.node) }
          l q :=
        { h with
          pending := by
            obtain ⟨lists, procBuf, isr, reader, life⟩ := s
            obtain rfl : lists = l := hlists
            exact ⟨new, rfl, rfl⟩
          freed := by
            intro hfreed
            simp [show s.life = .irqFreed from hfreed] at hlife' }
      exact Or.inl ⟨hlife, l, q, hshape, by simp [detections]⟩
    | kmallocNull hlife' hisr =>
      have hlists := h.pending
      rw [hisr] at hlists
      have hshape : Shape { s with isr := .allocated none } l q :=
        { h with
          pending := hlists
          freed := by
            intro hfreed
            simp [show s.life = .irqFreed from hfreed] at hlife' }
      exact Or.inl ⟨hlife, l, q, hshape, by simp [detections]⟩
    | @detect node time l' hisr hunlocked hdetect =>
      obtain ⟨-, -, hnull⟩ | ⟨new, hpushed⟩ := h.detect node hisr time
      · rw [hnull] at hdetect
        cases hdetect
      · rw [hpushed] at hdetect
        cases hdetect
        refine Or.inl ⟨hlife, _, _, h.pushed hunlocked (by simp [hisr]) new time, ?_⟩
        · rw [Function.update_self, Lists.values_append, h.holds.values_pushed, Lists.values_new]
          rfl
    | @detectFault node time e hisr hunlocked hdetect =>
      obtain ⟨-, hlists, hnull⟩ | ⟨new, hpushed⟩ := h.detect node hisr time
      · rw [hnull] at hdetect
        cases hdetect
        have hshape : Shape { s with isr := .faulted .null } l q :=
          { h with
            pending := ⟨rfl, hlists⟩
            freed := fun hfreed => by rw [h.freed hfreed] at hisr; cases hisr }
        exact Or.inl ⟨hlife, l, q, hshape, by simp [detections]⟩
      · rw [hpushed] at hdetect
        cases hdetect
    | memset hrunning hr =>
      refine Or.inl ⟨hlife, l, q, ?_, by simp [detections]⟩
      exact h.goOn hrunning trivial fun hlocked => hlocked.elim
    | @read r ph procBuf hr hlocked hact =>
      obtain ⟨ph', procBuf', hact', hat, hlock, -⟩ := hwalk.act (h.places r) s.procBuf
      cases hact.symm.trans hact'
      refine Or.inl ⟨hlife, l, q, ?_, by simp [detections]⟩
      exact h.goOn (h.running hr) hat fun hph => (hlock hph).imp_right hlocked
    | @readFault r e hlocked hact =>
      obtain ⟨ph', procBuf', hact', -⟩ := hwalk.act (h.places r) s.procBuf
      cases hact.symm.trans hact'
    | procRemove hrunning hr =>
      have hshape : Shape { s with life := .procRemoved } l q :=
        { h with removed := fun _ => hr, freed := nofun }
      exact Or.inl ⟨nofun, l, q, hshape, by simp [detections]⟩
    | freeIrq hremoved hisr =>
      have hshape : Shape { s with life := .irqFreed } l q :=
        { h with removed := fun _ => h.removed (by simp [hremoved]), freed := fun _ => hisr }
      exact Or.inl ⟨nofun, l, q, hshape, by simp [detections]⟩
    | free hfreed hreturns =>
      obtain ⟨l', hl', hall⟩ := h.free hfreed
      obtain rfl := hreturns.unique hl'
      exact Or.inr ⟨rfl, h.removed (by simp [hfreed]), h.freed hfreed, hall⟩
  · cases hs with
    | kmalloc _ hlife' _ | kmallocNull hlife' _ => simp [hlife] at hlife'
    | detect hisr _ _ | detectFault hisr _ _ => simp [hidle] at hisr
    | memset hrunning _ | procRemove hrunning _ | freeIrq hrunning _ | free hrunning _ =>
      simp [hlife] at hrunning
    | @read r _ _ hr _ _ => exact absurd (hreturned r) hr
    | @readFault r _ _ hact =>
      rw [(hreturned r).act] at hact
      cases hact

lemma inv_run {junk : A → Timespec} {ms : List (Move R)} (h : Run Step (.init junk) ms s) :
    Inv s (detections ms) := by
  apply h.induct_right (M := fun ms s => Inv s (detections ms))
  · exact Or.inl ⟨nofun, _, _, shape_init junk, rfl⟩
  · intro ms s t m _ hinv hs
    rw [detections, List.filterMap_append]
    exact inv_step hinv hs

lemma buffered_step {times : List Timespec} {m : Move R} (hinv : Inv s times)
    (h : Buffered times s.procBuf) (hs : Step s m t) :
    Buffered (times ++ detections [m]) t.procBuf := by
  apply Buffered.append
  cases hs with
  | kmalloc | kmallocNull | detect | detectFault | readFault | procRemove | freeIrq | free =>
    exact h
  | memset => exact Or.inl rfl
  | @read r ph procBuf hr _ hact =>
    obtain ⟨-, l, q, hshape, rfl⟩ | ⟨-, hreturned, -⟩ := hinv
    · obtain ⟨hwalk, hvalues⟩ := hshape.walkable
      obtain ⟨_, _, hact', -, -, hbuf, -⟩ := hwalk.act (hshape.places r) s.procBuf
      cases hact.symm.trans hact'
      obtain rfl | ⟨-, hbuf⟩ := hbuf
      · exact h
      · exact hvalues ▸ hbuf
    · exact absurd (hreturned r) hr

lemma buffered_run {junk : A → Timespec} {ms : List (Move R)} (h : Run Step (.init junk) ms s) :
    Buffered (detections ms) s.procBuf := by
  apply h.induct_right (M := fun ms s => Buffered (detections ms) s.procBuf)
  · exact Or.inl rfl
  · intro ms s t m hrun hbuf hs
    rw [detections, List.filterMap_append]
    exact buffered_step (inv_run hrun) hbuf hs

end Invariant

section Told

variable [DecidableEq A] [DecidableEq R] {s t : System R A} {junk : A → Timespec}
  {ms : List (Move R)} {times : List Timespec}

def Told (s : System R A) (times : List Timespec) : Prop :=
  ∀ r, (s.reader r).Tells times s.procBuf

omit [DecidableEq A] in
lemma Show.Tells.append {ph : Show A} {procBuf : String} (h : ph.Tells times procBuf)
    (hph : ¬ ph.Locked) (times' : List Timespec) : ph.Tells (times ++ times') procBuf := by
  cases ph with
  | loop | formatted => exact absurd trivial hph
  | copied => exact h
  | _ => trivial

omit [DecidableEq A] in
lemma Show.Tells.frame {ph : Show A} {procBuf : String} (h : ph.Tells times procBuf)
    (hph : ¬ ph.Printing) (procBuf' : String) : ph.Tells times procBuf' := by
  cases ph with
  | copied | formatted => exact absurd trivial hph
  | loop => exact h
  | _ => trivial

omit [DecidableEq A] in
lemma Told.set (h : Told s times) {r : R} {ph : Show A} {procBuf : String}
    (hself : ph.Tells times procBuf)
    (hother : procBuf = s.procBuf ∨ ∀ r', r' ≠ r → ¬ (s.reader r').Printing) :
    Told ({ s with procBuf := procBuf }.set r ph) times := by
  intro r'
  by_cases hr : r' = r
  · subst hr
    simpa [System.set] using hself
  · have hkeep : (s.reader r').Tells times procBuf := by
      obtain rfl | hprinting := hother
      · exact h r'
      · exact (h r').frame (hprinting r' hr) procBuf
    simpa [System.set, hr] using hkeep

lemma told_step {m : Move R} (hinv : Inv s times) (h : Told s times)
    (hs : Guarded Step Undisturbed s m t) : Told t (times ++ detections [m]) := by
  obtain ⟨hs, hguard⟩ := hs
  cases hs with
  | detect _ hunlocked _ => exact fun r => (h r).append (hunlocked r) _
  | kmalloc | kmallocNull | detectFault | procRemove | freeIrq | free =>
    intro r
    simpa [detections] using h r
  | @memset r hr =>
    have hset : Told ({ s with procBuf := "" }.set r .cleared) times :=
      h.set trivial (Or.inr hguard)
    simpa [detections] using hset
  | @read r ph procBuf hr _ hact =>
    obtain ⟨-, l, q, hshape, rfl⟩ | ⟨-, hreturned, -⟩ := hinv
    · obtain ⟨hwalk, hvalues⟩ := hshape.walkable
      obtain ⟨_, _, hact', -, -, hbuf, htells⟩ := hwalk.act (hshape.places r) s.procBuf
      cases hact.symm.trans hact'
      rw [hvalues] at htells
      have hset : Told ({ s with procBuf := procBuf }.set r ph) (l.values (q ())) := by
        apply h.set (htells (h r))
        exact hbuf.imp_right fun hw => hguard hw.1
      simpa [detections] using hset
    · exact absurd (hreturned r) hr
  | @readFault r e _ hact =>
    obtain ⟨-, l, q, hshape, -⟩ | ⟨-, hreturned, -⟩ := hinv
    · obtain ⟨_, _, hact', -⟩ := hshape.walkable.1.act (hshape.places r) s.procBuf
      cases hact.symm.trans hact'
    · rw [(hreturned r).act] at hact
      cases hact

lemma told_run (h : Run (Guarded Step Undisturbed) (.init junk) ms s) : Told s (detections ms) := by
  apply h.induct_right (M := fun ms s => Told s (detections ms))
  · exact fun _ => trivial
  · intro ms s t m hrun htold hs
    rw [detections, List.filterMap_append]
    exact told_step (inv_run hrun.unguard) htold hs

end Told

section Results

variable [DecidableEq A] [DecidableEq R] {s : System R A} {junk : A → Timespec} {ms : List (Move R)}

theorem reads_report (h : Run (Guarded Step Undisturbed) (.init junk) ms s) :
    (∀ r t out, Step s (.read r) t → t.reader r = .returned out →
      s.reader r = .copied ∧ out = [printed "empty list\n"] ∨
        detections ms ≠ [] ∧ out = report (detections ms)) ∧
    ∀ r t, Step s (.read r) t → s.reader r = .cleared →
      (t.reader r = .empty ↔ detections ms = []) := by
  have hinv := inv_run h.unguard
  have htold := told_run h
  constructor
  · intro r t out hs ht
    cases hs with
    | @read _ ph procBuf hr _ hact =>
      obtain rfl : ph = .returned out := by simpa [System.set] using ht
      obtain ⟨-, l, q, hshape, htimes⟩ | ⟨-, hreturned, -⟩ := hinv
      · obtain ⟨hwalk, hvalues⟩ := hshape.walkable
        have htells := htold r
        rw [← htimes, ← hvalues] at htells ⊢
        exact hwalk.returned (hshape.places r) htells hr hact
      · exact absurd (hreturned r) hr
  · intro r t hs hcleared
    cases hs with
    | @read _ ph procBuf hr _ hact =>
      obtain ⟨-, l, q, hshape, htimes⟩ | ⟨-, hreturned, -⟩ := hinv
      · obtain ⟨hwalk, hvalues⟩ := hshape.walkable
        rw [hcleared] at hact
        cases hact
        rw [← htimes, ← hvalues, Lists.values, List.map_eq_nil_iff, ← hwalk.listEmpty_iff]
        cases s.lists.listEmpty () <;> simp [System.set]
      · exact absurd (hreturned r) hr

theorem detections_freed_once (h : Run Step (.init junk) ms s) :
    (∀ r e, s.reader r ≠ .faulted e) ∧ (∀ e, s.isr = .faulted e → e = .null) ∧
    (s.life ≠ .left → ∃ xs, s.lists.Ring () xs ∧ s.lists.values xs = detections ms) ∧
    ((∀ time ∈ detections ms, time.tvSec.natAbs ≤ 2 ^ 63) → s.procBuf.length < procBufSize) ∧
    (s.life = .irqFreed →
      ∃ l, Returns (fun n => Lists.listForEachSafe id () exitBody n s.lists) l) ∧
    (s.life = .left → s.lists.nodes.AllFreed) := by
  have hbuf := buffered_run h
  obtain ⟨hlife, l, q, hshape, htimes⟩ | ⟨hlife, hreturned, hidle, hfreed⟩ := inv_run h
  · obtain ⟨hwalk, hvalues⟩ := hshape.walkable
    refine ⟨?_, ?_, fun _ => ⟨q (), hwalk.ring, hvalues.trans htimes⟩, hbuf.fits, ?_,
      fun hl => absurd hl hlife⟩
    · intro r e hr
      have hplace := hshape.places r
      rw [hr] at hplace
      exact hplace
    · intro e he
      have hpending := hshape.pending
      rw [he] at hpending
      exact hpending.1
    · intro hfreed
      obtain ⟨l', hl', -⟩ := hshape.free hfreed
      exact ⟨l', hl'⟩
  · refine ⟨?_, ?_, fun hl => absurd hlife hl, hbuf.fits, ?_, fun _ => hfreed⟩
    · intro r e hr
      have hplace := hreturned r
      rw [hr] at hplace
      exact hplace
    · intro e he
      rw [hidle] at he
      cases he
    · intro hirq
      rw [hlife] at hirq
      cases hirq

end Results

section Examples

def idle : System Bool Bool := .init fun _ => ⟨0, 0⟩

lemma read_between : ∃ s, Run Step idle
      [.kmalloc, .detect ⟨5, 0⟩, .memset false, .read false, .kmalloc, .read false, .read false,
        .read false, .read false, .detect ⟨6, 0⟩] s ∧
    s.life = .running ∧ s.isr = .idle ∧ ∀ r, (s.reader r).Returned := by
  refine ⟨_, .cons (.kmalloc ⟨false, ⟨.poison1, .poison2, ⟨0, 0⟩⟩, rfl⟩ (.inl rfl) rfl)
    (.cons (.detect rfl (fun _ => id) rfl)
    (.cons (.memset rfl trivial)
    (.cons (.read id nofun rfl)
    (.cons (.kmalloc ⟨true, ⟨.poison1, .poison2, ⟨0, 0⟩⟩, rfl⟩ (.inl rfl) rfl)
    (.cons (.read id (by rintro _ (_ | _) <;> exact id) rfl)
    (.cons (.read id nofun rfl)
    (.cons (.read id nofun rfl)
    (.cons (.read id nofun rfl)
    (.single (.detect rfl (by rintro (_ | _) <;> exact id) rfl)))))))))), rfl, rfl, ?_⟩
  rintro (_ | _) <;> trivial

theorem detections_freed_once_two : ∃ s, Run Step idle
      [.kmalloc, .detect ⟨5, 0⟩, .memset false, .read false, .kmalloc, .read false, .read false,
        .read false, .read false, .detect ⟨6, 0⟩, .procRemove, .freeIrq, .free] s ∧
    s.lists.nodes.AllFreed := by
  obtain ⟨s, hrun, hlife, hidle, hreaders⟩ := read_between
  have hremove := hrun.snoc (.procRemove hlife hreaders)
  have hfree := hremove.snoc (.freeIrq rfl hidle)
  obtain ⟨l, hl⟩ := (detections_freed_once hfree).2.2.2.2.1 rfl
  have hleft := hfree.snoc (.free rfl hl)
  exact ⟨_, hleft, (detections_freed_once hleft).2.2.2.2.2 rfl⟩

lemma readStep {s : System Bool Bool} {r : Bool} {ph : Show Bool} {procBuf : String}
    (hr : ¬ (s.reader r).Returned) (hlocked : s.reader r = .waiting → s.Unlocked)
    (hact : (s.reader r).act s.lists s.procBuf = .ok (ph, procBuf))
    (hother : ∀ r', r' ≠ r → ¬ (s.reader r').Printing) :
    Guarded Step Undisturbed s (.read r) ({ s with procBuf := procBuf }.set r ph) :=
  ⟨.read hr hlocked hact, fun _ => hother⟩

lemma two_readers : ∃ s, Run (Guarded Step Undisturbed) idle
      [.kmalloc, .detect ⟨5, 0⟩, .memset false, .read false, .memset true, .read false, .read false,
        .read true, .kmalloc, .read false] s ∧
    ∃ q, s.reader false = .loop (.head ()) q 1 [printed (line 0 ⟨5, 0⟩)] := by
  refine ⟨_, .cons ⟨.kmalloc ⟨false, ⟨.poison1, .poison2, ⟨0, 0⟩⟩, rfl⟩ (.inl rfl) rfl, trivial⟩
    (.cons ⟨.detect rfl (fun _ => id) rfl, trivial⟩
    (.cons ⟨.memset rfl trivial, fun _ _ => id⟩
    (.cons (readStep id nofun rfl (by rintro (_ | _) h <;> exact id))
    (.cons ⟨.memset rfl trivial, by rintro (_ | _) h <;> exact id⟩
    (.cons (readStep id (by rintro _ (_ | _) <;> exact id) rfl (by rintro (_ | _) h <;> exact id))
    (.cons (readStep id nofun rfl (by rintro (_ | _) h <;> exact id))
    (.cons ⟨.read id nofun rfl, False.elim⟩
    (.cons ⟨.kmalloc ⟨true, ⟨.poison1, .poison2, ⟨0, 0⟩⟩, rfl⟩ (.inl rfl) rfl, trivial⟩
    (.single ⟨.read id nofun rfl, False.elim⟩))))))))), _, rfl⟩

theorem reads_report_two : ∃ s t out, Run (Guarded Step Undisturbed) idle
      [.kmalloc, .detect ⟨5, 0⟩, .memset false, .read false, .memset true, .read false, .read false,
        .read true, .kmalloc, .read false] s ∧
    Step s (.read false) t ∧ t.reader false = .returned out ∧ out = report [⟨5, 0⟩] := by
  obtain ⟨s, hrun, q, hloop⟩ := two_readers
  have hstep : Step s (.read false)
      (s.set false (.returned [printed (line 0 ⟨5, 0⟩)])) := by
    apply Step.read
    · rw [hloop]
      exact id
    · rw [hloop]
      exact nofun
    · rw [hloop]
      rfl
  refine ⟨s, _, _, hrun, hstep, rfl, ?_⟩
  obtain ⟨hcopied, -⟩ | ⟨-, hout⟩ := (reads_report hrun).1 false _ _ hstep rfl
  · rw [hloop] at hcopied
    cases hcopied
  · exact hout

end Examples

end EmbeddedSystem.SensorProc
