import EmbeddedSystem.Kernel.Ring

/-! Several lists in memory as queues: a node is in use as long as it is in one of the lists. It
enters a list at the tail, and is freed when it is deleted from it. -/

namespace EmbeddedSystem.Kernel

open Foundations

variable {K A V σ : Type}

namespace Lists

structure Holds (l : Lists K A V) (q : K → List A) : Prop where
  ring : ∀ k, l.Ring k (q k)
  nodup : ∀ k, (q k).Nodup
  disjoint : ∀ k k' a, a ∈ q k → a ∈ q k' → k = k'
  live : ∀ a, l.nodes.live a = true ↔ ∃ k, a ∈ q k

structure New (l : Lists K A V) where
  node : A
  junk : Entry K A V
  free : l.nodes.live node = false

def values (l : Lists K A V) (xs : List A) : List V := xs.map l.nodes.val

variable {l : Lists K A V} {q : K → List A} {xs ys : List A} {a : A} {k : K} {v : V}

lemma values_append (l : Lists K A V) (xs ys : List A) :
    l.values (xs ++ ys) = l.values xs ++ l.values ys := List.map_append

lemma holds_init (junk : A → V) : (init junk : Lists K A V).Holds fun _ => [] := by
  refine ⟨fun _ => ⟨rfl, rfl⟩, fun _ => List.nodup_nil, ?_, ?_⟩
  · rintro _ _ _ ⟨⟩
  · simp [init, Ledger.empty]

lemma Holds.live_of_mem (h : l.Holds q) (ha : a ∈ q k) : l.nodes.live a = true :=
  (h.live a).mpr ⟨k, ha⟩

lemma Holds.notMem (h : l.Holds q) (ha : l.nodes.live a = false) (k : K) : a ∉ q k := by
  intro hmem
  rw [h.live_of_mem hmem] at ha
  cases ha

lemma Holds.nodes_freed_iff (h : l.Holds q) : l.nodes.AllFreed ↔ ∀ k, q k = [] := by
  rw [Ledger.allFreed_iff]
  constructor
  · intro hfree k
    apply List.eq_nil_iff_forall_not_mem.mpr
    exact fun a => h.notMem (hfree a) k
  · intro hnil a
    by_contra ha
    obtain ⟨k, hk⟩ := (h.live a).mp (by simpa using ha)
    rw [hnil k] at hk
    cases hk

lemma Holds.listEmpty_iff [DecidableEq K] [DecidableEq A] (h : l.Holds q) :
    l.listEmpty k = true ↔ q k = [] := by
  have hring := h.ring k
  cases hq : q k with
  | nil =>
    rw [hq] at hring
    simp [listEmpty, hring.1]
  | cons a xs =>
    rw [hq] at hring
    simp [listEmpty, hring.1]

variable [DecidableEq K] [DecidableEq A]

section Push

def pushed (l : Lists K A V) (new : New l) (k : K) (v : V) : Lists K A V :=
  addedTail
    { l.kmalloc new.node new.junk new.free with
      nodes := (l.nodes.kmalloc new.node new.junk.val new.free).stored new.node v } new.node k

variable {new : New l}

lemma Holds.ring_kmalloc (h : l.Holds q) (new : New l) (nodes : Ledger A V) (k : K) :
    ({ l.kmalloc new.node new.junk new.free with nodes := nodes } : Lists K A V).Ring k (q k) := by
  have hnew := h.notMem new.free k
  apply (h.ring k).congr <;>
  · intro x hx
    exact Function.update_of_ne (node_ne hnew hx) ..

lemma Holds.listAddTail (h : l.Holds q) (new : New l) (k : K) (v : V) :
    Lists.listAddTail
        { l.kmalloc new.node new.junk new.free with
          nodes := (l.nodes.kmalloc new.node new.junk.val new.free).stored new.node v }
        (.node new.node) (.head k) = .ok (l.pushed new k v) := by
  apply (h.ring_kmalloc new _ k).listAddTail
  · intro a ha
    have hlive := h.live_of_mem ha
    simp [Heap.ne_of_live hlive new.free, hlive]
  · simp

lemma Holds.pushed (h : l.Holds q) (new : New l) (k : K) (v : V) :
    (l.pushed new k v).Holds (Function.update q k (q k ++ [new.node])) := by
  have hnew := h.notMem new.free
  have hring := h.ring_kmalloc new
    ((l.nodes.kmalloc new.node new.junk.val new.free).stored new.node v)
  refine ⟨?_, ?_, ?_, ?_⟩
  · intro k'
    by_cases hk : k' = k
    · subst hk
      rw [Function.update_self]
      exact (hring k').addedTail (h.nodup k') (hnew k')
    · rw [Function.update_of_ne hk]
      apply (hring k).addedTail_other (hring k') hk ?_ (hnew k')
      exact fun b hb hb' => hk (h.disjoint k' k b hb' hb)
  · intro k'
    by_cases hk : k' = k
    · subst hk
      rw [Function.update_self]
      exact List.nodup_append.mpr ⟨h.nodup k', List.nodup_singleton _, by
        rintro x hx y hy rfl
        rw [List.mem_singleton] at hy
        exact hnew k' (hy ▸ hx)⟩
    · rw [Function.update_of_ne hk]
      exact h.nodup k'
  · intro i j a hi hj
    have hof : ∀ i, a ∈ Function.update q k (q k ++ [new.node]) i →
        a ∈ q i ∨ i = k ∧ a = new.node := by
      intro i hi
      by_cases hk : i = k
      · subst hk
        simpa using hi
      · rw [Function.update_of_ne hk] at hi
        exact Or.inl hi
    obtain hi | ⟨hik, hia⟩ := hof i hi <;> obtain hj | ⟨hjk, hja⟩ := hof j hj
    · exact h.disjoint i j a hi hj
    · exact absurd (hja ▸ hi) (hnew i)
    · exact absurd (hia ▸ hj) (hnew j)
    · exact hik.trans hjk.symm
  · intro a
    simp only [Lists.pushed, addedTail, Ledger.live_stored, Ledger.live_kmalloc]
    by_cases ha : a = new.node
    · subst ha
      rw [Function.update_self]
      exact iff_of_true rfl ⟨k, by simp⟩
    · rw [Function.update_of_ne ha, h.live]
      apply exists_congr
      intro k'
      by_cases hk : k' = k
      · subst hk
        simp [ha]
      · rw [Function.update_of_ne hk]

lemma Holds.values_pushed (h : l.Holds q) (new : New l) (k : K) (v : V) (k' : K) :
    (l.pushed new k v).values (q k') = l.values (q k') := by
  apply List.map_congr_left
  intro a ha
  have hne : a ≠ new.node := Heap.ne_of_live (h.live_of_mem ha) new.free
  simp [Lists.pushed, addedTail, hne]

lemma values_new (new : New l) (k : K) (v : V) : (l.pushed new k v).values [new.node] = [v] := by
  simp [values, Lists.pushed, addedTail]

end Push

section Take

def taken (l : Lists K A V) (a : A) (ha : l.nodes.live a = true) : Lists K A V :=
  { l.deleted a with nodes := l.nodes.freed a ha }

lemma Holds.taken_eq (h : l.Holds q) (hk : q k = xs ++ a :: ys) (ha : l.nodes.live a = true) :
    (do let l ← l.listDel (.node a)
        l.kfree a) = Except.ok (ε := Fault) (l.taken a ha) := by
  have hring := h.ring k
  rw [hk] at hring
  have hnodes : ∀ b ∈ xs ++ a :: ys, l.nodes.live b = true := by
    intro b hb
    rw [← hk] at hb
    exact h.live_of_mem hb
  rw [hring.listDel hnodes, ok_bind]
  exact kfree_of_live (l := l.deleted a) ha

lemma Holds.taken (h : l.Holds q) (hk : q k = xs ++ a :: ys) (ha : l.nodes.live a = true) :
    (l.taken a ha).Holds (Function.update q k (xs ++ ys)) := by
  have hring := h.ring k
  have hnodup := h.nodup k
  rw [hk] at hring hnodup
  have hsub : (xs ++ ys).Sublist (q k) := by
    rw [hk]
    exact List.Sublist.append_left (List.sublist_cons_self a ys) xs
  have hmem : ∀ i b, b ∈ Function.update q k (xs ++ ys) i → b ∈ q i := by
    intro i b hb
    by_cases hi : i = k
    · subst hi
      rw [Function.update_self] at hb
      exact hsub.subset hb
    · rwa [Function.update_of_ne hi] at hb
  refine ⟨?_, ?_, ?_, ?_⟩
  · intro k'
    by_cases hk' : k' = k
    · subst hk'
      rw [Function.update_self]
      exact (hring.deleted hnodup).congr (fun _ _ => rfl) (fun _ _ => rfl)
    · rw [Function.update_of_ne hk']
      have hapart : ∀ b ∈ xs ++ a :: ys, b ∉ q k' := by
        rw [← hk]
        exact fun b hb hb' => hk' (h.disjoint k' k b hb' hb)
      exact Seg.congr (hring.deleted_other (h.ring k') hk' hapart) (fun _ _ => rfl)
        fun _ _ => rfl
  · intro k'
    by_cases hk' : k' = k
    · subst hk'
      rw [Function.update_self]
      exact (h.nodup k').sublist hsub
    · rw [Function.update_of_ne hk']
      exact h.nodup k'
  · exact fun i j b hi hj => h.disjoint i j b (hmem i b hi) (hmem j b hj)
  · intro b
    simp only [Lists.taken, Ledger.live_freed]
    have haq : a ∈ q k := by simp [hk]
    by_cases hba : b = a
    · subst hba
      rw [Function.update_self]
      apply iff_of_false Bool.false_ne_true
      rintro ⟨i, hi⟩
      obtain rfl := h.disjoint i k b (hmem i b hi) haq
      rw [Function.update_self] at hi
      have hperm : (xs ++ b :: ys).Perm (b :: (xs ++ ys)) := List.perm_middle
      exact (List.nodup_cons.mp (hperm.nodup_iff.mp hnodup)).1 hi
    · rw [Function.update_of_ne hba, h.live]
      constructor
      · rintro ⟨i, hi⟩
        refine ⟨i, ?_⟩
        by_cases hik : i = k
        · subst hik
          rw [Function.update_self]
          simpa [hk, hba] using hi
        · rwa [Function.update_of_ne hik]
      · rintro ⟨i, hi⟩
        exact ⟨i, hmem i b hi⟩

end Take

section Drain

variable {links : σ → Lists K A V} {s : σ}

omit [DecidableEq K] [DecidableEq A] in
lemma Seg.next_eq {l l' : Lists K A V} {u u' : Ptr K A} (h : l.Seg u xs (.head k))
    (h' : l'.Seg u' xs (.head k)) : l.next u = l'.next u' := by
  cases xs with
  | nil => exact h.1.trans h'.1.symm
  | cons b xs => exact h.1.trans h'.1.symm

lemma returns_forEachSafe_taking {body : Ptr K A → σ → Except Fault σ}
    (I : List A → σ → Prop)
    (hring : ∀ xs s, I xs s → (links s).Ring k xs ∧ ∀ a ∈ xs, (links s).nodes.live a = true)
    (hbody : ∀ a xs s, I (a :: xs) s → ∃ t, body (.node a) s = .ok t ∧ I xs t) (h : I xs s) :
    ∃ t, Returns (fun n => listForEachSafe links k body n s) t ∧ I [] t := by
  suffices hwalk : ∃ t, Returns (fun n => safeFrom links k body n ((links s).next (.head k))
      ((links s).next ((links s).next (.head k))) s) t ∧ I [] t by
    obtain ⟨hlist, hlive⟩ := hring xs s h
    obtain ⟨t, ht, hend⟩ := hwalk
    refine ⟨t, ?_, hend⟩
    apply (Returns.lift (getNext_of_live rfl)).bind
    exact (Returns.lift (getNext_of_live (live_of_mem hlive hlist.next_mem))).bind ht
  induction xs generalizing s with
  | nil =>
    refine ⟨s, ?_, h⟩
    apply Returns.succ rfl
    simp only [safeFrom, (hring [] s h).1.1, if_true]
    exact Returns.done s
  | cons a xs ih =>
    obtain ⟨⟨hhead, -, htail⟩, -⟩ := hring _ s h
    obtain ⟨s', hs', h'⟩ := hbody a xs s h
    obtain ⟨hlist, hlive⟩ := hring xs s' h'
    obtain ⟨t, ht, hend⟩ := ih h'
    refine ⟨t, ?_, hend⟩
    apply Returns.succ rfl
    simp only [safeFrom, hhead, reduceCtorEq, if_false]
    apply (Returns.lift hs').bind
    have hnext : (links s).next (.node a) = (links s').next (.head k) := htail.next_eq hlist
    rw [hnext]
    exact (Returns.lift (getNext_of_live (live_of_mem hlive hlist.next_mem))).bind ht

-- `tmp = list_entry(pos, ..); list_del(pos); kfree(tmp);`
def takeBody (pos : Ptr K A) (l : Lists K A V) : Except Fault (Lists K A V) := do
  let tmp ← pos.entry
  let l ← l.listDel pos
  l.kfree tmp

lemma Holds.drain (h : l.Holds q) (k : K) :
    ∃ l', Returns (fun n => listForEachSafe id k takeBody n l) l' ∧
      l'.Holds (Function.update q k []) ∧ l'.nodes.val = l.nodes.val := by
  apply returns_forEachSafe_taking
    (fun xs (l' : Lists K A V) => l'.Holds (Function.update q k xs) ∧ l'.nodes.val = l.nodes.val)
  · rintro xs l' ⟨hl', -⟩
    have hring := hl'.ring k
    rw [Function.update_self] at hring
    exact ⟨hring, fun a ha => hl'.live_of_mem (k := k) (by simpa using ha)⟩
  · rintro a xs l' ⟨hl', hval⟩
    have hk : Function.update q k (a :: xs) k = [] ++ a :: xs := Function.update_self ..
    have ha : l'.nodes.live a = true := hl'.live_of_mem (k := k) (by simp)
    refine ⟨l'.taken a ha, hl'.taken_eq hk ha, ?_, hval⟩
    have htaken := hl'.taken hk ha
    rwa [Function.update_idem] at htaken
  · exact ⟨(Function.update_eq_self k q).symm ▸ h, rfl⟩

end Drain

end Lists

end EmbeddedSystem.Kernel
