import EmbeddedSystem.Foundations.Fuel
import EmbeddedSystem.Kernel.Ledger

/-! The lists of `list.h` in memory: several heads, and nodes that are allocated and freed. Every
access to a node that is not allocated is a fault. A list is a ring over `next`, and backwards over
`prev`. -/

namespace EmbeddedSystem.Kernel

open Foundations

inductive Ptr (K A : Type)
  | head (k : K)
  | node (a : A)
  | poison1 | poison2
  deriving DecidableEq

variable {K A V σ : Type}

def Ptr.entry : Ptr K A → Except Fault A
  | .head _ => .error .listHead
  | .node a => .ok a
  | .poison1 | .poison2 => .error .freed

structure Entry (K A V : Type) where
  next : Ptr K A
  prev : Ptr K A
  val : V

structure Lists (K A V : Type) where
  next : Ptr K A → Ptr K A
  prev : Ptr K A → Ptr K A
  nodes : Ledger A V

namespace Lists

def init (junk : A → V) : Lists K A V where
  next := id
  prev := id
  nodes := .empty junk

def live (l : Lists K A V) : Ptr K A → Bool
  | .head _ => true
  | .node a => l.nodes.live a
  | .poison1 | .poison2 => false

def getNext (l : Lists K A V) (p : Ptr K A) : Except Fault (Ptr K A) :=
  if l.live p then .ok (l.next p) else .error .freed

def getPrev (l : Lists K A V) (p : Ptr K A) : Except Fault (Ptr K A) :=
  if l.live p then .ok (l.prev p) else .error .freed

def kfree [DecidableEq A] (l : Lists K A V) (a : A) : Except Fault (Lists K A V) := do
  let nodes ← l.nodes.kfree a
  return { l with nodes := nodes }

def store [DecidableEq A] (l : Lists K A V) (a : A) (v : V) : Except Fault (Lists K A V) := do
  let nodes ← l.nodes.write a v
  return { l with nodes := nodes }

variable [DecidableEq K] [DecidableEq A]

def setNext (l : Lists K A V) (p q : Ptr K A) : Except Fault (Lists K A V) :=
  if l.live p then .ok { l with next := Function.update l.next p q } else .error .freed

def setPrev (l : Lists K A V) (p q : Ptr K A) : Except Fault (Lists K A V) :=
  if l.live p then .ok { l with prev := Function.update l.prev p q } else .error .freed

def kmalloc (l : Lists K A V) (a : A) (junk : Entry K A V) (ha : l.nodes.live a = false) :
    Lists K A V where
  next := Function.update l.next (.node a) junk.next
  prev := Function.update l.prev (.node a) junk.prev
  nodes := l.nodes.kmalloc a junk.val ha

def listEmpty (l : Lists K A V) (k : K) : Bool := l.next (.head k) = .head k

def listAddTail (l : Lists K A V) (new head : Ptr K A) : Except Fault (Lists K A V) := do
  let prev ← l.getPrev head
  let l ← l.setPrev head new
  let l ← l.setNext new head
  let l ← l.setPrev new prev
  l.setNext prev new

def listDel (l : Lists K A V) (entry : Ptr K A) : Except Fault (Lists K A V) := do
  let prev ← l.getPrev entry
  let next ← l.getNext entry
  let l ← l.setPrev next prev
  let l ← l.setNext prev next
  let l ← l.setNext entry .poison1
  l.setPrev entry .poison2

def entryFrom (links : σ → Lists K A V) (k : K) (body : A → σ → Except Fault (ForInStep σ)) :
    ℕ → Ptr K A → σ → OptionT (Except Fault) σ
  | 0, _, _ => failure
  | n + 1, pos, s =>
    if pos = .head k then return s
    else do
      let a ← pos.entry
      match ← body a s with
      | .done s => return s
      | .yield s =>
        let next ← (links s).getNext pos
        entryFrom links k body n next s

def listForEachEntry (links : σ → Lists K A V) (k : K)
    (body : A → σ → Except Fault (ForInStep σ)) (fuel : ℕ) (s : σ) : OptionT (Except Fault) σ := do
  let pos ← (links s).getNext (.head k)
  entryFrom links k body fuel pos s

def rereadFrom (links : σ → Lists K A V) (heads : ℕ → K)
    (body : ℕ → A → σ → Except Fault (ForInStep σ)) :
    ℕ → ℕ → Ptr K A → σ → OptionT (Except Fault) (ℕ × σ)
  | 0, _, _, _ => failure
  | n + 1, i, pos, s =>
    if pos = .head (heads (i + 1)) then return (i, s)
    else do
      let a ← pos.entry
      match ← body i a s with
      | .done s => return (i, s)
      | .yield s =>
        let next ← (links s).getNext pos
        rereadFrom links heads body n (i + 1) next s

/-- `list_for_each_entry(pos, head, list)` where `head` is an expression that has another value each
time it is evaluated: at the start, and at the end test before each node. The result counts the
nodes that were passed. -/
def listForEachReread (links : σ → Lists K A V) (heads : ℕ → K)
    (body : ℕ → A → σ → Except Fault (ForInStep σ)) (fuel : ℕ) (s : σ) :
    OptionT (Except Fault) (ℕ × σ) := do
  let pos ← (links s).getNext (.head (heads 0))
  rereadFrom links heads body fuel 0 pos s

def safeFrom (links : σ → Lists K A V) (k : K) (body : Ptr K A → σ → Except Fault σ) :
    ℕ → Ptr K A → Ptr K A → σ → OptionT (Except Fault) σ
  | 0, _, _, _ => failure
  | m + 1, pos, n, s =>
    if pos = .head k then return s
    else do
      let s ← body pos s
      let next ← (links s).getNext n
      safeFrom links k body m n next s

def listForEachSafe (links : σ → Lists K A V) (k : K) (body : Ptr K A → σ → Except Fault σ)
    (fuel : ℕ) (s : σ) : OptionT (Except Fault) σ := do
  let pos ← (links s).getNext (.head k)
  let n ← (links s).getNext pos
  safeFrom links k body fuel pos n s

end Lists

section Segments

variable {l l' : Lists K A V} {u v w p q : Ptr K A} {xs ys : List A} {a : A} {k k' : K}

def Lists.Seg (l : Lists K A V) : Ptr K A → List A → Ptr K A → Prop
  | u, [], v => l.next u = v ∧ l.prev v = u
  | u, a :: xs, v => l.next u = .node a ∧ l.prev (.node a) = u ∧ Seg l (.node a) xs v

def Lists.Ring (l : Lists K A V) (k : K) (xs : List A) : Prop := l.Seg (.head k) xs (.head k)

def ptrs (xs : List A) : List (Ptr K A) := xs.map .node

@[simp] lemma node_mem_ptrs : (.node a : Ptr K A) ∈ ptrs xs ↔ a ∈ xs := by
  simp [ptrs]

@[simp] lemma head_notMem_ptrs : (.head k : Ptr K A) ∉ ptrs xs := by
  simp [ptrs]

lemma nodup_ptrs (h : xs.Nodup) (k : K) : (.head k :: ptrs xs : List (Ptr K A)).Nodup := by
  apply List.nodup_cons.mpr
  refine ⟨head_notMem_ptrs, h.map ?_⟩
  rintro a b ⟨⟩
  rfl

lemma Lists.Seg.congr (h : l.Seg u xs v) (hnext : ∀ x ∈ u :: ptrs xs, l'.next x = l.next x)
    (hprev : ∀ x ∈ v :: ptrs xs, l'.prev x = l.prev x) : l'.Seg u xs v := by
  induction xs generalizing u with
  | nil => exact ⟨(hnext u (by simp)).trans h.1, (hprev v (by simp)).trans h.2⟩
  | cons a xs ih =>
    obtain ⟨hu, ha, htail⟩ := h
    refine ⟨(hnext u (by simp)).trans hu, (hprev _ (by simp)).trans ha, ih htail ?_ ?_⟩
    · exact fun x hx => hnext x (List.mem_cons_of_mem _ hx)
    · intro x hx
      apply hprev x
      obtain rfl | hx := List.mem_cons.mp hx
      · exact List.mem_cons_self
      · exact List.mem_cons_of_mem _ (List.mem_cons_of_mem _ hx)

lemma Lists.seg_append :
    l.Seg u (xs ++ a :: ys) v ↔ l.Seg u xs (.node a) ∧ l.Seg (.node a) ys v := by
  induction xs generalizing u with
  | nil => simp [Lists.Seg, and_assoc]
  | cons b xs ih => simp [Lists.Seg, ih, and_assoc]

lemma Lists.Seg.unique (h : l.Seg u xs (.head k)) (h' : l.Seg u ys (.head k)) : xs = ys := by
  induction xs generalizing u ys with
  | nil =>
    cases ys with
    | nil => rfl
    | cons b ys => cases h.1.symm.trans h'.1
  | cons a xs ih =>
    cases ys with
    | nil => cases h.1.symm.trans h'.1
    | cons b ys =>
      cases h.1.symm.trans h'.1
      rw [ih h.2.2 h'.2.2]

lemma Lists.Seg.prev_mem (h : l.Seg u xs v) : l.prev v ∈ u :: ptrs xs := by
  induction xs generalizing u with
  | nil => simp [h.2]
  | cons a xs ih => exact List.mem_cons_of_mem _ (ih h.2.2)

lemma Lists.Seg.next_mem (h : l.Seg u xs v) : l.next u ∈ v :: ptrs xs := by
  cases xs with
  | nil => simp [h.1]
  | cons a xs => simp [h.1]

lemma Lists.Seg.retarget (h : l.Seg u xs v) (hnodup : (u :: ptrs xs).Nodup)
    (hw : l'.next (l.prev v) = w ∧ l'.prev w = l.prev v)
    (hnext : ∀ x ∈ u :: ptrs xs, x ≠ l.prev v → l'.next x = l.next x)
    (hprev : ∀ x ∈ ptrs xs, l'.prev x = l.prev x) : l'.Seg u xs w := by
  induction xs generalizing u with
  | nil =>
    obtain ⟨-, rfl⟩ := h
    exact hw
  | cons a xs ih =>
    obtain ⟨hu, ha, htail⟩ := h
    have hne : u ≠ l.prev v := by
      intro heq
      have hmem := htail.prev_mem
      rw [← heq] at hmem
      exact (List.nodup_cons.mp hnodup).1 hmem
    refine ⟨(hnext u (by simp) hne).trans hu, (hprev _ (by simp)).trans ha, ih htail ?_ ?_ ?_⟩
    · exact (List.nodup_cons.mp hnodup).2
    · exact fun x hx => hnext x (List.mem_cons_of_mem _ hx)
    · exact fun x hx => hprev x (by simpa [ptrs] using Or.inr hx)

lemma ptr_ne (hk : k' ≠ k) (hdis : ∀ a ∈ xs, a ∉ ys) (hu : u ∈ .head k' :: ptrs ys)
    (hv : v ∈ .head k :: ptrs xs) : u ≠ v := by
  rintro rfl
  cases u with
  | head j => simp_all
  | node a =>
    simp only [List.mem_cons, reduceCtorEq, node_mem_ptrs, false_or] at hu hv
    exact hdis a hv hu
  | _ => simp [ptrs] at hu

lemma node_ne (ha : a ∉ xs) (hu : u ∈ .head k :: ptrs xs) : u ≠ .node a := by
  rintro rfl
  simp [ha] at hu

end Segments

section Updates

variable {l : Lists K A V} {xs ys zs : List A} {a : A} {k k' : K} {u : Ptr K A}
variable [DecidableEq K] [DecidableEq A]

def Lists.addedTail (l : Lists K A V) (a : A) (k : K) : Lists K A V where
  next := Function.update (Function.update l.next (.node a) (.head k)) (l.prev (.head k)) (.node a)
  prev := Function.update (Function.update l.prev (.head k) (.node a)) (.node a) (l.prev (.head k))
  nodes := l.nodes

def Lists.deleted (l : Lists K A V) (a : A) : Lists K A V where
  next := Function.update
    (Function.update l.next (l.prev (.node a)) (l.next (.node a))) (.node a) .poison1
  prev := Function.update
    (Function.update l.prev (l.next (.node a)) (l.prev (.node a))) (.node a) .poison2
  nodes := l.nodes

omit [DecidableEq K] in
lemma Lists.kfree_of_live (ha : l.nodes.live a = true) :
    l.kfree a = .ok { l with nodes := l.nodes.freed a ha } := by
  rw [Lists.kfree, Ledger.kfree_of_live ha]
  rfl

omit [DecidableEq K] in
lemma Lists.kfree_inv {l' : Lists K A V} (h : l.kfree a = .ok l') :
    l'.next = l.next ∧ l'.prev = l.prev ∧
      ∀ b, b ≠ a → l'.nodes.live b = l.nodes.live b := by
  obtain ⟨nodes, hfree, hl⟩ := bind_ok.mp h
  cases hl
  unfold Ledger.kfree at hfree
  split at hfree
  · cases hfree
    exact ⟨rfl, rfl, fun b hb => Function.update_of_ne hb ..⟩
  · cases hfree

omit [DecidableEq K] in
lemma Lists.store_of_live (ha : l.nodes.live a = true) (v : V) :
    l.store a v = .ok { l with nodes := l.nodes.stored a v } := by
  rw [Lists.store, Ledger.write_of_live ha]
  rfl

omit [DecidableEq K] [DecidableEq A] in
lemma Lists.live_of_mem (hlive : ∀ a ∈ xs, l.nodes.live a = true) (hu : u ∈ .head k :: ptrs xs) :
    l.live u = true := by
  cases u with
  | head _ => rfl
  | node a => exact hlive a (by simpa using hu)
  | _ => simp [ptrs] at hu

lemma Lists.Ring.listAddTail (h : l.Ring k xs) (hlive : ∀ a ∈ xs, l.nodes.live a = true)
    (ha : l.nodes.live a = true) :
    l.listAddTail (.node a) (.head k) = .ok (l.addedTail a k) := by
  have hlast : l.live (l.prev (.head k)) = true := l.live_of_mem hlive h.prev_mem
  cases hp : l.prev (.head k) <;>
    simp_all [Lists.listAddTail, Lists.getPrev, Lists.setPrev, Lists.setNext, Lists.live,
      Lists.addedTail]

lemma Lists.Ring.addedTail (h : l.Ring k xs) (hnodup : xs.Nodup) (ha : a ∉ xs) :
    (l.addedTail a k).Ring k (xs ++ [a]) := by
  have hlast : l.prev (.head k) ≠ .node a := node_ne ha h.prev_mem
  apply Lists.seg_append.mpr
  refine ⟨Lists.Seg.retarget h (nodup_ptrs hnodup k) ?_ ?_ ?_, ?_⟩
  · simp [Lists.addedTail]
  · intro x hx hne
    simp [Lists.addedTail, hne, node_ne ha hx]
  · intro x hx
    have hhead : x ≠ .head k := by
      rintro rfl
      simp at hx
    simp [Lists.addedTail, hhead, node_ne ha (List.mem_cons_of_mem (.head k) hx)]
  · simp [Lists.addedTail, Lists.Seg, Function.update_of_ne hlast.symm]

lemma Lists.Ring.addedTail_other (h : l.Ring k xs) (h' : l.Ring k' ys) (hk : k' ≠ k)
    (hdis : ∀ b ∈ xs, b ∉ ys) (ha : a ∉ ys) : (l.addedTail a k).Ring k' ys := by
  apply Lists.Seg.congr h'
  · intro x hx
    simp [Lists.addedTail, ptr_ne hk hdis hx h.prev_mem, node_ne ha hx]
  · intro x hx
    have hhead : x ≠ .head k := ptr_ne hk hdis hx (by simp)
    simp [Lists.addedTail, hhead, node_ne ha hx]

lemma Lists.Ring.listDel (h : l.Ring k (xs ++ a :: ys))
    (hlive : ∀ b ∈ xs ++ a :: ys, l.nodes.live b = true) :
    l.listDel (.node a) = .ok (l.deleted a) := by
  obtain ⟨hxs, hys⟩ := Lists.seg_append.mp h
  have hprev : l.live (l.prev (.node a)) = true :=
    Lists.live_of_mem (fun b hb => hlive b (by simp [hb])) hxs.prev_mem
  have hnext : l.live (l.next (.node a)) = true :=
    Lists.live_of_mem (fun b hb => hlive b (by simp [hb])) hys.next_mem
  have ha : l.nodes.live a = true := hlive a (by simp)
  cases hp : l.prev (.node a) <;> cases hq : l.next (.node a) <;>
    simp_all [Lists.listDel, Lists.getPrev, Lists.getNext, Lists.setPrev, Lists.setNext, Lists.live,
      Lists.deleted]

lemma Lists.Ring.deleted (h : l.Ring k (xs ++ a :: ys)) (hnodup : (xs ++ a :: ys).Nodup) :
    (l.deleted a).Ring k (xs ++ ys) := by
  obtain ⟨hxs, hys⟩ := Lists.seg_append.mp h
  obtain ⟨hnodupXs, hnodupYs, hdis⟩ := List.nodup_append.mp hnodup
  have haXs : a ∉ xs := fun hmem => hdis a hmem a (by simp) rfl
  have haYs : a ∉ ys := (List.nodup_cons.mp hnodupYs).1
  have hp : l.prev (.node a) ≠ .node a := node_ne haXs hxs.prev_mem
  have hq : l.next (.node a) ≠ .node a := node_ne haYs hys.next_mem
  have htail : ∀ x ∈ ptrs xs, x ≠ l.next (.node a) := by
    rintro x hx rfl
    have hmem := hys.next_mem
    cases hnext : l.next (.node a) with
    | head _ => simp [hnext] at hx
    | node b =>
      rw [hnext] at hx hmem
      exact hdis b (by simpa using hx) b (by simpa using Or.inr hmem) rfl
    | _ => simp [hnext, ptrs] at hx
  have hleft : (l.deleted a).Seg (.head k) xs (l.next (.node a)) := by
    apply Lists.Seg.retarget hxs (nodup_ptrs hnodupXs k)
    · simp [Lists.deleted, hp, hq]
    · intro x hx hne
      simp [Lists.deleted, hne, node_ne haXs hx]
    · intro x hx
      simp [Lists.deleted, htail x hx, node_ne haXs (List.mem_cons_of_mem (.head k) hx)]
  cases ys with
  | nil =>
    rw [hys.1] at hleft
    rwa [List.append_nil]
  | cons b ys =>
    obtain ⟨hb, hprev, hys⟩ := hys
    rw [hb] at hleft
    apply Lists.seg_append.mpr
    refine ⟨hleft, hys.congr ?_ ?_⟩
    · intro x hx
      have hx' : x ∈ ptrs (b :: ys) := by simpa [ptrs] using hx
      have hne : x ≠ l.prev (.node a) := by
        rintro rfl
        cases hprev' : l.prev (.node a) with
        | head _ => simp [hprev'] at hx'
        | node c =>
          have hmem := hxs.prev_mem
          rw [hprev'] at hx' hmem
          exact hdis c (by simpa using hmem) c (by simp_all) rfl
        | _ => simp [hprev', ptrs] at hx'
      simp [Lists.deleted, hne, node_ne haYs (List.mem_cons_of_mem (.head k) hx')]
    · intro x hx
      have hne : x ≠ .node b := by
        rintro rfl
        have hbys := (List.nodup_cons.mp (List.nodup_cons.mp hnodupYs).2).1
        simp [hbys] at hx
      have hna : x ≠ .node a := by
        rintro rfl
        exact haYs (by simpa using Or.inr hx)
      simp [Lists.deleted, hb, hne, hna]

lemma Lists.Ring.deleted_other (h : l.Ring k (xs ++ a :: ys)) (h' : l.Ring k' zs) (hk : k' ≠ k)
    (hdis : ∀ b ∈ xs ++ a :: ys, b ∉ zs) : (l.deleted a).Ring k' zs := by
  obtain ⟨hxs, hys⟩ := Lists.seg_append.mp h
  have ha : a ∉ zs := hdis a (by simp)
  apply Lists.Seg.congr h'
  · intro x hx
    have hne : x ≠ l.prev (.node a) :=
      ptr_ne hk (fun b hb => hdis b (by simp [hb])) hx hxs.prev_mem
    simp [Lists.deleted, hne, node_ne ha hx]
  · intro x hx
    have hne : x ≠ l.next (.node a) :=
      ptr_ne hk (fun b hb => hdis b (by simp [hb])) hx hys.next_mem
    simp [Lists.deleted, hne, node_ne ha hx]

end Updates

section Walks

variable {links : σ → Lists K A V} {u : Ptr K A} {xs : List A} {k : K} {s r : σ}
variable [DecidableEq K] [DecidableEq A]

omit [DecidableEq K] [DecidableEq A] in
lemma Lists.getNext_of_live {l : Lists K A V} (h : l.live u = true) :
    l.getNext u = .ok (l.next u) := if_pos h

lemma Lists.Seg.stops_entryFrom {body : A → σ → Except Fault (ForInStep σ)} {x : Except Fault σ}
    (h : (links s).Seg u xs (.head k)) (hlive : ∀ a ∈ xs, (links s).nodes.live a = true)
    (hbody : ∀ a s s', body a s = .ok (.yield s') → links s' = links s)
    (hx : forIn xs s body = x) :
    Stops (fun n => Lists.entryFrom links k body n ((links s).next u) s) x := by
  induction xs generalizing u s with
  | nil =>
    subst hx
    apply Stops.succ rfl
    simp only [Lists.entryFrom, h.1, if_true]
    exact Stops.done (.ok s)
  | cons a xs ih =>
    obtain ⟨hu, -, htail⟩ := h
    apply Stops.succ rfl
    simp only [Lists.entryFrom, hu, reduceCtorEq, if_false]
    rw [List.forIn_cons] at hx
    apply (Stops.lift rfl).bind
    cases hc : body a s with
    | error e =>
      rw [hc] at hx
      subst hx
      exact (Stops.done (.error e)).error
    | ok c =>
      rw [hc] at hx
      apply (Stops.done (.ok c)).bind
      cases c with
      | done s' =>
        subst hx
        exact Stops.done (.ok s')
      | yield s' =>
        have hlinks := hbody a s s' hc
        have ha : (links s').live (.node a) = true := by
          rw [hlinks]
          exact hlive a (by simp)
        apply (Stops.lift (Lists.getNext_of_live ha)).bind
        apply ih
        · rwa [hlinks]
        · rw [hlinks]
          exact fun b hb => hlive b (by simp [hb])
        · exact hx

lemma Lists.Seg.returns_safeFrom {body : Ptr K A → σ → Except Fault σ}
    (h : (links s).Seg u xs (.head k)) (hlive : ∀ a ∈ xs, (links s).nodes.live a = true)
    (hnodup : xs.Nodup)
    (hbody : ∀ a s s', body (.node a) s = .ok s' → (links s').next = (links s).next ∧
      (links s').prev = (links s).prev ∧
      ∀ b, b ≠ a → (links s').nodes.live b = (links s).nodes.live b)
    (hr : xs.foldlM (fun s a => body (.node a) s) s = .ok r) :
    Returns (fun n => Lists.safeFrom links k body n ((links s).next u)
      ((links s).next ((links s).next u)) s) r := by
  induction xs generalizing u s with
  | nil =>
    cases hr
    apply Returns.succ rfl
    simp only [Lists.safeFrom, h.1, if_true]
    exact Returns.done r
  | cons a xs ih =>
    obtain ⟨hu, -, htail⟩ := h
    obtain ⟨haxs, hnodup⟩ := List.nodup_cons.mp hnodup
    apply Returns.succ rfl
    simp only [Lists.safeFrom, hu, reduceCtorEq, if_false]
    rw [List.foldlM_cons] at hr
    obtain ⟨s', hs', hr⟩ := bind_ok.mp hr
    obtain ⟨hnext, hprev, hother⟩ := hbody a s s' hs'
    have hlive' : ∀ b ∈ xs, (links s').nodes.live b = true := by
      intro b hb
      have hne : b ≠ a := by
        rintro rfl
        exact haxs hb
      rw [hother b hne]
      exact hlive b (by simp [hb])
    have htail' : (links s').Seg (.node a) xs (.head k) := by
      apply htail.congr
      · exact fun _ _ => congrFun hnext _
      · exact fun _ _ => congrFun hprev _
    have hlast : (links s').live ((links s').next (.node a)) = true :=
      Lists.live_of_mem hlive' htail'.next_mem
    apply (Returns.lift hs').bind
    rw [← hnext]
    apply (Returns.lift (Lists.getNext_of_live hlast)).bind
    exact ih htail' hlive' hnodup hr

lemma Lists.Ring.stops_forEachEntry (links : σ → Lists K A V)
    {f : A → σ → Except Fault (ForInStep σ)} (h : (links s).Ring k xs)
    (hlive : ∀ a ∈ xs, (links s).nodes.live a = true)
    (hbody : ∀ a s s', f a s = .ok (.yield s') → links s' = links s) :
    Stops (fun n => Lists.listForEachEntry links k f n s) (forIn xs s f) := by
  apply (Stops.lift (Lists.getNext_of_live rfl)).bind
  exact Lists.Seg.stops_entryFrom h hlive hbody rfl

lemma Lists.rereadFrom_const (body : A → σ → Except Fault (ForInStep σ)) (n i : ℕ) (p : Ptr K A)
    (s : σ) :
    Prod.snd <$> Lists.rereadFrom links (fun _ => k) (fun _ => body) n i p s =
      Lists.entryFrom links k body n p s := by
  induction n generalizing i p s with
  | zero => rfl
  | succ n ih =>
    simp only [Lists.rereadFrom, Lists.entryFrom]
    split
    · rw [map_pure]
    · rw [map_bind]
      congr 1
      funext a
      rw [map_bind]
      congr 1
      funext c
      cases c with
      | done s' => exact map_pure ..
      | yield s' =>
        rw [map_bind]
        congr 1
        funext q
        exact ih (i + 1) q s'

lemma Lists.listForEachReread_const (links : σ → Lists K A V) (k : K)
    (body : A → σ → Except Fault (ForInStep σ)) (n : ℕ) (s : σ) :
    Prod.snd <$> Lists.listForEachReread links (fun _ => k) (fun _ => body) n s =
      Lists.listForEachEntry links k body n s := by
  rw [Lists.listForEachReread, Lists.listForEachEntry, map_bind]
  congr 1
  funext p
  exact Lists.rereadFrom_const body n 0 p s

def rereadList (heads : ℕ → K) (k : K) (body : ℕ → A → σ → Except Fault (ForInStep σ)) :
    ℕ → List A → σ → Except Fault (ℕ × σ)
  | i, [], s => if heads (i + 1) = k then .ok (i, s) else .error .listHead
  | i, a :: xs, s => do
    match ← body i a s with
    | .done s => return (i, s)
    | .yield s => rereadList heads k body (i + 1) xs s

omit [DecidableEq A] in
lemma rereadList_yields {heads : ℕ → K} {body : A → σ → Except Fault (ForInStep σ)}
    (hbody : ∀ a s s', body a s ≠ .ok (.done s')) (i : ℕ) (xs : List A) (s : σ) :
    rereadList heads k (fun _ => body) i xs s = (do
      let s ← forIn xs s body
      if heads (i + xs.length + 1) = k then return (i + xs.length, s)
      else .error Fault.listHead) := by
  induction xs generalizing i s with
  | nil => rfl
  | cons a xs ih =>
    have hlength : i + (a :: xs).length = i + 1 + xs.length := by
      simp only [List.length_cons]
      omega
    rw [rereadList, List.forIn_cons, hlength]
    cases hc : body a s with
    | error e => rfl
    | ok c =>
      cases c with
      | done s' => exact absurd hc (hbody a s s')
      | yield s' => exact ih (i + 1) s'

lemma Lists.Seg.stops_rereadFrom {heads : ℕ → K} {body : ℕ → A → σ → Except Fault (ForInStep σ)}
    (h : (links s).Seg u xs (.head k)) (hlive : ∀ a ∈ xs, (links s).nodes.live a = true)
    (hbody : ∀ i a s s', body i a s = .ok (.yield s') → links s' = links s) (i : ℕ) :
    Stops (fun n => Lists.rereadFrom links heads body n i ((links s).next u) s)
      (rereadList heads k body i xs s) := by
  induction xs generalizing u s i with
  | nil =>
    apply Stops.succ rfl
    simp only [Lists.rereadFrom, rereadList, h.1, Ptr.head.injEq, eq_comm (a := k)]
    split
    · exact Stops.done (.ok _)
    · exact (Stops.done (.error Fault.listHead)).error
  | cons a xs ih =>
    obtain ⟨hu, -, htail⟩ := h
    apply Stops.succ rfl
    simp only [Lists.rereadFrom, rereadList, hu, reduceCtorEq, if_false]
    apply (Stops.lift rfl).bind
    apply (Stops.done (body i a s)).followed
    intro c hc
    cases c with
    | done s' => exact Stops.done (.ok _)
    | yield s' =>
      have hlinks := hbody i a s s' hc
      have ha : (links s').live (.node a) = true := by
        rw [hlinks]
        exact hlive a (by simp)
      apply (Stops.lift (Lists.getNext_of_live ha)).bind
      apply ih
      · rwa [hlinks]
      · rw [hlinks]
        exact fun b hb => hlive b (by simp [hb])

lemma Lists.Ring.stops_forEachReread (links : σ → Lists K A V) {heads : ℕ → K}
    {f : ℕ → A → σ → Except Fault (ForInStep σ)} (h : (links s).Ring (heads 0) xs)
    (hlive : ∀ a ∈ xs, (links s).nodes.live a = true)
    (hbody : ∀ i a s s', f i a s = .ok (.yield s') → links s' = links s) :
    Stops (fun n => Lists.listForEachReread links heads f n s)
      (rereadList heads (heads 0) f 0 xs s) := by
  apply (Stops.lift (Lists.getNext_of_live rfl)).bind
  exact Lists.Seg.stops_rereadFrom h hlive hbody 0

lemma Lists.Ring.returns_forEachSafe (links : σ → Lists K A V) {body : Ptr K A → σ → Except Fault σ}
    (h : (links s).Ring k xs) (hlive : ∀ a ∈ xs, (links s).nodes.live a = true) (hnodup : xs.Nodup)
    (hbody : ∀ a s s', body (.node a) s = .ok s' → (links s').next = (links s).next ∧
      (links s').prev = (links s).prev ∧
      ∀ b, b ≠ a → (links s').nodes.live b = (links s).nodes.live b)
    (hr : xs.foldlM (fun s a => body (.node a) s) s = .ok r) :
    Returns (fun n => Lists.listForEachSafe links k body n s) r := by
  have hfirst : (links s).live ((links s).next (.head k)) = true :=
    Lists.live_of_mem hlive h.next_mem
  apply (Returns.lift (Lists.getNext_of_live rfl)).bind
  apply (Returns.lift (Lists.getNext_of_live hfirst)).bind
  exact Lists.Seg.returns_safeFrom h hlive hnodup hbody hr

end Walks

end EmbeddedSystem.Kernel
