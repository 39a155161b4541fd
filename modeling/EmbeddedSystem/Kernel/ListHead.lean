import EmbeddedSystem.Kernel.RcuList

/-! Rings of links through the head of a list, and the links that an insertion or a deletion
redirects. One ring goes over `next`, and one backwards over `prev`. -/

namespace EmbeddedSystem.Kernel

open List

variable {f : Addr → Addr} {l r xs : List Addr} {a b u v : Addr}

def Linked (f : Addr → Addr) (l : List Addr) : Prop := l.IsChain fun u v => f u = v

def Circular (f : Addr → Addr) (xs : List Addr) : Prop := Linked f (listHead :: (xs ++ [listHead]))

lemma Linked.congr {g : Addr → Addr} (h : Linked f l) (hg : ∀ u ∈ l.dropLast, g u = f u) :
    Linked g l := by
  induction l with
  | nil => exact .nil
  | cons u l ih =>
    cases l with
    | nil => exact .singleton _
    | cons v l =>
      obtain ⟨hu, hl⟩ := isChain_cons_cons.mp h
      apply isChain_cons_cons.mpr
      refine ⟨(hg u (by simp)).trans hu, ih hl ?_⟩
      exact fun x hx => hg x (by simp [hx])

lemma Linked.update (h : Linked f l) (ha : a ∉ l.dropLast) : Linked (Function.update f a b) l := by
  apply h.congr
  rintro u hu
  exact Function.update_of_ne (by rintro rfl; exact ha hu) ..

lemma Linked.splice (hl : Linked f (l ++ [u])) (hr : Linked f (v :: r)) (hul : u ∉ l)
    (hur : u ∉ (v :: r).dropLast) : Linked (Function.update f u v) (l ++ u :: v :: r) := by
  apply isChain_append_cons_cons.mpr
  refine ⟨hl.update ?_, Function.update_self .., hr.update hur⟩
  rwa [dropLast_concat]

lemma Linked.first (h : Linked f (a :: (xs ++ [listHead]))) :
    ∃ ys, xs ++ [listHead] = f a :: ys := by
  cases xs with
  | nil => exact ⟨[], by rw [(isChain_cons_cons.mp h).1]; rfl⟩
  | cons x xs => exact ⟨xs ++ [listHead], by rw [(isChain_cons_cons.mp h).1]; rfl⟩

lemma Circular.tail (h : Circular f xs) : Linked f (xs ++ [listHead]) := (isChain_cons.mp h).2

lemma Circular.update_reverse (h : Circular f xs.reverse) (ha : a ∉ listHead :: xs) :
    Circular (Function.update f a b) xs.reverse := by
  apply Linked.update h
  rw [← cons_append, dropLast_concat, mem_cons, mem_reverse, ← mem_cons]
  exact ha

lemma Circular.last_link (h : Circular f (xs ++ [a])) : f a = listHead := by
  have hall : Linked f ((listHead :: xs) ++ [a, listHead]) := by
    have heq : (listHead :: xs) ++ [a, listHead] = listHead :: (xs ++ [a] ++ [listHead]) := by simp
    rw [heq]
    exact h
  exact (isChain_cons_cons.mp hall.right_of_append).1

lemma Circular.next_mem (h : Circular f xs) (hu : u ∈ listHead :: xs) : f u ∈ xs ++ [listHead] := by
  obtain ⟨l, r, hsplit⟩ := append_of_mem hu
  have hring : Linked f (l ++ u :: (r ++ [listHead])) := by
    have heq : listHead :: (xs ++ [listHead]) = l ++ u :: (r ++ [listHead]) := by
      rw [← cons_append, hsplit, append_assoc]
      rfl
    rw [Circular, heq] at h
    exact h
  have hlast : Linked f (u :: (r ++ [listHead])) := hring.right_of_append
  have hmem : ∀ x ∈ r ++ [listHead], x ∈ xs ++ [listHead] := by
    intro x hx
    obtain hx | hx := mem_append.mp hx
    · have hxs : x ∈ listHead :: xs := by
        rw [hsplit]
        simp [hx]
      obtain rfl | hxs := mem_cons.mp hxs
      · simp
      · exact mem_append_left _ hxs
    · exact mem_append_right _ hx
  cases r with
  | nil =>
    have hu := (isChain_cons_cons.mp hlast).1
    exact hmem _ (by rw [hu]; simp)
  | cons v r =>
    have hu := (isChain_cons_cons.mp hlast).1
    exact hmem _ (by rw [hu]; simp)

lemma Circular.snoc (h : Circular f xs) (hnodup : (listHead :: xs).Nodup) (ha : a ∉ listHead :: xs)
    (hnext : f a = listHead) (hlast : listHead :: xs = l ++ [u]) :
    Circular (Function.update f u a) (xs ++ [a]) := by
  have hring : listHead :: (xs ++ [a] ++ [listHead]) = l ++ u :: a :: [listHead] := by
    rw [append_assoc, ← cons_append, hlast, append_assoc]
    rfl
  have hl : Linked f (l ++ [u]) := by
    rw [← hlast]
    have hall : Linked f ((listHead :: xs) ++ [listHead]) := h
    exact hall.left_of_append
  rw [hlast] at hnodup ha
  rw [Circular, hring]
  apply hl.splice
  · exact isChain_cons_cons.mpr ⟨hnext, .singleton _⟩
  · exact fun hu => (nodup_append.mp hnodup).2.2 _ hu _ (mem_singleton_self u) rfl
  · rintro hu
    obtain rfl := mem_singleton.mp hu
    exact ha (by simp)

lemma Circular.cons (h : Linked f (xs ++ [listHead])) (hxs : xs ++ [listHead] = v :: l)
    (hhead : f listHead = a) (ha : f a = v) : Circular f (a :: xs) := by
  rw [hxs] at h
  rw [Circular, cons_append, hxs]
  exact isChain_cons_cons.mpr ⟨hhead, isChain_cons_cons.mpr ⟨ha, h⟩⟩

lemma Circular.tail_circular (h : Circular f (a :: xs)) (hnodup : (listHead :: (a :: xs)).Nodup) :
    Circular (Function.update f listHead (f a)) xs := by
  obtain ⟨ys, hys⟩ := h.tail.first
  have htail : Linked f (f a :: ys) := by
    rw [← hys]
    exact (isChain_cons.mp h.tail).2
  rw [Circular, hys]
  apply Linked.splice (l := []) (.singleton _) htail (not_mem_nil)
  rw [← hys, dropLast_concat]
  exact fun hmem => (nodup_cons.mp hnodup).1 (mem_cons_of_mem _ hmem)

lemma Circular.init_circular (h : Circular f (xs ++ [a])) (hnodup : (listHead :: (xs ++ [a])).Nodup)
    (hlast : listHead :: xs = l ++ [u]) : Circular (Function.update f u listHead) xs := by
  have hring : listHead :: (xs ++ [listHead]) = l ++ u :: listHead :: [] := by
    rw [← cons_append, hlast, append_assoc]
    rfl
  have hl : Linked f (l ++ [u]) := by
    rw [← hlast]
    have hall : Linked f ((listHead :: xs) ++ ([a] ++ [listHead])) := by
      have heq : (listHead :: xs) ++ ([a] ++ [listHead]) =
          listHead :: (xs ++ [a] ++ [listHead]) := by simp
      rw [heq]
      exact h
    exact hall.left_of_append
  have hnodup' : (l ++ [u]).Nodup := by
    rw [← hlast]
    have hsub : (listHead :: xs) <+ listHead :: (xs ++ [a]) :=
      (sublist_append_left xs [a]).cons_cons _
    exact hnodup.sublist hsub
  rw [Circular, hring]
  apply hl.splice (.singleton _)
  · exact fun hu => (nodup_append.mp hnodup').2.2 _ hu _ (mem_singleton_self u) rfl
  · exact not_mem_nil

end EmbeddedSystem.Kernel
