import EmbeddedSystem.Challenge4.Walk
import EmbeddedSystem.Kernel.ListHead

namespace EmbeddedSystem.Challenge4

open Kernel

/-- The nodes `xs` hold the messages; beside them only the nodes and the buffers of the call in
progress are allocated. -/
structure Holds (m : Memory Addr) (h : Heap Addr MsgSt) (xs spare bufs : List Addr)
    (msgs : List MsgSt) : Prop where
  ring : Circular m.next xs
  nodup : (listHead :: (xs ++ spare)).Nodup
  live : ∀ a, m.live a = true ↔ a ∈ listHead :: (xs ++ spare)
  nodupBufs : (xs.map m.val ++ bufs).Nodup
  liveBufs : ∀ b, h.live b = true ↔ b ∈ xs.map m.val ++ bufs
  content : xs.map (fun x => h.val (m.val x)) = msgs

variable {m m' : Memory Addr} {h : Heap Addr MsgSt} {xs spare bufs l : List Addr}
  {msgs : List MsgSt} {a b u : Addr} {msg : MsgSt}

section Buffers

lemma Holds.notMem_buf (hm : Holds m h xs spare bufs msgs) (hb : h.live b = false) :
    b ∉ xs.map m.val ++ bufs := by
  rw [← hm.liveBufs, hb]
  exact Bool.false_ne_true

lemma Holds.content_update (hm : Holds m h xs spare bufs msgs) (hb : b ∉ xs.map m.val) :
    xs.map (fun x => Function.update h.val b msg (m.val x)) = msgs := by
  rw [← hm.content]
  apply List.map_congr_left
  intro x hx
  have hne : m.val x ≠ b := by
    rintro rfl
    exact hb (List.mem_map_of_mem hx)
  exact Function.update_of_ne hne ..

lemma Holds.vmalloc (hm : Holds m h xs spare [] msgs) (msg : MsgSt) (hb : h.live b = false) :
    Holds m (h.kmalloc b msg) xs spare [b] msgs := by
  have hfresh := hm.notMem_buf hb
  have hnodup := hm.nodupBufs
  rw [List.append_nil] at hfresh hnodup
  refine ⟨hm.ring, hm.nodup, hm.live, ?_, ?_, hm.content_update hfresh⟩
  · rw [List.nodup_append]
    refine ⟨hnodup, List.nodup_singleton b, ?_⟩
    rintro x hx y hy rfl
    exact hfresh (List.mem_singleton.mp hy ▸ hx)
  · intro c
    have hlive := hm.liveBufs c
    rw [List.append_nil] at hlive
    by_cases hc : c = b
    · subst hc
      simp [Heap.kmalloc]
    · simp [Heap.kmalloc, hc, hlive]

lemma Holds.live_buf (hm : Holds m h xs spare [b] msgs) : h.live b = true := by
  rw [hm.liveBufs]
  simp

lemma Holds.notMem_spareBuf (hm : Holds m h xs spare [b] msgs) : b ∉ xs.map m.val :=
  fun hb => (List.nodup_append.mp hm.nodupBufs).2.2 b hb b (List.mem_singleton_self b) rfl

lemma Holds.fill (hm : Holds m h xs spare [b] msgs) :
    Holds m { h with val := Function.update h.val b msg } xs spare [b] msgs :=
  ⟨hm.ring, hm.nodup, hm.live, hm.nodupBufs, hm.liveBufs, hm.content_update hm.notMem_spareBuf⟩

lemma Holds.vfree (hm : Holds m h xs spare [b] msgs) :
    Holds m { h with live := Function.update h.live b false } xs spare [] msgs := by
  have hout := hm.notMem_spareBuf
  refine ⟨hm.ring, hm.nodup, hm.live, ?_, ?_, hm.content⟩
  · rw [List.append_nil]
    exact hm.nodupBufs.of_append_left
  · intro c
    rw [List.append_nil]
    by_cases hc : c = b
    · subst hc
      simpa using hout
    · simp only [Function.update_of_ne hc, hm.liveBufs]
      simp [hc]

end Buffers

section Nodes

lemma Holds.live_of_mem (hm : Holds m h xs spare bufs msgs) (ha : a ∈ listHead :: xs) :
    m.live a = true := by
  rw [hm.live, ← List.cons_append]
  exact List.mem_append_left _ ha

lemma Holds.live_spare (hm : Holds m h xs [a] bufs msgs) : m.live a = true := by
  rw [hm.live]
  simp

lemma Holds.notMem_spare (hm : Holds m h xs [a] bufs msgs) : a ∉ listHead :: xs := by
  have hnodup := hm.nodup
  rw [← List.cons_append] at hnodup
  exact fun ha =>
    (List.nodup_append.mp hnodup).2.2 a ha a (List.mem_singleton_self a) rfl

lemma Holds.nodup_nodes (hm : Holds m h xs spare bufs msgs) : (listHead :: xs).Nodup := by
  have hnodup := hm.nodup
  rw [← List.cons_append] at hnodup
  exact hnodup.of_append_left

lemma Holds.agree (hm : Holds m h xs spare bufs msgs) {spare' : List Addr} (ha : a ∉ listHead :: xs)
    (hagree : Agree m m' a) (hnodup : (listHead :: (xs ++ spare')).Nodup)
    (hlive : ∀ c, m'.live c = true ↔ c ∈ listHead :: (xs ++ spare')) :
    Holds m' h xs spare' bufs msgs := by
  have hne : ∀ x ∈ listHead :: xs, x ≠ a := by
    rintro x hx rfl
    exact ha hx
  have hval : xs.map m'.val = xs.map m.val := by
    apply List.map_congr_left
    intro x hx
    exact hagree.val x (hne x (List.mem_cons_of_mem _ hx))
  refine ⟨?_, hnodup, hlive, ?_, ?_, ?_⟩
  · apply hm.ring.congr
    intro x hx
    rw [← List.cons_append, List.dropLast_concat] at hx
    exact hagree.next x (hne x hx)
  · rw [hval]
    exact hm.nodupBufs
  · rw [hval]
    exact hm.liveBufs
  · rw [← hm.content]
    apply List.map_congr_left
    intro x hx
    rw [hagree.val x (hne x (List.mem_cons_of_mem _ hx))]

lemma Holds.kmalloc (hm : Holds m h xs [] bufs msgs) (ha : m.live a = false) (junk : Memory Addr) :
    Holds (m.kmalloc a junk) h xs [a] bufs msgs := by
  have hout : a ∉ listHead :: xs := by
    intro hmem
    rw [hm.live_of_mem hmem] at ha
    cases ha
  apply hm.agree hout (kmalloc_agree m junk a)
  · rw [← List.cons_append, List.nodup_append]
    refine ⟨hm.nodup_nodes, List.nodup_singleton a, ?_⟩
    rintro x hx y hy rfl
    exact hout (List.mem_singleton.mp hy ▸ hx)
  · intro c
    have hlive := hm.live c
    rw [List.append_nil] at hlive
    by_cases hc : c = a
    · subst hc
      simp [Memory.kmalloc]
    · simp only [Memory.kmalloc, Function.update_of_ne hc, hlive]
      simp [hc]

lemma Holds.store (hm : Holds m h xs [a] bufs msgs) (hagree : Agree m m' a)
    (hlive : m'.live a = m.live a) : Holds m' h xs [a] bufs msgs := by
  apply hm.agree hm.notMem_spare hagree hm.nodup
  intro c
  rw [← hm.live]
  by_cases hc : c = a
  · rw [hc, hlive]
  · rw [hagree.live c hc]

lemma Holds.setPrev (hm : Holds m h xs spare bufs msgs) (c d : Addr) :
    Holds (setPrev m c d) h xs spare bufs msgs :=
  ⟨hm.ring, hm.nodup, hm.live, hm.nodupBufs, hm.liveBufs, hm.content⟩

lemma setNext_agree (m : Memory Addr) (a b : Addr) : Agree m (setNext m a b) a :=
  ⟨fun _ _ => rfl, fun _ hc => Function.update_of_ne hc .., fun _ _ => rfl, fun _ _ => rfl⟩

lemma Holds.kfree (hm : Holds m h xs [a] bufs msgs) : Holds (m.kfree a) h xs [] bufs msgs := by
  have hout := hm.notMem_spare
  apply hm.agree hout (kfree_agree m a)
  · rw [List.append_nil]
    exact hm.nodup_nodes
  · intro c
    rw [List.append_nil]
    by_cases hc : c = a
    · subst hc
      simpa [Memory.kfree] using hout
    · simp only [Memory.kfree, Function.update_of_ne hc, hm.live]
      simp [hc]

end Nodes

section Links

lemma Holds.publish (hm : Holds m h xs [a] [b] msgs) (hnext : m.next a = listHead)
    (hval : m.val a = b) (hlast : listHead :: xs = l ++ [u]) :
    Holds (setNext m u a) h (xs ++ [a]) [] [] (msgs ++ [h.val b]) := by
  refine ⟨?_, ?_, ?_, ?_, ?_, ?_⟩
  · exact hm.ring.snoc hm.nodup_nodes hm.notMem_spare hnext hlast
  · rw [List.append_nil]
    exact hm.nodup
  · rw [List.append_nil]
    exact hm.live
  · have hnodup := hm.nodupBufs
    rw [← hval] at hnodup
    rw [List.append_nil, List.map_append]
    exact hnodup
  · have hlive := hm.liveBufs
    rw [← hval] at hlive
    rw [List.append_nil, List.map_append]
    exact hlive
  · rw [List.map_append, ← hval]
    exact congrArg (· ++ [h.val (m.val a)]) hm.content

lemma Holds.unlink (hm : Holds m h (a :: xs) [] [] msgs) :
    Holds (setNext m listHead (m.next a)) h xs [a] [m.val a] msgs.tail := by
  have hnodup := hm.nodup
  have hbufs := hm.nodupBufs
  rw [List.append_nil] at hnodup hbufs
  have hperm : (listHead :: (xs ++ [a])).Perm (listHead :: (a :: xs)) :=
    (List.perm_append_singleton a xs).cons _
  have hpermBufs : (xs.map m.val ++ [m.val a]).Perm ((a :: xs).map m.val) :=
    List.perm_append_singleton _ _
  refine ⟨hm.ring.tail_circular hnodup, hperm.nodup_iff.mpr hnodup, ?_,
    hpermBufs.nodup_iff.mpr hbufs, ?_, ?_⟩
  · intro c
    have hlive := hm.live c
    rw [List.append_nil] at hlive
    exact hlive.trans hperm.mem_iff.symm
  · intro c
    have hlive := hm.liveBufs c
    rw [List.append_nil] at hlive
    exact hlive.trans hpermBufs.mem_iff.symm
  · rw [← hm.content]
    rfl

end Links

end EmbeddedSystem.Challenge4
