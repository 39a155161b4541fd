import EmbeddedSystem.Foundations.Ownership
import EmbeddedSystem.Kernel.Queues

/-! Lists of messages: each node points to a buffer of its own, and a message is appended to one
list and removed from it. -/

namespace EmbeddedSystem.Kernel

open Foundations

variable {K A B V : Type}

structure Messages (K A B V : Type) where
  lists : Lists K A B
  bufs : Ledger B V

structure Fresh (m : Messages K A B V) where
  node : A
  buf : B
  junk : Entry K A B
  junkBuf : V
  node_free : m.lists.nodes.live node = false
  buf_free : m.bufs.live buf = false

def Fresh.new {m : Messages K A B V} (new : Fresh m) : m.lists.New :=
  ⟨new.node, new.junk, new.node_free⟩

namespace Messages

def init (junk : A → B) (junkBuf : B → V) : Messages K A B V := ⟨.init junk, .empty junkBuf⟩

def bufOf (m : Messages K A B V) (a : A) : Option B :=
  if m.lists.nodes.live a then some (m.lists.nodes.val a) else none

def contents (m : Messages K A B V) (xs : List A) : List V :=
  xs.map fun a => m.bufs.val (m.lists.nodes.val a)

/-- The nodes in use are those of the lists `q`, each in one place; the buffers in use are those
that these nodes point to, each by one node. -/
structure Linked (m : Messages K A B V) (q : K → List A) : Prop where
  ring : ∀ k, m.lists.Ring k (q k)
  nodup : ∀ k, (q k).Nodup
  disjoint : ∀ k k' a, a ∈ q k → a ∈ q k' → k = k'
  live : ∀ a, m.lists.nodes.live a = true ↔ ∃ k, a ∈ q k
  bufs : Owned m.bufs.live m.bufOf

lemma Linked.holds {m : Messages K A B V} {q : K → List A} (h : m.Linked q) : m.lists.Holds q :=
  ⟨h.ring, h.nodup, h.disjoint, h.live⟩

def AllFreed (m : Messages K A B V) : Prop := m.lists.nodes.AllFreed ∧ m.bufs.AllFreed

variable {m : Messages K A B V} {q : K → List A} {xs ys : List A} {a : A} {k : K} {v : V}

lemma contents_append (m : Messages K A B V) (xs ys : List A) :
    m.contents (xs ++ ys) = m.contents xs ++ m.contents ys := List.map_append

lemma linked_init (junk : A → B) (junkBuf : B → V) :
    (init junk junkBuf : Messages K A B V).Linked fun _ => [] := by
  refine ⟨?_, ?_, ?_, ?_, .nothing⟩
  · exact fun _ => ⟨rfl, rfl⟩
  · exact fun _ => List.nodup_nil
  · rintro _ _ _ ⟨⟩
  · simp [init, Lists.init, Ledger.empty]

lemma bufOf_of_live (ha : m.lists.nodes.live a = true) : m.bufOf a = some (m.lists.nodes.val a) :=
  if_pos ha

lemma bufOf_of_free (ha : m.lists.nodes.live a = false) : m.bufOf a = none := by
  simp [bufOf, ha]

lemma Linked.live_of_mem (h : m.Linked q) (ha : a ∈ q k) : m.lists.nodes.live a = true :=
  h.holds.live_of_mem ha

lemma live_buf (h : Owned m.bufs.live m.bufOf) (ha : m.lists.nodes.live a = true) :
    m.bufs.live (m.lists.nodes.val a) = true :=
  h.live_of_owns (bufOf_of_live ha)

lemma Linked.unique (h : m.Linked q) {q' : K → List A} (h' : m.Linked q') : q = q' :=
  funext fun k => (h.ring k).unique (h'.ring k)

lemma bufs_freed_iff (h : Owned m.bufs.live m.bufOf) :
    m.bufs.AllFreed ↔ m.lists.nodes.AllFreed := by
  rw [Ledger.allFreed_iff, Ledger.allFreed_iff]
  constructor
  · intro hbufs a
    by_contra ha
    have hb := live_buf h (by simpa using ha : m.lists.nodes.live a = true)
    rw [hbufs] at hb
    cases hb
  · intro hnodes b
    by_contra hb
    obtain ⟨a, ha⟩ := (h.live_iff b).mp (by simpa using hb)
    rw [bufOf_of_free (hnodes a)] at ha
    cases ha

lemma Linked.nodes_freed_iff (h : m.Linked q) : m.lists.nodes.AllFreed ↔ ∀ k, q k = [] :=
  h.holds.nodes_freed_iff

section Append

variable [DecidableEq K] [DecidableEq A] [DecidableEq B]

omit [DecidableEq B] in
def appendedLists (m : Messages K A B V) (new : Fresh m) (k : K) : Lists K A B :=
  Lists.addedTail
    { m.lists.kmalloc new.node new.junk new.node_free with
      nodes := (m.lists.nodes.kmalloc new.node new.junk.val new.node_free).stored new.node new.buf }
    new.node k

def appended (m : Messages K A B V) (new : Fresh m) (k : K) (v : V) : Messages K A B V where
  lists := m.appendedLists new k
  bufs := (m.bufs.kmalloc new.buf new.junkBuf new.buf_free).stored new.buf v

variable {new : Fresh m}

omit [DecidableEq K] [DecidableEq A] in
lemma live_new_buf (new : Fresh m) :
    (m.bufs.kmalloc new.buf new.junkBuf new.buf_free).live new.buf = true := by
  simp

omit [DecidableEq B] in
lemma live_new_node (new : Fresh m) :
    (m.lists.kmalloc new.node new.junk new.node_free).nodes.live new.node = true := by
  simp [Lists.kmalloc]

lemma bufOf_appended : (m.appended new k v).bufOf = Function.update m.bufOf new.node new.buf := by
  funext a
  by_cases ha : a = new.node
  · subst ha
    simp [bufOf, appended, appendedLists, Lists.addedTail]
  · simp [bufOf, appended, appendedLists, Lists.addedTail, ha]

omit [DecidableEq B] in
lemma Linked.listAddTail (h : m.Linked q) (new : Fresh m) (k : K) :
    Lists.listAddTail
        { m.lists.kmalloc new.node new.junk new.node_free with
          nodes := (m.lists.nodes.kmalloc new.node new.junk.val new.node_free).stored new.node
            new.buf } (.node new.node) (.head k) =
      .ok (m.appendedLists new k) :=
  h.holds.listAddTail new.new k new.buf

lemma Linked.appended (h : m.Linked q) (new : Fresh m) (k : K) (v : V) :
    (m.appended new k v).Linked (Function.update q k (q k ++ [new.node])) := by
  obtain ⟨hring, hnodup, hdisjoint, hlive⟩ := h.holds.pushed new.new k new.buf
  refine ⟨hring, hnodup, hdisjoint, hlive, ?_⟩
  rw [bufOf_appended]
  exact h.bufs.acquire (bufOf_of_free new.node_free) new.buf_free

lemma Linked.contents_appended (h : m.Linked q) (new : Fresh m) (k : K) (v : V) (k' : K) :
    (m.appended new k v).contents (q k') = m.contents (q k') := by
  apply List.map_congr_left
  intro a ha
  have hlive := h.live_of_mem ha
  have hne : a ≠ new.node := Heap.ne_of_live hlive new.node_free
  have hbuf : m.lists.nodes.val a ≠ new.buf :=
    Heap.ne_of_live (live_buf h.bufs hlive) new.buf_free
  simp [Messages.appended, appendedLists, Lists.addedTail, hne, hbuf]

lemma contents_new (new : Fresh m) (k : K) (v : V) :
    (m.appended new k v).contents [new.node] = [v] := by
  simp [contents, Messages.appended, appendedLists, Lists.addedTail]

end Append

section Remove

variable [DecidableEq A] [DecidableEq B]

def freed (m : Messages K A B V) (a : A) (ha : m.lists.nodes.live a = true)
    (hb : m.bufs.live (m.lists.nodes.val a) = true) : Messages K A B V where
  lists := { m.lists with nodes := m.lists.nodes.freed a ha }
  bufs := m.bufs.freed (m.lists.nodes.val a) hb

variable {ha : m.lists.nodes.live a = true} {hb : m.bufs.live (m.lists.nodes.val a) = true}

lemma bufOf_freed : (m.freed a ha hb).bufOf = Function.update m.bufOf a none := by
  funext b
  by_cases hba : b = a
  · subst hba
    simp [bufOf, freed]
  · simp [bufOf, freed, hba]

lemma owned_freed (h : Owned m.bufs.live m.bufOf) :
    Owned (m.freed a ha hb).bufs.live (m.freed a ha hb).bufOf := by
  rw [bufOf_freed]
  exact h.release (bufOf_of_live ha)

variable [DecidableEq K]

def removed (m : Messages K A B V) (a : A) (ha : m.lists.nodes.live a = true)
    (hb : m.bufs.live (m.lists.nodes.val a) = true) : Messages K A B V :=
  freed { m with lists := m.lists.deleted a } a ha hb

lemma Linked.removed (h : m.Linked q) (hk : q k = xs ++ a :: ys) :
    (m.removed a ha hb).Linked (Function.update q k (xs ++ ys)) := by
  obtain ⟨hring, hnodup, hdisjoint, hlive⟩ := h.holds.taken hk ha
  refine ⟨hring, hnodup, hdisjoint, hlive, ?_⟩
  exact owned_freed (m := { m with lists := m.lists.deleted a }) h.bufs

lemma Linked.removed_eq (h : m.Linked q) (hk : q k = xs ++ a :: ys)
    (ha : m.lists.nodes.live a = true) (hb : m.bufs.live (m.lists.nodes.val a) = true)
    {β : Type} (f : Messages K A B V → β) :
    (do let lists ← m.lists.listDel (.node a)
        let lists ← lists.kfree a
        let bufs ← m.bufs.kfree (m.lists.nodes.val a)
        return f ⟨lists, bufs⟩) = Except.ok (ε := Fault) (f (m.removed a ha hb)) := by
  obtain ⟨lists, hdel, hfree⟩ := bind_ok.mp (h.holds.taken_eq hk ha)
  apply bind_ok.mpr
  refine ⟨lists, hdel, ?_⟩
  apply bind_ok.mpr
  refine ⟨_, hfree, ?_⟩
  apply bind_ok.mpr
  exact ⟨_, Ledger.kfree_of_live hb, rfl⟩

end Remove

end Messages

end EmbeddedSystem.Kernel
