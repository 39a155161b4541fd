import EmbeddedSystem.SimpleBlock2.Driver

/-! The wait queue of `simple_block_2.c`: a waiter that sleeps is in it until it is woken, and the
exclusive waiters stand behind the other ones in the order in which they came. -/

namespace EmbeddedSystem.SimpleBlock2

variable {P : Type} [DecidableEq P] {s t : System P} {p q a b : P} {ex ex' : Bool}
  {myWq : List (P × Bool)}

@[simp] lemma phase_set_self (s : System P) (p : P) (ph : Phase) : (s.set p ph).phase p = ph := by
  simp [System.set]

lemma phase_set_of_ne (s : System P) (ph : Phase) (h : q ≠ p) :
    (s.set p ph).phase q = s.phase q := by
  simp [System.set, h]

lemma phase_set_of_phase {ph ph' : Phase} (hq : s.phase q = ph') (hp : s.phase p ≠ ph') :
    (s.set p ph).phase q = ph' := by
  have hqp : q ≠ p := by
    rintro rfl
    exact hp hq
  rw [phase_set_of_ne _ _ hqp, hq]

lemma asleep_of_set {ph : Phase} (h : (s.set p ph).phase q = .asleep ex false)
    (hph : ph ≠ .asleep ex false) : q ≠ p ∧ s.phase q = .asleep ex false := by
  by_cases hqp : q = p
  · subst hqp
    rw [phase_set_self] at h
    exact absurd h hph
  · rw [phase_set_of_ne _ _ hqp] at h
    exact ⟨hqp, h⟩

section Lists

def Before (myWq : List (P × Bool)) (a b : P) (ex : Bool) : Prop :=
  List.Sublist [(a, true), (b, ex)] myWq

omit [DecidableEq P] in
lemma Before.mono {myWq' : List (P × Bool)} (h : Before myWq' a b ex)
    (hsub : myWq'.Sublist myWq) : Before myWq a b ex := h.trans hsub

omit [DecidableEq P] in
lemma Before.mem (h : Before myWq a b ex) : (a, true) ∈ myWq := List.Sublist.mem (by simp) h

omit [DecidableEq P] in
lemma Before.head (h : (b, ex) ∈ myWq) : Before ((a, true) :: myWq) a b ex :=
  (List.singleton_sublist.mpr h).cons_cons (a, true)

lemma mem_leave {x : P × Bool} : x ∈ leave p myWq ↔ x ∈ myWq ∧ x.1 ≠ p := by
  simp [leave]

lemma leave_sublist (p : P) (myWq : List (P × Bool)) : (leave p myWq).Sublist myWq :=
  List.filter_sublist

lemma mem_enter_of_ne {x : P × Bool} (h : x.1 ≠ p) : x ∈ enter p ex myWq ↔ x ∈ myWq := by
  unfold enter
  split_ifs with hp hex
  · rfl
  · have hx : x ≠ (p, true) := fun he => h (by rw [he])
    simp [hx]
  · have hx : x ≠ (p, false) := fun he => h (by rw [he])
    simp [hx]

lemma kind_of_enter (h : (p, ex') ∈ enter p ex myWq) : (p, ex') ∈ myWq ∨ ex' = ex := by
  unfold enter at h
  split_ifs at h with hp hex
  · exact Or.inl h
  · obtain h | h := List.mem_append.mp h
    · exact Or.inl h
    · exact Or.inr ((Prod.mk.inj (List.mem_singleton.mp h)).2.trans hex.symm)
  · obtain h | h := List.mem_cons.mp h
    · exact Or.inr ((Prod.mk.inj h).2.trans (Bool.not_eq_true _ ▸ hex).symm)
    · exact Or.inl h

lemma mem_enter_self (h : ∀ ex', (p, ex') ∈ myWq → ex' = ex) : (p, ex) ∈ enter p ex myWq := by
  unfold enter
  split_ifs with hp hex
  · obtain ⟨⟨q, ex'⟩, hmem, rfl⟩ := List.mem_map.mp hp
    rw [← h ex' hmem]
    exact hmem
  · simp [hex]
  · simp [hex]

lemma Before.of_enter (h : Before (enter p ex myWq) a b ex') (hb : (b, ex') ≠ (p, true)) :
    Before myWq a b ex' := by
  unfold enter at h
  split_ifs at h with hp hex
  · exact h
  · obtain ⟨l₁, l₂, hsplit, h₁, h₂⟩ := List.sublist_append_iff.mp h
    obtain rfl | rfl := List.sublist_singleton.mp h₂
    · rw [List.append_nil] at hsplit
      rw [← hsplit] at h₁
      exact h₁
    · have hlast := congrArg List.getLast? hsplit
      simp at hlast
      exact absurd (Prod.ext hlast.1 hlast.2) hb
  · obtain h | ⟨l, hl, -⟩ := List.sublist_cons_iff.mp h
    · exact h
    · cases hl

section Woken

variable {dozes : P → Bool} {all : Bool}

omit [DecidableEq P] in
lemma dozes_of_woken (h : p ∈ woken dozes all myWq) : dozes p = true := by
  induction myWq with
  | nil => cases h
  | cons x myWq ih =>
    rw [woken] at h
    split_ifs at h with hx hex
    · rw [List.mem_singleton.mp h]
      exact hx
    · obtain rfl | h := List.mem_cons.mp h
      · exact hx
      · exact ih h
    · exact ih h

omit [DecidableEq P] in
lemma woken_all (hp : (p, ex) ∈ myWq) (hdozes : dozes p = true) : p ∈ woken dozes true myWq := by
  induction myWq with
  | nil => cases hp
  | cons x myWq ih =>
    rw [woken]
    obtain rfl | hp := List.mem_cons.mp hp
    · simp [hdozes]
    · split_ifs with hx hex
      · simp at hex
      · exact List.mem_cons_of_mem _ (ih hp)
      · exact ih hp

omit [DecidableEq P] in
lemma woken_shared (hp : (p, false) ∈ myWq) (hdozes : dozes p = true)
    (hfront : ∀ a, ¬ Before myWq a p false) : p ∈ woken dozes all myWq := by
  induction myWq with
  | nil => cases hp
  | cons x myWq ih =>
    obtain rfl | htail := List.mem_cons.mp hp
    · simp [woken, hdozes]
    · have hrest : p ∈ woken dozes all myWq :=
        ih htail fun a ha => hfront a (ha.mono (List.sublist_cons_self _ _))
      rw [woken]
      split_ifs with hx hex
      · obtain ⟨hex, -⟩ : x.2 = true ∧ all = false := by simpa using hex
        have hx' : x = (x.1, true) := Prod.ext rfl hex
        have hbefore : Before ((x.1, true) :: myWq) x.1 p false := .head htail
        rw [← hx'] at hbefore
        exact absurd hbefore (hfront x.1)
      · exact List.mem_cons_of_mem _ hrest
      · exact hrest

omit [DecidableEq P] in
lemma woken_exclusive (hp : (p, true) ∈ myWq) (hdozes : dozes p = true) :
    ∃ a ∈ woken dozes false myWq, a = p ∨ Before myWq a p true := by
  induction myWq with
  | nil => cases hp
  | cons x myWq ih =>
    obtain rfl | htail := List.mem_cons.mp hp
    · exact ⟨p, by simp [woken, hdozes], Or.inl rfl⟩
    · obtain ⟨a, ha, hap⟩ := ih htail
      have hap' : a = p ∨ Before (x :: myWq) a p true :=
        hap.imp_right fun hb => hb.mono (List.sublist_cons_self _ _)
      rw [woken]
      split_ifs with hx hex
      · have hex : x.2 = true := by simpa using hex
        have hx' : x = (x.1, true) := Prod.ext rfl hex
        have hbefore : Before ((x.1, true) :: myWq) x.1 p true := .head htail
        rw [← hx'] at hbefore
        exact ⟨x.1, by simp, Or.inr hbefore⟩
      · exact ⟨a, List.mem_cons_of_mem _ ha, hap'⟩
      · exact ⟨a, ha, hap'⟩

end Woken

end Lists

section Registration

def Phase.queued : Phase → Option Bool
  | .preparing ex => some ex
  | .testing ex false _ => some ex
  | .asleep ex _ => some ex
  | _ => none

def Phase.dozing (ph : Phase) : Option Bool := if ph.dozes then ph.queued else none

structure Registered (s : System P) : Prop where
  mem : ∀ p ex, (s.phase p).dozing = some ex → (p, ex) ∈ s.myWq
  kind : ∀ p ex, (p, ex) ∈ s.myWq → (s.phase p).queued = some ex
  front : ∀ a b, ¬ Before s.myWq a b false

omit [DecidableEq P] in
lemma registered_init : Registered (.init : System P) :=
  ⟨nofun, nofun, fun _ _ h => nomatch h⟩

lemma Registered.set (h : Registered s) {myWq : List (P × Bool)} {ph : Phase} {d : BitVec 64}
    (hothers : ∀ q ex, q ≠ p → ((q, ex) ∈ myWq ↔ (q, ex) ∈ s.myWq))
    (hkind : ∀ ex, (p, ex) ∈ myWq → ph.queued = some ex)
    (hmem : ∀ ex, ph.dozing = some ex → (p, ex) ∈ myWq)
    (hfront : ∀ a b, ¬ Before myWq a b false) :
    Registered ({ s with myData := d, myWq := myWq }.set p ph) := by
  constructor
  · intro q ex hq
    by_cases hqp : q = p
    · subst hqp
      rw [phase_set_self] at hq
      exact hmem ex hq
    · rw [phase_set_of_ne _ _ hqp] at hq
      exact (hothers q ex hqp).mpr (h.mem q ex hq)
  · intro q ex hq
    by_cases hqp : q = p
    · subst hqp
      rw [phase_set_self]
      exact hkind ex hq
    · rw [phase_set_of_ne _ _ hqp]
      exact h.kind q ex ((hothers q ex hqp).mp hq)
  · exact hfront

lemma Registered.stay (h : Registered s) {ph : Phase} {d : BitVec 64}
    (hkind : ∀ ex, (s.phase p).queued = some ex → ph.queued = some ex)
    (hmem : ∀ ex, ph.dozing = some ex → (s.phase p).dozing = some ex) :
    Registered ({ s with myData := d }.set p ph) := by
  apply h.set (fun _ _ _ => Iff.rfl) _ _ h.front
  · exact fun ex hp => hkind ex (h.kind p ex hp)
  · exact fun ex hph => h.mem p ex (hmem ex hph)

lemma Registered.leave (h : Registered s) {ph : Phase} (hph : ph.dozing = none) :
    Registered ({ s with myWq := leave p s.myWq }.set p ph) := by
  apply h.set
  · intro q ex hq
    rw [mem_leave, and_iff_left hq]
  · exact fun ex hp => absurd rfl (mem_leave.mp hp).2
  · intro ex hex
    rw [hph] at hex
    cases hex
  · exact fun a b hb => h.front a b (hb.mono (leave_sublist p s.myWq))

lemma Registered.enter (h : Registered s) (hp : s.phase p = .preparing ex) :
    Registered ({ s with myWq := enter p ex s.myWq }.set p (.testing ex false false)) := by
  have hkind : ∀ ex', (p, ex') ∈ s.myWq → ex' = ex := by
    intro ex' hmem
    have hq := h.kind p ex' hmem
    rw [hp] at hq
    exact (Option.some.inj hq).symm
  apply h.set
  · exact fun q ex' hq => mem_enter_of_ne hq
  · intro ex' hmem
    obtain hmem | rfl := kind_of_enter hmem
    · rw [hkind ex' hmem]
      rfl
    · rfl
  · intro ex' hex'
    cases hex'
    exact mem_enter_self hkind
  · intro a b hb
    exact h.front a b (hb.of_enter (by simp))

lemma dozing_wakeUp (ph : Phase) : ph.wakeUp.dozing = none := by
  cases ph with
  | testing ex signal woken => cases signal <;> rfl
  | _ => rfl

omit [DecidableEq P] in
lemma woken_dozes {all : Bool} (h : q ∈ s.woken all) : (s.phase q).dozes = true := by
  have hdozes := dozes_of_woken h
  exact hdozes

lemma phase_wakeUp_of_mem {all : Bool} (h : q ∈ s.woken all) :
    (s.wakeUp all).phase q = (s.phase q).wakeUp := if_pos h

lemma phase_wakeUp_of_notMem {all : Bool} (h : q ∉ s.woken all) :
    (s.wakeUp all).phase q = s.phase q := if_neg h

lemma phase_wakeUp_of_eq {all : Bool} (h : (s.phase q).wakeUp = s.phase q) :
    (s.wakeUp all).phase q = s.phase q := by
  by_cases hwoken : q ∈ s.woken all
  · rw [phase_wakeUp_of_mem hwoken, h]
  · exact phase_wakeUp_of_notMem hwoken

lemma asleep_of_wakeUp {all : Bool} (h : (s.wakeUp all).phase q = .asleep ex false) :
    q ∉ s.woken all ∧ s.phase q = .asleep ex false := by
  by_cases hwoken : q ∈ s.woken all
  · have hdozing := dozing_wakeUp (s.phase q)
    rw [← phase_wakeUp_of_mem hwoken, h] at hdozing
    cases hdozing
  · rw [phase_wakeUp_of_notMem hwoken] at h
    exact ⟨hwoken, h⟩

lemma wakeUp_sublist (s : System P) (all : Bool) : (s.wakeUp all).myWq.Sublist s.myWq :=
  List.filter_sublist

lemma mem_wakeUp {x : P × Bool} {all : Bool} :
    x ∈ (s.wakeUp all).myWq ↔ x ∈ s.myWq ∧ x.1 ∉ s.woken all := by
  simp [System.wakeUp]

lemma Registered.wakeUp (h : Registered s) (all : Bool) : Registered (s.wakeUp all) := by
  constructor
  · intro q ex hq
    by_cases hwoken : q ∈ s.woken all
    · rw [phase_wakeUp_of_mem hwoken, dozing_wakeUp] at hq
      cases hq
    · rw [phase_wakeUp_of_notMem hwoken] at hq
      exact mem_wakeUp.mpr ⟨h.mem q ex hq, hwoken⟩
  · intro q ex hq
    obtain ⟨hmem, hwoken⟩ := mem_wakeUp.mp hq
    rw [phase_wakeUp_of_notMem hwoken]
    exact h.kind q ex hmem
  · exact fun a b hb => h.front a b (hb.mono (wakeUp_sublist s all))

omit [DecidableEq P] in
lemma Registered.dozing_woken (h : Registered s) (hp : (s.phase p).dozing = some ex) (all : Bool) :
    p ∈ s.woken all ∨
      ex = true ∧ all = false ∧ ∃ a ∈ s.woken all, Before s.myWq a p true := by
  have hmem := h.mem p ex hp
  have hdozes : (s.phase p).dozes = true := by
    unfold Phase.dozing at hp
    split_ifs at hp with hd
    exact hd
  cases all with
  | true => exact Or.inl (woken_all hmem hdozes)
  | false =>
    cases ex with
    | false => exact Or.inl (woken_shared hmem hdozes fun a => h.front a p)
    | true =>
      obtain ⟨a, ha, rfl | hbefore⟩ : ∃ a ∈ s.woken false, a = p ∨ Before s.myWq a p true :=
        woken_exclusive hmem hdozes
      · exact Or.inl ha
      · exact Or.inr ⟨rfl, rfl, a, ha, hbefore⟩

lemma registered_step {l : P × Move} (h : Registered s) (hs : Step s l t) : Registered t := by
  cases hs with
  | wait hp | enterTrue hp | enterFalse hp | interrupted hp | consume hp | produce hp | ret hp
  | unknown hp => exact h.stay (by rw [hp]; nofun) nofun
  | signal hp | resume hp => exact h.stay (by rw [hp]; exact fun _ he => he) nofun
  | @sleep p ex woken hp =>
    refine h.stay (by rw [hp]; exact fun _ he => he) fun ex' hex => ?_
    rw [hp]
    cases woken with
    | true => cases hex
    | false => exact hex
  | prepare hp => exact h.enter hp
  | prepareSignal | testTrue => exact h.leave rfl
  | @wakeUp p all hp =>
    have hphase : (s.wakeUp all).phase p = s.phase p := phase_wakeUp_of_eq (by rw [hp]; rfl)
    exact (h.wakeUp all).stay (by rw [hphase, hp]; nofun) nofun

end Registration

end EmbeddedSystem.SimpleBlock2
