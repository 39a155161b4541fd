import EmbeddedSystem.SimpleBlock2.Queue
import EmbeddedSystem.SimpleBlock2.Tokens

namespace EmbeddedSystem.SimpleBlock2

open Foundations

variable {P : Type} [DecidableEq P] {s t : System P} {l : P × Move} {ls : List (P × Move)}
  {p q : P} {D : P} {ex : Bool} {e : ℤ}

def Positive (s : System P) (l : P × Move) : Prop :=
  Allowed s l ∧ ∀ all arg, l.2 = .produce all arg → 0 < arg.toInt

def Move.external : Move → Bool
  | .wait _ | .produce _ _ | .unknown | .signal => true
  | _ => false

def Quiescent (s : System P) : Prop := ∀ p m t, Step s (p, m) t → m.external = true

/-- The tokens that a call of `WQ_WAKE_UP` adds beyond the one for the waiter that it wakes. -/
def Move.excess : Move → ℤ
  | .produce false arg => arg.toInt - 1
  | _ => 0

def excess (ls : List (P × Move)) : ℤ := (ls.map fun l => l.2.excess).sum

section Quiescence

lemma quiescent_phase (h : Quiescent s) (p : P) :
    s.phase p = .idle ∨ ∃ ex, s.phase p = .asleep ex false := by
  have hstuck : ∀ {m : Move} {t : System P}, m.external = false → ¬ Step s (p, m) t := by
    intro m t hm hs
    rw [h p m t hs] at hm
    cases hm
  cases hp : s.phase p with
  | idle => exact Or.inl rfl
  | entering ex =>
    by_cases hd : 0 < s.myData.toInt
    · exact absurd (.enterTrue hp hd) (hstuck rfl)
    · exact absurd (.enterFalse hp hd) (hstuck rfl)
  | preparing ex => exact absurd (.prepare hp) (hstuck rfl)
  | testing ex signal woken =>
    by_cases hd : 0 < s.myData.toInt
    · exact absurd (.testTrue hp hd) (hstuck rfl)
    · cases signal with
      | true => exact absurd (.interrupted hp hd) (hstuck rfl)
      | false => exact absurd (.sleep hp hd) (hstuck rfl)
  | asleep ex woken =>
    cases woken with
    | true => exact absurd (.resume hp) (hstuck rfl)
    | false => exact Or.inr ⟨ex, rfl⟩
  | seen => exact absurd (.consume hp) (hstuck rfl)
  | updated all => exact absurd (.wakeUp hp) (hstuck rfl)
  | returning => exact absurd (.ret hp) (hstuck rfl)

lemma Quiescent.not_updated (h : Quiescent s) (p : P) (all : Bool) : s.phase p ≠ .updated all := by
  obtain hidle | ⟨ex, hasleep⟩ := quiescent_phase h p
  · simp [hidle]
  · simp [hasleep]

lemma quiescent_of_phase (h : ∀ p, s.phase p = .idle ∨ ∃ ex, s.phase p = .asleep ex false) :
    Quiescent s := by
  intro p m t hs
  have hp := h p
  cases hs with
  | wait | signal | produce | unknown => rfl
  | enterTrue hph | enterFalse hph | prepare hph | prepareSignal hph | testTrue hph
  | interrupted hph | sleep hph | resume hph | consume hph | wakeUp hph | ret hph =>
    rw [hph] at hp
    obtain hp | ⟨ex, hp⟩ := hp
    · cases hp
    · cases hp

end Quiescence

section Coverage

def Phase.active : Phase → Bool
  | .entering _ | .preparing _ | .testing _ _ _ | .asleep _ true | .seen | .updated false => true
  | _ => false

/-- `q` is active, and no wake-up goes to it before one goes to `D`. -/
def Helps (s : System P) (D q : P) : Prop :=
  (s.phase q).active = true ∧ ¬ Before s.myWq q D true

/-- All waiters are about to be woken, or there is a helper for each token, but for `e` of them. -/
def Covered (s : System P) (e : ℤ) (D : P) : Prop :=
  (∃ q, s.phase q = .updated true) ∨
    ∃ A : Finset P, (∀ q ∈ A, Helps s D q) ∧ s.myData.toInt ≤ A.card + e

omit [DecidableEq P] in
lemma Covered.of_nonpos (he : 0 ≤ e) (hd : s.myData.toInt ≤ 0) : Covered s e D :=
  Or.inr ⟨∅, by simp, by simpa using hd.trans he⟩

lemma Covered.set (h : Covered s e D) {myWq : List (P × Bool)} {ph : Phase}
    (hbefore : ∀ q, Before myWq q D true → Before s.myWq q D true)
    (hactive : (s.phase p).active = true → ph.active = true)
    (hp : s.phase p ≠ .updated true) :
    Covered ({ s with myWq := myWq }.set p ph) e D := by
  obtain ⟨q, hq⟩ | ⟨A, hA, hcard⟩ := h
  · exact Or.inl ⟨q, phase_set_of_phase hq hp⟩
  · refine Or.inr ⟨A, fun q hq => ⟨?_, fun hb => (hA q hq).2 (hbefore q hb)⟩, hcard⟩
    by_cases hqp : q = p
    · subst hqp
      rw [phase_set_self]
      exact hactive (hA q hq).1
    · rw [phase_set_of_ne _ _ hqp]
      exact (hA q hq).1

lemma Covered.consume (h : Covered s e D) (hp : s.phase p = .seen)
    (hd : ¬ s.myData.ssubOverflow 1) :
    Covered ({ s with myData := s.myData - 1 }.set p .returning) e D := by
  obtain ⟨q, hq⟩ | ⟨A, hA, hcard⟩ := h
  · exact Or.inl ⟨q, phase_set_of_phase hq (by simp [hp])⟩
  · refine Or.inr ⟨A.erase p, fun q hq => ?_, ?_⟩
    · obtain ⟨hqp, hq⟩ := Finset.mem_erase.mp hq
      refine ⟨?_, (hA q hq).2⟩
      rw [phase_set_of_ne _ _ hqp]
      exact (hA q hq).1
    · have hsub := BitVec.toInt_sub_of_not_ssubOverflow hd
      have hone : (1 : BitVec 64).toInt = 1 := by decide
      have herase := Finset.pred_card_le_card_erase (s := A) (a := p)
      change (s.myData - 1).toInt ≤ _
      omega

lemma Covered.produce (h : Covered s e D) (hs : Registered s) (hp : s.phase p = .idle)
    {all : Bool} {arg : BitVec 64} (hd : ¬ s.myData.saddOverflow arg) :
    Covered ({ s with myData := s.myData + arg }.set p (.updated all))
      (e + (Move.produce all arg).excess) D := by
  have hadd := BitVec.toInt_add_of_not_saddOverflow hd
  cases all with
  | true => exact Or.inl ⟨p, phase_set_self _ p _⟩
  | false =>
    obtain ⟨q, hq⟩ | ⟨A, hA, hcard⟩ := h
    · exact Or.inl ⟨q, phase_set_of_phase hq (by simp [hp])⟩
    · have hpA : p ∉ A := by
        intro hmem
        have hactive := (hA p hmem).1
        rw [hp] at hactive
        cases hactive
      refine Or.inr ⟨insert p A, fun q hq => ?_, ?_⟩
      · by_cases hqp : q = p
        · subst hqp
          refine ⟨by rw [phase_set_self]; rfl, fun hb => ?_⟩
          have hkind := hs.kind q true hb.mem
          rw [hp] at hkind
          cases hkind
        · have hqA := (Finset.mem_insert.mp hq).resolve_left hqp
          refine ⟨?_, (hA q hqA).2⟩
          rw [phase_set_of_ne _ _ hqp]
          exact (hA q hqA).1
      · change (s.myData + arg).toInt ≤ ((insert p A).card : ℤ) + (e + (arg.toInt - 1))
        rw [Finset.card_insert_of_notMem hpA]
        push_cast
        omega

lemma active_wakeUp (ph : Phase) (h : ph.active = true) : ph.wakeUp.active = true := by
  cases ph with
  | asleep ex woken => rfl
  | testing => rfl
  | _ => exact h

lemma active_of_dozes {ph : Phase} (h : ph.dozes = true) : ph.wakeUp.active = true := by
  cases ph with
  | asleep ex woken => rfl
  | testing => rfl
  | _ => cases h

lemma Covered.wakeUp (h : Covered s e D) (hs : Registered s) {all : Bool}
    (hp : s.phase p = .updated all) (hD : s.phase D = .asleep true false)
    (hasleep : D ∉ s.woken all) : Covered ((s.wakeUp all).set p .returning) e D := by
  have hdozing : (s.phase D).dozing = some true := by rw [hD]; rfl
  obtain hwoken | ⟨-, rfl, a, ha, hbefore⟩ := hs.dozing_woken hdozing all
  · exact absurd hwoken hasleep
  have hdozes : (s.phase a).dozes = true := woken_dozes ha
  have hap : a ≠ p := by
    rintro rfl
    rw [hp] at hdozes
    cases hdozes
  obtain ⟨q, hq⟩ | ⟨A, hA, hcard⟩ := h
  · have hkept : (s.wakeUp false).phase q = .updated true := by
      rw [phase_wakeUp_of_eq (by rw [hq]; rfl), hq]
    have hone : (s.wakeUp false).phase p = .updated false := by
      rw [phase_wakeUp_of_eq (by rw [hp]; rfl), hp]
    exact Or.inl ⟨q, phase_set_of_phase hkept (by simp [hone])⟩
  · have haA : a ∉ A := fun hmem => (hA a hmem).2 hbefore
    refine Or.inr ⟨insert a (A.erase p), fun q hq => ?_, ?_⟩
    · obtain rfl | hq := Finset.mem_insert.mp hq
      · refine ⟨?_, fun hb => (mem_wakeUp.mp hb.mem).2 ha⟩
        rw [phase_set_of_ne _ _ hap, phase_wakeUp_of_mem ha]
        exact active_of_dozes hdozes
      · obtain ⟨hqp, hq⟩ := Finset.mem_erase.mp hq
        refine ⟨?_, fun hb => (hA q hq).2 (hb.mono (wakeUp_sublist s false))⟩
        rw [phase_set_of_ne _ _ hqp]
        by_cases hwoken : q ∈ s.woken false
        · rw [phase_wakeUp_of_mem hwoken]
          exact active_wakeUp _ (hA q hq).1
        · rw [phase_wakeUp_of_notMem hwoken]
          exact (hA q hq).1
    · have haerase : a ∉ A.erase p := fun hmem => haA (Finset.mem_of_mem_erase hmem)
      have herase := Finset.pred_card_le_card_erase (s := A) (a := p)
      change s.myData.toInt ≤ _
      rw [Finset.card_insert_of_notMem haerase]
      push_cast
      omega

def Settled (s : System P) : Prop := s.myData.toInt ≤ 0 ∨ ∃ q all, s.phase q = .updated all

structure Accounted (e : ℤ) (s : System P) : Prop where
  registered : Registered s
  excess : 0 ≤ e
  exclusive : ∀ D, s.phase D = .asleep true false → Covered s e D
  shared : ∀ D, s.phase D = .asleep false false → Settled s

lemma Settled.set (h : Settled s) {myWq : List (P × Bool)} {ph : Phase}
    (hp : ∀ all, s.phase p ≠ .updated all) : Settled ({ s with myWq := myWq }.set p ph) := by
  refine h.imp_right ?_
  rintro ⟨q, all, hq⟩
  exact ⟨q, all, phase_set_of_phase hq (hp all)⟩

lemma Accounted.set (h : Accounted e s) {myWq : List (P × Bool)} {ph : Phase}
    (hreg : Registered ({ s with myWq := myWq }.set p ph))
    (hbefore : ∀ q D, D ≠ p → Before myWq q D true → Before s.myWq q D true)
    (hactive : (s.phase p).active = true → ph.active = true)
    (hp : ∀ all, s.phase p ≠ .updated all) (hph : ∀ ex, ph ≠ .asleep ex false) :
    Accounted (e + 0) ({ s with myWq := myWq }.set p ph) := by
  rw [add_zero]
  refine ⟨hreg, h.excess, fun D hD => ?_, fun D hD => ?_⟩
  · obtain ⟨hDp, hD⟩ := asleep_of_set hD (hph true)
    exact (h.exclusive D hD).set (fun q => hbefore q D hDp) hactive (hp true)
  · exact (h.shared D (asleep_of_set hD (hph false)).2).set hp

lemma Accounted.consume (h : Accounted e s) (hp : s.phase p = .seen)
    (hd : ¬ s.myData.ssubOverflow 1)
    (hreg : Registered ({ s with myData := s.myData - 1 }.set p .returning)) :
    Accounted (e + 0) ({ s with myData := s.myData - 1 }.set p .returning) := by
  rw [add_zero]
  refine ⟨hreg, h.excess, fun D hD => ?_, fun D hD => ?_⟩
  · exact (h.exclusive D (asleep_of_set hD (by simp)).2).consume hp hd
  · obtain hsettled | ⟨q, all, hq⟩ := h.shared D (asleep_of_set hD (by simp)).2
    · left
      have hsub := BitVec.toInt_sub_of_not_ssubOverflow hd
      have hone : (1 : BitVec 64).toInt = 1 := by decide
      change (s.myData - 1).toInt ≤ 0
      omega
    · exact Or.inr ⟨q, all, phase_set_of_phase hq (by simp [hp])⟩

lemma Accounted.produce (h : Accounted e s) (hp : s.phase p = .idle) {all : Bool}
    {arg : BitVec 64} (hpos : 0 < arg.toInt) (hd : ¬ s.myData.saddOverflow arg)
    (hreg : Registered ({ s with myData := s.myData + arg }.set p (.updated all))) :
    Accounted (e + (Move.produce all arg).excess)
      ({ s with myData := s.myData + arg }.set p (.updated all)) := by
  refine ⟨hreg, ?_, fun D hD => ?_, fun D hD => ?_⟩
  · have hexcess : 0 ≤ (Move.produce all arg).excess := by
      cases all with
      | true => exact le_rfl
      | false => exact Int.sub_nonneg_of_le hpos
    have he := h.excess
    omega
  · exact (h.exclusive D (asleep_of_set hD (by simp)).2).produce h.registered hp hd
  · exact Or.inr ⟨p, all, phase_set_self _ p _⟩

lemma Accounted.wakeUp (h : Accounted e s) {all : Bool} (hp : s.phase p = .updated all)
    (hreg : Registered ((s.wakeUp all).set p .returning)) :
    Accounted (e + 0) ((s.wakeUp all).set p .returning) := by
  rw [add_zero]
  refine ⟨hreg, h.excess, fun D hD => ?_, fun D hD => ?_⟩
  · obtain ⟨hasleep, hD⟩ := asleep_of_wakeUp (asleep_of_set hD (by simp)).2
    exact (h.exclusive D hD).wakeUp h.registered hp hD hasleep
  · obtain ⟨hasleep, hD⟩ := asleep_of_wakeUp (asleep_of_set hD (by simp)).2
    have hdozing : (s.phase D).dozing = some false := by rw [hD]; rfl
    obtain hwoken | ⟨hex, -⟩ := h.registered.dozing_woken hdozing all
    · exact absurd hwoken hasleep
    · cases hex

end Coverage

section Runs

omit [DecidableEq P] in
lemma Accounted.of_nonpos (hreg : Registered s) (he : 0 ≤ e) (hd : s.myData.toInt ≤ 0) :
    Accounted e s :=
  ⟨hreg, he, fun _ _ => .of_nonpos he hd, fun _ _ => Or.inl hd⟩

lemma accounted_step (h : Accounted e s) (hs : Guarded Step Positive s l t) :
    Accounted (e + l.2.excess) t := by
  obtain ⟨hs, hallowed, hpositive⟩ := hs
  have hreg := registered_step h.registered hs
  cases hs with
  | wait hp | enterTrue hp | enterFalse hp =>
    exact h.set hreg (fun _ _ _ hb => hb) (by rw [hp]; simp [Phase.active]) (by simp [hp]) (by simp)
  | prepare hp =>
    exact h.set hreg (fun q D hD hb => hb.of_enter (by simp [hD])) (by simp [Phase.active])
      (by simp [hp]) (by simp)
  | prepareSignal hp | testTrue hp =>
    exact h.set hreg (fun q D _ hb => hb.mono (leave_sublist _ _)) (by simp [Phase.active])
      (by simp [hp]) (by simp)
  | signal hp | resume hp =>
    exact h.set hreg (fun _ _ _ hb => hb) (by simp [Phase.active]) (by simp [hp]) (by simp)
  | ret hp =>
    exact h.set hreg (fun _ _ _ hb => hb) (by rw [hp]; simp [Phase.active]) (by simp [hp]) (by simp)
  | interrupted _ hd | sleep _ hd =>
    exact .of_nonpos hreg (by simpa [Move.excess] using h.excess) (not_lt.mp hd)
  | consume hp => exact h.consume hp hallowed hreg
  | @produce p all arg hp => exact h.produce hp (hpositive all arg rfl) hallowed.2 hreg
  | wakeUp hp => exact h.wakeUp hp hreg
  | unknown => exact absurd hallowed id

omit [DecidableEq P] in
lemma excess_snoc (ls : List (P × Move)) (l : P × Move) :
    excess (ls ++ [l]) = excess ls + l.2.excess := by
  simp [excess]

lemma accounted_run (h : Run (Guarded Step Positive) (.init : System P) ls s) :
    Accounted (excess ls) s := by
  apply h.induct_right (M := fun ls s => Accounted (excess ls) s)
  · exact .of_nonpos registered_init le_rfl le_rfl
  · intro ls s l t _ ih hs
    rw [excess_snoc]
    exact accounted_step ih hs

omit [DecidableEq P] in
lemma excess_eq_zero (h : ∀ p arg, (p, .produce false arg) ∈ ls → arg = 1) : excess ls = 0 := by
  apply List.sum_eq_zero
  intro n hn
  obtain ⟨⟨p, m⟩, hm, rfl⟩ := List.mem_map.mp hn
  cases m with
  | produce all arg =>
    cases all with
    | true => rfl
    | false =>
      rw [h p arg hm]
      rfl
  | _ => rfl

theorem quiescent_asleep (h : Run (Guarded Step Positive) (.init : System P) ls s)
    (hq : Quiescent s) :
    (s.myData.toInt ≤ 0 ∨ ∀ p ex woken, s.phase p = .asleep ex woken →
      ex = true ∧ s.myData.toInt ≤ excess ls) ∧
    ((∀ p arg, (p, .produce false arg) ∈ ls → arg = 1) →
      s.myData.toInt ≤ 0 ∨ ∀ p ex woken, s.phase p ≠ .asleep ex woken) := by
  have haccounted := accounted_run h
  have hbound : s.myData.toInt ≤ 0 ∨ ∀ p ex woken, s.phase p = .asleep ex woken →
      ex = true ∧ s.myData.toInt ≤ excess ls := by
    by_cases hd : s.myData.toInt ≤ 0
    · exact Or.inl hd
    · right
      intro p ex woken hp
      have hwoken : woken = false := by
        obtain hidle | ⟨ex', hasleep⟩ := quiescent_phase hq p
        · rw [hp] at hidle
          cases hidle
        · rw [hp] at hasleep
          cases hasleep
          rfl
      subst hwoken
      cases ex with
      | false =>
        obtain hsettled | ⟨q, all, hupdated⟩ := haccounted.shared p hp
        · exact absurd hsettled hd
        · exact absurd hupdated (hq.not_updated q all)
      | true =>
        obtain ⟨q, hupdated⟩ | ⟨A, hA, hcard⟩ := haccounted.exclusive p hp
        · exact absurd hupdated (hq.not_updated q true)
        · have hempty : A = ∅ := by
            apply Finset.eq_empty_of_forall_notMem
            intro q hmem
            have hactive := (hA q hmem).1
            obtain hidle | ⟨ex', hasleep⟩ := quiescent_phase hq q
            · rw [hidle] at hactive
              cases hactive
            · rw [hasleep] at hactive
              cases hactive
          rw [hempty] at hcard
          exact ⟨rfl, by simpa using hcard⟩
  refine ⟨hbound, fun hone => ?_⟩
  obtain hd | hall := hbound
  · exact Or.inl hd
  · rw [excess_eq_zero hone] at hall
    by_cases hd : s.myData.toInt ≤ 0
    · exact Or.inl hd
    · exact Or.inr fun p ex woken hp => hd (hall p ex woken hp).2

theorem quiescent_asleep_all : ∃ (ls : List (Fin 2 × Move)) (s : System (Fin 2)),
    Run (Guarded Step Positive) .init ls s ∧
      (s.myData.toInt ≤ 0 ∨ ∀ p ex woken, s.phase p ≠ .asleep ex woken) := by
  obtain ⟨s, hrun, hphase⟩ : ∃ s : System (Fin 2), Run (Guarded Step Positive) .init
      [(0, .wait true), (0, .test false), (0, .prepare false), (0, .sleep),
        (1, .produce true 2), (1, .wakeUp), (1, .ret 2), (0, .resume), (0, .prepare false),
        (0, .test true), (0, .consume), (0, .ret 1)] s ∧
      ∀ p, s.phase p = .idle ∨ ∃ ex, s.phase p = .asleep ex false :=
    ⟨_, .cons ⟨.wait rfl, trivial, nofun⟩ (.cons ⟨.enterFalse rfl (by decide), trivial, nofun⟩
      (.cons ⟨.prepare rfl, trivial, nofun⟩ (.cons ⟨.sleep rfl (by decide), trivial, nofun⟩
      (.cons ⟨.produce rfl, ⟨by decide, by decide⟩, fun _ _ he => by cases he; decide⟩
      (.cons ⟨.wakeUp rfl, trivial, nofun⟩ (.cons ⟨.ret rfl, trivial, nofun⟩
      (.cons ⟨.resume rfl, trivial, nofun⟩ (.cons ⟨.prepare rfl, trivial, nofun⟩
      (.cons ⟨.testTrue rfl (by decide), trivial, nofun⟩
      (.cons ⟨.consume rfl, Bool.false_ne_true, nofun⟩ (.cons ⟨.ret rfl, trivial, nofun⟩
      .nil))))))))))), by decide⟩
  exact ⟨_, s, hrun, (quiescent_asleep hrun (quiescent_of_phase hphase)).2 (by simp)⟩

theorem exclusive_left_asleep : ¬ ∀ (ls : List (Fin 3 × Move)) (s : System (Fin 3)),
    Run (Guarded Step Positive) .init ls s → Quiescent s →
      s.myData.toInt ≤ 0 ∨ ∀ p ex woken, s.phase p ≠ .asleep ex woken := by
  intro h
  obtain ⟨s, hrun, hphase, hdata, hasleep⟩ : ∃ s : System (Fin 3),
      Run (Guarded Step Positive) .init
        [(0, .wait true), (0, .test false), (0, .prepare false), (0, .sleep),
          (1, .wait true), (1, .test false), (1, .prepare false), (1, .sleep),
          (2, .produce false 2), (2, .wakeUp), (2, .ret 2), (0, .resume), (0, .prepare false),
          (0, .test true), (0, .consume), (0, .ret 1)] s ∧
      (∀ p, s.phase p = .idle ∨ ∃ ex, s.phase p = .asleep ex false) ∧ 0 < s.myData.toInt ∧
        s.phase 1 = .asleep true false :=
    ⟨_, .cons ⟨.wait rfl, trivial, nofun⟩ (.cons ⟨.enterFalse rfl (by decide), trivial, nofun⟩
      (.cons ⟨.prepare rfl, trivial, nofun⟩ (.cons ⟨.sleep rfl (by decide), trivial, nofun⟩
      (.cons ⟨.wait rfl, trivial, nofun⟩ (.cons ⟨.enterFalse rfl (by decide), trivial, nofun⟩
      (.cons ⟨.prepare rfl, trivial, nofun⟩ (.cons ⟨.sleep rfl (by decide), trivial, nofun⟩
      (.cons ⟨.produce rfl, ⟨by decide, by decide⟩, fun _ _ he => by cases he; decide⟩
      (.cons ⟨.wakeUp rfl, trivial, nofun⟩ (.cons ⟨.ret rfl, trivial, nofun⟩
      (.cons ⟨.resume rfl, trivial, nofun⟩ (.cons ⟨.prepare rfl, trivial, nofun⟩
      (.cons ⟨.testTrue rfl (by decide), trivial, nofun⟩
      (.cons ⟨.consume rfl, Bool.false_ne_true, nofun⟩ (.cons ⟨.ret rfl, trivial, nofun⟩
      .nil))))))))))))))), by decide, by decide, by decide⟩
  obtain hd | hnone := h _ s hrun (quiescent_of_phase hphase)
  · exact absurd hdata (not_lt.mpr hd)
  · exact hnone 1 true false hasleep

end Runs

end EmbeddedSystem.SimpleBlock2
