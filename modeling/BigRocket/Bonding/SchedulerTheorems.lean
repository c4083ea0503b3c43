/-
One cycle of `swrrPick` keeps the weights exactly: after `n` calls the current
value of a path is `n` times its weight, less the whole weight for each time
that it was chosen.
-/
import BigRocket.Bonding.Lifecycle

namespace BigRocket.Bonding

open List

namespace AdaptiveScheduler

def swrrPicks (s : AdaptiveScheduler) (first : PathRuntime) (rest : List PathRuntime) :
    Nat → AdaptiveScheduler × List PathRuntime
  | 0 => (s, [])
  | n + 1 =>
    let (s', picks) := s.swrrPicks first rest n
    let (chosen, s'') := s'.swrrPick first rest
    (s'', picks ++ [chosen])

def currentOf (s : AdaptiveScheduler) (p : PathRuntime) : Int := (s.swrrCurrent p.id).getD 0

def DistinctIds (paths : List PathRuntime) : Prop := (paths.map PathRuntime.id).Nodup

variable {s s' : AdaptiveScheduler} {first p q : PathRuntime} {rest paths picks : List PathRuntime}

theorem DistinctIds.id_eq_iff (h : DistinctIds paths) (hp : p ∈ paths) (hq : q ∈ paths) :
    p.id = q.id ↔ p = q :=
  ⟨inj_on_of_nodup_map h hp hq, congrArg PathRuntime.id⟩

theorem DistinctIds.cons (h : DistinctIds (p :: paths)) :
    (∀ q ∈ paths, q.id ≠ p.id) ∧ DistinctIds paths := by
  obtain ⟨hnot, hrest⟩ := nodup_cons.mp h
  refine ⟨fun q hq heq => hnot ?_, hrest⟩
  rw [← heq]
  exact mem_map_of_mem hq

def putCurrent (s : AdaptiveScheduler) (p : PathRuntime) (value : Int) : AdaptiveScheduler :=
  { s with swrrCurrent := Function.update s.swrrCurrent p.id (some value) }

variable (value : Int) (best : Option (PathRuntime × Int)) {n : Nat}

@[simp] theorem weight_putCurrent : (s.putCurrent p value).weight = s.weight := rfl

@[simp] theorem currentOf_putCurrent :
    (s.putCurrent p value).currentOf q = if q.id = p.id then value else s.currentOf q := by
  simp only [currentOf, putCurrent, Function.update_apply]
  split <;> rfl

theorem weight_pos (p : PathRuntime) : 1 ≤ s.weight p := le_max_left _ _

/-! ## One call -/

def grown (s : AdaptiveScheduler) (p : PathRuntime) : Int := s.currentOf p + s.weight p

theorem grown_putCurrent (h : q.id ≠ p.id) : (s.putCurrent p value).grown q = s.grown q := by
  rw [grown, grown, currentOf_putCurrent, if_neg h, weight_putCurrent]

theorem swrrRound_fst : (swrrRound (s, best) p).1 = s.putCurrent p (s.grown p) := by
  unfold swrrRound
  cases best with
  | none => rfl
  | some best =>
    simp only
    split <;> rfl

theorem swrrRound_some (current : Int) :
    swrrRound (s, some (q, current)) p =
      if s.grown p > current then (s.putCurrent p (s.grown p), some (p, s.grown p))
      else (s.putCurrent p (s.grown p), some (q, current)) := rfl

theorem loop_keeps {β : Type} (view : AdaptiveScheduler → β)
    (h : ∀ s p value, view (putCurrent s p value) = view s) (best : Option (PathRuntime × Int)) :
    view (paths.foldl swrrRound (s, best)).1 = view s := by
  induction paths generalizing s best with
  | nil => rfl
  | cons p paths ih =>
    rw [foldl_cons, ← Prod.mk.eta (p := swrrRound (s, best) p), ih, swrrRound_fst, h]

theorem smoothedWeights_loop :
    (paths.foldl swrrRound (s, best)).1.smoothedWeights = s.smoothedWeights :=
  loop_keeps smoothedWeights (fun _ _ _ => rfl) best

theorem currentOf_loop_of_ne (h : ∀ p ∈ paths, p.id ≠ q.id) :
    (paths.foldl swrrRound (s, best)).1.currentOf q = s.currentOf q := by
  induction paths generalizing s best with
  | nil => rfl
  | cons p paths ih =>
    rw [foldl_cons, ← Prod.mk.eta (p := swrrRound (s, best) p),
      ih _ fun p' hp' => h p' (mem_cons_of_mem _ hp'), swrrRound_fst, currentOf_putCurrent,
      if_neg (h p (by simp)).symm]

theorem currentOf_loop (hdistinct : DistinctIds paths) (best : Option (PathRuntime × Int))
    (hq : q ∈ paths) : (paths.foldl swrrRound (s, best)).1.currentOf q = s.grown q := by
  induction paths generalizing s best with
  | nil => cases hq
  | cons p paths ih =>
    obtain ⟨hnot, hrest⟩ := hdistinct.cons
    rw [foldl_cons, ← Prod.mk.eta (p := swrrRound (s, best) p)]
    rcases mem_cons.mp hq with rfl | hq
    · rw [currentOf_loop_of_ne _ hnot, swrrRound_fst, currentOf_putCurrent, if_pos rfl]
    · rw [ih hrest _ hq, swrrRound_fst, grown_putCurrent _ (hnot q hq)]

theorem best_loop (s : AdaptiveScheduler) (best : PathRuntime) (bestCurrent : Int)
    (hdistinct : DistinctIds paths) :
    ((paths.foldl swrrRound (s, some (best, bestCurrent))).2 = some (best, bestCurrent) ∧
        ∀ q ∈ paths, s.grown q ≤ bestCurrent) ∨
      ∃ b ∈ paths, (paths.foldl swrrRound (s, some (best, bestCurrent))).2 = some (b, s.grown b) ∧
        bestCurrent < s.grown b ∧ ∀ q ∈ paths, s.grown q ≤ s.grown b := by
  induction paths generalizing s best bestCurrent with
  | nil => exact .inl ⟨rfl, nofun⟩
  | cons path paths ih =>
    obtain ⟨hnot, hrest⟩ := hdistinct.cons
    have hgrown : ∀ q ∈ paths, (s.putCurrent path (s.grown path)).grown q = s.grown q :=
      fun q hq => grown_putCurrent _ (hnot q hq)
    rw [foldl_cons, swrrRound_some]
    split
    · rename_i hbetter
      rcases ih (s.putCurrent path (s.grown path)) path (s.grown path) hrest with
        ⟨hbest, hall⟩ | ⟨b, hb, hbest, hlt, hall⟩
      · refine .inr ⟨path, mem_cons_self .., hbest, hbetter, fun q hq => ?_⟩
        rcases mem_cons.mp hq with rfl | hq
        · exact le_rfl
        · rw [← hgrown q hq]
          exact hall q hq
      · rw [hgrown b hb] at hlt hbest
        refine .inr ⟨b, mem_cons_of_mem _ hb, hbest, lt_trans hbetter hlt, fun q hq => ?_⟩
        rcases mem_cons.mp hq with rfl | hq
        · exact hlt.le
        · rw [← hgrown q hq, ← hgrown b hb]
          exact hall q hq
    · rename_i hnotBetter
      have hpath : s.grown path ≤ bestCurrent := not_lt.mp hnotBetter
      rcases ih (s.putCurrent path (s.grown path)) best bestCurrent hrest with
        ⟨hbest, hall⟩ | ⟨b, hb, hbest, hlt, hall⟩
      · refine .inl ⟨hbest, fun q hq => ?_⟩
        rcases mem_cons.mp hq with rfl | hq
        · exact hpath
        · rw [← hgrown q hq]
          exact hall q hq
      · rw [hgrown b hb] at hlt hbest
        refine .inr ⟨b, mem_cons_of_mem _ hb, hbest, hlt, fun q hq => ?_⟩
        rcases mem_cons.mp hq with rfl | hq
        · exact (lt_of_le_of_lt hpath hlt).le
        · rw [← hgrown q hq, ← hgrown b hb]
          exact hall q hq

theorem best_first (s : AdaptiveScheduler) (hdistinct : DistinctIds (first :: rest)) :
    ∃ b ∈ first :: rest, ((first :: rest).foldl swrrRound (s, none)).2 = some (b, s.grown b) ∧
      ∀ q ∈ first :: rest, s.grown q ≤ s.grown b := by
  obtain ⟨hnot, hrest⟩ := hdistinct.cons
  have hgrown : ∀ q ∈ rest, (s.putCurrent first (s.grown first)).grown q = s.grown q :=
    fun q hq => grown_putCurrent _ (hnot q hq)
  rcases best_loop (s.putCurrent first (s.grown first)) first (s.grown first) hrest with
    ⟨hbest, hall⟩ | ⟨b, hb, hbest, hlt, hall⟩
  · refine ⟨first, mem_cons_self .., hbest, fun q hq => ?_⟩
    rcases mem_cons.mp hq with rfl | hq
    · exact le_rfl
    · rw [← hgrown q hq]
      exact hall q hq
  · rw [hgrown b hb] at hlt hbest
    refine ⟨b, mem_cons_of_mem _ hb, hbest, fun q hq => ?_⟩
    rcases mem_cons.mp hq with rfl | hq
    · exact hlt.le
    · rw [← hgrown q hq, ← hgrown b hb]
      exact hall q hq

def total (s : AdaptiveScheduler) (paths : List PathRuntime) : Int := (paths.map s.weight).sum

def currentSum (s : AdaptiveScheduler) (paths : List PathRuntime) : Int :=
  (paths.map s.currentOf).sum

theorem sum_grown : (paths.map s.grown).sum = s.currentSum paths + s.total paths :=
  sum_map_add

theorem total_pos (s : AdaptiveScheduler) (first : PathRuntime) (rest : List PathRuntime) :
    0 < s.total (first :: rest) := by
  have hrest : 0 ≤ (rest.map s.weight).sum := by
    apply sum_nonneg
    intro w hw
    obtain ⟨p, -, rfl⟩ := mem_map.mp hw
    exact le_trans (by decide) (weight_pos p)
  have hfirst : 1 ≤ s.weight first := weight_pos first
  simp only [total, map_cons, sum_cons]
  omega

theorem exists_grown_pos (hsum : s.currentSum (first :: rest) = 0) :
    ∃ p ∈ first :: rest, 0 < s.grown p := by
  by_contra hnone
  have hall : ∀ v ∈ (first :: rest).map s.grown, v ≤ 0 := by
    intro v hv
    obtain ⟨p, hp, rfl⟩ := mem_map.mp hv
    exact not_lt.mp fun hpos => hnone ⟨p, hp, hpos⟩
  have hle : ((first :: rest).map s.grown).sum ≤ 0 := by
    simpa using sum_le_card_nsmul ((first :: rest).map s.grown) 0 hall
  rw [sum_grown, hsum] at hle
  have hpos := total_pos s first rest
  omega

theorem swrrPick_spec (hdistinct : DistinctIds (first :: rest))
    (hsum : s.currentSum (first :: rest) = 0) :
    ∃ chosen s', s.swrrPick first rest = (chosen, s') ∧ chosen ∈ first :: rest ∧
      0 < s.grown chosen ∧ s'.smoothedWeights = s.smoothedWeights ∧
      ∀ p ∈ first :: rest, s'.currentOf p =
        s.grown p - if p = chosen then s.total (first :: rest) else 0 := by
  obtain ⟨positive, hpositive, hpos⟩ := exists_grown_pos hsum
  obtain ⟨b, hb, hbest, hall⟩ := best_first s hdistinct
  set looped := (first :: rest).foldl swrrRound (s, none) with hlooped
  have hpick : s.swrrPick first rest =
      (b, looped.1.putCurrent b (looped.1.currentOf b - s.total (first :: rest))) := by
    rw [swrrPick, ← hlooped, ← Prod.mk.eta (p := looped), hbest]
    rfl
  refine ⟨b, _, hpick, hb, lt_of_lt_of_le hpos (hall positive hpositive),
    smoothedWeights_loop none, fun p hp => ?_⟩
  rw [currentOf_putCurrent, hlooped, currentOf_loop hdistinct none hb,
    currentOf_loop hdistinct none hp]
  by_cases heq : p = b
  · rw [if_pos (congrArg PathRuntime.id heq), if_pos heq, heq]
  · rw [if_neg (mt (hdistinct.id_eq_iff hp hb).mp heq), if_neg heq, sub_zero]

/-! ## Many calls -/

theorem sum_map_sub (f g : PathRuntime → Int) (paths : List PathRuntime) :
    (paths.map fun p => f p - g p).sum = (paths.map f).sum - (paths.map g).sum := by
  induction paths with
  | nil => rfl
  | cons p paths ih =>
    simp only [map_cons, sum_cons, ih]
    omega

theorem weight_congr (h : s'.smoothedWeights = s.smoothedWeights) : s'.weight = s.weight := by
  funext p
  rw [weight, weight, h]

structure Turned (s : AdaptiveScheduler) (paths : List PathRuntime) (n : Nat)
    (s' : AdaptiveScheduler) (picks : List PathRuntime) : Prop where
  weights : s'.smoothedWeights = s.smoothedWeights
  length : picks.length = n
  mem : ∀ p ∈ picks, p ∈ paths
  current : ∀ p ∈ paths, s'.currentOf p = n * s.weight p - picks.count p * s.total paths
  low : ∀ p ∈ paths, -s.total paths < s'.currentOf p

theorem sum_count (hnodup : paths.Nodup) (hmem : ∀ p ∈ picks, p ∈ paths) :
    (paths.map fun p => (picks.count p : Int)).sum = picks.length := by
  have hperm : (paths.toFinset.sum fun p => (picks.count p : Int)) = picks.length := by
    rw [← Nat.cast_sum]
    congr 1
    have hsubset : picks.toFinset ⊆ paths.toFinset := by
      intro p hp
      exact mem_toFinset.mpr (hmem p (mem_toFinset.mp hp))
    rw [← Finset.sum_subset hsubset fun p _ hnot =>
      count_eq_zero.mpr fun h => hnot (mem_toFinset.mpr h)]
    exact sum_toFinset_count_eq_length picks
  rw [← hperm, sum_toFinset _ hnodup]

theorem Turned.sum (h : Turned s paths n s' picks) (hdistinct : DistinctIds paths) :
    s'.currentSum paths = 0 := by
  have hvalues : paths.map s'.currentOf =
      paths.map fun p => (n : Int) * s.weight p - picks.count p * s.total paths :=
    map_congr_left h.current
  have hcount := sum_count hdistinct.of_map h.mem
  rw [currentSum, hvalues, sum_map_sub, sum_map_mul_left, sum_map_mul_right, hcount,
    h.length, total]
  exact sub_self _

theorem turned_zero (hzero : ∀ p ∈ first :: rest, s.currentOf p = 0) :
    Turned s (first :: rest) 0 s [] where
  weights := rfl
  length := rfl
  mem := nofun
  current := fun p hp => by rw [hzero p hp]; simp
  low := fun p hp => by
    have hpos := total_pos s first rest
    rw [hzero p hp]
    omega

theorem Turned.step (h : Turned s (first :: rest) n s' picks)
    (hdistinct : DistinctIds (first :: rest)) :
    ∃ chosen s'', s'.swrrPick first rest = (chosen, s'') ∧
      Turned s (first :: rest) (n + 1) s'' (picks ++ [chosen]) := by
  obtain ⟨chosen, s'', hpick, hchosen, hpos, hweights, hcurrent⟩ :=
    swrrPick_spec hdistinct (h.sum hdistinct)
  have hweight : s'.weight = s.weight := weight_congr h.weights
  have htotal : s'.total (first :: rest) = s.total (first :: rest) := by
    rw [total, total, hweight]
  refine ⟨chosen, s'', hpick, hweights.trans h.weights, ?_, ?_, fun p hp => ?_, fun p hp => ?_⟩
  · rw [length_append, h.length, length_singleton]
  · intro p hp
    rcases mem_append.mp hp with hp | hp
    · exact h.mem p hp
    · rw [mem_singleton.mp hp]
      exact hchosen
  · have hgrown : s'.grown p = n * s.weight p - picks.count p * s.total (first :: rest) +
        s.weight p := by rw [grown, h.current p hp, hweight]
    rw [hcurrent p hp, hgrown, htotal, count_append, count_singleton]
    by_cases heq : p = chosen
    · subst heq
      simp
      ring
    · simp [heq, Ne.symm heq]
      ring
  · rw [hcurrent p hp, htotal]
    have hone : 1 ≤ s'.weight p := weight_pos p
    have hlow := h.low p hp
    by_cases heq : p = chosen
    · rw [if_pos heq, heq]
      omega
    · rw [if_neg heq, grown]
      omega

theorem swrrPicks_turned (hdistinct : DistinctIds (first :: rest))
    (hzero : ∀ p ∈ first :: rest, s.currentOf p = 0) (n : Nat) :
    Turned s (first :: rest) n (s.swrrPicks first rest n).1 (s.swrrPicks first rest n).2 := by
  induction n with
  | zero => exact turned_zero hzero
  | succ n ih =>
    obtain ⟨chosen, s'', hpick, hnext⟩ := ih.step hdistinct
    rw [swrrPicks]
    simp only [hpick]
    exact hnext

/-! ## A whole cycle -/

theorem Turned.count_le (h : Turned s (first :: rest) n s' picks)
    (hn : (n : Int) = s.total (first :: rest)) (hp : p ∈ first :: rest) :
    (picks.count p : Int) ≤ s.weight p := by
  have hlow := h.low p hp
  have hpos := total_pos s first rest
  rw [h.current p hp, hn] at hlow
  by_contra hgt
  have hone : s.weight p - picks.count p ≤ -1 := by omega
  have hmul : s.total (first :: rest) * (s.weight p - picks.count p) ≤
      s.total (first :: rest) * (-1) :=
    mul_le_mul_of_nonneg_left hone hpos.le
  have hexpand : s.total (first :: rest) * (s.weight p - picks.count p) =
      s.total (first :: rest) * s.weight p - picks.count p * s.total (first :: rest) := by ring
  omega

theorem Turned.count_eq (h : Turned s (first :: rest) n s' picks)
    (hn : (n : Int) = s.total (first :: rest)) (hdistinct : DistinctIds (first :: rest))
    (hp : p ∈ first :: rest) : (picks.count p : Int) = s.weight p := by
  have hle : ∀ p ∈ first :: rest, 0 ≤ s.weight p - picks.count p := by
    intro p hp
    have := h.count_le hn hp
    omega
  have hsum : ((first :: rest).map fun p => s.weight p - picks.count p).sum = 0 := by
    rw [sum_map_sub, sum_count hdistinct.of_map h.mem, h.length, hn, total]
    exact sub_self _
  have hone : s.weight p - picks.count p ≤
      ((first :: rest).map fun p => s.weight p - picks.count p).sum := by
    apply single_le_sum
    · intro v hv
      obtain ⟨p, hp, rfl⟩ := mem_map.mp hv
      exact hle p hp
    · exact mem_map_of_mem hp
  have := hle p hp
  omega

theorem Turned.current_le (h : Turned s paths n s' picks) (hdistinct : DistinctIds paths)
    (hp : p ∈ paths) : s'.currentOf p + s.total paths ≤ paths.length * s.total paths := by
  have hone : s'.currentOf p + s.total paths ≤
      (paths.map fun p => s'.currentOf p + s.total paths).sum := by
    apply single_le_sum
    · intro v hv
      obtain ⟨p, hp, rfl⟩ := mem_map.mp hv
      have := h.low p hp
      omega
    · exact mem_map_of_mem hp
  have hsum : (paths.map fun p => s'.currentOf p + s.total paths).sum =
      paths.length * s.total paths := by
    rw [sum_map_add, map_const', sum_replicate, nsmul_eq_mul]
    have hzero : (paths.map s'.currentOf).sum = 0 := h.sum hdistinct
    rw [hzero, zero_add]
  rwa [hsum] at hone

/-- In a cycle of as many calls as the weights sum to, each path is chosen as
often as its weight says, and all values are zero again at its end. -/
theorem swrrPick_exact (s : AdaptiveScheduler) (first : PathRuntime) (rest : List PathRuntime)
    (weights : PathId → Int) (hdistinct : DistinctIds (first :: rest))
    (hweights : ∀ p ∈ first :: rest,
      s.smoothedWeights p.id = some (weights p.id) ∧ 1 ≤ weights p.id)
    (hzero : ∀ p ∈ first :: rest, s.currentOf p = 0) (n : Nat) :
    (s.swrrPicks first rest n).2.length = n ∧
      ((first :: rest).map (s.swrrPicks first rest n).1.currentOf).sum = 0 ∧
      (∀ p ∈ first :: rest,
        -((first :: rest).map fun p => weights p.id).sum <
            (s.swrrPicks first rest n).1.currentOf p ∧
          (s.swrrPicks first rest n).1.currentOf p ≤
            rest.length * ((first :: rest).map fun p => weights p.id).sum) ∧
      ((n : Int) = ((first :: rest).map fun p => weights p.id).sum →
        ∀ p ∈ first :: rest,
          ((s.swrrPicks first rest n).2.count p : Int) = weights p.id ∧
            (s.swrrPicks first rest n).1.currentOf p = 0) := by
  have hweight : ∀ p ∈ first :: rest, s.weight p = weights p.id := by
    intro p hp
    obtain ⟨hsome, hone⟩ := hweights p hp
    rw [weight, hsome, Option.getD_some, max_eq_right hone]
  have htotal : s.total (first :: rest) = ((first :: rest).map fun p => weights p.id).sum := by
    rw [total, map_congr_left hweight]
  have hturned := swrrPicks_turned hdistinct hzero n
  rw [← htotal]
  refine ⟨hturned.length, hturned.sum hdistinct, fun p hp => ⟨hturned.low p hp, ?_⟩,
    fun hcycle p hp => ?_⟩
  · have hle := hturned.current_le hdistinct hp
    rw [length_cons, Nat.cast_succ, add_mul, one_mul] at hle
    omega
  · have hcount := hturned.count_eq hcycle hdistinct hp
    refine ⟨by rw [hcount, hweight p hp], ?_⟩
    rw [hturned.current p hp, hcount, hcycle, mul_comm]
    exact sub_self _

def twoToOne : AdaptiveScheduler where
  smoothedWeights id := if id = .wifi then some 2 else if id = .cellular then some 1 else none

theorem swrrPick_exact_twoToOne :
    (twoToOne.swrrPicks ⟨.wifi, .active⟩ [⟨.cellular, .active⟩] 3).2.count ⟨.wifi, .active⟩ = 2 ∧
      (twoToOne.swrrPicks ⟨.wifi, .active⟩ [⟨.cellular, .active⟩] 3).2.count
        ⟨.cellular, .active⟩ = 1 := by
  obtain ⟨-, -, -, hcycle⟩ := swrrPick_exact twoToOne ⟨.wifi, .active⟩ [⟨.cellular, .active⟩]
    (fun id => if id = .wifi then 2 else 1) (by unfold DistinctIds; decide) (by decide) (by decide)
    3
  have hall := hcycle (by decide)
  refine ⟨?_, ?_⟩
  · exact_mod_cast (hall ⟨.wifi, .active⟩ (by decide)).1
  · exact_mod_cast (hall ⟨.cellular, .active⟩ (by decide)).1

example : (twoToOne.swrrPicks ⟨.wifi, .active⟩ [⟨.cellular, .active⟩] 3).2.map PathRuntime.id =
    [.wifi, .cellular, .wifi] := by decide

end AdaptiveScheduler

end BigRocket.Bonding
