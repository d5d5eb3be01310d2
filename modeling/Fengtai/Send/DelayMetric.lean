import Fengtai.Receive.Decapsulate
import Mathlib.Data.List.DropRight
import Mathlib.Order.Bounds.Basic
import Mathlib.Tactic

set_option autoImplicit false

/-! The delay statistics of one mapping, kept by `calc_delay_metric_time`. -/

namespace Fengtai.Send

open Receive (maxDeviceNum)

structure DelayMetric where
  calcNum : ℕ
  minDelayMetric : ℕ
  avgDelayMetric : ℕ
  maxDelayMetric : ℕ
  totalDelayMetric : ℕ
  deriving DecidableEq

/-- The division by the call counter, which has no result when the counter has wrapped to
zero. -/
def average (total calcNum : ℕ) : Option ℕ :=
  if calcNum = 0 then none else some (total / calcNum)

namespace DelayMetric

def zero : DelayMetric := ⟨0, 0, 0, 0, 0⟩

def record (m : DelayMetric) (diffTimeUs : ℕ) : Option DelayMetric :=
  let calcNum := (m.calcNum + 1) % 2 ^ 64
  if m.maxDelayMetric = 0 ∧ diffTimeUs ≠ 0 then
    some ⟨calcNum, diffTimeUs, diffTimeUs, diffTimeUs, diffTimeUs⟩
  else if diffTimeUs ≠ 0 then
    let total := (m.totalDelayMetric + diffTimeUs) % 2 ^ 64
    (average total calcNum).map fun avg =>
      { calcNum := calcNum
        minDelayMetric :=
          if diffTimeUs < m.minDelayMetric then diffTimeUs else m.minDelayMetric
        avgDelayMetric := avg
        maxDelayMetric :=
          if diffTimeUs > m.maxDelayMetric then diffTimeUs else m.maxDelayMetric
        totalDelayMetric := total }
  else
    some { m with calcNum := calcNum }

end DelayMetric

def calcDelayMetricTime (inrouterTime outrouterTime mappingId : ℕ)
    (s : ℕ → DelayMetric) : Option (ℕ → DelayMetric) :=
  if mappingId < maxDeviceNum then
    ((s mappingId).record ((outrouterTime + 2 ^ 64 - inrouterTime) % 2 ^ 64)).map
      (Function.update s mappingId)
  else
    none

def delayRun (mappingId : ℕ) (s : ℕ → DelayMetric) (calls : List (ℕ × ℕ)) :
    Option (ℕ → DelayMetric) :=
  calls.foldlM (fun s call => calcDelayMetricTime call.1 call.2 mappingId s) s

def delays (calls : List (ℕ × ℕ)) : List ℕ := calls.map fun c => c.2 - c.1

def nonzeroDelays (ds : List ℕ) : Set ℕ := {d | d ∈ ds ∧ d ≠ 0}

def upToLast (ds : List ℕ) : List ℕ := ds.rdropWhile (· == 0)

/-- The statistics the mapping should show once it has seen `ds`. -/
structure DelayOrdered (ds : List ℕ) (m : DelayMetric) : Prop where
  least : IsLeast (nonzeroDelays ds) m.minDelayMetric
  greatest : IsGreatest (nonzeroDelays ds) m.maxDelayMetric
  total : m.totalDelayMetric = ds.sum
  min_le_avg : m.minDelayMetric ≤ m.avgDelayMetric
  avg_le_max : m.avgDelayMetric ≤ m.maxDelayMetric

def NeverAtWrap (ds : List ℕ) : Prop :=
  ∀ before d, before ++ [d] <+: ds → d ≠ 0 → (∃ e ∈ before, e ≠ 0) →
    (before.length + 1) % 2 ^ 64 ≠ 0

/-- Either one delay only is not zero, or the calls counted up to the last such delay, zero
delays included, are neither too many nor, the counter having wrapped, too few. -/
structure FairCount (ds : List ℕ) : Prop where
  never : NeverAtWrap ds
  count : ds.countP (· ≠ 0) = 1 ∨
    ∀ least greatest, IsLeast (nonzeroDelays ds) least → IsGreatest (nonzeroDelays ds) greatest →
      least * ((upToLast ds).length % 2 ^ 64) ≤ ds.sum ∧
        ds.sum < (greatest + 1) * ((upToLast ds).length % 2 ^ 64)

structure Tallied (ds : List ℕ) (m : DelayMetric) : Prop where
  calcNum : m.calcNum = ds.length % 2 ^ 64
  none_yet : (∀ d ∈ ds, d = 0) → m.maxDelayMetric = 0
  least : (∃ d ∈ ds, d ≠ 0) → IsLeast (nonzeroDelays ds) m.minDelayMetric
  greatest : (∃ d ∈ ds, d ≠ 0) → IsGreatest (nonzeroDelays ds) m.maxDelayMetric
  total : m.totalDelayMetric = ds.sum
  avg_one : ds.countP (· ≠ 0) = 1 →
    m.minDelayMetric = m.avgDelayMetric ∧ m.avgDelayMetric = m.maxDelayMetric
  avg_more : 2 ≤ ds.countP (· ≠ 0) → (upToLast ds).length % 2 ^ 64 ≠ 0 ∧
    m.avgDelayMetric = ds.sum / ((upToLast ds).length % 2 ^ 64)

lemma nonzeroDelays_zero (ds : List ℕ) : nonzeroDelays (ds ++ [0]) = nonzeroDelays ds := by
  ext d
  simp only [nonzeroDelays, List.mem_append, List.mem_singleton, Set.mem_ofPred_eq]
  tauto

lemma nonzeroDelays_snoc (ds : List ℕ) {d : ℕ} (hd : d ≠ 0) :
    nonzeroDelays (ds ++ [d]) = insert d (nonzeroDelays ds) := by
  ext e
  simp only [nonzeroDelays, List.mem_append, List.mem_singleton, Set.mem_ofPred_eq,
    Set.mem_insert_iff]
  constructor
  · rintro ⟨he | rfl, hne⟩
    · exact Or.inr ⟨he, hne⟩
    · exact Or.inl rfl
  · rintro (rfl | ⟨he, hne⟩)
    · exact ⟨Or.inr rfl, hd⟩
    · exact ⟨Or.inl he, hne⟩

lemma upToLast_zero (ds : List ℕ) : upToLast (ds ++ [0]) = upToLast ds := by
  rw [upToLast, List.rdropWhile_concat_pos _ _ _ (by simp), upToLast]

lemma upToLast_snoc (ds : List ℕ) {d : ℕ} (hd : d ≠ 0) : upToLast (ds ++ [d]) = ds ++ [d] := by
  rw [upToLast, List.rdropWhile_concat_neg _ _ _ (by simpa using hd)]

lemma countP_nonzero_pos {ds : List ℕ} : 0 < ds.countP (· ≠ 0) ↔ ∃ d ∈ ds, d ≠ 0 := by
  simp [List.countP_pos_iff]

namespace Tallied

lemma start : Tallied [] .zero where
  calcNum := rfl
  none_yet _ := rfl
  least h := by simp at h
  greatest h := by simp at h
  total := rfl
  avg_one h := by simp at h
  avg_more h := by simp at h

variable {ds : List ℕ} {m : DelayMetric}

lemma max_eq_zero (h : Tallied ds m) : m.maxDelayMetric = 0 ↔ ∀ d ∈ ds, d = 0 := by
  refine ⟨fun hm => ?_, h.none_yet⟩
  by_contra hn
  push Not at hn
  exact (h.greatest hn).1.2 hm

lemma calcNum_succ (h : Tallied ds m) (d : ℕ) :
    (m.calcNum + 1) % 2 ^ 64 = (ds ++ [d]).length % 2 ^ 64 := by
  rw [h.calcNum, List.length_append, List.length_singleton]
  omega

lemma snoc_zero (h : Tallied ds m) :
    Tallied (ds ++ [0]) { m with calcNum := (m.calcNum + 1) % 2 ^ 64 } where
  calcNum := h.calcNum_succ 0
  none_yet hz := h.none_yet fun d hd => hz d (List.mem_append_left _ hd)
  least hn := by
    rw [nonzeroDelays_zero]
    exact h.least (by simpa using hn)
  greatest hn := by
    rw [nonzeroDelays_zero]
    exact h.greatest (by simpa using hn)
  total := by simpa using h.total
  avg_one hc := h.avg_one (by simpa using hc)
  avg_more hc := by
    rw [upToLast_zero]
    simpa using h.avg_more (by simpa using hc)

lemma snoc_first (h : Tallied ds m) (hz : ∀ e ∈ ds, e = 0) {d : ℕ} (hd : d ≠ 0) :
    Tallied (ds ++ [d]) ⟨(m.calcNum + 1) % 2 ^ 64, d, d, d, d⟩ := by
  have hempty : nonzeroDelays ds = ∅ :=
    Set.eq_empty_of_forall_notMem fun e he => he.2 (hz e he.1)
  have hone : nonzeroDelays (ds ++ [d]) = {d} := by
    rw [nonzeroDelays_snoc ds hd, hempty, insert_empty_eq]
  have hsum : ds.sum = 0 := List.sum_eq_zero hz
  have hcount : ds.countP (· ≠ 0) = 0 := by
    rw [List.countP_eq_zero]
    simpa using hz
  refine ⟨h.calcNum_succ d, fun ha => absurd (ha d (by simp)) hd, fun _ => ?_, fun _ => ?_, ?_,
    fun _ => ?_, fun hc => ?_⟩
  · rw [hone]
    exact isLeast_singleton
  · rw [hone]
    exact isGreatest_singleton
  · simp [hsum]
  · exact ⟨rfl, rfl⟩
  · rw [List.countP_append, hcount] at hc
    simp [hd] at hc

lemma snoc_more (h : Tallied ds m) (hn : ∃ e ∈ ds, e ≠ 0) {d : ℕ} (hd : d ≠ 0)
    (hsum : (ds ++ [d]).sum < 2 ^ 64) (hc : (ds ++ [d]).length % 2 ^ 64 ≠ 0) :
    Tallied (ds ++ [d])
      { calcNum := (m.calcNum + 1) % 2 ^ 64
        minDelayMetric := if d < m.minDelayMetric then d else m.minDelayMetric
        avgDelayMetric := (ds ++ [d]).sum / ((ds ++ [d]).length % 2 ^ 64)
        maxDelayMetric := if d > m.maxDelayMetric then d else m.maxDelayMetric
        totalDelayMetric := (m.totalDelayMetric + d) % 2 ^ 64 } where
  calcNum := h.calcNum_succ d
  none_yet ha := absurd (ha d (by simp)) hd
  least _ := by
    rw [nonzeroDelays_snoc ds hd, ← min_def_lt]
    exact (h.least hn).insert d
  greatest _ := by
    have hmax : (if d > m.maxDelayMetric then d else m.maxDelayMetric) = max d m.maxDelayMetric := by
      split <;> omega
    rw [nonzeroDelays_snoc ds hd, hmax]
    exact (h.greatest hn).insert d
  total := by
    have hadd : (ds ++ [d]).sum = ds.sum + d := by simp
    rw [h.total, ← hadd, Nat.mod_eq_of_lt hsum]
  avg_one hone := by
    rw [List.countP_append] at hone
    have hlast : [d].countP (· ≠ 0) = 1 := by simp [hd]
    have hbefore := countP_nonzero_pos.2 hn
    omega
  avg_more _ := by
    rw [upToLast_snoc ds hd]
    exact ⟨hc, rfl⟩

end Tallied

lemma neverAtWrap_nil : NeverAtWrap [] := by
  intro before d hp
  simp at hp

lemma neverAtWrap_snoc (ds : List ℕ) (d : ℕ) :
    NeverAtWrap (ds ++ [d]) ↔
      NeverAtWrap ds ∧ (d ≠ 0 → (∃ e ∈ ds, e ≠ 0) → (ds.length + 1) % 2 ^ 64 ≠ 0) := by
  constructor
  · intro h
    exact ⟨fun before e hp => h before e (hp.trans (List.prefix_append _ _)),
      h ds d (List.prefix_refl _)⟩
  · rintro ⟨h, hlast⟩ before e hp
    rcases List.prefix_concat_iff.1 hp with heq | hp
    · obtain ⟨rfl, he⟩ := List.append_inj' heq rfl
      obtain rfl := List.singleton_inj.1 he
      exact hlast
    · exact h before e hp

namespace Tallied

variable {ds : List ℕ} {m : DelayMetric}

lemma record (h : Tallied ds m) (d : ℕ) (hsum : (ds ++ [d]).sum < 2 ^ 64) :
    (∃ m', m.record d = some m' ∧ Tallied (ds ++ [d]) m' ∧
        (d ≠ 0 → (∃ e ∈ ds, e ≠ 0) → (ds.length + 1) % 2 ^ 64 ≠ 0)) ∨
      (m.record d = none ∧ d ≠ 0 ∧ (∃ e ∈ ds, e ≠ 0) ∧ (ds.length + 1) % 2 ^ 64 = 0) := by
  by_cases hd : d = 0
  · subst hd
    exact Or.inl ⟨_, by simp [DelayMetric.record], h.snoc_zero, fun hne => absurd rfl hne⟩
  by_cases hz : ∀ e ∈ ds, e = 0
  · refine Or.inl ⟨_, ?_, h.snoc_first hz hd, fun _ ⟨e, he, hne⟩ => absurd (hz e he) hne⟩
    simp [DelayMetric.record, h.max_eq_zero.2 hz, hd]
  have hn : ∃ e ∈ ds, e ≠ 0 := by simpa using hz
  have hmax : m.maxDelayMetric ≠ 0 := fun hm => hz (h.max_eq_zero.1 hm)
  have hlength : (ds ++ [d]).length = ds.length + 1 := by simp
  have htotal : (m.totalDelayMetric + d) % 2 ^ 64 = (ds ++ [d]).sum := by
    rw [h.total, ← Nat.mod_eq_of_lt hsum, List.sum_append, List.sum_singleton]
  have hcalls := h.calcNum_succ d
  by_cases hc : (ds.length + 1) % 2 ^ 64 = 0
  · refine Or.inr ⟨?_, hd, hn, hc⟩
    rw [hlength, hc] at hcalls
    simp only [DelayMetric.record, hmax, hd, false_and, if_false, ne_eq, not_false_eq_true, if_true,
      hcalls, average, Option.map_none]
  · refine Or.inl ⟨_, ?_, h.snoc_more hn hd hsum (by rwa [hlength]), fun _ _ => hc⟩
    rw [hlength] at hcalls
    simp only [DelayMetric.record, hmax, hd, false_and, if_false, ne_eq, not_false_eq_true, if_true,
      hcalls, average, hc, Option.map_some, htotal, hlength]

end Tallied

lemma records_tallied (ds : List ℕ) (hsum : ds.sum < 2 ^ 64) :
    (∃ m, ds.foldlM DelayMetric.record .zero = some m ∧ Tallied ds m ∧ NeverAtWrap ds) ∨
      (ds.foldlM DelayMetric.record .zero = none ∧ ¬ NeverAtWrap ds) := by
  induction ds using List.reverseRecOn with
  | nil => exact Or.inl ⟨_, rfl, .start, neverAtWrap_nil⟩
  | append_singleton ds d ih =>
    have hbefore : ds.sum < 2 ^ 64 := by
      rw [List.sum_append] at hsum
      omega
    rw [List.foldlM_append, neverAtWrap_snoc]
    rcases ih hbefore with ⟨m, hm, ht, hw⟩ | ⟨hm, hw⟩
    · rw [hm]
      rcases ht.record d hsum with ⟨m', hm', ht', hc⟩ | ⟨hm', hd, hn, hc⟩
      · exact Or.inl ⟨m', by simp [hm'], ht', hw, hc⟩
      · exact Or.inr ⟨by simp [hm'], fun h => h.2 hd hn hc⟩
    · rw [hm]
      exact Or.inr ⟨rfl, fun h => hw h.1⟩

lemma delayRun_cons (mappingId : ℕ) (s : ℕ → DelayMetric) (c : ℕ × ℕ) (calls : List (ℕ × ℕ)) :
    delayRun mappingId s (c :: calls) =
      (calcDelayMetricTime c.1 c.2 mappingId s).bind fun s' => delayRun mappingId s' calls := by
  rw [delayRun, List.foldlM_cons, Option.bind_eq_bind]
  rfl

lemma delayRun_eq {mappingId : ℕ} (hi : mappingId < maxDeviceNum) (calls : List (ℕ × ℕ))
    (htimes : ∀ c ∈ calls, c.1 ≤ c.2 ∧ c.2 < 2 ^ 64) (s : ℕ → DelayMetric) :
    delayRun mappingId s calls =
      ((delays calls).foldlM DelayMetric.record (s mappingId)).map
        (Function.update s mappingId) := by
  induction calls generalizing s with
  | nil => simp [delayRun, delays]
  | cons c calls ih =>
    obtain ⟨hle, hlt⟩ := htimes c (by simp)
    have hdiff : (c.2 + 2 ^ 64 - c.1) % 2 ^ 64 = c.2 - c.1 := by omega
    rw [delayRun_cons, delays, List.map_cons, List.foldlM_cons, calcDelayMetricTime, if_pos hi,
      hdiff]
    cases (s mappingId).record (c.2 - c.1) with
    | none => rfl
    | some m =>
      have ih := ih (fun c' hc' => htimes c' (List.mem_cons_of_mem c hc'))
        (Function.update s mappingId m)
      have hidem : Function.update (Function.update s mappingId m) mappingId =
          Function.update s mappingId := by
        funext m'
        exact Function.update_idem ..
      simpa only [Option.map_some, Option.bind_eq_bind, Option.bind_some, delays,
        Function.update_self, hidem] using ih

namespace Tallied

variable {ds : List ℕ} {m : DelayMetric}

lemma delayOrdered_iff (h : Tallied ds m) (hd : ∃ d ∈ ds, d ≠ 0) :
    DelayOrdered ds m ↔ m.minDelayMetric ≤ m.avgDelayMetric ∧ m.avgDelayMetric ≤ m.maxDelayMetric :=
  ⟨fun ho => ⟨ho.min_le_avg, ho.avg_le_max⟩,
    fun ho => ⟨h.least hd, h.greatest hd, h.total, ho.1, ho.2⟩⟩

lemma ordered_of_one (h : Tallied ds m) (hd : ∃ d ∈ ds, d ≠ 0) (hone : ds.countP (· ≠ 0) = 1) :
    DelayOrdered ds m := by
  obtain ⟨hmin, hmax⟩ := h.avg_one hone
  exact (h.delayOrdered_iff hd).2 ⟨hmin.le, hmax.le⟩

lemma ordered_iff_of_more (h : Tallied ds m) (hd : ∃ d ∈ ds, d ≠ 0)
    (hmore : 2 ≤ ds.countP (· ≠ 0)) :
    DelayOrdered ds m ↔
      ∀ least greatest, IsLeast (nonzeroDelays ds) least →
        IsGreatest (nonzeroDelays ds) greatest →
          least * ((upToLast ds).length % 2 ^ 64) ≤ ds.sum ∧
            ds.sum < (greatest + 1) * ((upToLast ds).length % 2 ^ 64) := by
  obtain ⟨hcalls, havg⟩ := h.avg_more hmore
  have hpos := Nat.pos_of_ne_zero hcalls
  rw [h.delayOrdered_iff hd, havg, Nat.le_div_iff_mul_le hpos,
    ← Nat.lt_add_one_iff (n := m.maxDelayMetric), Nat.div_lt_iff_lt_mul hpos]
  constructor
  · intro ho least greatest hl hg
    rw [hl.unique (h.least hd), hg.unique (h.greatest hd)]
    exact ho
  · intro ho
    exact ho _ _ (h.least hd) (h.greatest hd)

end Tallied

/-- A mapping's statistics are ordered exactly when the calls it counted were fairly so. -/
theorem delays_ordered {mappingId : ℕ} (hi : mappingId < maxDeviceNum) (calls : List (ℕ × ℕ))
    (htimes : ∀ c ∈ calls, c.1 ≤ c.2 ∧ c.2 < 2 ^ 64) (hsum : (delays calls).sum < 2 ^ 64)
    (hd : ∃ d ∈ delays calls, d ≠ 0) :
    (∃ s, delayRun mappingId (fun _ => .zero) calls = some s ∧
        DelayOrdered (delays calls) (s mappingId)) ↔ FairCount (delays calls) := by
  rw [delayRun_eq hi calls htimes]
  rcases records_tallied (delays calls) hsum with ⟨m, hm, ht, hw⟩ | ⟨hm, hw⟩
  · have hordered : (∃ s, (some m).map (Function.update (fun _ => DelayMetric.zero) mappingId) = some s ∧
        DelayOrdered (delays calls) (s mappingId)) ↔ DelayOrdered (delays calls) m := by
      simp only [Option.map_some, Option.some.injEq, exists_eq_left', Function.update_self]
    rw [hm, hordered]
    have hcount := countP_nonzero_pos.2 hd
    by_cases hone : (delays calls).countP (· ≠ 0) = 1
    · exact ⟨fun _ => ⟨hw, Or.inl hone⟩, fun _ => ht.ordered_of_one hd hone⟩
    · rw [ht.ordered_iff_of_more hd (by omega)]
      exact ⟨fun h => ⟨hw, Or.inr h⟩, fun h => h.count.resolve_left hone⟩
  · rw [hm]
    constructor
    · rintro ⟨s, hs, -⟩
      cases hs
    · intro h
      exact absurd h.never hw

/-- Two packets of equal delay. -/
theorem delays_ordered_two :
    (∃ s, delayRun 0 (fun _ => .zero) [(10, 15), (20, 25)] = some s ∧
        DelayOrdered (delays [(10, 15), (20, 25)]) (s 0)) ↔
      FairCount (delays [(10, 15), (20, 25)]) :=
  delays_ordered (by decide) _ (by decide) (by decide) ⟨5, by decide, by decide⟩

/-- A packet that took no time halves the share of the two that follow. -/
theorem average_drops_below : ¬ ∀ calls : List (ℕ × ℕ),
    (∀ c ∈ calls, c.1 ≤ c.2 ∧ c.2 < 2 ^ 64) → (delays calls).sum < 2 ^ 64 →
      (∃ d ∈ delays calls, d ≠ 0) → ∃ s, delayRun 0 (fun _ => .zero) calls = some s ∧
        DelayOrdered (delays calls) (s 0) := by
  intro h
  obtain ⟨s, hs, ho⟩ := h [(10, 10), (10, 15), (20, 25)] (by decide) (by decide)
    ⟨5, by decide, by decide⟩
  have hrun : (delayRun 0 (fun _ => .zero) [(10, 10), (10, 15), (20, 25)]).map (· 0) =
      some ⟨3, 5, 3, 5, 10⟩ := by
    decide +kernel
  rw [hs, Option.map_some, Option.some.injEq] at hrun
  have := ho.min_le_avg
  rw [hrun] at this
  exact absurd this (by decide)

end Fengtai.Send
