import Mathlib.Algebra.Order.Field.Basic
import Mathlib.Algebra.Order.BigOperators.Group.List
import Mathlib.Algebra.Order.WithTop.Untop0
import Mathlib.Data.Rat.Floor
import Mathlib.Data.Rat.Sqrt
import SmallGateway.Lib.Maps
import SmallGateway.Lib.OrderStatistics

/-!
What the telemetry of a canary wave is judged by (`gatewayctl/src/canary.rs`). The error rate, a percentile of the
latencies and the spend are each compared with the nodes that have not been rolled, and the first one that is out of
bounds fails the wave. A wave that does no better than one that fails does not pass (`analyze_monotone`). Floating-point
numbers are read as the elements of an ordered field, whose square root is a parameter.
-/

namespace SmallGateway

namespace CanaryAnalysis

structure EnabledMetrics where
  errorRate : Bool
  p99 : Bool
  spendAnomaly : Bool

/-- The policy as far as the telemetry is judged by it. -/
structure CanaryPolicy (K : Type) where
  metrics : EnabledMetrics
  maxErrorRateIncrease : K
  maxP99Factor : K
  maxSpendFactor : K
  spendZscore : K

def minBaselineForZscore : Nat := 3

structure NodeTelemetry (K : Type) where
  requests : Nat
  errors : Nat
  latenciesMs : List K
  spent : Nat

structure WaveTelemetry (K : Type) where
  perNode : Std.TreeMap String (NodeTelemetry K)

/-- What tripped a wave. A factor over nothing is infinite. -/
inductive Breach (K : Type)
  | errorRate (baseline canary maxIncrease : K)
  | p99 (baselineMs canaryMs maxFactor : K)
  | spendAnomaly (baselineMean canaryMean : K) (factor : WithTop K) (maxFactor : K) (zscore : Option K) (maxZscore : K)
  deriving DecidableEq

inductive Analysis (K : Type)
  | pass
  | fail (breach : Breach K)
  | noData
  deriving DecidableEq

variable {K : Type}

/-- The sample of the nearest rank. -/
def percentile [LinearOrder K] (samples : List K) (q : ℚ) : Option K :=
  if samples.isEmpty then none
  else
    let sorted := Sorting.sortBy id samples
    let rank := ⌊q * (samples.length - 1) + 1 / 2⌋₊
    sorted[min rank (samples.length - 1)]?

namespace WaveTelemetry

def samples (wave : WaveTelemetry K) : List K := wave.perNode.values.flatMap (·.latenciesMs)

def pooledP99 [LinearOrder K] (wave : WaveTelemetry K) : Option K := percentile wave.samples (99 / 100)

def hasSamples (wave : WaveTelemetry K) : Bool :=
  wave.perNode.values.any fun node => node.requests > 0 || !node.latenciesMs.isEmpty || node.spent > 0

variable [Field K]

def aggregateErrorRate (wave : WaveTelemetry K) : K :=
  let requests := (wave.perNode.values.map (·.requests)).sum
  let errors := (wave.perNode.values.map (·.errors)).sum
  if requests = 0 then 0 else errors / requests

def spendRates (wave : WaveTelemetry K) : List K := wave.perNode.values.map fun node => (node.spent : K)

def meanSpend (wave : WaveTelemetry K) : K :=
  if wave.spendRates.isEmpty then 0 else wave.spendRates.sum / wave.spendRates.length

end WaveTelemetry

section

variable [Field K] [LinearOrder K]

/-- The mean of the values and their standard deviation. -/
def meanStd (sqrt : K → K) (values : List K) : Option (K × K) :=
  if values.isEmpty then none
  else
    let mean := values.sum / values.length
    some (mean, sqrt ((values.map fun v => (v - mean) ^ 2).sum / values.length))

/-- How many deviations of the baseline a mean lies above that of the baseline, where there are nodes enough. -/
def zscore (sqrt : K → K) (canaryMean : K) (baseline : WaveTelemetry K) : Option K :=
  if baseline.spendRates.length ≥ minBaselineForZscore then
    (meanStd sqrt baseline.spendRates).bind fun (m, sd) => if sd > 0 then some ((canaryMean - m) / sd) else none
  else none

/-- The spend is judged by its factor over the baseline, and by how far it lies out. -/
def spendBreach (sqrt : K → K) (policy : CanaryPolicy K) (canary baseline : WaveTelemetry K) : Option (Breach K) :=
  let canaryMean := canary.meanSpend
  let baselineMean := baseline.meanSpend
  if baselineMean ≤ 0 then
    if canaryMean > 0 then
      some (.spendAnomaly baselineMean canaryMean ⊤ policy.maxSpendFactor none policy.spendZscore)
    else none
  else
    let factor := canaryMean / baselineMean
    let zscore := zscore sqrt canaryMean baseline
    if factor > policy.maxSpendFactor ∨ zscore.any (· > policy.spendZscore) then
      some (.spendAnomaly baselineMean canaryMean factor policy.maxSpendFactor zscore policy.spendZscore)
    else none

def errorRateBreach (policy : CanaryPolicy K) (canary baseline : WaveTelemetry K) : Option (Breach K) :=
  let b := baseline.aggregateErrorRate
  let c := canary.aggregateErrorRate
  if c - b > policy.maxErrorRateIncrease then some (.errorRate b c policy.maxErrorRateIncrease) else none

/-- The percentiles are compared where both waves have samples and the one of the baseline is not zero. -/
def p99Breach (policy : CanaryPolicy K) (canary baseline : WaveTelemetry K) : Option (Breach K) :=
  match canary.pooledP99, baseline.pooledP99 with
  | some canaryP99, some baselineP99 =>
    if baselineP99 > 0 ∧ canaryP99 > baselineP99 * policy.maxP99Factor then
      some (.p99 baselineP99 canaryP99 policy.maxP99Factor)
    else none
  | _, _ => none

/-- The metrics that are on, in order: the first one that is breached fails the wave. A wave without telemetry says
    nothing, and without a baseline there is nothing to compare. -/
def analyze (sqrt : K → K) (policy : CanaryPolicy K) (canary baseline : WaveTelemetry K) : Analysis K :=
  if !canary.hasSamples then .noData
  else if !baseline.hasSamples then .pass
  else
    let breaches :=
      (if policy.metrics.errorRate then errorRateBreach policy canary baseline else none) <|>
      (if policy.metrics.p99 then p99Breach policy canary baseline else none) <|>
      (if policy.metrics.spendAnomaly then spendBreach sqrt policy canary baseline else none)
    match breaches with
    | some breach => .fail breach
    | none => .pass

end

/-! ### The metrics, one by one -/

/-- A metric that is off is not breached. -/
theorem enabled_isSome {on : Bool} {breach : Option (Breach K)} :
    (if on then breach else none).isSome ↔ on ∧ breach.isSome := by
  cases on with
  | false => simp
  | true => simp

section

variable [Field K] [LinearOrder K] {policy : CanaryPolicy K} {canary baseline : WaveTelemetry K}

theorem errorRateBreach_isSome :
    (errorRateBreach policy canary baseline).isSome ↔
      policy.maxErrorRateIncrease < canary.aggregateErrorRate - baseline.aggregateErrorRate := by
  rw [errorRateBreach]
  split <;> simp_all

theorem p99Breach_isSome :
    (p99Breach policy canary baseline).isSome ↔
      ∃ value other, canary.pooledP99 = some value ∧ baseline.pooledP99 = some other ∧ 0 < other ∧
        other * policy.maxP99Factor < value := by
  rw [p99Breach]
  cases canary.pooledP99 <;> cases baseline.pooledP99 <;> simp

theorem spendBreach_isSome {sqrt : K → K} :
    (spendBreach sqrt policy canary baseline).isSome ↔
      if baseline.meanSpend ≤ 0 then 0 < canary.meanSpend
      else policy.maxSpendFactor < canary.meanSpend / baseline.meanSpend ∨
        ∃ value, zscore sqrt canary.meanSpend baseline = some value ∧ policy.spendZscore < value := by
  rw [spendBreach]
  by_cases nothing : baseline.meanSpend ≤ 0
  · rw [if_pos nothing, if_pos nothing]
    by_cases spent : canary.meanSpend > 0 <;> simp [spent]
  · rw [if_neg nothing, if_neg nothing]
    simp only [gt_iff_lt, Option.any_eq_true, decide_eq_true_eq]
    split <;> simp_all

/-- The telemetry fails under the policy. -/
theorem analyze_fails_iff {sqrt : K → K} :
    (∃ breach, analyze sqrt policy canary baseline = .fail breach) ↔
      canary.hasSamples ∧ baseline.hasSamples ∧
        (policy.metrics.errorRate ∧ (errorRateBreach policy canary baseline).isSome ∨
          policy.metrics.p99 ∧ (p99Breach policy canary baseline).isSome ∨
            policy.metrics.spendAnomaly ∧ (spendBreach sqrt policy canary baseline).isSome) := by
  rw [analyze]
  by_cases samples : canary.hasSamples
  · by_cases compared : baseline.hasSamples
    · rw [← enabled_isSome, ← enabled_isSome, ← enabled_isSome, ← Bool.or_eq_true, ← Bool.or_eq_true,
        ← Option.isSome_or, ← Option.isSome_or]
      simp only [samples, compared, Bool.not_true, Bool.false_eq_true, if_false, true_and, Option.orElse_eq_orElse,
        Option.orElse_eq_or]
      generalize Option.or _ _ = breaches
      cases breaches with
      | none => simp
      | some breach => simp
    · simp [samples, compared]
  · simp [samples]

end

/-! ### A wave that does no better -/

section

variable [LinearOrder K]

/-- The node answered the same requests with no fewer errors, took no less time for any of its samples, in some order,
    and spent no less. -/
structure NodeTelemetry.Worse (first second : NodeTelemetry K) : Prop where
  requests : second.requests = first.requests
  errors : first.errors ≤ second.errors
  latencies : ∃ raised, second.latenciesMs.Perm raised ∧ List.Forall₂ (· ≤ ·) first.latenciesMs raised
  spent : first.spent ≤ second.spent

/-- The same nodes, each of which does no better. -/
structure WaveTelemetry.Worse (first second : WaveTelemetry K) : Prop where
  nodes : second.perNode.keys = first.perNode.keys
  each : ∀ (id : String) (node other : NodeTelemetry K), first.perNode[id]? = some node →
    second.perNode[id]? = some other → node.Worse other

theorem WaveTelemetry.Worse.values {first second : WaveTelemetry K} (worse : first.Worse second) :
    List.Forall₂ NodeTelemetry.Worse first.perNode.values second.perNode.values :=
  Maps.forall₂_values worse.nodes worse.each

variable {xs ys : List (NodeTelemetry K)}

theorem worse_requests (worse : List.Forall₂ NodeTelemetry.Worse xs ys) :
    ys.map (·.requests) = xs.map (·.requests) := by
  induction worse with
  | nil => rfl
  | cons one _ ih => rw [List.map_cons, List.map_cons, one.requests, ih]

theorem worse_errors (worse : List.Forall₂ NodeTelemetry.Worse xs ys) :
    (xs.map (·.errors)).sum ≤ (ys.map (·.errors)).sum := by
  refine List.Forall₂.sum_le_sum ?_
  rw [List.forall₂_map_left_iff, List.forall₂_map_right_iff]
  exact worse.imp fun _ _ one => one.errors

theorem worse_latencies (worse : List.Forall₂ NodeTelemetry.Worse xs ys) :
    ∃ raised, (ys.flatMap (·.latenciesMs)).Perm raised ∧
      List.Forall₂ (· ≤ ·) (xs.flatMap (·.latenciesMs)) raised := by
  induction worse with
  | nil => exact ⟨[], .nil, .nil⟩
  | cons one _ ih =>
    obtain ⟨raised, perm, each⟩ := ih
    obtain ⟨raisedToo, permToo, eachToo⟩ := one.latencies
    rw [List.flatMap_cons, List.flatMap_cons]
    exact ⟨raisedToo ++ raised, permToo.append perm, List.rel_append eachToo each⟩

theorem worse_hasSamples (worse : List.Forall₂ NodeTelemetry.Worse xs ys)
    (samples : xs.any (fun node => node.requests > 0 || !node.latenciesMs.isEmpty || node.spent > 0) = true) :
    ys.any (fun node => node.requests > 0 || !node.latenciesMs.isEmpty || node.spent > 0) = true := by
  induction worse with
  | nil => exact samples
  | @cons node other _ _ one _ ih =>
    rw [List.any_cons, Bool.or_eq_true] at samples ⊢
    refine samples.imp (fun own => ?_) ih
    obtain ⟨raised, perm, each⟩ := one.latencies
    have same : other.latenciesMs.length = node.latenciesMs.length := perm.length_eq.trans each.length_eq.symm
    have spends := one.spent
    simp only [Bool.or_eq_true, decide_eq_true_eq, Bool.not_eq_true', List.isEmpty_eq_false_iff,
      ← List.length_pos_iff] at own ⊢
    rw [one.requests, same]
    omega

/-- Where samples are raised, so is their percentile. -/
theorem percentile_le {xs ys raised : List K} (perm : ys.Perm raised) (each : List.Forall₂ (· ≤ ·) xs raised) (q : ℚ)
    {value : K} (known : percentile xs q = some value) : ∃ other, percentile ys q = some other ∧ value ≤ other := by
  have same : ys.length = xs.length := perm.length_eq.trans each.length_eq.symm
  have sortedLength (zs : List K) : (Sorting.sortBy id zs).length = zs.length := (Sorting.sortBy_perm id zs).length_eq
  rw [percentile] at known ⊢
  cases empty : xs.isEmpty with
  | true => simp [empty] at known
  | false =>
    have filled : ys.isEmpty = false := by
      rw [List.isEmpty_eq_false_iff, ← List.length_pos_iff] at empty ⊢
      omega
    simp only [empty, filled, Bool.false_eq_true, if_false, same] at known ⊢
    generalize min ⌊q * (xs.length - 1) + 1 / 2⌋₊ (xs.length - 1) = rank at known ⊢
    obtain ⟨inside, rfl⟩ := List.getElem?_eq_some_iff.mp known
    have insideToo : rank < (Sorting.sortBy id ys).length := by
      rw [sortedLength] at inside ⊢
      omega
    exact ⟨_, List.getElem?_eq_getElem insideToo, OrderStatistics.sorted_getElem_le perm each inside insideToo⟩

theorem pooledP99_le {first second : WaveTelemetry K} (worse : first.Worse second) {value : K}
    (known : first.pooledP99 = some value) : ∃ other, second.pooledP99 = some other ∧ value ≤ other := by
  obtain ⟨raised, perm, each⟩ := worse_latencies worse.values
  exact percentile_le perm each _ known

theorem p99Breach_of_worse [Field K] {policy : CanaryPolicy K} {first second baseline : WaveTelemetry K}
    (worse : first.Worse second) (breached : (p99Breach policy first baseline).isSome) :
    (p99Breach policy second baseline).isSome := by
  rw [p99Breach_isSome] at breached ⊢
  obtain ⟨value, other, known, compared, positive, above⟩ := breached
  obtain ⟨raised, knownToo, le⟩ := pooledP99_le worse known
  exact ⟨raised, other, knownToo, compared, positive, above.trans_le le⟩

end

section

variable [Field K] [LinearOrder K] [IsStrictOrderedRing K] {first second baseline : WaveTelemetry K}

theorem aggregateErrorRate_le (worse : first.Worse second) : first.aggregateErrorRate ≤ second.aggregateErrorRate := by
  have errors : (((first.perNode.values.map (·.errors)).sum : Nat) : K) ≤
      ((second.perNode.values.map (·.errors)).sum : Nat) := Nat.cast_le.mpr (worse_errors worse.values)
  rw [WaveTelemetry.aggregateErrorRate, WaveTelemetry.aggregateErrorRate, worse_requests worse.values]
  split
  · exact le_rfl
  · exact div_le_div_of_nonneg_right errors (Nat.cast_nonneg _)

theorem spendRates_le (worse : first.Worse second) : List.Forall₂ (· ≤ ·) first.spendRates second.spendRates := by
  rw [WaveTelemetry.spendRates, WaveTelemetry.spendRates, List.forall₂_map_left_iff, List.forall₂_map_right_iff]
  exact worse.values.imp fun _ _ one => Nat.cast_le.mpr one.spent

theorem meanSpend_le (worse : first.Worse second) : first.meanSpend ≤ second.meanSpend := by
  have rates := spendRates_le worse
  have empty : first.spendRates.isEmpty = second.spendRates.isEmpty := by
    rw [Bool.eq_iff_iff, List.isEmpty_iff_length_eq_zero, List.isEmpty_iff_length_eq_zero, rates.length_eq]
  rw [WaveTelemetry.meanSpend, WaveTelemetry.meanSpend, rates.length_eq]
  simp only [empty]
  split
  · exact le_rfl
  · exact div_le_div_of_nonneg_right rates.sum_le_sum (Nat.cast_nonneg _)

/-- A greater mean lies no less far above the baseline. -/
theorem zscore_le {sqrt : K → K} {mean raised value : K} (le : mean ≤ raised)
    (known : zscore sqrt mean baseline = some value) :
    ∃ other, zscore sqrt raised baseline = some other ∧ value ≤ other := by
  rw [zscore] at known ⊢
  by_cases enough : baseline.spendRates.length ≥ minBaselineForZscore
  · rw [if_pos enough] at known ⊢
    obtain ⟨⟨m, sd⟩, stats, lies⟩ := Option.bind_eq_some_iff.mp known
    dsimp only at lies
    by_cases spread : sd > 0
    · rw [if_pos spread, Option.some.injEq] at lies
      refine ⟨(raised - m) / sd, ?_, ?_⟩
      · rw [stats]
        exact if_pos spread
      · rw [← lies]
        exact div_le_div_of_nonneg_right (sub_le_sub_right le m) spread.le
    · rw [if_neg spread] at lies
      cases lies
  · rw [if_neg enough] at known
    cases known

variable {policy : CanaryPolicy K}

theorem errorRateBreach_of_worse (worse : first.Worse second)
    (breached : (errorRateBreach policy first baseline).isSome) : (errorRateBreach policy second baseline).isSome := by
  rw [errorRateBreach_isSome] at breached ⊢
  exact breached.trans_le (sub_le_sub_right (aggregateErrorRate_le worse) _)

theorem spendBreach_of_worse {sqrt : K → K} (worse : first.Worse second)
    (breached : (spendBreach sqrt policy first baseline).isSome) :
    (spendBreach sqrt policy second baseline).isSome := by
  have le := meanSpend_le worse
  rw [spendBreach_isSome] at breached ⊢
  by_cases nothing : baseline.meanSpend ≤ 0
  · rw [if_pos nothing] at breached ⊢
    exact breached.trans_le le
  · rw [if_neg nothing] at breached ⊢
    rcases breached with factor | ⟨value, lies, above⟩
    · exact .inl (factor.trans_le (div_le_div_of_nonneg_right le (not_le.mp nothing).le))
    · obtain ⟨other, liesToo, further⟩ := zscore_le le lies
      exact .inr ⟨other, liesToo, above.trans_le further⟩

/-- A wave that does no better than one that fails, fails. -/
theorem analyze_fails_of_worse {sqrt : K → K} (worse : first.Worse second)
    (fails : ∃ breach, analyze sqrt policy first baseline = .fail breach) :
    ∃ breach, analyze sqrt policy second baseline = .fail breach := by
  rw [analyze_fails_iff] at fails ⊢
  obtain ⟨samples, compared, breached⟩ := fails
  refine ⟨worse_hasSamples worse.values samples, compared, ?_⟩
  exact breached.imp (And.imp_right (errorRateBreach_of_worse worse))
    (Or.imp (And.imp_right (p99Breach_of_worse worse)) (And.imp_right (spendBreach_of_worse worse)))

/-- Over every policy, every baseline and every square root: where the telemetry of a wave fails, telemetry of the same
    nodes that is no better anywhere does not pass. -/
theorem analyze_monotone (sqrt : K → K) (policy : CanaryPolicy K) (baseline first second : WaveTelemetry K)
    (worse : first.Worse second) (breach : Breach K) (fails : analyze sqrt policy first baseline = .fail breach) :
    analyze sqrt policy second baseline ≠ .pass := by
  obtain ⟨other, failsToo⟩ := analyze_fails_of_worse worse ⟨breach, fails⟩
  rw [failsToo]
  exact fun pass => nomatch pass

end

def defaultPolicy : CanaryPolicy ℚ := ⟨⟨true, true, true⟩, 1 / 20, 3 / 2, 2, 3⟩

def singleNode (id : String) (telemetry : NodeTelemetry ℚ) : WaveTelemetry ℚ :=
  ⟨(∅ : Std.TreeMap _ _).insert id telemetry⟩

theorem singleNode_worse {first second : NodeTelemetry ℚ} (worse : first.Worse second) (id : String) :
    (singleNode id first).Worse (singleNode id second) where
  nodes := rfl
  each := fun other node raised known knownToo => by
    rw [singleNode, Std.TreeMap.getElem?_insert] at known knownToo
    by_cases same : compare id other = .eq
    · rw [if_pos same, Option.some.injEq] at known knownToo
      rwa [← known, ← knownToo]
    · rw [if_neg same, Std.TreeMap.getElem?_emptyc] at known
      cases known

/-- Four nodes that have not been rolled, whose spends deviate by two tokens. -/
def steadyBaseline : WaveTelemetry ℚ :=
  ⟨((((∅ : Std.TreeMap String (NodeTelemetry ℚ)).insert "b1" ⟨10, 0, [100], 10⟩).insert "b2"
    ⟨10, 0, [110], 10⟩).insert "b3" ⟨10, 0, [105], 14⟩).insert "b4" ⟨10, 0, [], 14⟩⟩

/-- A canary whose spend lies four deviations above the baseline. -/
def outlier : NodeTelemetry ℚ := ⟨10, 0, [90, 120], 20⟩

/-- It does no better: it has an error, one of its samples is slower, and it spends more. -/
def slowOutlier : NodeTelemetry ℚ := ⟨10, 1, [130, 90], 30⟩

theorem slow_outlier_does_not_pass :
    analyze Rat.sqrt defaultPolicy (singleNode "c1" slowOutlier) steadyBaseline ≠ .pass := by
  have worse : outlier.Worse slowOutlier :=
    ⟨rfl, by decide, ⟨[90, 130], .swap 90 130 [], by decide⟩, by decide⟩
  exact analyze_monotone Rat.sqrt defaultPolicy steadyBaseline _ _ (singleNode_worse worse "c1")
    (.spendAnomaly 12 20 ((20 / 12 : ℚ) : WithTop ℚ) 2 (some 4) 3) (by decide +kernel)

end CanaryAnalysis

end SmallGateway
