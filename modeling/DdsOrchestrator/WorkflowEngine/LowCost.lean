import Mathlib
import DdsOrchestrator.WorkflowEngine.Runtime

/-!
The choice of a model for LOW_COST. Of the models of the policy that have a price, the mapper
takes the cheapest one that the budget covers. It estimates the cost from a product of 64 bits,
so a price that is large enough comes out small, and the dearest model is taken for the
cheapest.
-/

namespace DdsOrchestrator.WorkflowEngine

/-! ### Costs -/

/-- Tokens times the price of a thousand, in thousands rounded up. -/
def exactCost (model : String) (maxTokens : UInt32) (prices : PriceTable) : Option ℕ :=
  (prices.per1kOutput.lookup model).map fun p => (maxTokens.toNat * p.toNat) ⌈/⌉ 1000

/-- The product of the tokens and the price of the model, if it has one, fits in 64 bits. -/
def ProductFits (model : String) (maxTokens : UInt32) (prices : PriceTable) : Prop :=
  ∀ p, prices.per1kOutput.lookup model = some p → maxTokens.toNat * p.toNat < 2 ^ 64

theorem ceil_mod_iff {n : ℕ} : (n % 2 ^ 64 + 999) / 1000 = n ⌈/⌉ 1000 ↔ n < 2 ^ 64 := by
  rw [Nat.ceilDiv_eq_add_pred_div]
  omega

/-- The estimate is the cost exactly if the product does not wrap. -/
theorem estimateCost_eq_iff {model : String} {maxTokens : UInt32} {prices : PriceTable} :
    estimateCost model maxTokens prices = exactCost model maxTokens prices ↔
      ProductFits model maxTokens prices := by
  unfold estimateCost exactCost ProductFits
  cases prices.per1kOutput.lookup model with
  | none => simp
  | some p =>
      rw [Option.map_some, Option.map_some, Option.some_inj, ceil_mod_iff]
      exact ⟨fun h q hq => Option.some.inj hq ▸ h, fun h => h p rfl⟩

/-! ### The choice -/

variable {policy : QosMapperPolicy} {maxTokens : UInt32} {budget : UInt64}

/-- The models that the budget covers, with their estimates. -/
def candidates (policy : QosMapperPolicy) (maxTokens : UInt32) (budget : UInt64) :
    List (ℕ × String) :=
  policy.lowCostModels.filterMap fun m =>
    ((estimateCost m maxTokens policy.prices).filter (· ≤ budget.toNat)).map fun c => (c, m)

theorem mem_candidates {c : ℕ} {m : String} :
    (c, m) ∈ candidates policy maxTokens budget ↔ m ∈ policy.lowCostModels ∧
      estimateCost m maxTokens policy.prices = some c ∧ c ≤ budget.toNat := by
  rw [candidates, List.mem_filterMap]
  constructor
  · rintro ⟨m', hm', heq⟩
    obtain ⟨c', hc', heq⟩ := Option.map_eq_some_iff.mp heq
    obtain ⟨hcost, hle⟩ := Option.filter_eq_some_iff.mp hc'
    cases heq
    exact ⟨hm', hcost, of_decide_eq_true hle⟩
  · rintro ⟨hm, hcost, hle⟩
    refine ⟨m, hm, Option.map_eq_some_iff.mpr ⟨c, ?_, rfl⟩⟩
    exact Option.filter_eq_some_iff.mpr ⟨hcost, decide_eq_true hle⟩

theorem pickLowCost_eq_none : pickLowCost policy maxTokens budget = none ↔
    ∀ m ∈ policy.lowCostModels, ∀ c, estimateCost m maxTokens policy.prices = some c →
      budget.toNat < c := by
  change (List.argmin Prod.fst (candidates policy maxTokens budget)).map Prod.snd = none ↔ _
  rw [Option.map_eq_none_iff, List.argmin_eq_none, List.eq_nil_iff_forall_not_mem]
  constructor
  · intro h m hm c hcost
    by_contra hle
    exact h (c, m) (mem_candidates.mpr ⟨hm, hcost, not_lt.mp hle⟩)
  · rintro h ⟨c, m⟩ hmem
    obtain ⟨hm, hcost, hle⟩ := mem_candidates.mp hmem
    exact absurd hle (not_le.mpr (h m hm c hcost))

theorem pickLowCost_eq_some {m : String} (h : pickLowCost policy maxTokens budget = some m) :
    ∃ c, m ∈ policy.lowCostModels ∧ estimateCost m maxTokens policy.prices = some c ∧
      c ≤ budget.toNat ∧ ∀ m' ∈ policy.lowCostModels, ∀ c',
        estimateCost m' maxTokens policy.prices = some c' → c ≤ c' := by
  change (List.argmin Prod.fst (candidates policy maxTokens budget)).map Prod.snd = _ at h
  obtain ⟨⟨c, m'⟩, hmin, rfl⟩ := Option.map_eq_some_iff.mp h
  obtain ⟨hm, hcost, hle⟩ := mem_candidates.mp (List.argmin_mem hmin)
  refine ⟨c, hm, hcost, hle, fun m'' hm'' c'' hcost'' => ?_⟩
  -- What the budget does not cover is dearer than what it covers.
  rcases le_or_gt c'' budget.toNat with hle'' | hgt
  · exact List.le_of_mem_argmin (mem_candidates.mpr ⟨hm'', hcost'', hle''⟩) hmin
  · exact hle.trans hgt.le

/-! ### The mapper -/

/-- The budget of the intent covers the model at its price. -/
def Affordable (policy : QosMapperPolicy) (intent : WorkflowIntent) (model : String) : Prop :=
  ∃ c, exactCost model intent.maxTokens policy.prices = some c ∧
    c ≤ intent.maxCostMicrounits.toNat

/-- LOW_COST as it should be mapped. -/
structure LowCostExact (policy : QosMapperPolicy) (intent : WorkflowIntent) (priority : Int) :
    Prop where
  applied : (∃ e, mapObjective qiLowCost priority intent policy = .applied e) ↔
    ∃ m ∈ policy.lowCostModels, Affordable policy intent m
  cheapest : ∀ e, mapObjective qiLowCost priority intent policy = .applied e →
    ∃ m ∈ policy.lowCostModels, e.modelConstraint = some m ∧
      ∃ c, exactCost m intent.maxTokens policy.prices = some c ∧
        c ≤ intent.maxCostMicrounits.toNat ∧ ∀ m' ∈ policy.lowCostModels, ∀ c',
          exactCost m' intent.maxTokens policy.prices = some c' → c ≤ c'
  estimates : ∀ m ∈ policy.lowCostModels,
    estimateCost m intent.maxTokens policy.prices = exactCost m intent.maxTokens policy.prices

theorem LowCostExact.of_fits {policy : QosMapperPolicy} {intent : WorkflowIntent}
    {priority : Int}
    (hfits : ∀ m ∈ policy.lowCostModels, ProductFits m intent.maxTokens policy.prices) :
    LowCostExact policy intent priority := by
  have hestimates : ∀ m ∈ policy.lowCostModels, estimateCost m intent.maxTokens policy.prices =
      exactCost m intent.maxTokens policy.prices :=
    fun m hm => estimateCost_eq_iff.mpr (hfits m hm)
  cases hpick : pickLowCost policy intent.maxTokens intent.maxCostMicrounits with
  | none =>
      have hdear := pickLowCost_eq_none.mp hpick
      have hmap : mapObjective qiLowCost priority intent policy =
          .rejected (lowCostRefusal policy intent.maxTokens intent.maxCostMicrounits) := by
        rw [mapObjective, if_pos rfl, hpick]
      refine ⟨?_, fun e he => ?_, hestimates⟩
      · refine iff_of_false (fun ⟨e, he⟩ => ?_) fun ⟨m, hm, c, hcost, hle⟩ => ?_
        · rw [hmap] at he
          cases he
        · exact absurd hle (not_le.mpr (hdear m hm c ((hestimates m hm).trans hcost)))
      · rw [hmap] at he
        cases he
  | some m =>
      obtain ⟨c, hm, hcost, hle, hmin⟩ := pickLowCost_eq_some hpick
      rw [hestimates m hm] at hcost
      have hmap : mapObjective qiLowCost priority intent policy =
          .applied (effective qiLowCost priority (some m) intent.maxTokens) := by
        rw [mapObjective, if_pos rfl, hpick]
      refine ⟨iff_of_true ⟨_, hmap⟩ ⟨m, hm, c, hcost, hle⟩, fun e he => ?_, hestimates⟩
      rw [hmap] at he
      cases he
      refine ⟨m, hm, rfl, c, hcost, hle, fun m' hm' c' hcost' => ?_⟩
      exact hmin m' hm' c' ((hestimates m' hm').trans hcost')

/-- Exact as long as no product of a price and the tokens wraps, and so is the estimate of any
model. -/
theorem lowCostExact_iff (policy : QosMapperPolicy) (intent : WorkflowIntent) (priority : Int) :
    (LowCostExact policy intent priority ↔
      ∀ m ∈ policy.lowCostModels, ProductFits m intent.maxTokens policy.prices) ∧
    ∀ model, estimateCost model intent.maxTokens policy.prices =
        exactCost model intent.maxTokens policy.prices ↔
      ProductFits model intent.maxTokens policy.prices :=
  ⟨⟨fun h m hm => estimateCost_eq_iff.mp (h.estimates m hm), LowCostExact.of_fits⟩,
    fun _ => estimateCost_eq_iff⟩

/-- At 4096 tokens the price of this model makes a product of `2 ^ 64`. -/
def Deployment.dearPolicy : QosMapperPolicy where
  prices :=
    { policyRevision := 1
      per1kOutput := List.toAList [⟨"tiny-fast", 10⟩, ⟨"dear", 4503599627370496⟩] }
  fallbackTemplates := []
  defaultModel := "tiny-fast"
  lowCostModels := ["tiny-fast", "dear"]

open Deployment in
/-- The dear model is chosen for its cost of zero. -/
theorem dear_model_chosen :
    mapObjective qiLowCost 5 intent dearPolicy =
        .applied (effective qiLowCost 5 (some "dear") 4096) ∧
      ¬ Affordable dearPolicy intent "dear" ∧ Affordable dearPolicy intent "tiny-fast" ∧
      ¬ LowCostExact dearPolicy intent 5 := by
  have happlied : mapObjective qiLowCost 5 intent dearPolicy =
      .applied (effective qiLowCost 5 (some "dear") 4096) := by decide +kernel
  have hcost : exactCost "dear" intent.maxTokens dearPolicy.prices =
      some 18446744073709552 := by decide +kernel
  have hdear : ¬ Affordable dearPolicy intent "dear" := by
    rintro ⟨c, hc, hle⟩
    rw [hcost] at hc
    cases hc
    revert hle
    decide
  refine ⟨happlied, hdear, ⟨41, by decide +kernel, by decide⟩, fun h => ?_⟩
  obtain ⟨m, -, hm, c, hc, hle, -⟩ := h.cheapest _ happlied
  cases hm
  exact hdear ⟨c, hc, hle⟩

end DdsOrchestrator.WorkflowEngine
