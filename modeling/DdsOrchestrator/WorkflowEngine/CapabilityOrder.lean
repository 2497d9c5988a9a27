import DdsOrchestrator.WorkflowEngine.DecisionContract

/-!
The capabilities of a decision in another order. What is refused stays refused, for the same
reason, and what is accepted stays accepted with the same capabilities. But these come in the
order of the decision, and not in the order of the catalog.
-/

namespace DdsOrchestrator.WorkflowEngine

/-! ### Verdicts up to an order -/

/-- The same verdict, but for the text of the detail. -/
def Verdict.SameUpToDetail (v v' : Verdict) : Prop :=
  v = v' ∨ ∃ reason detail detail', v = .reject reason detail ∧ v' = .reject reason detail'

/-- The same verdict, but for the text of the detail and the order of the capabilities. -/
inductive Verdict.SameUpToOrder : Verdict → Verdict → Prop where
  | accept {required required' : List String} (profile priority : Int) (shadow below : Bool)
      (h : required.Perm required') : SameUpToOrder
        (.accept required profile priority shadow below)
        (.accept required' profile priority shadow below)
  | error (reasonCode : Int) : SameUpToOrder (.error reasonCode) (.error reasonCode)
  | reject (reason : RejectReason) (detail detail' : RejectDetail) :
      SameUpToOrder (.reject reason detail) (.reject reason detail')

theorem Verdict.SameUpToOrder.refl (v : Verdict) : v.SameUpToOrder v := by
  cases v with
  | accept required profile priority shadow below => exact .accept _ _ _ _ (.refl required)
  | error reasonCode => exact .error reasonCode
  | reject reason detail => exact .reject reason detail detail

theorem Verdict.SameUpToOrder.accepts {v v' : Verdict} (h : v.SameUpToOrder v')
    (haccepts : v'.Accepts) : v.Accepts := by
  obtain ⟨required, profile, priority, shadow, below, rfl⟩ := haccepts
  cases h with
  | accept _ _ _ _ hperm => exact ⟨_, _, _, _, _, rfl⟩

theorem Verdict.SameUpToOrder.detail {v v' : Verdict} (h : v.SameUpToOrder v')
    (hrefused : ¬ v.Accepts) : v.SameUpToDetail v' := by
  cases h with
  | accept profile priority shadow below hperm =>
      exact absurd ⟨_, _, _, _, _, rfl⟩ hrefused
  | error reasonCode => exact .inl rfl
  | reject reason detail detail' => exact .inr ⟨reason, detail, detail', rfl, rfl⟩

theorem sameUpToOrder_ite {c c' : Prop} [Decidable c] [Decidable c'] {v w v' w' : Verdict}
    (hc : c ↔ c') (hv : v.SameUpToOrder v') (hw : w.SameUpToOrder w') :
    (if c then v else w).SameUpToOrder (if c' then v' else w') := by
  by_cases h : c
  · rw [if_pos h, if_pos (hc.mp h)]
    exact hv
  · rw [if_neg h, if_neg (mt hc.mpr h)]
    exact hw

/-! ### The steps of the validator -/

section

variable {decision : RoutingDecision} {intent : WorkflowIntent} {policy : DecisionPolicy}
  {now : Option UInt64} {items : DdsBoundedSequence CapabilityProbability 16}

/-- The decision with its capabilities in this order. -/
def RoutingDecision.withCapabilities (decision : RoutingDecision)
    (items : DdsBoundedSequence CapabilityProbability 16) : RoutingDecision :=
  { decision with capabilityProbabilities := items }

theorem requiredCapabilities_perm {items items' : List CapabilityProbability}
    (h : items.Perm items') :
    (requiredCapabilities policy items).Perm (requiredCapabilities policy items') :=
  (h.filter _).map _

theorem capabilityScan_error {threshold : F64} {items : List CapabilityProbability}
    {required : List String} {e : RejectReason × RejectDetail}
    (h : capabilityScan threshold items required = .error e) :
    e = (.probabilityOutOfRange, .capabilityRange) := by
  induction items generalizing required with
  | nil => cases h
  | cons c rest ih =>
      rw [capabilityScan] at h
      split at h
      · exact (Except.error.inj h).symm
      · exact ih h

/-- The scan finds a fault in either order or in none. -/
theorem capabilityScan_perm (threshold : F64) {items items' : List CapabilityProbability}
    (h : items.Perm items') :
    (∃ required required', required.Perm required' ∧
      capabilityScan threshold items [] = .ok required ∧
      capabilityScan threshold items' [] = .ok required') ∨
    (capabilityScan threshold items [] = .error (.probabilityOutOfRange, .capabilityRange) ∧
      capabilityScan threshold items' [] = .error (.probabilityOutOfRange, .capabilityRange)) := by
  cases hscan : capabilityScan threshold items [] with
  | ok required =>
      obtain ⟨hunits, rfl⟩ := capabilityScan_iff.mp hscan
      exact .inl ⟨_, _, (h.filter _).map _, rfl,
        capabilityScan_of_units [] fun c hc => hunits c (h.mem_iff.mpr hc)⟩
  | error e =>
      cases hscan' : capabilityScan threshold items' [] with
      | ok required' =>
          have hunits' := (capabilityScan_iff.mp hscan').1
          rw [capabilityScan_of_units [] fun c hc => hunits' c (h.mem_iff.mp hc)] at hscan
          cases hscan
      | error e' =>
          rw [capabilityScan_error hscan, capabilityScan_error hscan']
          exact .inr ⟨rfl, rfl⟩

theorem validateCapabilities_perm
    (h : decision.capabilityProbabilities.items.Perm items.items) :
    (validateCapabilities decision policy).SameUpToOrder
      (validateCapabilities (decision.withCapabilities items) policy) := by
  have hlabels := h.map (·.capabilityId.val)
  have hunknown : catalogV1.unknown
      (decision.capabilityProbabilities.items.map (·.capabilityId.val)) ≠ [] ↔
      catalogV1.unknown (items.items.map (·.capabilityId.val)) ≠ [] := by
    rw [ne_eq, ne_eq, Catalog.unknown_eq_nil, Catalog.unknown_eq_nil]
    exact not_congr (forall_congr' fun l => imp_congr_left hlabels.mem_iff)
  have hduplicates : Catalog.duplicates
      (decision.capabilityProbabilities.items.map (·.capabilityId.val)) ≠ [] ↔
      Catalog.duplicates (items.items.map (·.capabilityId.val)) ≠ [] := by
    rw [ne_eq, ne_eq, duplicates_eq_nil, duplicates_eq_nil]
    exact not_congr hlabels.nodup_iff
  unfold validateCapabilities
  refine sameUpToOrder_ite hunknown (.reject _ _ _) ?_
  refine sameUpToOrder_ite hduplicates (.refl _) ?_
  rw [RoutingDecision.withCapabilities]
  obtain ⟨required, required', hperm, hscan, hscan'⟩ | ⟨hscan, hscan'⟩ :=
    capabilityScan_perm policy.capabilityThreshold h
  · rw [hscan, hscan']
    exact sameUpToOrder_ite Iff.rfl (.refl _) (.accept _ _ _ _ hperm)
  · rw [hscan, hscan']
    exact .refl _

theorem validatePrediction_perm
    (h : decision.capabilityProbabilities.items.Perm items.items) :
    (validatePrediction decision policy).SameUpToOrder
      (validatePrediction (decision.withCapabilities items) policy) := by
  unfold validatePrediction
  rw [RoutingDecision.withCapabilities]
  dsimp only
  split
  · exact .refl _
  refine sameUpToOrder_ite Iff.rfl (.refl _) ?_
  refine sameUpToOrder_ite Iff.rfl (.refl _) ?_
  refine sameUpToOrder_ite Iff.rfl (.refl _) ?_
  refine sameUpToOrder_ite Iff.rfl (.refl _) ?_
  refine sameUpToOrder_ite Iff.rfl (.refl _) ?_
  split
  · exact .refl _
  refine sameUpToOrder_ite Iff.rfl (.refl _) ?_
  refine sameUpToOrder_ite Iff.rfl (.refl _) ?_
  exact validateCapabilities_perm h

/-- The order of the capabilities decides nothing but their order in the verdict. -/
theorem validate_perm (intent : WorkflowIntent) (policy : DecisionPolicy) (now : Option UInt64)
    (h : decision.capabilityProbabilities.items.Perm items.items) :
    (validate decision intent policy now).SameUpToOrder
      (validate (decision.withCapabilities items) intent policy now) := by
  unfold validate
  refine sameUpToOrder_ite Iff.rfl (.refl _) ?_
  refine sameUpToOrder_ite Iff.rfl (.refl _) ?_
  refine sameUpToOrder_ite Iff.rfl (.refl _) ?_
  refine sameUpToOrder_ite Iff.rfl (.refl _) ?_
  refine sameUpToOrder_ite Iff.rfl (.refl _) ?_
  refine sameUpToOrder_ite Iff.rfl (.refl _) ?_
  refine sameUpToOrder_ite Iff.rfl ?_ (.refl _)
  refine sameUpToOrder_ite Iff.rfl (.refl _) ?_
  exact validatePrediction_perm h

/-! ### The order of the catalog -/

/-- Each label stands in the catalog before those listed after it. -/
def InCatalogOrder (labels : List String) : Prop :=
  labels.Pairwise (catalogV1.labels.idxOf · < catalogV1.labels.idxOf ·)

/-- Of two capabilities that reach the threshold, the one that is listed first comes first in
the catalog. -/
def CapabilitiesInOrder (decision : RoutingDecision) (policy : DecisionPolicy) : Prop :=
  decision.capabilityProbabilities.items.Pairwise fun c d =>
    policy.capabilityThreshold.le c.probability = true →
    policy.capabilityThreshold.le d.probability = true →
    catalogV1.labels.idxOf c.capabilityId.val < catalogV1.labels.idxOf d.capabilityId.val

theorem capabilitiesInOrder_iff : CapabilitiesInOrder decision policy ↔
    InCatalogOrder (requiredCapabilities policy decision.capabilityProbabilities.items) := by
  rw [InCatalogOrder, requiredCapabilities, List.pairwise_map, List.pairwise_filter,
    CapabilitiesInOrder]

/-- What an accepted decision requires is in the order of the catalog. -/
def Verdict.ListsInOrder (v : Verdict) : Prop :=
  ∀ required profile priority shadow below,
    v = .accept required profile priority shadow below → InCatalogOrder required

theorem Verdict.listsInOrder_of_not {v : Verdict} (h : ¬ v.Accepts) : v.ListsInOrder :=
  fun _ _ _ _ _ heq => absurd ⟨_, _, _, _, _, heq⟩ h

theorem listsInOrder_iff (h : Consistent decision intent policy now) :
    (validate decision intent policy now).ListsInOrder ↔ CapabilitiesInOrder decision policy := by
  rw [validate_of_consistent h, capabilitiesInOrder_iff, acceptance]
  constructor
  · intro hlists
    exact hlists _ _ _ _ _ rfl
  · intro hordered required profile priority shadow below heq
    cases heq
    exact hordered

/-- What the validator makes of a decision and of the same one with its capabilities in
another order. -/
structure OrderIrrelevant (decision : RoutingDecision)
    (items : DdsBoundedSequence CapabilityProbability 16) (intent : WorkflowIntent)
    (policy : DecisionPolicy) (now : Option UInt64) : Prop where
  same : (validate decision intent policy now).SameUpToDetail
    (validate (decision.withCapabilities items) intent policy now)
  ordered : (validate decision intent policy now).ListsInOrder
  reordered : (validate (decision.withCapabilities items) intent policy now).ListsInOrder

theorem Consistent.withCapabilities (h : Consistent decision intent policy now)
    (hperm : decision.capabilityProbabilities.items.Perm items.items) :
    Consistent (decision.withCapabilities items) intent policy now := by
  refine ⟨{ h.answers with }, { h.qos with }, { h.priority with }, h.confidences,
    ⟨?_, ?_, ?_⟩, h.gate⟩
  · exact fun c hc => h.capabilities.known c (hperm.mem_iff.mpr hc)
  · exact (hperm.map _).nodup_iff.mp h.capabilities.once
  · exact fun c hc => h.capabilities.range c (hperm.mem_iff.mpr hc)

/-- Two lists in the order of the catalog with the same labels. -/
theorem InCatalogOrder.eq_of_perm {labels labels' : List String} (h : InCatalogOrder labels)
    (h' : InCatalogOrder labels') (hperm : labels.Perm labels') : labels = labels' :=
  hperm.eq_of_pairwise (fun _ _ _ _ hlt hgt => absurd hlt (lt_asymm hgt)) h h'

/-- The verdicts are the same, and list in the order of the catalog, exactly if the decision is
not accepted or both orders keep to the catalog. -/
theorem orderIrrelevant_iff (decision : RoutingDecision)
    (items : DdsBoundedSequence CapabilityProbability 16) (intent : WorkflowIntent)
    (policy : DecisionPolicy) (now : Option UInt64)
    (h : decision.capabilityProbabilities.items.Perm items.items) :
    OrderIrrelevant decision items intent policy now ↔
      ¬ Consistent decision intent policy now ∨
        CapabilitiesInOrder decision policy ∧
          CapabilitiesInOrder (decision.withCapabilities items) policy := by
  by_cases hconsistent : Consistent decision intent policy now
  · have hreordered := hconsistent.withCapabilities h
    rw [or_iff_right (not_not.mpr hconsistent), ← listsInOrder_iff hconsistent,
      ← listsInOrder_iff hreordered]
    refine ⟨fun hirrelevant => ⟨hirrelevant.ordered, hirrelevant.reordered⟩,
      fun ⟨hlists, hlists'⟩ => ⟨.inl ?_, hlists, hlists'⟩⟩
    have hrequired := InCatalogOrder.eq_of_perm
      (capabilitiesInOrder_iff.mp ((listsInOrder_iff hconsistent).mp hlists))
      (capabilitiesInOrder_iff.mp ((listsInOrder_iff hreordered).mp hlists'))
      ((h.filter _).map _)
    rw [validate_of_consistent hconsistent, validate_of_consistent hreordered, acceptance,
      hrequired]
    rfl
  · have hsame := validate_perm intent policy now h
    have hrefused := mt accepts_iff.mp hconsistent
    exact iff_of_true ⟨hsame.detail hrefused, Verdict.listsInOrder_of_not hrefused,
      Verdict.listsInOrder_of_not fun haccepts => hrefused (hsame.accepts haccepts)⟩
      (.inl hconsistent)

theorem inCatalogOrder_of_length {labels : List String} (h : labels.length ≤ 1) :
    InCatalogOrder labels := by
  cases labels with
  | nil => exact .nil
  | cons l rest =>
      have hrest : rest = [] := List.length_eq_zero_iff.mp (by simpa using h)
      rw [hrest]
      exact List.pairwise_singleton _ l

theorem length_of_inCatalogOrder {labels : List String} (h : InCatalogOrder labels)
    (hreverse : InCatalogOrder labels.reverse) : labels.length ≤ 1 := by
  rw [InCatalogOrder, List.pairwise_reverse] at hreverse
  match labels, h, hreverse with
  | [], _, _ => exact Nat.zero_le 1
  | [_], _, _ => exact le_rfl
  | l :: k :: rest, h, hreverse =>
      have hlt := List.rel_of_pairwise_cons h List.mem_cons_self
      exact absurd (List.rel_of_pairwise_cons hreverse List.mem_cons_self) (lt_asymm hlt)

/-- Whatever the order, it is irrelevant if at most one capability reaches the threshold. Else
the reverse of the order is not. -/
theorem every_order_iff (decision : RoutingDecision) (intent : WorkflowIntent)
    (policy : DecisionPolicy) (now : Option UInt64) :
    (∀ items : DdsBoundedSequence CapabilityProbability 16,
      decision.capabilityProbabilities.items.Perm items.items →
        OrderIrrelevant decision items intent policy now) ↔
      ¬ Consistent decision intent policy now ∨
        (requiredCapabilities policy decision.capabilityProbabilities.items).length ≤ 1 := by
  by_cases hconsistent : Consistent decision intent policy now
  · rw [or_iff_right (not_not.mpr hconsistent)]
    constructor
    · intro h
      have hbound : decision.capabilityProbabilities.items.reverse.length ≤ 16 := by
        rw [List.length_reverse]
        exact decision.capabilityProbabilities.bounded
      have hperm := decision.capabilityProbabilities.items.reverse_perm.symm
      obtain ⟨hordered, hreverse⟩ := ((orderIrrelevant_iff decision ⟨_, hbound⟩ intent policy now
        hperm).mp (h ⟨_, hbound⟩ hperm)).resolve_left (not_not.mpr hconsistent)
      have hreverse := capabilitiesInOrder_iff.mp hreverse
      apply length_of_inCatalogOrder (capabilitiesInOrder_iff.mp hordered)
      rw [requiredCapabilities, ← List.map_reverse, ← List.filter_reverse]
      exact hreverse
    · intro hlength items hperm
      have hlength' := hlength
      rw [(requiredCapabilities_perm hperm).length_eq] at hlength'
      exact (orderIrrelevant_iff decision items intent policy now hperm).mpr
        (.inr ⟨capabilitiesInOrder_iff.mpr (inCatalogOrder_of_length hlength),
          capabilitiesInOrder_iff.mpr (inCatalogOrder_of_length hlength')⟩)
  · exact iff_of_true (fun items hperm => (orderIrrelevant_iff _ _ _ _ _ hperm).mpr
      (.inl hconsistent)) (.inl hconsistent)

end

namespace Deployment

def research : CapabilityProbability := ⟨toS "research", .finite 1, .finite 1⟩
def review : CapabilityProbability := ⟨toS "code_review", .finite 1, .finite 1⟩
/-- Below the threshold. -/
def translation : CapabilityProbability := ⟨toS "translation", .finite 0, .finite 1⟩

def reviewed : RoutingDecision := decision.withCapabilities (seqN 16 [review, research])
def translated : RoutingDecision := decision.withCapabilities (seqN 16 [review, translation])

end Deployment

open Deployment in
theorem one_required_in_any_order :
    OrderIrrelevant translated (seqN 16 [translation, review]) intent config.decisionPolicy
      (some 10) := by
  have hperm : translated.capabilityProbabilities.items.Perm
      (seqN 16 [translation, review]).items := .swap translation review []
  refine (orderIrrelevant_iff translated _ intent config.decisionPolicy (some 10) hperm).mpr
    (.inr ⟨?_, ?_⟩)
  · rw [capabilitiesInOrder_iff]
    exact inCatalogOrder_of_length (by decide +kernel)
  · rw [capabilitiesInOrder_iff]
    exact inCatalogOrder_of_length (by decide +kernel)

open Deployment in
/-- Two required capabilities come in the order of the decision. -/
theorem required_in_decision_order :
    reviewed.capabilityProbabilities.items.Perm (seqN 16 [research, review]).items ∧
      validate reviewed intent config.decisionPolicy (some 10) =
        .accept ["code_review", "research"] 4 1 false false ∧
      validate (reviewed.withCapabilities (seqN 16 [research, review])) intent
          config.decisionPolicy (some 10) =
        .accept ["research", "code_review"] 4 1 false false ∧
      ¬ OrderIrrelevant reviewed (seqN 16 [research, review]) intent config.decisionPolicy
        (some 10) := by
  have hreordered : validate (reviewed.withCapabilities (seqN 16 [research, review])) intent
      config.decisionPolicy (some 10) =
        .accept ["research", "code_review"] 4 1 false false := by decide +kernel
  refine ⟨.swap research review [], by decide +kernel, hreordered, fun h => ?_⟩
  have hlists := h.reordered _ _ _ _ _ hreordered
  revert hlists
  unfold InCatalogOrder
  decide

end DdsOrchestrator.WorkflowEngine
