import Mathlib.Data.Multiset.AddSub
import Mathlib.Data.Prod.Lex
import DdsOrchestrator.Agent.Adaptive

/-!
Samples reach an agent in any order, and again when it joins late. Plans and
announcements are taken by their own revision, so the snapshot is the same in every
order. States are taken by the revision of their plan alone: of two states of one plan
the one that comes last is kept, whichever was published first.
-/

namespace DdsOrchestrator.Agent

open Wire (WorkflowPlan WorkflowState AgentCapabilities)

inductive Delivery where
  | plan (p : WorkflowPlan)
  | state (s : WorkflowState)
  | capabilities (c : AgentCapabilities)
  deriving DecidableEq

namespace Delivery

def plan? : Delivery → Option WorkflowPlan
  | plan p => some p
  | _ => none

def state? : Delivery → Option WorkflowState
  | state s => some s
  | _ => none

def capabilities? : Delivery → Option AgentCapabilities
  | capabilities c => some c
  | _ => none

end Delivery

/-- The order in which states are published: by plan, then by state. -/
def stateOrder (s : WorkflowState) : Lex (Nat × Nat) :=
  toLex (s.planRevision.toNat, s.stateRevision.toNat)

/-- Samples of one key and revision are one sample. -/
structure Consistent (samples : Multiset Delivery) : Prop where
  plans : ∀ p p', .plan p ∈ samples → .plan p' ∈ samples → p.workflowId.val = p'.workflowId.val →
    p.planRevision.toNat = p'.planRevision.toNat → p = p'
  states : ∀ s s', .state s ∈ samples → .state s' ∈ samples →
    s.workflowId.val = s'.workflowId.val → stateOrder s = stateOrder s' → s = s'
  capabilities : ∀ c c', .capabilities c ∈ samples → .capabilities c' ∈ samples →
    c.agentId.val = c'.agentId.val →
    c.announcementRevision.toNat = c'.announcementRevision.toNat → c = c'

namespace AdaptiveSnapshot

def receive (snap : AdaptiveSnapshot) : Delivery → AdaptiveSnapshot
  | .plan p => snap.upsertPlan p
  | .state s => snap.upsertState s
  | .capabilities c => snap.upsertCapabilities c

/-- The snapshot of an agent that has received these samples in this order. -/
def received (order : List Delivery) : AdaptiveSnapshot := order.foldl receive empty

/-- The snapshots hold the same sample under each key. -/
structure Same (snap snap' : AdaptiveSnapshot) : Prop where
  plans : ∀ wf, snap.plans.get? wf = snap'.plans.get? wf
  states : ∀ wf, snap.states.get? wf = snap'.states.get? wf
  capabilities : ∀ agent, snap.capabilities.get? agent = snap'.capabilities.get? agent

/-- Under each key there is the sample of the greatest revision. -/
structure HoldsNewest (snap : AdaptiveSnapshot) (samples : Multiset Delivery) : Prop where
  plans : snap.plans.Newest (·.planRevision.toNat) {p | .plan p ∈ samples}
  states : snap.states.Newest stateOrder {s | .state s ∈ samples}
  capabilities : snap.capabilities.Newest (·.announcementRevision.toNat)
    {c | .capabilities c ∈ samples}

/-- Each topic is received on its own. -/
theorem received_eq (order : List Delivery) :
    received order =
      ⟨.offerAll (·.planRevision.toNat) (order.filterMap (·.plan?)),
        .offerAll (·.planRevision.toNat) (order.filterMap (·.state?)),
        .offerAll (·.announcementRevision.toNat) (order.filterMap (·.capabilities?))⟩ := by
  induction order using List.reverseRecOn with
  | nil => rfl
  | append_singleton order d ih =>
      have hlast : received (order ++ [d]) = (received order).receive d := by simp [received]
      rw [hlast, ih]
      cases d with
      | plan p =>
          simp [receive, upsertPlan, Latest.offerAll, Delivery.plan?, Delivery.state?,
            Delivery.capabilities?]
      | state s =>
          simp [receive, upsertState, Latest.offerAll, Delivery.plan?, Delivery.state?,
            Delivery.capabilities?]
      | capabilities c =>
          simp [receive, upsertCapabilities, Latest.offerAll, Delivery.plan?, Delivery.state?,
            Delivery.capabilities?]

/-- The deliveries of one kind. -/
theorem mem_kind {S : Type} {kind? : Delivery → Option S} {make : S → Delivery}
    (hmake : ∀ d s, kind? d = some s ↔ d = make s) {order : List Delivery} {s : S} :
    s ∈ order.filterMap kind? ↔ make s ∈ order := by
  rw [List.mem_filterMap]
  constructor
  · rintro ⟨d, hd, h⟩
    rw [← (hmake d s).mp h]
    exact hd
  · exact fun h => ⟨make s, h, (hmake _ s).mpr rfl⟩

theorem mem_plans {order : List Delivery} {p : WorkflowPlan} :
    p ∈ order.filterMap (·.plan?) ↔ .plan p ∈ order :=
  mem_kind fun d s => by cases d <;> simp [Delivery.plan?]

theorem mem_states {order : List Delivery} {s : WorkflowState} :
    s ∈ order.filterMap (·.state?) ↔ .state s ∈ order :=
  mem_kind fun d s => by cases d <;> simp [Delivery.state?]

theorem mem_capabilities {order : List Delivery} {c : AgentCapabilities} :
    c ∈ order.filterMap (·.capabilities?) ↔ .capabilities c ∈ order :=
  mem_kind fun d s => by cases d <;> simp [Delivery.capabilities?]

/-- Plans and announcements are the newest, and states those of the newest plan. -/
theorem received_newest {samples : Multiset Delivery} {order : List Delivery}
    (h : (order : Multiset Delivery) = samples) :
    (received order).plans.Newest (·.planRevision.toNat) {p | .plan p ∈ samples} ∧
      (received order).states.Newest (·.planRevision.toNat) {s | .state s ∈ samples} ∧
      (received order).capabilities.Newest (·.announcementRevision.toNat)
        {c | .capabilities c ∈ samples} := by
  subst h
  rw [received_eq]
  simp only [Multiset.mem_coe, ← mem_plans, ← mem_states, ← mem_capabilities]
  exact ⟨Latest.newest_offerAll _ _, Latest.newest_offerAll _ _, Latest.newest_offerAll _ _⟩

/-- The state that comes last is held if no state of a newer plan came before. -/
theorem received_last {order : List Delivery} {s : WorkflowState}
    (h : ∀ u, .state u ∈ order → u.workflowId.val = s.workflowId.val →
      u.planRevision.toNat ≤ s.planRevision.toNat) :
    (received (order ++ [.state s])).states.get? s.workflowId.val = some s := by
  have hlist : (order ++ [Delivery.state s]).filterMap Delivery.state? =
      order.filterMap Delivery.state? ++ [s] := by
    simp [Delivery.state?]
  rw [received_eq]
  show (Latest.offerAll _ ((order ++ [Delivery.state s]).filterMap Delivery.state?)).get? _ = _
  rw [hlist]
  exact Latest.get?_offerAll_concat _ fun u hu => h u (mem_states.mp hu)

end AdaptiveSnapshot

open AdaptiveSnapshot

/-- In whichever order the samples are delivered, the snapshot is the same, and it
holds the newest sample of each key. -/
def Converges (samples : Multiset Delivery) : Prop :=
  (∀ order order' : List Delivery, (order : Multiset Delivery) = samples →
    (order' : Multiset Delivery) = samples → (received order).Same (received order')) ∧
  ∀ order : List Delivery, (order : Multiset Delivery) = samples →
    (received order).HoldsNewest samples

/-- Of the newest plan of each workflow there are states of one revision only. -/
def OneStateRevision (samples : Multiset Delivery) : Prop :=
  ∀ s s', .state s ∈ samples → .state s' ∈ samples → s.workflowId.val = s'.workflowId.val →
    s.planRevision.toNat = s'.planRevision.toNat →
    (∀ u, .state u ∈ samples → u.workflowId.val = s.workflowId.val →
      u.planRevision.toNat ≤ s.planRevision.toNat) →
    s.stateRevision.toNat = s'.stateRevision.toNat

theorem stateOrder_lt {s s' : WorkflowState} (h : s.planRevision.toNat < s'.planRevision.toNat) :
    stateOrder s < stateOrder s' :=
  Prod.Lex.toLex_lt_toLex.mpr (.inl h)

/-- A newest state is not behind another one of its plan, if every order of delivery
ends with the newest. -/
theorem Converges.stateRevision_le {samples : Multiset Delivery} (h : Converges samples)
    {s s' : WorkflowState} (hs : .state s ∈ samples) (hs' : .state s' ∈ samples)
    (hwf : s.workflowId.val = s'.workflowId.val)
    (hplan : s.planRevision.toNat = s'.planRevision.toNat)
    (hhighest : ∀ u, .state u ∈ samples → u.workflowId.val = s.workflowId.val →
      u.planRevision.toNat ≤ s.planRevision.toNat) :
    s'.stateRevision.toNat ≤ s.stateRevision.toNat := by
  obtain ⟨rest, hrest⟩ := Multiset.exists_cons_of_mem hs
  obtain ⟨order, rfl⟩ := Quotient.exists_rep rest
  -- the state comes last
  have horder : ((order ++ [.state s] : List Delivery) : Multiset Delivery) = samples := by
    rw [hrest]
    exact Multiset.coe_eq_coe.mpr (List.perm_append_singleton _ order)
  have hbefore : ∀ u, .state u ∈ order → u.workflowId.val = s.workflowId.val →
      u.planRevision.toNat ≤ s.planRevision.toNat := by
    intro u hu
    apply hhighest u
    rw [← horder, Multiset.mem_coe]
    exact List.mem_append_left _ hu
  have hlast := received_last hbefore
  obtain ⟨w, hw, hle⟩ := (h.2 _ horder).states.covers s' hs'
  rw [← hwf, hlast, Option.some.injEq] at hw
  subst hw
  rcases Prod.Lex.toLex_le_toLex.mp hle with hlt | ⟨-, hle⟩
  · exact absurd hplan (ne_of_gt hlt)
  · exact hle

/-- Consistent samples converge exactly if of the newest plan of each workflow there are
states of one revision only. -/
theorem converges_iff (samples : Multiset Delivery) (hsamples : Consistent samples) :
    Converges samples ↔ OneStateRevision samples := by
  constructor
  · intro h s s' hs hs' hwf hplan hhighest
    apply le_antisymm
    · refine h.stateRevision_le hs' hs hwf.symm hplan.symm fun u hu hku => ?_
      rw [← hplan]
      exact hhighest u hu (hku.trans hwf.symm)
    · exact h.stateRevision_le hs hs' hwf hplan hhighest
  · intro hone
    have hnewest : ∀ order : List Delivery, (order : Multiset Delivery) = samples →
        (received order).HoldsNewest samples := by
      intro order horder
      obtain ⟨hplans, hstates, hcapabilities⟩ := received_newest horder
      refine ⟨hplans, hstates.finer (fun s s' => stateOrder_lt) ?_, hcapabilities⟩
      intro s hs s' hs' hwf hplan hhighest
      rw [stateOrder, stateOrder, hplan, hone s s' hs hs' hwf hplan hhighest]
    refine ⟨fun order order' horder horder' => ?_, hnewest⟩
    have h := hnewest order horder
    have h' := hnewest order' horder'
    exact ⟨h.plans.get?_eq h'.plans fun p hp p' hp' => hsamples.plans p p' hp hp',
      h.states.get?_eq h'.states fun s hs s' hs' => hsamples.states s s' hs hs',
      h.capabilities.get?_eq h'.capabilities fun c hc c' hc' =>
        hsamples.capabilities c c' hc hc'⟩

/-- A state of the workflow `wf` without nodes. -/
def sampleState (stateRevision : UInt32) : WorkflowState where
  workflowId := WorkflowEngine.toS "wf"
  planRevision := 1
  schemaVersion := 1
  stateRevision := stateRevision
  requestId := WorkflowEngine.toS "req"
  effectiveDecisionId := WorkflowEngine.toS ""
  planHash := WorkflowEngine.toS ""
  status := 3
  reasonCode := 0
  nodes := WorkflowEngine.seqN 32 []
  createdAtNs := 1
  updatedAtNs := 1
  expiresAtNs := 100
  cancelledByRequestId := WorkflowEngine.toS ""
  effectiveQosConfigHash := WorkflowEngine.toS ""
  fallbackTemplateId := WorkflowEngine.toS ""

theorem repeated_state_converges :
    Converges {.state (sampleState 1), .state (sampleState 1)} := by
  have hmem : ∀ s, .state s ∈ ({.state (sampleState 1), .state (sampleState 1)} :
      Multiset Delivery) → s = sampleState 1 := by simp
  refine (converges_iff _ ⟨by simp, ?_, by simp⟩).mpr ?_
  · intro s s' hs hs' _ _
    rw [hmem s hs, hmem s' hs']
  · intro s s' hs hs' _ _ _
    rw [hmem s hs, hmem s' hs']

/-- The second state of a plan is replaced by the first one when that comes late. -/
theorem late_state_replaces :
    Consistent {.state (sampleState 1), .state (sampleState 2)} ∧
      ¬ Converges {.state (sampleState 1), .state (sampleState 2)} := by
  have hmem : ∀ s, .state s ∈ ({.state (sampleState 1), .state (sampleState 2)} :
      Multiset Delivery) → s = sampleState 1 ∨ s = sampleState 2 := by simp
  refine ⟨⟨by simp, ?_, by simp⟩, fun h => ?_⟩
  · intro s s' hs hs' _ hrevision
    rcases hmem s hs with rfl | rfl <;> rcases hmem s' hs' with rfl | rfl
    · rfl
    · exact absurd hrevision (by decide)
    · exact absurd hrevision (by decide)
    · rfl
  · have hfirst : .state (sampleState 1) ∈ ({.state (sampleState 1), .state (sampleState 2)} :
        Multiset Delivery) := by simp
    have hsecond : .state (sampleState 2) ∈ ({.state (sampleState 1), .state (sampleState 2)} :
        Multiset Delivery) := by simp
    have hle := h.stateRevision_le hfirst hsecond rfl rfl fun u hu _ => by
      rcases hmem u hu with rfl | rfl <;> decide
    exact absurd hle (by decide)

end DdsOrchestrator.Agent
