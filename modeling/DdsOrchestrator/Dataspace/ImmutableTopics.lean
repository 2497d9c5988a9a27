import DdsOrchestrator.Dataspace.Accounting

/-!
What subscribers get of decisions and plans. The caches keep the first sample of a key
and tell a replay by its hash alone, and they return and broadcast the replay as it came.
So a subscriber gets what a reader gets exactly in the runs in which every sample taken
for a replay is the sample that is held.
-/

namespace DdsOrchestrator.Dataspace

open Wire (RoutingDecision WorkflowPlan)

namespace WorkflowCaches

def readDecision (requestId decisionId : String) (c : WorkflowCaches) : Option RoutingDecision :=
  c.decisions.lookup (requestId ++ "|" ++ decisionId)

def readPlan (workflowId : String) (planRevision : UInt32) (c : WorkflowCaches) :
    Option WorkflowPlan :=
  c.plans.lookup (workflowId ++ "|" ++ toString planRevision.toNat)

/-- Of a decision and of a plan, the sample is what is read back for its key. -/
def ReadBack (c : WorkflowCaches) : Sigma Topic.Sample → Prop
  | ⟨.decision, a⟩ => c.readDecision a.requestId.val a.decisionId.val = some a
  | ⟨.plan, a⟩ => c.readPlan a.workflowId.val a.planRevision = some a
  | ⟨.intent, _⟩ => True
  | ⟨.capabilities, _⟩ => True
  | ⟨.state, _⟩ => True

variable (sizes : StructSizes)

/-- What the call returns and what it broadcasts is read back. -/
structure DeliversStored (c : WorkflowCaches) (call : Sigma Topic.Sample) : Prop where
  returned : ∀ a, (admitSample sizes call.1 call.2 c).1 = .ok a →
    (c.step sizes call).ReadBack ⟨call.1, a⟩
  broadcast : ∀ new, (c.step sizes call).sent = c.sent ++ new →
    ∀ b ∈ new, (c.step sizes call).ReadBack b

/-- No key has been broadcast with two contents. -/
structure OneContent (c : WorkflowCaches) : Prop where
  decisions : ∀ a b : RoutingDecision, ⟨.decision, a⟩ ∈ c.sent → ⟨.decision, b⟩ ∈ c.sent →
    a.requestId = b.requestId → a.decisionId = b.decisionId → a = b
  plans : ∀ a b : WorkflowPlan, ⟨.plan, a⟩ ∈ c.sent → ⟨.plan, b⟩ ∈ c.sent →
    a.workflowId = b.workflowId → a.planRevision = b.planRevision → a = b

/-- A sample of the right version that is taken for the one held is that one. -/
def RepeatsHeld (c : WorkflowCaches) (call : Sigma Topic.Sample) : Prop :=
  ∀ cur, (c.held call.1).lookup (call.1.key call.2) = some cur →
    call.1.schemaVersion call.2 = schemaVersionV1 → call.1.Repeats cur call.2 → call.2 = cur

variable {sizes} {c : WorkflowCaches} {call : Sigma Topic.Sample}

/-- A sample that is held under its key is read back. -/
theorem readBack_of_held : ∀ {b : Sigma Topic.Sample},
    (c.held b.1).lookup (b.1.key b.2) = some b.2 → c.ReadBack b
  | ⟨.intent, _⟩, _ => trivial
  | ⟨.decision, _⟩, h => h
  | ⟨.capabilities, _⟩, _ => trivial
  | ⟨.plan, _⟩, h => h
  | ⟨.state, _⟩, _ => trivial

/-- Replays are of decisions and plans. -/
theorem held_of_readBack : ∀ {t : Topic} {cur s : t.Sample}, t.Repeats cur s →
    c.ReadBack ⟨t, s⟩ → (c.held t).lookup (t.key s) = some s
  | .intent, _, _, h, _ => h.elim
  | .decision, _, _, _, h => h
  | .capabilities, _, _, h, _ => h.elim
  | .plan, _, _, _, h => h
  | .state, _, _, h, _ => h.elim

theorem readBack_send {t : Topic} {s : t.Sample} {b : Sigma Topic.Sample} :
    (c.send t s).ReadBack b ↔ c.ReadBack b := by
  obtain ⟨u, a⟩ := b
  cases u <;> exact Iff.rfl

/-- A call delivers what is stored if and only if its sample is not taken for another
one. -/
theorem deliversStored_iff : DeliversStored sizes c call ↔ RepeatsHeld c call := by
  obtain ⟨t, s⟩ := call
  have houtcome := admitSample_outcome sizes t s c
  constructor
  · intro h cur hcur hschema hrepeats
    have hreturned := h.returned
    unfold step at hreturned
    generalize admitSample sizes t s c = r at houtcome hreturned
    cases houtcome with
    | refused e hbooks hnot => exact absurd hrepeats (hnot cur hcur hschema)
    | repeated cur' hcur' =>
        have hread := readBack_send.mp (hreturned s rfl)
        rw [held_of_readBack hrepeats hread, Option.some.injEq] at hcur
        exact hcur
    | booked oldBytes hbooks =>
        exact absurd hrepeats (hbooks.place.givesWay hcur).not_repeats
  · intro h
    -- whatever comes out is the sample of the call, and it is held afterwards
    have hall : ∀ r, Outcome sizes t s c r → (∀ a, r.1 = .ok a → r.2.ReadBack ⟨t, a⟩) ∧
        ∀ new, r.2.sent = c.sent ++ new → ∀ b ∈ new, r.2.ReadBack b := by
      intro r hr
      have hone : ∀ {new}, c.sent ++ [⟨t, s⟩] = c.sent ++ new → ∀ b ∈ new, b = ⟨t, s⟩ := by
        intro new hnew b hb
        rw [← List.append_cancel_left hnew] at hb
        exact List.mem_singleton.mp hb
      cases hr with
      | refused e =>
          refine ⟨nofun, fun new hnew b hb => ?_⟩
          obtain rfl : new = [] := List.self_eq_append_right.mp hnew
          cases hb
      | repeated cur hcur hschema hrepeats =>
          have hread : (c.send t s).ReadBack ⟨t, s⟩ := by
            apply readBack_send.mpr
            apply readBack_of_held
            obtain rfl : s = cur := h cur hcur hschema hrepeats
            exact hcur
          refine ⟨fun a ha => ?_, fun new hnew b hb => ?_⟩
          · cases ha
            exact hread
          · rw [hone hnew b hb]
            exact hread
      | booked oldBytes hbooks =>
          have hread : (book sizes t s c oldBytes).ReadBack ⟨t, s⟩ := readBack_of_held held_book
          refine ⟨fun a ha => ?_, fun new hnew b hb => ?_⟩
          · cases ha
            exact hread
          · rw [sent_book] at hnew
            rw [hone hnew b hb]
            exact hread
    exact ⟨(hall _ houtcome).1, (hall _ houtcome).2⟩

/-- What has been broadcast of decisions and plans is what is held. -/
structure SentHeld (c : WorkflowCaches) : Prop where
  decisions : ∀ a : RoutingDecision, ⟨.decision, a⟩ ∈ c.sent →
    (c.held .decision).lookup (Topic.decision.key a) = some a
  plans : ∀ a : WorkflowPlan, ⟨.plan, a⟩ ∈ c.sent →
    (c.held .plan).lookup (Topic.plan.key a) = some a

theorem SentHeld.oneContent (h : c.SentHeld) : c.OneContent := by
  constructor
  · intro a b ha hb hrequest hdecision
    have hkey : Topic.decision.key a = Topic.decision.key b := by
      simp only [Topic.key, hrequest, hdecision]
    have heq := h.decisions a ha
    rw [hkey, h.decisions b hb] at heq
    exact (Option.some.inj heq).symm
  · intro a b ha hb hworkflow hrevision
    have hkey : Topic.plan.key a = Topic.plan.key b := by
      simp only [Topic.key, hworkflow, hrevision]
    have heq := h.plans a ha
    rw [hkey, h.plans b hb] at heq
    exact (Option.some.inj heq).symm

theorem sent_step (sizes : StructSizes) (c : WorkflowCaches) (call : Sigma Topic.Sample) :
    ∃ new, (c.step sizes call).sent = c.sent ++ new := by
  have houtcome := admitSample_outcome sizes call.1 call.2 c
  unfold step
  generalize admitSample sizes call.1 call.2 c = r at houtcome
  cases houtcome with
  | refused e => exact ⟨[], (List.append_nil _).symm⟩
  | repeated cur => exact ⟨_, rfl⟩
  | booked oldBytes => exact ⟨_, sent_book⟩

/-- Every step broadcasts what it stores, and what is held stays. -/
theorem SentHeld.step (h : c.SentHeld) (hcall : RepeatsHeld c call) :
    (c.step sizes call).SentHeld := by
  obtain ⟨new, hnew⟩ := sent_step sizes c call
  have hstored := (deliversStored_iff.mpr hcall).broadcast new hnew
  have hgrows := (admit_change sizes call.1 call.2 c).grows
  have hkeep : ∀ u, ∀ a : u.Sample, (∀ cur s, u.Follows cur s → s = cur) →
      (⟨u, a⟩ ∈ c.sent → (c.held u).lookup (u.key a) = some a) →
      ((c.step sizes call).ReadBack ⟨u, a⟩ →
        ((c.step sizes call).held u).lookup (u.key a) = some a) →
      ⟨u, a⟩ ∈ (c.step sizes call).sent →
      ((c.step sizes call).held u).lookup (u.key a) = some a := by
    intro u a hfollows hheld hread ha
    rw [hnew] at ha
    rcases List.mem_append.mp ha with hsent | hlast
    · obtain ⟨s, hs, hsame⟩ := hgrows u (u.key a) a (hheld hsent)
      rw [hfollows a s hsame] at hs
      exact hs
    · exact hread (hstored ⟨u, a⟩ hlast)
  exact ⟨fun a => hkeep .decision a (fun _ _ h => h) (h.decisions a) id,
    fun a => hkeep .plan a (fun _ _ h => h) (h.plans a) id⟩

/-- Whatever is returned or broadcast of decisions and plans is what is read back, and one
content for each key, exactly in the runs in which replays are of the sample held. -/
theorem delivered_immutably_iff (sizes : StructSizes) (limits : SpaceLimits)
    (calls : List (Sigma Topic.Sample)) :
    (Machine.Along (step sizes) (DeliversStored sizes) (new limits) calls ∧
        ((new limits).run sizes calls).OneContent) ↔
      Machine.Along (step sizes) RepeatsHeld (new limits) calls := by
  constructor
  · rintro ⟨h, -⟩
    exact h.mono fun c call => deliversStored_iff.mp
  · intro h
    refine ⟨h.mono fun c call => deliversStored_iff.mpr, ?_⟩
    have hnew : (new limits).SentHeld :=
      ⟨fun a ha => absurd ha List.not_mem_nil, fun a ha => absurd ha List.not_mem_nil⟩
    have hsent : (calls.foldl (step sizes) (new limits)).SentHeld :=
      h.invariant (I := SentHeld) hnew fun c call hc hcall => hc.step hcall
    exact hsent.oneContent

/-- A plan without nodes, as the engine publishes it: with an empty hash and the time of
the publication. -/
def publishedPlan (createdAtNs : UInt64) : WorkflowPlan where
  workflowId := WorkflowEngine.toS "wf"
  planRevision := 1
  schemaVersion := 1
  requestId := WorkflowEngine.toS "req"
  intentRevision := 1
  effectiveDecisionId := WorkflowEngine.toS "dec"
  policyRevision := 0
  capabilityCatalogRevision := 1
  plannerId := WorkflowEngine.toS "static-template"
  plannerRevision := WorkflowEngine.toS "direct-v1"
  createdAtNs := createdAtNs
  deadlineNs := 100
  qosProfile := 0
  nodes := WorkflowEngine.seqN 32 []
  planHash := WorkflowEngine.toS ""

/-- The plan published again after a restart reaches the subscribers with another content
than the one that is read. -/
theorem republished_plan_differs :
    (admitSample sampleSizes .plan (publishedPlan 2)
        ((new SpaceLimits.default).run sampleSizes [⟨.plan, publishedPlan 1⟩])).1 =
      .ok (publishedPlan 2) ∧
    ((new SpaceLimits.default).run sampleSizes
      [⟨.plan, publishedPlan 1⟩, ⟨.plan, publishedPlan 2⟩]).sent =
        [⟨.plan, publishedPlan 1⟩, ⟨.plan, publishedPlan 2⟩] ∧
    ((new SpaceLimits.default).run sampleSizes
      [⟨.plan, publishedPlan 1⟩, ⟨.plan, publishedPlan 2⟩]).readPlan "wf" 1 =
        some (publishedPlan 1) ∧
    publishedPlan 1 ≠ publishedPlan 2 :=
  ⟨rfl, rfl, rfl, by decide⟩

end WorkflowCaches

end DdsOrchestrator.Dataspace
