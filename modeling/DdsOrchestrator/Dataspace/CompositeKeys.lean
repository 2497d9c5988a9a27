import DdsOrchestrator.Lib.Joined
import DdsOrchestrator.Dataspace.ImmutableTopics
import DdsOrchestrator.Dataspace.TopicCaches

/-!
Samples of different keys. Metrics, decisions, plans and states are held under two parts
joined by a separator. A sample that is admitted leaves what is read under every other
joined key, and the answer to a sample of another key as well, up to the room that is
left: all keys of a topic share its instances and all topics the budget.

The second part of the keys of plans and states is a number, so that different pairs have
different keys. The others are two free texts. Their joined keys may coincide where the
separator is in both first parts or both second parts.
-/

namespace DdsOrchestrator.Dataspace

open Loop (andThen)
open Wire (RoutingDecision WorkflowPlan WorkflowState)

/-! ### Metrics -/

namespace TopicCaches

def readSystemMetric (metricName componentId : String) (c : TopicCaches) : Option SystemMetric :=
  c.systemMetrics.lookup (metricName ++ ":" ++ componentId)

theorem readSystemMetric_upsert_of_ne {s : SystemMetric} {metricName componentId : String}
    (h : metricName ++ ":" ++ componentId ≠ s.metricName ++ ":" ++ s.componentId)
    (c : TopicCaches) :
    (c.upsertSystemMetric s).2.readSystemMetric metricName componentId =
      c.readSystemMetric metricName componentId := by
  unfold upsertSystemMetric upsertKeyed
  split
  · change (Capped.upsert _ (c.held .systemMetric) _ s).lookup _ = _
    rw [Capped.lookup_upsert, if_neg h]
    rfl
  · rfl

end TopicCaches

namespace WorkflowCaches

def readState (workflowId : String) (planRevision : UInt32) (c : WorkflowCaches) :
    Option WorkflowState :=
  c.states.lookup (workflowId ++ "|" ++ toString planRevision.toNat)

/-- The call is refused for lack of room. -/
def NoRoom {α : Type} : Except WorkflowSpaceError α → Prop
  | .error (.capacityFull ..) => True
  | .error (.cacheBudgetExceeded ..) => True
  | _ => False

/-- The answers `before` and `after` to a call are the same unless there is no room in one
of them. Where `fits`, no room is gained. -/
structure SameButRoom {α : Type} (fits : Prop) (before after : Except WorkflowSpaceError α) :
    Prop where
  same : after = before ∨ NoRoom before ∨ NoRoom after
  shrinks : fits → NoRoom before → NoRoom after

variable {sizes : StructSizes} {t : Topic} {s : t.Sample} {c : WorkflowCaches}
  {r : Except WorkflowSpaceError t.Sample × WorkflowCaches}

/-! ### What an admission leaves -/

theorem Outcome.lookup_of_ne (h : Outcome sizes t s c r) {key : String} (hkey : key ≠ t.key s) :
    (r.2.held t).lookup key = (c.held t).lookup key := by
  cases h with
  | refused => rfl
  | repeated => rw [held_send]
  | booked => rw [book, held_store, held_bytesUsed, Map.lookup_insert_if, if_neg hkey]

theorem Outcome.instances_le (h : Outcome sizes t s c r) : c.instances t ≤ r.2.instances t := by
  cases h with
  | refused => exact le_rfl
  | repeated => rw [instances, instances, held_send]
  | booked =>
      rw [instances, instances, book, held_store, AList.keys_insert, List.length_cons,
        List.length_erase]
      simp only [held_bytesUsed]
      split <;> omega

theorem Outcome.bytesUsed_cases (h : Outcome sizes t s c r) :
    r.2.bytesUsed = c.bytesUsed ∨
      ∃ oldBytes, r.2.bytesUsed = c.projected oldBytes (t.bytes sizes s) := by
  cases h with
  | refused => exact .inl rfl
  | repeated => exact .inl rfl
  | booked oldBytes => exact .inr ⟨oldBytes, by simp [book, store, send]⟩

theorem Outcome.limits_eq (h : Outcome sizes t s c r) : r.2.limits = c.limits := by
  cases h with
  | refused => rfl
  | repeated => rfl
  | booked => exact limits_store t _ s _

/-! ### What decides a call -/

/-- The call is refused by what is held under the key of the sample, or repeats it, or
the sample needs room in the place of so many bytes. -/
structure Decides (sizes : StructSizes) (t : Topic) (s : t.Sample)
    (check : Option t.Sample → Except WorkflowSpaceError (Option Nat)) : Prop where
  refusal : ∀ cur e, check cur = .error e → ¬ NoRoom (.error e : Except _ t.Sample)
  answer : ∀ c : WorkflowCaches, (admitSample sizes t s c).1 =
    match check ((c.held t).lookup (t.key s)) with
    | .error e => .error e
    | .ok none => .ok s
    | .ok (some oldBytes) =>
        (c.admitCapacity t.name ((c.held t).lookup (t.key s) = none) (c.instances t)
          (t.limit c.limits) oldBytes (t.bytes sizes s)).1.map fun _ => s

theorem answer_store {topic key : String} {isNewKey : Bool} {count limit oldBytes newBytes : Nat} :
    (andThen (c.admitCapacity topic isNewKey count limit oldBytes newBytes)
      fun _ c => (.ok s, c.store t key s)).1 =
      (c.admitCapacity topic isNewKey count limit oldBytes newBytes).1.map fun _ => s := by
  rcases c.admitCapacity topic isNewKey count limit oldBytes newBytes with ⟨_ | _, _⟩ <;> rfl

/-- There is no room for a sample: of its topic, or in the budget. -/
def Lacks (isNewKey : Bool) (count limit oldBytes newBytes : Nat) (c : WorkflowCaches) : Prop :=
  isNewKey = true ∧ limit ≤ count ∨ c.limits.cacheByteBudget < c.projected oldBytes newBytes

theorem noRoom_of_lacks {topic : String} {isNewKey : Bool} {count limit oldBytes newBytes : Nat}
    (h : c.Lacks isNewKey count limit oldBytes newBytes) :
    NoRoom ((c.admitCapacity topic isNewKey count limit oldBytes newBytes).1.map fun _ => s) := by
  unfold admitCapacity
  split_ifs with hfull
  · trivial
  · have hbudget := h.resolve_left hfull
    rw [projected] at hbudget
    simp only [if_pos hbudget]
    trivial

theorem admitted_of_not_lacks {topic : String} {isNewKey : Bool}
    {count limit oldBytes newBytes : Nat}
    (h : ¬ c.Lacks isNewKey count limit oldBytes newBytes) :
    (c.admitCapacity topic isNewKey count limit oldBytes newBytes).1.map (fun _ => s) = .ok s := by
  obtain ⟨hroom, hbudget⟩ := not_or.mp h
  rw [projected] at hbudget
  unfold admitCapacity
  rw [if_neg hroom]
  simp only [if_neg hbudget]
  rfl

theorem decides_revisioned (revision : t.Sample → Nat) (conflicts : t.Sample → t.Sample → Bool)
    (h : ∀ c : WorkflowCaches, admitSample sizes t s c =
      admitRevisioned t (t.limit c.limits) (t.schemaVersion s) (t.key s) revision conflicts
        (t.bytes sizes) s c) : ∃ check, Decides sizes t s check := by
  refine ⟨fun cur => if t.schemaVersion s ≠ schemaVersionV1 then
      .error (.invalidSchemaVersion t.name schemaVersionV1 (t.schemaVersion s))
    else cur.elim (.ok (some 0)) fun cur =>
      if revision s < revision cur then
        .error (.stale t.name (t.key s) (revision cur) (revision s))
      else if revision s = revision cur ∧ conflicts s cur then
        .error (.conflict t.name (t.key s) (revision s))
      else .ok (some (t.bytes sizes cur)), ⟨?_, ?_⟩⟩
  · intro cur e he
    split_ifs at he with hversion
    · cases he
      exact id
    · cases cur with
      | none => cases he
      | some cur =>
          rw [Option.elim_some] at he
          split_ifs at he <;> cases he <;> exact id
  · intro c
    rw [h c]
    unfold admitRevisioned
    split_ifs with hversion
    · rfl
    · cases hcur : (c.held t).lookup (t.key s) with
      | none =>
          rw [Option.elim_none]
          dsimp only
          rw [answer_store]
          simp [AList.lookup_eq_none.mp hcur]
      | some cur =>
          have hmem : t.key s ∈ c.held t := Map.mem_iff_lookup.mpr ⟨cur, hcur⟩
          rw [Option.elim_some]
          dsimp only
          split_ifs with hstale hconflict
          · rfl
          · rfl
          · dsimp only
            rw [answer_store]
            simp [hmem]

theorem decides_immutable (revision : Nat) (conflicts : t.Sample → t.Sample → Bool)
    (h : ∀ c : WorkflowCaches, admitSample sizes t s c =
      admitImmutable t (t.limit c.limits) (t.schemaVersion s) (t.key s) revision conflicts
        (t.bytes sizes s) s c) : ∃ check, Decides sizes t s check := by
  refine ⟨fun cur => if t.schemaVersion s ≠ schemaVersionV1 then
      .error (.invalidSchemaVersion t.name schemaVersionV1 (t.schemaVersion s))
    else cur.elim (.ok (some 0)) fun cur =>
      if conflicts s cur then .error (.conflict t.name (t.key s) revision) else .ok none,
    ⟨?_, ?_⟩⟩
  · intro cur e he
    split_ifs at he with hversion
    · cases he
      exact id
    · cases cur with
      | none => cases he
      | some cur =>
          rw [Option.elim_some] at he
          split_ifs at he
          cases he
          exact id
  · intro c
    rw [h c]
    unfold admitImmutable
    split_ifs with hversion
    · rfl
    · cases hcur : (c.held t).lookup (t.key s) with
      | none =>
          rw [Option.elim_none]
          dsimp only
          rw [answer_store]
          rfl
      | some cur =>
          rw [Option.elim_some]
          dsimp only
          split_ifs <;> rfl

variable (sizes t s) in
theorem exists_decides : ∃ check, Decides sizes t s check := by
  cases t with
  | intent =>
      exact decides_revisioned (fun s : Wire.WorkflowIntent => s.intentRevision.toNat)
        (fun s cur : Wire.WorkflowIntent => s.payloadHash ≠ cur.payloadHash) fun _ => rfl
  | decision =>
      exact decides_immutable 0
        (fun s cur : RoutingDecision => s.payloadHash ≠ cur.payloadHash) fun _ => rfl
  | capabilities =>
      exact decides_revisioned (fun s : Wire.AgentCapabilities => s.announcementRevision.toNat)
        (fun _ _ => false) fun _ => rfl
  | plan =>
      exact decides_immutable (WorkflowPlan.planRevision s).toNat
        (fun s cur : WorkflowPlan => s.planHash ≠ cur.planHash) fun _ => rfl
  | state =>
      exact decides_revisioned (fun s : WorkflowState => s.stateRevision.toNat)
        (fun s cur : WorkflowState => s ≠ cur) fun _ => rfl

/-- Room that was lacking is lacking after the admission of another sample, unless the
count of bytes wraps. -/
theorem Outcome.lacks (h : Outcome sizes t s c r) {isNewKey : Bool} {limit oldBytes newBytes : Nat}
    (hfits : c.bytesUsed + t.bytes sizes s + newBytes < UInt64.size)
    (hlacks : c.Lacks isNewKey (c.instances t) limit oldBytes newBytes) :
    r.2.Lacks isNewKey (r.2.instances t) limit oldBytes newBytes := by
  rcases hlacks with ⟨hnew, hfull⟩ | hbudget
  · exact .inl ⟨hnew, hfull.trans h.instances_le⟩
  · refine .inr ?_
    have hused : c.bytesUsed ≤ r.2.bytesUsed ∧
        r.2.bytesUsed ≤ c.bytesUsed + t.bytes sizes s := by
      rcases h.bytesUsed_cases with heq | ⟨old, heq⟩
      · omega
      · rw [projected, Nat.mod_eq_of_lt (by omega)] at heq
        omega
    rw [projected, Nat.mod_eq_of_lt (by omega)] at hbudget
    rw [h.limits_eq, projected, Nat.mod_eq_of_lt (by omega)]
    omega

/-- A sample changes the answer to one of another key only in the room that is left. -/
theorem answer_admit_of_ne {u : t.Sample} (hkey : t.key u ≠ t.key s) (c : WorkflowCaches) :
    SameButRoom (c.bytesUsed + t.bytes sizes s + t.bytes sizes u < UInt64.size)
      (admitSample sizes t u c).1 (admitSample sizes t u (admitSample sizes t s c).2).1 := by
  obtain ⟨check, hcheck⟩ := exists_decides sizes t u
  have houtcome := admitSample_outcome sizes t s c
  rw [hcheck.answer c, hcheck.answer, houtcome.lookup_of_ne hkey, houtcome.limits_eq]
  cases check ((c.held t).lookup (t.key u)) with
  | error e => exact ⟨.inl rfl, fun _ h => h⟩
  | ok old =>
      cases old with
      | none => exact ⟨.inl rfl, fun _ h => h⟩
      | some old =>
          dsimp only
          constructor
          · by_cases hbefore : c.Lacks (decide ((c.held t).lookup (t.key u) = none))
                (c.instances t) (t.limit c.limits) old (t.bytes sizes u)
            · exact .inr (.inl (noRoom_of_lacks hbefore))
            · by_cases hafter : (admitSample sizes t s c).2.Lacks
                  (decide ((c.held t).lookup (t.key u) = none))
                  ((admitSample sizes t s c).2.instances t) (t.limit c.limits) old
                  (t.bytes sizes u)
              · exact .inr (.inr (noRoom_of_lacks hafter))
              · exact .inl (by rw [admitted_of_not_lacks hbefore, admitted_of_not_lacks hafter])
          · intro hfits hbefore
            refine noRoom_of_lacks (houtcome.lacks hfits ?_)
            by_contra hlacks
            rw [admitted_of_not_lacks hlacks] at hbefore
            exact hbefore

/-! ### Different pairs -/

/-- Texts joined by a separator that is not in the first ones, or not in the last ones, are
joined differently. -/
theorem joined_ne {a b x y : String} {sep : Char} (hne : (a, x) ≠ (b, y))
    (h : (sep ∉ a.toList ∧ sep ∉ b.toList) ∨ (sep ∉ x.toList ∧ sep ∉ y.toList)) :
    a ++ String.singleton sep ++ x ≠ b ++ String.singleton sep ++ y := by
  intro heq
  refine hne ?_
  have hlist := congrArg String.toList heq
  simp only [String.toList_append, String.toList_singleton] at hlist
  have hparts : a.toList = b.toList ∧ x.toList = y.toList := by
    rcases h with ⟨ha, hb⟩ | ⟨hx, hy⟩
    · exact (Joined.join_first_inj ha hb).mp hlist
    · exact (Joined.join_last_inj hx hy).mp hlist
  rw [String.toList_inj.mp hparts.1, String.toList_inj.mp hparts.2]

theorem numbered_ne {a b : String} {n m : UInt32} (hne : (a, n) ≠ (b, m)) :
    a ++ "|" ++ toString n.toNat ≠ b ++ "|" ++ toString m.toNat := by
  intro heq
  obtain ⟨hab, hnm⟩ := (Joined.numbered_inj (c := '|') rfl).mp heq
  exact hne (by rw [hab, UInt32.toNat_inj.mp hnm])

/-- A sample leaves what is read under every other joined key and, but for the room, the
answer to every sample of another key. Different pairs have different keys where the
second part is a number, and else if the separator is in neither first part or in neither
second part. -/
theorem composite_keys_frame (sizes : StructSizes) :
    (∀ (s : SystemMetric) (metricName componentId : String) (c : TopicCaches),
      metricName ++ ":" ++ componentId ≠ s.metricName ++ ":" ++ s.componentId →
        (c.upsertSystemMetric s).2.readSystemMetric metricName componentId =
          c.readSystemMetric metricName componentId) ∧
    (∀ (s : RoutingDecision) (requestId decisionId : String) (c : WorkflowCaches),
      requestId ++ "|" ++ decisionId ≠ s.requestId.val ++ "|" ++ s.decisionId.val →
        (admitDecision sizes s c).2.readDecision requestId decisionId =
          c.readDecision requestId decisionId ∧
        ∀ u : RoutingDecision, u.requestId.val = requestId → u.decisionId.val = decisionId →
          SameButRoom (c.bytesUsed + BytesEstimate.decision sizes s +
              BytesEstimate.decision sizes u < UInt64.size)
            (admitDecision sizes u c).1 (admitDecision sizes u (admitDecision sizes s c).2).1) ∧
    (∀ (s : WorkflowPlan) (workflowId : String) (planRevision : UInt32) (c : WorkflowCaches),
      (workflowId, planRevision) ≠ (s.workflowId.val, s.planRevision) →
        (admitPlan sizes s c).2.readPlan workflowId planRevision =
          c.readPlan workflowId planRevision ∧
        ∀ u : WorkflowPlan, u.workflowId.val = workflowId → u.planRevision = planRevision →
          SameButRoom (c.bytesUsed + BytesEstimate.plan sizes s +
              BytesEstimate.plan sizes u < UInt64.size)
            (admitPlan sizes u c).1 (admitPlan sizes u (admitPlan sizes s c).2).1) ∧
    (∀ (s : WorkflowState) (workflowId : String) (planRevision : UInt32) (c : WorkflowCaches),
      (workflowId, planRevision) ≠ (s.workflowId.val, s.planRevision) →
        (admitState sizes s c).2.readState workflowId planRevision =
          c.readState workflowId planRevision ∧
        ∀ u : WorkflowState, u.workflowId.val = workflowId → u.planRevision = planRevision →
          SameButRoom (c.bytesUsed + BytesEstimate.state sizes s +
              BytesEstimate.state sizes u < UInt64.size)
            (admitState sizes u c).1 (admitState sizes u (admitState sizes s c).2).1) ∧
    ∀ (sep : Char) (a b x y : String), (a, x) ≠ (b, y) →
      (sep ∉ a.toList ∧ sep ∉ b.toList) ∨ (sep ∉ x.toList ∧ sep ∉ y.toList) →
        a ++ String.singleton sep ++ x ≠ b ++ String.singleton sep ++ y := by
  refine ⟨fun s _ _ c h => TopicCaches.readSystemMetric_upsert_of_ne h c, ?_, ?_, ?_,
    fun sep a b x y => joined_ne⟩
  · intro s requestId decisionId c h
    refine ⟨(admitSample_outcome sizes .decision s c).lookup_of_ne h, ?_⟩
    rintro u rfl rfl
    exact answer_admit_of_ne (t := .decision) h c
  · intro s workflowId planRevision c h
    refine ⟨(admitSample_outcome sizes .plan s c).lookup_of_ne (numbered_ne h), ?_⟩
    rintro u rfl rfl
    exact answer_admit_of_ne (t := .plan) (numbered_ne h) c
  · intro s workflowId planRevision c h
    refine ⟨(admitSample_outcome sizes .state s c).lookup_of_ne (numbered_ne h), ?_⟩
    rintro u rfl rfl
    exact answer_admit_of_ne (t := .state) (numbered_ne h) c

/-- A decision without alternatives. -/
def decisionOf (requestId decisionId : String) : RoutingDecision where
  requestId := WorkflowEngine.toS requestId
  decisionId := WorkflowEngine.toS decisionId
  workflowId := WorkflowEngine.toS "wf"
  schemaVersion := 1
  intentRevision := 1
  checkpointRevision := WorkflowEngine.toS ""
  questionsRevision := 1
  policyRevision := 1
  capabilityCatalogRevision := 1
  qosProfile := 0
  qosProbabilities := WorkflowEngine.seqN 5 []
  capabilityProbabilities := WorkflowEngine.seqN 16 []
  requiresPlanningProbability := .finite 0
  priorityScore := .finite 0
  priorityProbabilities := WorkflowEngine.seqN 3 []
  confidence := .finite 1
  answerConfidence := .finite 1
  calibrationRevision := WorkflowEngine.toS "cal"
  createdAtNs := 1
  validUntilNs := 100
  decisionStatus := 0
  reasonCode := 0
  payloadHash := WorkflowEngine.toS "hash"
  producerId := WorkflowEngine.toS "producer"
  modelId := WorkflowEngine.toS "model"
  evidenceDigest := WorkflowEngine.toS ""

/-- Room for one decision. -/
def oneDecision : SpaceLimits := { SpaceLimits.default with maxInstancesDecision := 1 }

/-- Where there is room for one decision, the first takes it from every other pair. And two
pairs of texts with separators in them may have one key. -/
theorem composite_keys_not_isolated :
    (admitDecision sampleSizes (decisionOf "b" "1") (new oneDecision)).1 =
      .ok (decisionOf "b" "1") ∧
    (admitDecision sampleSizes (decisionOf "b" "1")
      (admitDecision sampleSizes (decisionOf "a" "1") (new oneDecision)).2).1 =
        .error (.capacityFull "Routing.Decision" 1 1) ∧
    (new SpaceLimits.default).readDecision "a" "b|c" = none ∧
    (admitDecision sampleSizes (decisionOf "a|b" "c")
      (new SpaceLimits.default)).2.readDecision "a" "b|c" = some (decisionOf "a|b" "c") :=
  ⟨rfl, rfl, rfl, rfl⟩

end WorkflowCaches

end DdsOrchestrator.Dataspace
