import DdsOrchestrator.Dataspace.WorkflowCaches

/-!
The count of bytes against the samples that are stored. A sample that is taken in books
what it is larger than the one it replaces, and nothing where it is smaller, so that the
count stays at the highest size each key ever had. It is the sum of the samples exactly
in the runs in which no sample is replaced by a smaller one.
-/

namespace DdsOrchestrator.Dataspace

open Loop (andThen)
open Wire (WorkflowIntent RoutingDecision AgentCapabilities WorkflowPlan WorkflowState)

namespace Topic

/-- The key under which a sample is held. -/
def key : (t : Topic) → t.Sample → String
  | intent, s => s.requestId.val
  | decision, s => s.requestId.val ++ "|" ++ s.decisionId.val
  | capabilities, s => s.agentId.val
  | plan, s => s.workflowId.val ++ "|" ++ toString s.planRevision.toNat
  | state, s => s.workflowId.val ++ "|" ++ toString s.planRevision.toNat

def schemaVersion : (t : Topic) → t.Sample → UInt16
  | intent, s => s.schemaVersion
  | decision, s => s.schemaVersion
  | capabilities, s => s.schemaVersion
  | plan, s => s.schemaVersion
  | state, s => s.schemaVersion

def bytes (sizes : StructSizes) : (t : Topic) → t.Sample → Nat
  | intent, s => BytesEstimate.intent sizes s
  | decision, s => BytesEstimate.decision sizes s
  | capabilities, s => BytesEstimate.capabilities sizes s
  | plan, s => BytesEstimate.plan sizes s
  | state, s => BytesEstimate.state sizes s

/-- The sample held gives way to the one that comes. -/
def GivesWay : (t : Topic) → t.Sample → t.Sample → Prop
  | intent, cur, s => ¬ s.intentRevision.toNat < cur.intentRevision.toNat ∧
      ¬ (s.intentRevision.toNat = cur.intentRevision.toNat ∧ s.payloadHash ≠ cur.payloadHash)
  | decision, _, _ => False
  | capabilities, cur, s => ¬ s.announcementRevision.toNat < cur.announcementRevision.toNat
  | plan, _, _ => False
  | state, cur, s => ¬ s.stateRevision.toNat < cur.stateRevision.toNat ∧
      ¬ (s.stateRevision.toNat = cur.stateRevision.toNat ∧ s ≠ cur)

/-- The sample that comes is taken for the one held. -/
def Repeats : (t : Topic) → t.Sample → t.Sample → Prop
  | intent, _, _ => False
  | decision, cur, s => s.payloadHash = cur.payloadHash
  | capabilities, _, _ => False
  | plan, cur, s => s.planHash = cur.planHash
  | state, _, _ => False

theorem GivesWay.not_repeats : ∀ {t : Topic} {cur s : t.Sample},
    t.GivesWay cur s → ¬ t.Repeats cur s
  | .intent, _, _, _ => id
  | .decision, _, _, h => h.elim
  | .capabilities, _, _, _ => id
  | .plan, _, _, h => h.elim
  | .state, _, _, _ => id

end Topic

namespace WorkflowCaches

variable (sizes : StructSizes)

/-! ### A call in detail -/

/-- What is booked after a sample of `newBytes` in the place of one of `oldBytes`. -/
def projected (c : WorkflowCaches) (oldBytes newBytes : Nat) : Nat :=
  (c.bytesUsed + (newBytes - oldBytes)) % UInt64.size

/-- The sample has a place: under a new key, or that of a sample of `oldBytes` bytes. -/
inductive Place (t : Topic) (s : t.Sample) (c : WorkflowCaches) : Nat → Prop
  | fresh (hnone : (c.held t).lookup (t.key s) = none) : Place t s c 0
  | taken (cur : t.Sample) (hcur : (c.held t).lookup (t.key s) = some cur)
      (hway : t.GivesWay cur s) : Place t s c (t.bytes sizes cur)

/-- The sample passes every check, in the place of `oldBytes` bytes. -/
structure Books (t : Topic) (s : t.Sample) (c : WorkflowCaches) (oldBytes : Nat) : Prop where
  schema : t.schemaVersion s = schemaVersionV1
  place : Place sizes t s c oldBytes
  room : (c.held t).lookup (t.key s) = none → c.instances t < t.limit c.limits
  budget : c.projected oldBytes (t.bytes sizes s) ≤ c.limits.cacheByteBudget

/-- The caches with the sample booked and stored. -/
def book (t : Topic) (s : t.Sample) (c : WorkflowCaches) (oldBytes : Nat) : WorkflowCaches :=
  { c with bytesUsed := c.projected oldBytes (t.bytes sizes s) }.store t (t.key s) s

inductive Outcome (t : Topic) (s : t.Sample) (c : WorkflowCaches) :
    Except WorkflowSpaceError t.Sample × WorkflowCaches → Prop
  | refused (e : WorkflowSpaceError) (hbooks : ∀ oldBytes, ¬ Books sizes t s c oldBytes)
      (hrepeats : ∀ cur, (c.held t).lookup (t.key s) = some cur →
        t.schemaVersion s = schemaVersionV1 → ¬ t.Repeats cur s) : Outcome t s c (.error e, c)
  | repeated (cur : t.Sample) (hcur : (c.held t).lookup (t.key s) = some cur)
      (hschema : t.schemaVersion s = schemaVersionV1) (hrepeats : t.Repeats cur s) :
      Outcome t s c (.ok s, c.send t s)
  | booked (oldBytes : Nat) (hbooks : Books sizes t s c oldBytes) :
      Outcome t s c (.ok s, book sizes t s c oldBytes)

variable {sizes} {t : Topic} {s : t.Sample} {c : WorkflowCaches}

/-- Where a sample finds its place is decided by what is held under its key. -/
theorem Place.unique {a b : Nat} (h : Place sizes t s c a) (h' : Place sizes t s c b) : a = b := by
  cases h with
  | fresh hnone =>
      cases h' with
      | fresh => rfl
      | taken cur hcur => simp [hnone] at hcur
  | taken cur hcur =>
      cases h' with
      | fresh hnone => simp [hcur] at hnone
      | taken cur' hcur' =>
          rw [hcur, Option.some.injEq] at hcur'
          rw [hcur']

theorem Place.givesWay {oldBytes : Nat} (h : Place sizes t s c oldBytes) {cur : t.Sample}
    (hcur : (c.held t).lookup (t.key s) = some cur) : t.GivesWay cur s := by
  cases h with
  | fresh hnone => simp [hnone] at hcur
  | taken cur' hcur' hway =>
      rw [hcur, Option.some.injEq] at hcur'
      exact hcur' ▸ hway

/-- The capacity check and what follows it. -/
theorem outcome_store {key topic : String} {isNewKey : Bool} {oldBytes newBytes : Nat}
    (hkey : key = t.key s) (hbytes : newBytes = t.bytes sizes s)
    (hschema : t.schemaVersion s = schemaVersionV1) (hplace : Place sizes t s c oldBytes)
    (hnew : isNewKey = true ↔ (c.held t).lookup key = none) :
    Outcome sizes t s c (andThen
      (c.admitCapacity topic isNewKey (c.instances t) (t.limit c.limits) oldBytes newBytes)
      fun _ c => (.ok s, c.store t key s)) := by
  subst hkey hbytes
  have hrepeats : ∀ cur, (c.held t).lookup (t.key s) = some cur →
      t.schemaVersion s = schemaVersionV1 → ¬ t.Repeats cur s :=
    fun cur hcur _ => (hplace.givesWay hcur).not_repeats
  unfold admitCapacity
  split_ifs with hfull
  · refine .refused _ (fun old hbooks => ?_) hrepeats
    exact absurd hfull.2 (not_le.mpr (hbooks.room (hnew.mp hfull.1)))
  · dsimp only
    split_ifs with hbudget
    · refine .refused _ (fun old hbooks => ?_) hrepeats
      obtain rfl := hbooks.place.unique hplace
      exact absurd hbooks.budget (not_le.mpr hbudget)
    · refine .booked oldBytes ⟨hschema, hplace, fun hnone => ?_, not_lt.mp hbudget⟩
      exact not_le.mp fun hle => hfull ⟨hnew.mpr hnone, hle⟩

theorem admitRevisioned_outcome {limit : Nat} {schemaVersion : UInt16} {key : String}
    {revision : t.Sample → Nat} {conflicts : t.Sample → t.Sample → Bool} {bytes : t.Sample → Nat}
    (hlimit : limit = t.limit c.limits) (hschema : schemaVersion = t.schemaVersion s)
    (hkey : key = t.key s) (hbytes : ∀ u, bytes u = t.bytes sizes u)
    (hway : ∀ cur, t.GivesWay cur s ↔ ¬ revision s < revision cur ∧
      ¬ (revision s = revision cur ∧ conflicts s cur = true))
    (hrepeats : ∀ cur, ¬ t.Repeats cur s) :
    Outcome sizes t s c
      (admitRevisioned t limit schemaVersion key revision conflicts bytes s c) := by
  subst hlimit hschema hkey
  unfold admitRevisioned
  split_ifs with hversion
  · exact .refused _ (fun _ h => hversion h.schema) fun cur _ _ => hrepeats cur
  · have hversion := not_ne_iff.mp hversion
    cases hcur : (c.held t).lookup (t.key s) with
    | none =>
        refine outcome_store rfl (hbytes s) hversion (.fresh hcur) ?_
        simp [AList.lookup_eq_none]
    | some cur =>
        dsimp only
        split_ifs with hstale hconflict
        · refine .refused _ (fun old hbooks => ?_) fun cur' _ _ => hrepeats cur'
          exact ((hway cur).mp (hbooks.place.givesWay hcur)).1 hstale
        · refine .refused _ (fun old hbooks => ?_) fun cur' _ _ => hrepeats cur'
          exact ((hway cur).mp (hbooks.place.givesWay hcur)).2 hconflict
        · rw [hbytes cur]
          refine outcome_store rfl (hbytes s) hversion
            (.taken cur hcur ((hway cur).mpr ⟨hstale, hconflict⟩)) ?_
          simp [AList.lookup_eq_none]

theorem admitImmutable_outcome {limit : Nat} {schemaVersion : UInt16} {key : String}
    {revision : Nat} {conflicts : t.Sample → t.Sample → Bool} {bytes : Nat}
    (hlimit : limit = t.limit c.limits) (hschema : schemaVersion = t.schemaVersion s)
    (hkey : key = t.key s) (hbytes : bytes = t.bytes sizes s)
    (hway : ∀ cur, ¬ t.GivesWay cur s)
    (hrepeats : ∀ cur, t.Repeats cur s ↔ ¬ conflicts s cur = true) :
    Outcome sizes t s c
      (admitImmutable t limit schemaVersion key revision conflicts bytes s c) := by
  subst hlimit hschema hkey
  unfold admitImmutable
  split_ifs with hversion
  · exact .refused _ (fun _ h => hversion h.schema) fun _ _ h => absurd h hversion
  · have hversion := not_ne_iff.mp hversion
    cases hcur : (c.held t).lookup (t.key s) with
    | none => exact outcome_store rfl hbytes hversion (.fresh hcur) (by simp [hcur])
    | some cur =>
        dsimp only
        split_ifs with hconflict
        · refine .refused _ (fun old hbooks => ?_) fun cur' hcur' _ h => ?_
          · exact hway cur (hbooks.place.givesWay hcur)
          · rw [hcur, Option.some.injEq] at hcur'
            exact (hrepeats cur').mp h (hcur' ▸ hconflict)
        · exact .repeated cur hcur hversion ((hrepeats cur).mpr hconflict)

variable (sizes t s c) in
theorem admitSample_outcome : Outcome sizes t s c (admitSample sizes t s c) := by
  cases t with
  | intent =>
      simp only [admitSample, admitIntent]
      refine admitRevisioned_outcome rfl rfl rfl (fun _ => rfl) (fun cur => ?_) fun _ => id
      simp [Topic.GivesWay]
  | decision =>
      simp only [admitSample, admitDecision]
      refine admitImmutable_outcome rfl rfl rfl rfl (fun _ => id) fun cur => ?_
      simp [Topic.Repeats]
  | capabilities =>
      simp only [admitSample, admitCapabilities]
      refine admitRevisioned_outcome rfl rfl rfl (fun _ => rfl) (fun cur => ?_) fun _ => id
      simp [Topic.GivesWay]
  | plan =>
      simp only [admitSample, admitPlan]
      refine admitImmutable_outcome rfl rfl rfl rfl (fun _ => id) fun cur => ?_
      simp [Topic.Repeats]
  | state =>
      simp only [admitSample, admitState]
      refine admitRevisioned_outcome rfl rfl rfl (fun _ => rfl) (fun cur => ?_) fun _ => id
      simp [Topic.GivesWay]

/-! ### The sum of what is stored -/

variable (sizes) in
/-- The bytes of the samples held of a topic. -/
def topicBytes (t : Topic) (c : WorkflowCaches) : ℤ :=
  (c.held t).sumOf fun _ s => (t.bytes sizes s : ℤ)

variable (sizes) in
/-- The bytes of all samples held. -/
def heldBytes (c : WorkflowCaches) : ℤ :=
  c.topicBytes sizes .intent + c.topicBytes sizes .decision + c.topicBytes sizes .capabilities +
    c.topicBytes sizes .plan + c.topicBytes sizes .state

@[simp] theorem heldBytes_send : (c.send t s).heldBytes sizes = c.heldBytes sizes := by
  simp [heldBytes, topicBytes]

theorem heldBytes_book {oldBytes : Nat} (hplace : Place sizes t s c oldBytes) :
    (book sizes t s c oldBytes).heldBytes sizes =
      c.heldBytes sizes - oldBytes + t.bytes sizes s := by
  have htopic : ∀ u, (book sizes t s c oldBytes).topicBytes sizes u =
      c.topicBytes sizes u + if u = t then (t.bytes sizes s : ℤ) - oldBytes else 0 := by
    intro u
    unfold topicBytes book
    split
    · next hu =>
        subst hu
        rw [held_store, held_bytesUsed]
        cases hplace with
        | fresh hnone =>
            rw [Map.sumOf_insert_of_notMem _ s hnone]
            omega
        | taken cur hcur =>
            rw [Map.sumOf_insert_of_lookup _ s hcur]
            omega
    · next hu =>
        rw [held_store_of_ne hu, held_bytesUsed]
        omega
  unfold heldBytes
  rw [htopic, htopic, htopic, htopic, htopic]
  cases t with
  | intent | decision | capabilities | plan | state =>
      simp only [reduceCtorEq, if_true, if_false]
      omega

@[simp] theorem bytesUsed_book {oldBytes : Nat} :
    (book sizes t s c oldBytes).bytesUsed = c.projected oldBytes (t.bytes sizes s) := by
  simp [book, store, send]

theorem held_book {oldBytes : Nat} :
    ((book sizes t s c oldBytes).held t).lookup (t.key s) = some s := by
  rw [book, held_store, Map.lookup_insert_if, if_pos rfl]

theorem sent_book {oldBytes : Nat} : (book sizes t s c oldBytes).sent = c.sent ++ [⟨t, s⟩] := by
  cases t <;> rfl

theorem projected_lt (oldBytes newBytes : Nat) : c.projected oldBytes newBytes < UInt64.size :=
  Nat.mod_lt _ (by decide)

/-- The count is the sum. -/
def Exact (sizes : StructSizes) (c : WorkflowCaches) : Prop :=
  (c.bytesUsed : ℤ) = c.heldBytes sizes

/-- A call that takes its sample in does not put it in the place of a larger one, and the
count has room for what is added. -/
def NeverShrinks (sizes : StructSizes) (c : WorkflowCaches) (call : Sigma Topic.Sample) : Prop :=
  ∀ oldBytes, Books sizes call.1 call.2 c oldBytes → oldBytes ≤ call.1.bytes sizes call.2 ∧
    c.bytesUsed + (call.1.bytes sizes call.2 - oldBytes) < UInt64.size

variable (sizes) in
def step (c : WorkflowCaches) (call : Sigma Topic.Sample) : WorkflowCaches :=
  (admitSample sizes call.1 call.2 c).2

theorem step_bytesUsed_lt (call : Sigma Topic.Sample) (h : c.bytesUsed < UInt64.size) :
    (c.step sizes call).bytesUsed < UInt64.size := by
  unfold step
  have houtcome := admitSample_outcome sizes call.1 call.2 c
  generalize admitSample sizes call.1 call.2 c = r at houtcome
  cases houtcome with
  | refused => exact h
  | repeated => exact h
  | booked oldBytes hbooks =>
      show (book sizes _ _ c oldBytes).bytesUsed < _
      rw [bytesUsed_book]
      exact projected_lt _ _

/-- What a step books is right if and only if nothing shrinks. -/
theorem exact_step_iff (call : Sigma Topic.Sample) (hlt : c.bytesUsed < UInt64.size)
    (hexact : c.Exact sizes) : (c.step sizes call).Exact sizes ↔ NeverShrinks sizes c call := by
  unfold step
  have houtcome := admitSample_outcome sizes call.1 call.2 c
  generalize admitSample sizes call.1 call.2 c = r at houtcome
  cases houtcome with
  | refused e hbooks => exact iff_of_true hexact fun old h => absurd h (hbooks old)
  | repeated cur hcur hschema hrepeats =>
      refine iff_of_true ?_ fun old h => absurd hrepeats (h.place.givesWay hcur).not_repeats
      show (c.bytesUsed : ℤ) = (c.send call.1 call.2).heldBytes sizes
      rw [heldBytes_send]
      exact hexact
  | booked oldBytes hbooks =>
      have hsum : (book sizes call.1 call.2 c oldBytes).Exact sizes ↔
          (c.projected oldBytes (call.1.bytes sizes call.2) : ℤ) =
            c.bytesUsed - oldBytes + call.1.bytes sizes call.2 := by
        rw [Exact, bytesUsed_book, heldBytes_book hbooks.place, ← hexact]
      rw [hsum]
      constructor
      · intro h old hold
        obtain rfl := hold.place.unique hbooks.place
        have hlt' := projected_lt (c := c) old (call.1.bytes sizes call.2)
        by_cases hle : old ≤ call.1.bytes sizes call.2
        · exact ⟨hle, by omega⟩
        · -- nothing is added for a smaller sample
          have hnone : call.1.bytes sizes call.2 - old = 0 := by omega
          rw [projected, hnone, Nat.add_zero, Nat.mod_eq_of_lt hlt] at h
          omega
      · intro h
        obtain ⟨hle, hroom⟩ := h oldBytes hbooks
        rw [projected, Nat.mod_eq_of_lt hroom]
        omega

/-- After every part of a run the count is the sum of what is stored, exactly if no step of
the run replaces a sample by a smaller one. -/
theorem bytes_exact_iff (sizes : StructSizes) (limits : SpaceLimits)
    (calls : List (Sigma Topic.Sample)) :
    (∀ before after, calls = before ++ after → Exact sizes ((new limits).run sizes before)) ↔
      Machine.Along (step sizes) (NeverShrinks sizes) (new limits) calls := by
  have hzero : (new limits).bytesUsed < UInt64.size := by
    show 0 < UInt64.size
    decide
  refine Machine.along_iff_prefixes (J := fun c => c.bytesUsed < UInt64.size) ?_ hzero
    (fun c call h => step_bytesUsed_lt call h) fun c call h hexact => exact_step_iff call h hexact
  simp [Exact, new, heldBytes, topicBytes, held, Map.sumOf_empty]

/-- The sizes of the structs in a build without DDS, on a machine of 64 bits. -/
def sampleSizes : StructSizes := ⟨272, 368, 16, 40, 152, 48, 208, 240⟩

/-- A state of the workflow `wf`; the id of a cancelling request makes it larger. -/
def stateOf (stateRevision : UInt32) (cancelledByRequestId : String) : WorkflowState where
  workflowId := WorkflowEngine.toS "wf"
  planRevision := 1
  schemaVersion := 1
  stateRevision := stateRevision
  requestId := WorkflowEngine.toS "req"
  effectiveDecisionId := WorkflowEngine.toS ""
  planHash := WorkflowEngine.toS ""
  status := 3
  reasonCode := 0
  nodes := WorkflowEngine.seqN 32 []
  createdAtNs := 1
  updatedAtNs := 1
  expiresAtNs := 100
  cancelledByRequestId := WorkflowEngine.toS cancelledByRequestId
  effectiveQosConfigHash := WorkflowEngine.toS ""
  fallbackTemplateId := WorkflowEngine.toS ""

/-- The state grows and shrinks. -/
def alternating : List (Sigma Topic.Sample) :=
  [⟨.state, stateOf 1 "cancel-request"⟩, ⟨.state, stateOf 2 ""⟩,
    ⟨.state, stateOf 3 "cancel-request"⟩, ⟨.state, stateOf 4 ""⟩]

def tightLimits : SpaceLimits :=
  { SpaceLimits.default with cacheByteBudget := 280 }

instance (sizes : StructSizes) (c : WorkflowCaches) : Decidable (Exact sizes c) :=
  inferInstanceAs (Decidable (_ = _))

/-- One state of 245 or 259 bytes, and a budget of 280: the fifth state is refused. -/
theorem alternating_state_exhausts :
    ¬ Exact sampleSizes ((new tightLimits).run sampleSizes (alternating.take 2)) ∧
      (admitSample sampleSizes .state (stateOf 5 "cancel-request")
        ((new tightLimits).run sampleSizes alternating)).1 =
        .error (.cacheBudgetExceeded "Workflow.State" 273 280) := by
  constructor
  · decide +kernel
  · rfl

end WorkflowCaches

end DdsOrchestrator.Dataspace
