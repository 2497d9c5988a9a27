import DdsOrchestrator.Lib.Loop
import DdsOrchestrator.Lib.Machine
import DdsOrchestrator.Dataspace.Wire
import DdsOrchestrator.Dataspace.WorkflowSpace

/-!
The caches of the five workflow topics. A sample is admitted against what is held under
its key, the number of instances of its topic and one budget of bytes for all topics, and
an admitted sample is broadcast. Intents, announcements and states give way to samples
that are not behind them; decisions and plans stay, and the same one again is broadcast
but not stored.

Calls come one after the other. The sum of the bytes wraps as it does in a release
build.
-/

namespace DdsOrchestrator.Dataspace

open Loop (andThen)
open Wire (WorkflowIntent RoutingDecision AgentCapabilities WorkflowPlan WorkflowState)

/-- The limits of all topics. -/
structure SpaceLimits extends WorkflowSpaceLimits where
  maxInstancesIntent : Nat
  maxInstancesDecision : Nat
  maxInstancesCapabilities : Nat
  maxInstancesPlan : Nat
  deriving DecidableEq

def SpaceLimits.default : SpaceLimits where
  toWorkflowSpaceLimits := WorkflowSpaceLimits.default
  maxInstancesIntent := 64
  maxInstancesDecision := 256
  maxInstancesCapabilities := 256
  maxInstancesPlan := 32

inductive Topic where
  | intent
  | decision
  | capabilities
  | plan
  | state
  deriving DecidableEq

namespace Topic

def name : Topic → String
  | intent => "Workflow.Intent"
  | decision => "Routing.Decision"
  | capabilities => "Agent.Capabilities"
  | plan => "Workflow.Plan"
  | state => "Workflow.State"

abbrev Sample : Topic → Type
  | intent => WorkflowIntent
  | decision => RoutingDecision
  | capabilities => AgentCapabilities
  | plan => WorkflowPlan
  | state => WorkflowState

def limit (limits : SpaceLimits) : Topic → Nat
  | intent => limits.maxInstancesIntent
  | decision => limits.maxInstancesDecision
  | capabilities => limits.maxInstancesCapabilities
  | plan => limits.maxInstancesPlan
  | state => limits.maxInstancesState

end Topic

/-! ### Estimates of the bytes of a sample -/

/-- The sizes of the structs, as the compiler lays them out. -/
structure StructSizes where
  intent : Nat
  decision : Nat
  profileProbability : Nat
  capabilityProbability : Nat
  capabilities : Nat
  toolVersion : Nat
  plan : Nat
  state : Nat

namespace BytesEstimate

variable (sizes : StructSizes)

def intent (s : WorkflowIntent) : Nat :=
  sizes.intent + s.requestId.val.utf8ByteSize + s.workflowId.val.utf8ByteSize +
    s.clientId.val.utf8ByteSize + s.prompt.val.utf8ByteSize +
    s.securityContextRef.val.utf8ByteSize + s.budgetUnit.val.utf8ByteSize +
    s.checkpointRevision.val.utf8ByteSize + s.fallbackTemplateId.val.utf8ByteSize +
    s.payloadHash.val.utf8ByteSize

def decision (s : RoutingDecision) : Nat :=
  sizes.decision + s.requestId.val.utf8ByteSize + s.decisionId.val.utf8ByteSize +
    s.workflowId.val.utf8ByteSize + s.producerId.val.utf8ByteSize +
    s.modelId.val.utf8ByteSize + s.checkpointRevision.val.utf8ByteSize +
    s.calibrationRevision.val.utf8ByteSize + s.evidenceDigest.val.utf8ByteSize +
    s.payloadHash.val.utf8ByteSize +
    s.qosProbabilities.items.length * sizes.profileProbability +
    s.capabilityProbabilities.items.length * sizes.capabilityProbability

def capabilities (s : AgentCapabilities) : Nat :=
  sizes.capabilities + s.agentId.val.utf8ByteSize + s.securityContextRef.val.utf8ByteSize +
    (s.capabilities.items.map fun c => c.val.utf8ByteSize + 8).sum +
    (s.modelIds.items.map fun c => c.val.utf8ByteSize + 8).sum +
    s.toolVersions.items.length * sizes.toolVersion

def plan (s : WorkflowPlan) : Nat :=
  sizes.plan + s.workflowId.val.utf8ByteSize + s.requestId.val.utf8ByteSize +
    s.effectiveDecisionId.val.utf8ByteSize + s.plannerId.val.utf8ByteSize +
    s.plannerRevision.val.utf8ByteSize + s.planHash.val.utf8ByteSize +
    s.nodes.items.length * 256

def state (s : WorkflowState) : Nat :=
  sizes.state + s.workflowId.val.utf8ByteSize + s.requestId.val.utf8ByteSize +
    s.effectiveDecisionId.val.utf8ByteSize + s.planHash.val.utf8ByteSize +
    s.cancelledByRequestId.val.utf8ByteSize + s.effectiveQosConfigHash.val.utf8ByteSize +
    s.fallbackTemplateId.val.utf8ByteSize + s.nodes.items.length * 128

end BytesEstimate

/-! ### The caches -/

/-- The caches, and the samples broadcast so far. -/
structure WorkflowCaches where
  limits : SpaceLimits
  intents : Map String WorkflowIntent
  decisions : Map String RoutingDecision
  capabilities : Map String AgentCapabilities
  plans : Map String WorkflowPlan
  states : Map String WorkflowState
  sent : List (Sigma Topic.Sample)
  bytesUsed : Nat

namespace WorkflowCaches

def new (limits : SpaceLimits) : WorkflowCaches := ⟨limits, ∅, ∅, ∅, ∅, ∅, [], 0⟩

/-- The cache of a topic. -/
def held (c : WorkflowCaches) : (t : Topic) → Map String t.Sample
  | .intent => c.intents
  | .decision => c.decisions
  | .capabilities => c.capabilities
  | .plan => c.plans
  | .state => c.states

def put (c : WorkflowCaches) : (t : Topic) → Map String t.Sample → WorkflowCaches
  | .intent, m => { c with intents := m }
  | .decision, m => { c with decisions := m }
  | .capabilities, m => { c with capabilities := m }
  | .plan, m => { c with plans := m }
  | .state, m => { c with states := m }

def instances (c : WorkflowCaches) (t : Topic) : Nat := (c.held t).keys.length

def send (t : Topic) (s : t.Sample) (c : WorkflowCaches) : WorkflowCaches :=
  { c with sent := c.sent ++ [⟨t, s⟩] }

def store (t : Topic) (key : String) (s : t.Sample) (c : WorkflowCaches) : WorkflowCaches :=
  (c.put t ((c.held t).insert key s)).send t s

/-- Capacity for a new key, and the budget; the bytes are booked here. -/
def admitCapacity (topic : String) (isNewKey : Bool) (count limit oldBytes newBytes : Nat)
    (c : WorkflowCaches) : Except WorkflowSpaceError Unit × WorkflowCaches :=
  if isNewKey ∧ limit ≤ count then (.error (.capacityFull topic count limit), c)
  else
    let projected := (c.bytesUsed + (newBytes - oldBytes)) % UInt64.size
    if c.limits.cacheByteBudget < projected then
      (.error (.cacheBudgetExceeded topic c.bytesUsed c.limits.cacheByteBudget), c)
    else (.ok (), { c with bytesUsed := projected })

/-- A sample that is not behind the one under its key takes its place. With the same
revision it must not conflict with it. -/
def admitRevisioned (t : Topic) (limit : Nat) (schemaVersion : UInt16) (key : String)
    (revision : t.Sample → Nat) (conflicts : t.Sample → t.Sample → Bool)
    (bytes : t.Sample → Nat) (s : t.Sample) (c : WorkflowCaches) :
    Except WorkflowSpaceError t.Sample × WorkflowCaches :=
  if schemaVersion ≠ schemaVersionV1 then
    (.error (.invalidSchemaVersion t.name schemaVersionV1 schemaVersion), c)
  else
    let oldBytes : Except WorkflowSpaceError Nat :=
      match (c.held t).lookup key with
      | some cur =>
          if revision s < revision cur then
            .error (.stale t.name key (revision cur) (revision s))
          else if revision s = revision cur ∧ conflicts s cur then
            .error (.conflict t.name key (revision s))
          else .ok (bytes cur)
      | none => .ok 0
    match oldBytes with
    | .error e => (.error e, c)
    | .ok old =>
        andThen (c.admitCapacity t.name (key ∉ c.held t) (c.instances t) limit old (bytes s))
          fun _ c => (.ok s, c.store t key s)

/-- The first sample of a key stays. The same one again is broadcast only. -/
def admitImmutable (t : Topic) (limit : Nat) (schemaVersion : UInt16) (key : String)
    (revision : Nat) (conflicts : t.Sample → t.Sample → Bool) (bytes : Nat) (s : t.Sample)
    (c : WorkflowCaches) : Except WorkflowSpaceError t.Sample × WorkflowCaches :=
  if schemaVersion ≠ schemaVersionV1 then
    (.error (.invalidSchemaVersion t.name schemaVersionV1 schemaVersion), c)
  else
    match (c.held t).lookup key with
    | some cur =>
        if conflicts s cur then (.error (.conflict t.name key revision), c)
        else (.ok s, c.send t s)
    | none =>
        andThen (c.admitCapacity t.name true (c.instances t) limit 0 bytes)
          fun _ c => (.ok s, c.store t key s)

variable (sizes : StructSizes)

def admitIntent (s : WorkflowIntent) (c : WorkflowCaches) :
    Except WorkflowSpaceError WorkflowIntent × WorkflowCaches :=
  admitRevisioned .intent c.limits.maxInstancesIntent s.schemaVersion s.requestId.val
    (fun s : WorkflowIntent => s.intentRevision.toNat)
    (fun s cur : WorkflowIntent => s.payloadHash ≠ cur.payloadHash) (BytesEstimate.intent sizes) s c

def admitDecision (s : RoutingDecision) (c : WorkflowCaches) :
    Except WorkflowSpaceError RoutingDecision × WorkflowCaches :=
  admitImmutable .decision c.limits.maxInstancesDecision s.schemaVersion
    (s.requestId.val ++ "|" ++ s.decisionId.val) 0
    (fun s cur : RoutingDecision => s.payloadHash ≠ cur.payloadHash)
    (BytesEstimate.decision sizes s) s c

/-- Announcements of the same revision may differ. -/
def admitCapabilities (s : AgentCapabilities) (c : WorkflowCaches) :
    Except WorkflowSpaceError AgentCapabilities × WorkflowCaches :=
  admitRevisioned .capabilities c.limits.maxInstancesCapabilities s.schemaVersion s.agentId.val
    (fun s : AgentCapabilities => s.announcementRevision.toNat) (fun _ _ => false)
    (BytesEstimate.capabilities sizes) s c

def admitPlan (s : WorkflowPlan) (c : WorkflowCaches) :
    Except WorkflowSpaceError WorkflowPlan × WorkflowCaches :=
  admitImmutable .plan c.limits.maxInstancesPlan s.schemaVersion
    (s.workflowId.val ++ "|" ++ toString s.planRevision.toNat) s.planRevision.toNat
    (fun s cur : WorkflowPlan => s.planHash ≠ cur.planHash) (BytesEstimate.plan sizes s) s c

def admitState (s : WorkflowState) (c : WorkflowCaches) :
    Except WorkflowSpaceError WorkflowState × WorkflowCaches :=
  admitRevisioned .state c.limits.maxInstancesState s.schemaVersion
    (s.workflowId.val ++ "|" ++ toString s.planRevision.toNat)
    (fun s : WorkflowState => s.stateRevision.toNat) (fun s cur : WorkflowState => s ≠ cur)
    (BytesEstimate.state sizes) s c

/-- Any of the five calls. -/
def admitSample : (t : Topic) → t.Sample → WorkflowCaches →
    Except WorkflowSpaceError t.Sample × WorkflowCaches
  | .intent => admitIntent sizes
  | .decision => admitDecision sizes
  | .capabilities => admitCapabilities sizes
  | .plan => admitPlan sizes
  | .state => admitState sizes

/-- The caches after a sequence of calls, refused ones included. -/
def run (c : WorkflowCaches) (calls : List (Sigma Topic.Sample)) : WorkflowCaches :=
  calls.foldl (fun c call => (admitSample sizes call.1 call.2 c).2) c

end WorkflowCaches

/-! ### What a call can do -/

/-- What may come after a sample under its key: a sample that is not behind it, or, of
decisions and plans, only the sample itself. -/
def Topic.Follows : (t : Topic) → t.Sample → t.Sample → Prop
  | .intent, cur, s => cur.intentRevision.toNat ≤ s.intentRevision.toNat
  | .decision, cur, s => s = cur
  | .capabilities, cur, s => cur.announcementRevision.toNat ≤ s.announcementRevision.toNat
  | .plan, cur, s => s = cur
  | .state, cur, s => cur.stateRevision.toNat ≤ s.stateRevision.toNat

theorem Topic.Follows.refl : ∀ {t : Topic} (s : t.Sample), t.Follows s s
  | .intent, _ => le_rfl
  | .decision, _ => rfl
  | .capabilities, _ => le_rfl
  | .plan, _ => rfl
  | .state, _ => le_rfl

theorem Topic.Follows.trans : ∀ {t : Topic} {a b d : t.Sample},
    t.Follows a b → t.Follows b d → t.Follows a d
  | .intent, _, _, _, h, h' => le_trans h h'
  | .decision, _, _, _, h, h' => Eq.trans h' h
  | .capabilities, _, _, _, h, h' => le_trans h h'
  | .plan, _, _, _, h, h' => Eq.trans h' h
  | .state, _, _, _, h, h' => le_trans h h'

namespace WorkflowCaches

@[simp] theorem held_send (t u : Topic) (s : t.Sample) (c : WorkflowCaches) :
    (c.send t s).held u = c.held u := by
  cases u <;> rfl

@[simp] theorem held_put_self (t : Topic) (m : Map String t.Sample) (c : WorkflowCaches) :
    (c.put t m).held t = m := by
  cases t <;> rfl

theorem held_put_of_ne {t u : Topic} (h : u ≠ t) (m : Map String t.Sample) (c : WorkflowCaches) :
    (c.put t m).held u = c.held u := by
  cases t <;> cases u <;> first | rfl | exact absurd rfl h

@[simp] theorem limits_put (t : Topic) (m : Map String t.Sample) (c : WorkflowCaches) :
    (c.put t m).limits = c.limits := by
  cases t <;> rfl

@[simp] theorem bytesUsed_put (t : Topic) (m : Map String t.Sample) (c : WorkflowCaches) :
    (c.put t m).bytesUsed = c.bytesUsed := by
  cases t <;> rfl

@[simp] theorem held_bytesUsed (b : Nat) (c : WorkflowCaches) (t : Topic) :
    { c with bytesUsed := b }.held t = c.held t := by
  cases t <;> rfl

/-- A call is refused and changes nothing, or its sample is broadcast, and it is stored
where there is room for it and the sample before it gives way. -/
inductive Change (t : Topic) (s : t.Sample) (c : WorkflowCaches) :
    Except WorkflowSpaceError t.Sample × WorkflowCaches → Prop
  | refused (e : WorkflowSpaceError) : Change t s c (.error e, c)
  | repeated : Change t s c (.ok s, c.send t s)
  | stored (key : String) (bytes : Nat)
      (hroom : key ∉ c.held t → c.instances t < t.limit c.limits)
      (hbudget : bytes ≤ c.limits.cacheByteBudget)
      (hfollows : ∀ cur, (c.held t).lookup key = some cur → t.Follows cur s) :
      Change t s c (.ok s, { c with bytesUsed := bytes }.store t key s)

variable {c : WorkflowCaches}

theorem admitCapacity_cases (topic : String) (isNewKey : Bool) (count limit oldBytes newBytes : Nat)
    (c : WorkflowCaches) :
    (∃ e, c.admitCapacity topic isNewKey count limit oldBytes newBytes = (.error e, c)) ∨
    ∃ bytes, c.admitCapacity topic isNewKey count limit oldBytes newBytes =
        (.ok (), { c with bytesUsed := bytes }) ∧
      bytes ≤ c.limits.cacheByteBudget ∧ (isNewKey = true → count < limit) := by
  unfold admitCapacity
  split
  · exact .inl ⟨_, rfl⟩
  · next hroom =>
      dsimp only
      split
      · exact .inl ⟨_, rfl⟩
      · next hbudget =>
          exact .inr ⟨_, rfl, not_lt.mp hbudget, fun hnew => not_le.mp fun h => hroom ⟨hnew, h⟩⟩

/-- The capacity is checked and the sample stored. -/
theorem change_store {t : Topic} {s : t.Sample} {key topic : String} {isNewKey : Bool}
    {oldBytes newBytes : Nat} (hnew : key ∉ c.held t → isNewKey = true)
    (hfollows : ∀ cur, (c.held t).lookup key = some cur → t.Follows cur s) :
    Change t s c (andThen
      (c.admitCapacity topic isNewKey (c.instances t) (t.limit c.limits) oldBytes newBytes)
      fun _ c => (.ok s, c.store t key s)) := by
  rcases admitCapacity_cases topic isNewKey (c.instances t) (t.limit c.limits) oldBytes newBytes c
    with ⟨e, h⟩ | ⟨bytes, h, hbudget, hroom⟩
  · rw [h]
    exact .refused e
  · rw [h]
    exact .stored key bytes (fun hkey => hroom (hnew hkey)) hbudget hfollows

theorem admitRevisioned_change {t : Topic} {limit : Nat} {schemaVersion : UInt16} {key : String}
    {revision : t.Sample → Nat} {conflicts : t.Sample → t.Sample → Bool} {bytes : t.Sample → Nat}
    {s : t.Sample} (hlimit : limit = t.limit c.limits)
    (hfollows : ∀ cur, revision cur ≤ revision s → t.Follows cur s) :
    Change t s c (admitRevisioned t limit schemaVersion key revision conflicts bytes s c) := by
  subst hlimit
  unfold admitRevisioned
  split
  · exact .refused _
  · cases hcur : (c.held t).lookup key with
    | none =>
        refine change_store (by simp) fun cur h => ?_
        rw [hcur] at h
        cases h
    | some cur =>
        dsimp only
        split_ifs with hstale hconflict
        · exact .refused _
        · exact .refused _
        · refine change_store (by simp) fun cur' h => ?_
          rw [hcur, Option.some.injEq] at h
          subst h
          exact hfollows cur (not_lt.mp hstale)

theorem admitImmutable_change {t : Topic} {limit : Nat} {schemaVersion : UInt16} {key : String}
    {revision : Nat} {conflicts : t.Sample → t.Sample → Bool} {bytes : Nat} {s : t.Sample}
    (hlimit : limit = t.limit c.limits) :
    Change t s c (admitImmutable t limit schemaVersion key revision conflicts bytes s c) := by
  subst hlimit
  unfold admitImmutable
  split
  · exact .refused _
  · cases hcur : (c.held t).lookup key with
    | none =>
        refine change_store (fun _ => rfl) fun cur h => ?_
        rw [hcur] at h
        cases h
    | some cur =>
        dsimp only
        split_ifs with hconflict
        · exact .refused _
        · exact .repeated

theorem admit_change (sizes : StructSizes) (t : Topic) (s : t.Sample) (c : WorkflowCaches) :
    Change t s c (admitSample sizes t s c) := by
  cases t with
  | intent =>
      simp only [admitSample, admitIntent]
      exact admitRevisioned_change rfl fun _ h => h
  | decision =>
      simp only [admitSample, admitDecision]
      exact admitImmutable_change rfl
  | capabilities =>
      simp only [admitSample, admitCapabilities]
      exact admitRevisioned_change rfl fun _ h => h
  | plan =>
      simp only [admitSample, admitPlan]
      exact admitImmutable_change rfl
  | state =>
      simp only [admitSample, admitState]
      exact admitRevisioned_change rfl fun _ h => h

/-! ### What holds along a sequence of calls -/

/-- Every topic is within its instances, and all of them within the budget. -/
structure WithinLimits (c : WorkflowCaches) : Prop where
  instances : ∀ t : Topic, c.instances t ≤ t.limit c.limits
  bytes : c.bytesUsed ≤ c.limits.cacheByteBudget

/-- Every sample that is held is held later, or one that may follow it. -/
def Grows (c c' : WorkflowCaches) : Prop :=
  ∀ (t : Topic) (key : String) (cur : t.Sample), (c.held t).lookup key = some cur →
    ∃ s, (c'.held t).lookup key = some s ∧ t.Follows cur s

theorem Grows.refl (c : WorkflowCaches) : Grows c c :=
  fun _ _ cur h => ⟨cur, h, .refl cur⟩

theorem Grows.trans {c c' c'' : WorkflowCaches} (h : Grows c c') (h' : Grows c' c'') :
    Grows c c'' := by
  intro t key cur hcur
  obtain ⟨s, hs, hfollows⟩ := h t key cur hcur
  obtain ⟨s', hs', hfollows'⟩ := h' t key s hs
  exact ⟨s', hs', hfollows.trans hfollows'⟩

theorem limits_store (t : Topic) (key : String) (s : t.Sample) (c : WorkflowCaches) :
    (c.store t key s).limits = c.limits := by
  simp [store, send]

theorem held_store (t : Topic) (key : String) (s : t.Sample) (c : WorkflowCaches) :
    (c.store t key s).held t = (c.held t).insert key s := by
  simp [store]

theorem held_store_of_ne {t u : Topic} (h : u ≠ t) (key : String) (s : t.Sample)
    (c : WorkflowCaches) : (c.store t key s).held u = c.held u := by
  simp [store, held_put_of_ne h]

/-- A new key adds an instance and an old one does not. -/
theorem length_keys_insert {V : Type} (m : Map String V) (key : String) (v : V) {n : Nat}
    (hm : m.keys.length ≤ n) (hroom : key ∉ m → m.keys.length < n) :
    (m.insert key v).keys.length ≤ n := by
  rw [AList.keys_insert, List.length_cons, List.length_erase]
  split
  · next hkey =>
      have hpos := List.length_pos_of_mem hkey
      omega
  · next hkey => exact hroom hkey

variable {t : Topic} {s : t.Sample} {r : Except WorkflowSpaceError t.Sample × WorkflowCaches}

theorem Change.limits_eq (h : Change t s c r) : r.2.limits = c.limits := by
  cases h with
  | refused e => rfl
  | repeated => rfl
  | stored key bytes => exact limits_store t key s _

theorem Change.withinLimits (h : Change t s c r) (hc : c.WithinLimits) : r.2.WithinLimits := by
  have hlimits := h.limits_eq
  cases h with
  | refused e => exact hc
  | repeated =>
      refine ⟨fun u => ?_, hc.bytes⟩
      rw [hlimits, instances, held_send]
      exact hc.instances u
  | stored key bytes hroom hbudget hfollows =>
      refine ⟨fun u => ?_, by simpa [store, send] using hbudget⟩
      rw [hlimits]
      by_cases hu : u = t
      · subst hu
        rw [instances, held_store, held_bytesUsed]
        exact length_keys_insert _ key s (hc.instances u) hroom
      · rw [instances, held_store_of_ne hu, held_bytesUsed]
        exact hc.instances u

theorem Change.grows (h : Change t s c r) : Grows c r.2 := by
  cases h with
  | refused e => exact .refl c
  | repeated => exact fun u key cur hcur => ⟨cur, by simpa using hcur, .refl cur⟩
  | stored key bytes hroom hbudget hfollows =>
      intro u key' cur hcur
      by_cases hu : u = t
      · subst hu
        rw [held_store, held_bytesUsed, Map.lookup_insert_if]
        split
        · next hkey =>
            subst hkey
            exact ⟨s, rfl, hfollows cur hcur⟩
        · exact ⟨cur, hcur, .refl cur⟩
      · rw [held_store_of_ne hu, held_bytesUsed]
        exact ⟨cur, hcur, .refl cur⟩

theorem Change.refused_eq (h : Change t s c r) {e : WorkflowSpaceError} (he : r.1 = .error e) :
    r.2 = c := by
  cases h with
  | refused e' => rfl
  | repeated => cases he
  | stored key bytes => cases he

variable (sizes : StructSizes)

theorem withinLimits_new (limits : SpaceLimits) : (new limits).WithinLimits :=
  ⟨fun t => by cases t <;> exact Nat.zero_le _, Nat.zero_le _⟩

theorem run_withinLimits (limits : SpaceLimits) (calls : List (Sigma Topic.Sample)) :
    ((new limits).run sizes calls).WithinLimits :=
  Machine.foldl_invariant calls (withinLimits_new limits) fun c call hc =>
    (admit_change sizes call.1 call.2 c).withinLimits hc

theorem run_grows (c : WorkflowCaches) (calls : List (Sigma Topic.Sample)) :
    Grows c (c.run sizes calls) :=
  Machine.foldl_invariant (I := Grows c) calls (.refl c) fun c' call hc =>
    hc.trans (admit_change sizes call.1 call.2 c').grows

/-- In every reachable state the limits are kept, what is held gives way only to what may
follow it, and a refused call changes nothing. -/
theorem caches_sound (sizes : StructSizes) (limits : SpaceLimits)
    (calls later : List (Sigma Topic.Sample)) :
    ((new limits).run sizes calls).WithinLimits ∧
      Grows ((new limits).run sizes calls) (((new limits).run sizes calls).run sizes later) ∧
      ∀ (t : Topic) (s : t.Sample) (e : WorkflowSpaceError),
        (admitSample sizes t s ((new limits).run sizes calls)).1 = .error e →
          (admitSample sizes t s ((new limits).run sizes calls)).2 = (new limits).run sizes calls :=
  ⟨run_withinLimits sizes limits calls, run_grows sizes _ later,
    fun t s _ he => (admit_change sizes t s _).refused_eq he⟩

end WorkflowCaches

end DdsOrchestrator.Dataspace
