import DdsOrchestrator.Lib.Joined
import DdsOrchestrator.WorkflowEngine.Contract

/-!
The cache of workflow states: the last state of each workflow and plan
revision, admitted by revision, within a number of instances and a budget of
bytes. Both backends of the workflow space write through it, and it outlives
the engines that write.

The budget is shared with the caches of the other topics. They are not modelled
here; what they leave is the count of bytes, which may be anything when a state
arrives.
-/

namespace DdsOrchestrator.Dataspace

open WorkflowEngine

/-- The version of the schema that is accepted. -/
def schemaVersionV1 : UInt16 := 1

/-- The limits a state is checked against. -/
structure WorkflowSpaceLimits where
  maxInstancesState : Nat
  cacheByteBudget : Nat
  deriving DecidableEq

def WorkflowSpaceLimits.default : WorkflowSpaceLimits := ⟨32, 64 * 1024 * 1024⟩

inductive WorkflowSpaceError where
  | capacityFull (topic : String) (held limit : Nat)
  | invalidSchemaVersion (topic : String) (expected got : UInt16)
  | stale (topic key : String) (current received : Nat)
  | conflict (topic key : String) (revision : Nat)
  | cacheBudgetExceeded (topic : String) (used budget : Nat)
  deriving DecidableEq

/-- The refusals that are about the revision of a sample. -/
def WorkflowSpaceError.isOutdated : WorkflowSpaceError → Bool
  | stale .. | conflict .. => true
  | _ => false

/-- What `admit_state` reads and writes of the caches. -/
structure StateCache where
  limits : WorkflowSpaceLimits
  states : Map String WorkflowState
  bytesUsed : Nat
  deriving DecidableEq

namespace StateCache

def new (limits : WorkflowSpaceLimits) : StateCache := ⟨limits, ∅, 0⟩

/-- Capacity for a new key, and the budget; a sample that replaces another gives
back the bytes of the old one, down to nothing. -/
def admitCapacity (topic : String) (isNewKey : Bool) (held limit oldBytes newBytes : Nat)
    (c : StateCache) : Except WorkflowSpaceError StateCache :=
  if isNewKey ∧ limit ≤ held then .error (.capacityFull topic held limit)
  else if c.limits.cacheByteBudget < c.bytesUsed + (newBytes - oldBytes) then
    .error (.cacheBudgetExceeded topic c.bytesUsed c.limits.cacheByteBudget)
  else .ok { c with bytesUsed := c.bytesUsed + (newBytes - oldBytes) }

def stateKey (s : WorkflowState) : String := s.workflowId.val ++ "|" ++ toString s.planRevision

/-- Fixed size of the struct, its strings, and 128 bytes a node. -/
def stateBytes (structSize : Nat) (s : WorkflowState) : Nat :=
  structSize + s.workflowId.val.utf8ByteSize + s.requestId.val.utf8ByteSize +
    s.nodes.items.length * 128

def topic : String := "Workflow.State"

/-- The cache once `s` is stored. -/
def store (s : WorkflowState) (c : StateCache) : StateCache :=
  { c with states := c.states.insert (stateKey s) s }

variable (structSize : Nat)

/-- A state is admitted when its revision is not behind the one that is held; the
same revision again has to be the same state. -/
def admitState (s : WorkflowState) (c : StateCache) : Except WorkflowSpaceError StateCache :=
  if s.schemaVersion ≠ schemaVersionV1 then
    .error (.invalidSchemaVersion topic schemaVersionV1 s.schemaVersion)
  else match c.states.lookup (stateKey s) with
  | some cur =>
      if s.stateRevision < cur.stateRevision then
        .error (.stale topic (stateKey s) cur.stateRevision s.stateRevision)
      else if s.stateRevision = cur.stateRevision ∧ s ≠ cur then
        .error (.conflict topic (stateKey s) s.stateRevision)
      else (c.admitCapacity topic false c.states.keys.length c.limits.maxInstancesState
        (stateBytes structSize cur) (stateBytes structSize s)).map (store s)
  | none =>
      (c.admitCapacity topic true c.states.keys.length c.limits.maxInstancesState 0
        (stateBytes structSize s)).map (store s)

/-- What reaches the cache: a state, or samples of the other topics, after which
`bytesUsed` bytes are in use. -/
inductive Traffic where
  | state (s : WorkflowState)
  | others (bytesUsed : Nat)

def Traffic.state? : Traffic → Option WorkflowState
  | state s => some s
  | others _ => none

/-- A refused state leaves the cache as it was. -/
def receive (c : StateCache) : Traffic → StateCache
  | .state s => (c.admitState structSize s).toOption.getD c
  | .others bytesUsed => { c with bytesUsed := bytesUsed }

end StateCache

/-! ### Increasing revisions -/

/-- The states of one workflow and plan revision come with increasing state
revisions. -/
def RevisionsIncrease (states : List WorkflowState) : Prop :=
  states.Pairwise fun a b => a.workflowId = b.workflowId → a.planRevision = b.planRevision →
    a.stateRevision < b.stateRevision

instance (states : List WorkflowState) : Decidable (RevisionsIncrease states) :=
  inferInstanceAs (Decidable (List.Pairwise _ _))

/-- No cache that receives these states, among any other traffic, refuses one of
them for its revision. -/
def NeverOutdated (states : List WorkflowState) : Prop :=
  ∀ (structSize : Nat) (limits : WorkflowSpaceLimits)
    (traffic before after : List StateCache.Traffic) (s : WorkflowState)
    (err : WorkflowSpaceError), traffic.filterMap StateCache.Traffic.state? = states →
    traffic = before ++ .state s :: after →
    (before.foldl (StateCache.receive structSize) (.new limits)).admitState structSize s =
      .error err → err.isOutdated = false

namespace StateCache

variable {structSize : Nat} {c c' : StateCache} {s : WorkflowState}

theorem stateKey_inj {a b : WorkflowState} (h : stateKey a = stateKey b) :
    a.workflowId = b.workflowId ∧ a.planRevision = b.planRevision := by
  obtain ⟨hid, hrev⟩ := (Joined.numbered_inj (c := '|') rfl).mp h
  refine ⟨?_, hrev⟩
  cases ha : a.workflowId with
  | mk val noNul =>
      cases hb : b.workflowId with
      | mk val' noNul' => simpa [ha, hb] using hid

theorem admitCapacity_ok {topic : String} {isNewKey : Bool} {held limit oldBytes newBytes : Nat}
    (h : c.admitCapacity topic isNewKey held limit oldBytes newBytes = .ok c') :
    c'.states = c.states := by
  unfold admitCapacity at h
  split at h
  · cases h
  split at h
  · cases h
  · injection h with h
    rw [← h]

theorem admitCapacity_isOutdated {topic : String} {isNewKey : Bool}
    {held limit oldBytes newBytes : Nat} {err : WorkflowSpaceError}
    (h : c.admitCapacity topic isNewKey held limit oldBytes newBytes = .error err) :
    err.isOutdated = false := by
  unfold admitCapacity at h
  split at h
  · injection h with h
    rw [← h]
    rfl
  split at h
  · injection h with h
    rw [← h]
    rfl
  · cases h

/-- An admitted state is the only change to the states. -/
theorem admitState_ok (h : c.admitState structSize s = .ok c') :
    c'.states = c.states.insert (stateKey s) s := by
  have hstore : ∀ {x : Except WorkflowSpaceError StateCache},
      (∀ c₁, x = .ok c₁ → c₁.states = c.states) →
      x.map (store s) = .ok c' → c'.states = c.states.insert (stateKey s) s := by
    intro x hx hmap
    cases x with
    | error err => cases hmap
    | ok c₁ =>
        injection hmap with hmap
        rw [← hmap, store, hx c₁ rfl]
  unfold admitState at h
  split at h
  · cases h
  split at h
  · split at h
    · cases h
    split at h
    · cases h
    · exact hstore (fun _ => admitCapacity_ok) h
  · exact hstore (fun _ => admitCapacity_ok) h

/-- A state with a new revision is not refused for its revision. -/
theorem admitState_not_outdated {err : WorkflowSpaceError}
    (hnew : ∀ cur, c.states.lookup (stateKey s) = some cur → cur.stateRevision < s.stateRevision)
    (h : c.admitState structSize s = .error err) : err.isOutdated = false := by
  have hcapacity : ∀ {x : Except WorkflowSpaceError StateCache},
      (∀ err, x = .error err → err.isOutdated = false) → x.map (store s) = .error err →
      err.isOutdated = false := by
    intro x hx hmap
    cases x with
    | ok c₁ => cases hmap
    | error err' =>
        injection hmap with hmap
        rw [← hmap]
        exact hx err' rfl
  unfold admitState at h
  split at h
  · injection h with h
    rw [← h]
    rfl
  split at h
  · rename_i cur hcur
    have hlt := hnew cur hcur
    rw [if_neg (by omega), if_neg (by omega)] at h
    exact hcapacity (fun _ => admitCapacity_isOutdated) h
  · exact hcapacity (fun _ => admitCapacity_isOutdated) h

/-- The cache holds, under its own key, states that have been received. -/
def Received (seen : List WorkflowState) (c : StateCache) : Prop :=
  ∀ key cur, c.states.lookup key = some cur → cur ∈ seen ∧ key = stateKey cur

theorem Received.receive {seen : List WorkflowState} (h : Received seen c) (structSize : Nat)
    (t : Traffic) : Received (seen ++ t.state?.toList) (c.receive structSize t) := by
  cases t with
  | others bytesUsed => simpa [Received, StateCache.receive, Traffic.state?] using h
  | state s =>
      intro key cur hcur
      have hold : c.states.lookup key = some cur →
          cur ∈ seen ++ (Traffic.state s).state?.toList ∧ key = stateKey cur := by
        intro hlookup
        obtain ⟨hmem, hkey⟩ := h key cur hlookup
        exact ⟨List.mem_append_left _ hmem, hkey⟩
      rw [StateCache.receive] at hcur
      cases hentry : c.admitState structSize s with
      | error err =>
          rw [hentry] at hcur
          exact hold hcur
      | ok c' =>
          rw [hentry] at hcur
          simp only [Except.toOption, Option.getD_some, admitState_ok hentry] at hcur
          rcases Map.lookup_insert_eq_some.mp hcur with ⟨rfl, rfl⟩ | ⟨-, hlookup⟩
          · simp [Traffic.state?]
          · exact hold hlookup

theorem received_foldl (limits : WorkflowSpaceLimits) (traffic : List Traffic) :
    Received (traffic.filterMap Traffic.state?)
      (traffic.foldl (receive structSize) (.new limits)) := by
  induction traffic using List.reverseRecOn with
  | nil => simp [Received, new]
  | append_singleton traffic t ih =>
      have hstep := ih.receive structSize t
      rw [List.foldl_append, List.filterMap_append]
      cases t <;> exact hstep

end StateCache

open StateCache in
/-- States that come with increasing revisions are never refused for them. -/
theorem RevisionsIncrease.neverOutdated {states : List WorkflowState}
    (h : RevisionsIncrease states) : NeverOutdated states := by
  intro structSize limits traffic before after s err hstates htraffic herr
  refine admitState_not_outdated ?_ herr
  intro cur hcur
  obtain ⟨hmem, hkey⟩ := received_foldl limits before _ cur hcur
  obtain ⟨hid, hrev⟩ := stateKey_inj hkey
  rw [← hstates, htraffic, List.filterMap_append, RevisionsIncrease, List.pairwise_append] at h
  exact h.2.2 cur hmem s (by simp [Traffic.state?]) hid.symm hrev.symm

end DdsOrchestrator.Dataspace
