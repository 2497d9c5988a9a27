import DdsOrchestrator.Dataspace.TopicSamples

/-!
The status of an agent, as its heartbeat reports it. The busy slots are counted apart from the
permits of the semaphore that admits tasks, and every task that runs holds one of each.
-/

namespace DdsOrchestrator.Agent

structure AgentStatus where
  agentId : String
  hostname : String
  model : String
  specialization : String
  slotsTotal : UInt32
  slotsBusy : UInt32
  completedTotal : UInt64
  failedTotal : UInt64
  vramTotalMb : UInt32
  vramUsedMb : UInt32
  consecutiveFailures : UInt32

def degradedAfterConsecutiveFailures : UInt32 := 3

namespace AgentStatus

def new (agentId hostname model specialization : String) (slots : UInt32) : AgentStatus :=
  { agentId, hostname, model, specialization, slotsTotal := slots, slotsBusy := 0
    completedTotal := 0, failedTotal := 0, vramTotalMb := 0, vramUsedMb := 0
    consecutiveFailures := 0 }

/-- `AH_DEGRADED` or `AH_HEALTHY`. A heartbeat never says that the agent is offline. -/
def health (s : AgentStatus) : Int :=
  if degradedAfterConsecutiveFailures ≤ s.consecutiveFailures then 1 else 2

/-- A total as the sample carries it, which has fewer bits. -/
def saturate (total : UInt64) : UInt32 :=
  if total.toNat < UInt32.size then total.toUInt32 else UInt32.ofNat (UInt32.size - 1)

/-- `emaLatencyMs` is the moving average of the latencies. -/
def toDds (s : AgentStatus) (emaLatencyMs : Dataspace.FloatBits) (nowNs uptimeSeconds : UInt64) :
    Dataspace.AgentState :=
  { agentId := s.agentId, hostname := s.hostname, model := s.model
    specialization := s.specialization, slotsTotal := s.slotsTotal, slotsBusy := s.slotsBusy
    vramTotalMb := s.vramTotalMb, vramUsedMb := s.vramUsedMb, emaLatencyMs
    completedTotal := saturate s.completedTotal, failedTotal := saturate s.failedTotal
    health := s.health, lastUpdateNs := nowNs, uptimeSeconds }

def recordCompletion (s : AgentStatus) : AgentStatus :=
  { s with completedTotal := s.completedTotal + 1, consecutiveFailures := 0 }

def recordFailure (s : AgentStatus) : AgentStatus :=
  { s with failedTotal := s.failedTotal + 1, consecutiveFailures := s.consecutiveFailures + 1 }

/-- Nothing where every slot is busy. -/
def acquireSlot (s : AgentStatus) : Option AgentStatus :=
  if s.slotsBusy < s.slotsTotal then some { s with slotsBusy := s.slotsBusy + 1 } else none

def releaseSlot (s : AgentStatus) : AgentStatus := { s with slotsBusy := s.slotsBusy - 1 }

variable {s s' : AgentStatus}

@[simp] theorem slotsBusy_recordCompletion : s.recordCompletion.slotsBusy = s.slotsBusy := rfl

@[simp] theorem slotsTotal_recordCompletion : s.recordCompletion.slotsTotal = s.slotsTotal := rfl

@[simp] theorem slotsBusy_recordFailure : s.recordFailure.slotsBusy = s.slotsBusy := rfl

@[simp] theorem slotsTotal_recordFailure : s.recordFailure.slotsTotal = s.slotsTotal := rfl

@[simp] theorem slotsTotal_releaseSlot : s.releaseSlot.slotsTotal = s.slotsTotal := rfl

theorem acquireSlot_isSome : s.acquireSlot.isSome = true ↔ s.slotsBusy < s.slotsTotal := by
  unfold acquireSlot
  split <;> simp_all

theorem slotsTotal_of_acquireSlot (h : s.acquireSlot = some s') : s'.slotsTotal = s.slotsTotal := by
  unfold acquireSlot at h
  split at h
  · obtain rfl := Option.some.inj h
    rfl
  · cases h

/-- The count does not go over its 32 bits, since it stays below the slots there are. -/
theorem slotsBusy_of_acquireSlot (h : s.acquireSlot = some s') :
    s'.slotsBusy.toNat = s.slotsBusy.toNat + 1 := by
  unfold acquireSlot at h
  split at h
  · next hlt =>
      obtain rfl := Option.some.inj h
      have hlt' : s.slotsBusy.toNat < s.slotsTotal.toNat := UInt32.lt_iff_toNat_lt.mp hlt
      have hmax := s.slotsTotal.toNat_lt
      rw [UInt32.toNat_add]
      exact Nat.mod_eq_of_lt (by simp; omega)
  · cases h

theorem slotsBusy_releaseSlot (h : 0 < s.slotsBusy.toNat) :
    s.releaseSlot.slotsBusy.toNat + 1 = s.slotsBusy.toNat := by
  have hone : (1 : UInt32) ≤ s.slotsBusy := UInt32.le_iff_toNat_le.mpr h
  rw [releaseSlot, UInt32.toNat_sub_of_le _ _ hone]
  simp
  omega

end AgentStatus

end DdsOrchestrator.Agent
