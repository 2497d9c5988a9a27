import Mathlib.Tactic.SplitIfs
import Mathlib.Order.Basic
import DdsOrchestrator.Dataspace.TopicSamples

/-!
Which tasks an agent takes. A task has to be pending, not older than ten seconds, of a kind
that the agent serves, and directed at it or at nobody.
-/

namespace DdsOrchestrator.Agent

open Dataspace (Task)

inductive Specialization where
  | text
  | vision
  | embedding
  | transcription
  deriving DecidableEq

namespace Specialization

def ofI32 : Int → Option Specialization
  | 0 => some text
  | 1 => some vision
  | 2 => some embedding
  | 3 => some transcription
  | _ => none

/-- A text agent serves every kind, and a vision agent texts too. -/
def canServe : Specialization → Specialization → Bool
  | text, _ => true
  | vision, text => true
  | vision, vision => true
  | embedding, embedding => true
  | transcription, transcription => true
  | _, _ => false

end Specialization

def specializationMatches (specialization : Specialization) (required : Int) : Bool :=
  match Specialization.ofI32 required with
  | some required => specialization.canServe required
  | none => false

structure ClaimConfig where
  agentId : String
  specialization : Specialization
  targetAgentPrefix : String

/-- Ten seconds in nanoseconds. -/
def maxClaimAgeNs : Nat := 10000000000

def isEligibleWith (nowNs : UInt64) (task : Task) (config : ClaimConfig)
    (isClaimed : String → Bool) : Bool :=
  if isClaimed task.taskId then false
  else if task.status ≠ 0 then false
  else if 0 < task.createdAtNs ∧ maxClaimAgeNs < nowNs.toNat - task.createdAtNs.toNat then false
  else if !specializationMatches config.specialization task.modelRequired then false
  else if config.targetAgentPrefix ≠ "" ∧ task.targetAgent ≠ "" ∧
      !task.targetAgent.startsWith config.targetAgentPrefix then false
  else true

theorem isEligibleWith_iff {nowNs : UInt64} {task : Task} {config : ClaimConfig}
    {isClaimed : String → Bool} : isEligibleWith nowNs task config isClaimed = true ↔
      isClaimed task.taskId = false ∧ task.status = 0 ∧
        (0 < task.createdAtNs → nowNs.toNat - task.createdAtNs.toNat ≤ maxClaimAgeNs) ∧
        specializationMatches config.specialization task.modelRequired = true ∧
        (config.targetAgentPrefix ≠ "" → task.targetAgent ≠ "" →
          task.targetAgent.startsWith config.targetAgentPrefix = true) := by
  unfold isEligibleWith
  split_ifs with hclaimed hstatus hold hkind htarget
  · simp [hclaimed]
  · simp [hstatus]
  · refine iff_of_false id fun h => ?_
    exact absurd hold.2 (Nat.not_lt.mpr (h.2.2.1 hold.1))
  · refine iff_of_false id fun h => ?_
    rw [h.2.2.2.1] at hkind
    cases hkind
  · refine iff_of_false id fun h => ?_
    have hother := htarget.2.2
    rw [h.2.2.2.2 htarget.1 htarget.2.1] at hother
    cases hother
  · refine iff_of_true rfl ⟨Bool.not_eq_true _ ▸ hclaimed, not_not.mp hstatus, fun hpos => ?_, ?_,
      fun hown hset => ?_⟩
    · exact Nat.not_lt.mp fun hlt => hold ⟨hpos, hlt⟩
    · simpa using hkind
    · by_contra hother
      exact htarget ⟨hown, hset, by simpa using hother⟩

/-- A task that is assigned to this agent. -/
def claimTask (nowNs : UInt64) (task : Task) (agentId : String) : Task :=
  { task with assignedAgent := agentId, status := 1, assignedAtNs := nowNs }

/-- What is read back is still a claim of this agent. -/
def confirmOwnership (task : Task) (agentId : String) : Bool :=
  task.assignedAgent = agentId ∧ task.status = 1

end DdsOrchestrator.Agent
