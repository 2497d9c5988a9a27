import DdsOrchestrator.Lib.Machine
import DdsOrchestrator.McpGateway.Service

/-!
Which gateway dispatches a call, and which ones report on it. What a single job
does is told by the place in the code it has reached, whatever the others do in
between; the claim store alone ties the jobs together. A tool is so dispatched at
most once, by the job that won the claim.

A refusal, on the other hand, is not tied to the claim: a gateway whose policy
denies the call, or one that read it before it was taken up, reports a refusal of
a call that another gateway executes.
-/

namespace DdsOrchestrator.McpGateway

open Dataspace History

/-! ### What is said of a log -/

def Act.isDispatch : Act → Bool
  | dispatched .. => true
  | _ => false

/-- A sample with status `DENIED` is written. -/
def Act.isDenial : Act → Bool
  | wrote call _ => call.status = Status.denied
  | _ => false

/-- The refusal of an overloaded gateway is written. -/
def Act.isOverload : Act → Bool
  | wroteWithoutOwnership .. => true
  | _ => false

/-- The call is reported as refused. -/
def Act.isRefusal (a : Act) : Bool := a.isDenial || a.isOverload

/-- The policy of the gateway denies the call. -/
def Act.isDeniedVerdict : Act → Bool
  | judged (.denied _) => true
  | _ => false

/-- The call was read, and was not there or still `PENDING`. -/
def Act.isUntaken : Act → Bool
  | consulted found => found.all fun current => current.status = Status.pending
  | _ => false

/-- No refusal of a call is written once its claim is won. -/
def NeverRefused (log : History JobId Act) : Prop :=
  log.Pairwise fun e f => e.2 = .won → f.1.callId = e.1.callId → f.2.isRefusal = false

instance (log : History JobId Act) : Decidable (NeverRefused log) :=
  inferInstanceAs (Decidable (List.Pairwise _ _))

/-- The log accounts for every dispatch and every refusal in it. -/
structure Accounted (log : History JobId Act) : Prop where
  /-- A call is dispatched at most once. -/
  dispatchedOnce : ∀ callId, log.Pairwise fun e f =>
    ¬ ((e.1.callId = callId ∧ e.2.isDispatch) ∧ (f.1.callId = callId ∧ f.2.isDispatch))
  /-- Its claim is won at most once. -/
  wonOnce : ∀ callId, log.Pairwise fun e f =>
    ¬ ((e.1.callId = callId ∧ e.2 = .won) ∧ (f.1.callId = callId ∧ f.2 = .won))
  /-- The job that dispatches has won the claim before. -/
  dispatchedByWinner : log.Preceded (fun a => a.isDispatch) (· = .won)
  /-- The job that writes `DENIED` was denied by its own policy before. -/
  deniedByPolicy : log.Preceded (fun a => a.isDenial) (fun a => a.isDeniedVerdict)
  /-- The job that writes the refusal of an overloaded gateway has read the call
  before, and it was not taken up. -/
  overloadedIfUntaken : log.Preceded (fun a => a.isOverload) (fun a => a.isUntaken)
  /-- A job that refuses the call neither wins its claim nor dispatches it. -/
  refusedByIdle : ∀ k a b, (k, a) ∈ log → (k, b) ∈ log → a.isRefusal →
    b ≠ .won ∧ b.isDispatch = false

/-! ### The story of one job -/

/-- What a job does from its start to its end. -/
inductive Story : List Act → Prop where
  | denial (reason : DenialReason) (call : ToolCallRequest) (ok : Bool)
      (hcall : call.status = Status.denied) :
      Story [.judged (.denied reason), .wrote call ok]
  | unserved (version : Int32) (call : ToolCallRequest) (hcall : call.status = Status.executing) :
      Story [.judged (.allowed version), .won, .wrote call false]
  | service (version : Int32) (executing concluded : ToolCallRequest) (toolName args : String)
      (ok : Bool) (hexec : executing.status = Status.executing)
      (hdone : concluded.status ≠ Status.denied) :
      Story [.judged (.allowed version), .won, .wrote executing true,
        .dispatched toolName args, .wrote concluded ok]
  | withdrawal (found : Option ToolCallRequest) : Story [.consulted found]
  | rejection (found : Option ToolCallRequest) (call : ToolCallRequest) (ok : Bool)
      (hfound : (Act.consulted found).isUntaken) :
      Story [.consulted found, .wroteWithoutOwnership call ok]

/-- The beginning of a story. -/
def Partial (as : List Act) : Prop := ∃ story, Story story ∧ as <+: story

/-- What a job has done when it is at the stage. -/
def Told : Stage → List Act → Prop
  | .evaluate, as => as = []
  | .deny, as => ∃ reason, as = [.judged (.denied reason)]
  | .claim, as => ∃ version, as = [.judged (.allowed version)]
  | .execute, as => ∃ version, as = [.judged (.allowed version), .won]
  | .dispatch, as => ∃ version call, call.status = Status.executing ∧
      as = [.judged (.allowed version), .won, .wrote call true]
  | .handle, as => ∃ version call toolName args, call.status = Status.executing ∧
      as = [.judged (.allowed version), .won, .wrote call true, .dispatched toolName args]
  | .conclude _, as => ∃ version call toolName args, call.status = Status.executing ∧
      as = [.judged (.allowed version), .won, .wrote call true, .dispatched toolName args]
  | .consult, as => as = []
  | .refuse, as => ∃ found, (Act.consulted found).isUntaken ∧ as = [.consulted found]
  | .returned _, as => Partial as
  | .rejected, as => Partial as

theorem concludedCall_status (result : Except ToolError String) (nowNs : UInt64)
    (request : ToolCallRequest) :
    (concludedCall result nowNs request).status ≠ Status.denied := by
  cases result <;> simp [concludedCall, Status.completed, Status.failed, Status.denied]

/-- Any sample and any call of the registry that end a story do so for all. -/
theorem Told.story {stage : Stage} {as : List Act} (h : Told stage as) : Partial as := by
  have hservice (version : Int32) (call : ToolCallRequest) (toolName args : String)
      (hcall : call.status = Status.executing) := Story.service version call
    (concludedCall (.ok "") 0 call) toolName args true hcall (concludedCall_status _ _ _)
  cases stage with
  | evaluate =>
      obtain rfl := h
      exact ⟨_, .withdrawal none, List.nil_prefix⟩
  | deny =>
      obtain ⟨reason, rfl⟩ := h
      let call : ToolCallRequest := ⟨"", "", "", "", "", 0, Status.denied, "", "", 0, 0⟩
      exact ⟨_, .denial reason call true rfl, by simp⟩
  | claim =>
      obtain ⟨version, rfl⟩ := h
      let call : ToolCallRequest := ⟨"", "", "", "", "", 0, Status.executing, "", "", 0, 0⟩
      exact ⟨_, hservice version call "" "" rfl, by simp⟩
  | execute =>
      obtain ⟨version, rfl⟩ := h
      let call : ToolCallRequest := ⟨"", "", "", "", "", 0, Status.executing, "", "", 0, 0⟩
      exact ⟨_, hservice version call "" "" rfl, by simp⟩
  | dispatch =>
      obtain ⟨version, call, hcall, rfl⟩ := h
      exact ⟨_, hservice version call "" "" hcall, by simp⟩
  | handle =>
      obtain ⟨version, call, toolName, args, hcall, rfl⟩ := h
      exact ⟨_, hservice version call toolName args hcall, by simp⟩
  | conclude result =>
      obtain ⟨version, call, toolName, args, hcall, rfl⟩ := h
      exact ⟨_, hservice version call toolName args hcall, by simp⟩
  | consult =>
      obtain rfl := h
      exact ⟨_, .withdrawal none, List.nil_prefix⟩
  | refuse =>
      obtain ⟨found, hfound, rfl⟩ := h
      exact ⟨_, .withdrawal found, List.prefix_rfl⟩
  | returned result => exact h
  | rejected => exact h

theorem Partial.precededIn {as : List Act} {P Q : Act → Prop} (h : Partial as)
    (hall : ∀ story, Story story → PrecededIn P Q story) : PrecededIn P Q as := by
  obtain ⟨story, hstory, hpre⟩ := h
  exact (hall story hstory).of_isPrefix hpre

theorem Story.dispatch_after_won {story : List Act} (h : Story story) :
    PrecededIn (fun a => a.isDispatch) (· = .won) story := by
  cases h <;> simp [Act.isDispatch]

theorem Story.denial_after_verdict {story : List Act} (h : Story story) :
    PrecededIn (fun a => a.isDenial) (fun a => a.isDeniedVerdict) story := by
  cases h with
  | denial => simp [Act.isDenial, Act.isDeniedVerdict]
  | unserved _ _ hcall => simp [Act.isDenial, hcall, Status.executing, Status.denied]
  | service _ _ _ _ _ _ hexec hdone =>
      have hne : Status.executing ≠ Status.denied := by decide
      simp [Act.isDenial, hexec, hdone, hne]
  | withdrawal => simp [Act.isDenial]
  | rejection => simp [Act.isDenial]

theorem Story.overload_after_read {story : List Act} (h : Story story) :
    PrecededIn (fun a => a.isOverload) (fun a => a.isUntaken) story := by
  cases h with
  | rejection found call ok hfound => simp [Act.isOverload, hfound]
  | denial => simp [Act.isOverload]
  | unserved => simp [Act.isOverload]
  | service => simp [Act.isOverload]
  | withdrawal => simp [Act.isOverload]

/-- A story has one dispatch and one claim at most. -/
theorem Story.once {story : List Act} (h : Story story) :
    (story.Pairwise fun a b => ¬ (a.isDispatch ∧ b.isDispatch)) ∧
      story.Pairwise fun a b => ¬ (a = .won ∧ b = .won) := by
  cases h <;> simp [Act.isDispatch]

theorem Story.refusal_idle {story : List Act} (h : Story story) {a b : Act} (ha : a ∈ story)
    (hrefusal : a.isRefusal) (hb : b ∈ story) : b ≠ .won ∧ b.isDispatch = false := by
  cases h with
  | denial =>
      simp only [List.mem_cons, List.not_mem_nil, or_false] at hb
      obtain rfl | rfl := hb <;> simp [Act.isDispatch]
  | rejection =>
      simp only [List.mem_cons, List.not_mem_nil, or_false] at hb
      obtain rfl | rfl := hb <;> simp [Act.isDispatch]
  | withdrawal =>
      obtain rfl := List.mem_singleton.mp hb
      simp [Act.isDispatch]
  | unserved version call hcall =>
      have hne : Status.executing ≠ Status.denied := by decide
      simp only [List.mem_cons, List.not_mem_nil, or_false] at ha
      obtain rfl | rfl | rfl := ha <;>
        simp [Act.isRefusal, Act.isDenial, Act.isOverload, hcall, hne] at hrefusal
  | service version executing concluded toolName args ok hexec hdone =>
      have hne : Status.executing ≠ Status.denied := by decide
      simp only [List.mem_cons, List.not_mem_nil, or_false] at ha
      obtain rfl | rfl | rfl | rfl | rfl := ha <;>
        simp [Act.isRefusal, Act.isDenial, Act.isOverload, hexec, hdone, hne] at hrefusal

/-! ### One step of a job -/

section Steps

variable {D : Type} [DataSpaceApi D] {gw : Gateway} {w : World} {request : ToolCallRequest}
  {m : Shared D} {stage next : Stage} {as : List Act}

theorem writeToolCall_told {call : ToolCallRequest} (hok : Told next (as ++ [.wrote call true]))
    (herror : Partial (as ++ [.wrote call false])) :
    Told (m.writeToolCall call next).2.1 (as ++ (m.writeToolCall call next).2.2) := by
  unfold Shared.writeToolCall
  split
  · exact hok
  · exact herror

/-- The stage a job gets to tells what it has done by then. -/
theorem advance_told (h : Told stage as) :
    Told (advance gw w request m stage).2.1 (as ++ (advance gw w request m stage).2.2) := by
  cases stage with
  | evaluate =>
      obtain rfl := h
      simp only [advance]
      cases gw.policy.evaluateAt request w.nowNs with
      | denied reason => exact ⟨reason, rfl⟩
      | allowed version => exact ⟨version, rfl⟩
  | deny =>
      obtain ⟨reason, rfl⟩ := h
      apply writeToolCall_told
      · exact ⟨_, .denial reason _ true rfl, List.prefix_rfl⟩
      · exact ⟨_, .denial reason _ false rfl, List.prefix_rfl⟩
  | claim =>
      have hbegun := h.story
      obtain ⟨version, rfl⟩ := h
      simp only [advance]
      split
      · exact ⟨version, rfl⟩
      · exact hbegun
      · exact hbegun
  | execute =>
      obtain ⟨version, rfl⟩ := h
      apply writeToolCall_told
      · exact ⟨version, _, rfl, rfl⟩
      · exact ⟨_, .unserved version _ rfl, List.prefix_rfl⟩
  | dispatch =>
      obtain ⟨version, call, hcall, rfl⟩ := h
      exact ⟨version, call, _, _, hcall, rfl⟩
  | handle =>
      obtain ⟨version, call, toolName, args, hcall, rfl⟩ := h
      exact ⟨version, call, toolName, args, hcall, rfl⟩
  | conclude result =>
      obtain ⟨version, call, toolName, args, hcall, rfl⟩ := h
      have hstory (ok : Bool) := Story.service version call
        (concludedCall result w.nowNs request) toolName args ok hcall
        (concludedCall_status _ _ _)
      apply writeToolCall_told
      · exact ⟨_, hstory true, List.prefix_rfl⟩
      · exact ⟨_, hstory false, List.prefix_rfl⟩
  | consult =>
      obtain rfl := h
      simp only [advance]
      split
      · next found hread =>
          by_cases htaken : ∃ current ∈ found, current.status ≠ Status.pending
          · rw [if_pos htaken]
            exact ⟨_, .withdrawal found, List.prefix_rfl⟩
          · rw [if_neg htaken]
            refine ⟨found, ?_, rfl⟩
            cases found with
            | none => rfl
            | some current => simpa [Act.isUntaken] using htaken
      · exact ⟨_, .withdrawal none, List.nil_prefix⟩
  | refuse =>
      obtain ⟨found, hfound, rfl⟩ := h
      simp only [advance]
      split
      · exact ⟨_, .rejection found _ true hfound, List.prefix_rfl⟩
      · exact ⟨_, .rejection found _ false hfound, List.prefix_rfl⟩
  | returned result => simpa [advance] using h
  | rejected => simpa [advance] using h

@[simp] theorem writeToolCall_claims (call : ToolCallRequest) :
    (m.writeToolCall call next).1.claims = m.claims := by
  unfold Shared.writeToolCall
  split <;> rfl

theorem won_notMem_writeToolCall (call : ToolCallRequest) :
    Act.won ∉ (m.writeToolCall call next).2.2 := by
  unfold Shared.writeToolCall
  split <;> simp

/-- Only the step at `claim` touches the claims, and it wins one only where there
was none. -/
theorem advance_claims (hwon : .won ∈ (advance gw w request m stage).2.2) :
    m.claims.claimed request.callId = false ∧
      (advance gw w request m stage).1.claims.claimed request.callId := by
  cases stage with
  | claim =>
      have hspec := @ClaimStore.tryClaim_won w.storage request.callId gw.owner m.claims
      simp only [advance] at hwon ⊢
      cases htry : m.claims.tryClaim w.storage request.callId gw.owner with
      | mk result claims =>
          rw [htry] at hwon hspec
          obtain e | (_ | _) := result
          · simp at hwon
          · exact hspec rfl
          · simp at hwon
  | deny => exact absurd hwon (won_notMem_writeToolCall _)
  | execute => exact absurd hwon (won_notMem_writeToolCall _)
  | conclude result => exact absurd hwon (won_notMem_writeToolCall _)
  | evaluate =>
      simp only [advance] at hwon
      split at hwon <;> simp at hwon
  | consult =>
      simp only [advance] at hwon
      split at hwon
      · split at hwon <;> simp at hwon
      · simp at hwon
  | refuse =>
      simp only [advance] at hwon
      split at hwon <;> simp at hwon
  | dispatch => simp [advance] at hwon
  | handle => simp [advance] at hwon
  | returned result => simp [advance] at hwon
  | rejected => simp [advance] at hwon

theorem advance_keeps {callId : String} (h : m.claims.claimed callId) :
    (advance gw w request m stage).1.claims.claimed callId := by
  cases stage with
  | claim =>
      have hkeep := @ClaimStore.tryClaim_keeps w.storage request.callId callId gw.owner _ h
      simp only [advance]
      split <;> simp_all
  | deny => simpa [advance] using h
  | execute => simpa [advance] using h
  | conclude result => simpa [advance] using h
  | evaluate => simp only [advance]; split <;> exact h
  | consult =>
      simp only [advance]
      split
      · split <;> exact h
      · exact h
  | refuse => simp only [advance]; split <;> exact h
  | dispatch => exact h
  | handle => exact h
  | returned result => exact h
  | rejected => exact h

end Steps

/-! ### The stages of all jobs -/

namespace Gateway

/-- The stage of the job with the number, if it is about the call. -/
def stageOf (gw : Gateway) (n : Nat) (callId : String) : Option Stage :=
  gw.jobs[n]?.bind fun job => if job.request.callId = callId then some job.stage else none

variable {gw : Gateway} {n : Nat} {callId : String}

theorem stageOf_addJob {request : ToolCallRequest} {stage : Stage} {inSet : Bool} :
    (gw.addJob request stage inSet).stageOf n callId =
      if n = gw.jobs.length ∧ request.callId = callId then some stage else gw.stageOf n callId := by
  obtain hlt | rfl | hgt := lt_trichotomy n gw.jobs.length
  · rw [if_neg fun h => hlt.ne h.1]
    simp [stageOf, addJob, List.getElem?_append_left hlt]
  · by_cases hid : request.callId = callId <;> simp [stageOf, addJob, hid]
  · rw [if_neg fun h => hgt.ne' h.1]
    have hnone : gw.jobs[n]? = none := List.getElem?_eq_none hgt.le
    have hnone' : (gw.jobs ++ [⟨request, stage, inSet⟩])[n]? = none :=
      List.getElem?_eq_none (by simpa using Nat.succ_le_of_lt hgt)
    simp [stageOf, addJob, hnone, hnone']

theorem stageOf_join {i : Nat} : (gw.join i).stageOf n callId = gw.stageOf n callId := by
  simp only [stageOf, join, List.getElem?_modify]
  cases gw.jobs[n]? with
  | none => rfl
  | some job =>
      by_cases hin : i = n <;> simp [hin]

theorem stageOf_setStage {i : Nat} {stage : Stage} :
    (gw.setStage i stage).stageOf n callId =
      if i = n then (gw.stageOf n callId).map fun _ => stage else gw.stageOf n callId := by
  simp only [stageOf, setStage, List.getElem?_modify]
  cases gw.jobs[n]? with
  | none => simp
  | some job =>
      by_cases hin : i = n
      · by_cases hid : job.request.callId = callId <;> simp [hin, hid]
      · simp [hin]

end Gateway

namespace Mesh

variable {D : Type} [DataSpaceApi D]

def stageOf (m : Mesh D) (k : JobId) : Option Stage :=
  m.gateways[k.gateway]?.bind (·.stageOf k.number k.callId)

variable {m : Mesh D} {k : JobId} {g : Nat} {change : Gateway → Gateway}

omit [DataSpaceApi D] in
theorem stageOf_on : (m.on g change).stageOf k =
    m.gateways[k.gateway]?.bind fun gw =>
      (if g = k.gateway then change gw else gw).stageOf k.number k.callId := by
  simp only [stageOf, on, List.getElem?_modify]
  cases m.gateways[k.gateway]? <;> simp

omit [DataSpaceApi D] in
/-- A change that leaves the jobs of a gateway at their stages leaves those of all
gateways. -/
theorem stageOf_on_same
    (hsame : ∀ gw n callId, (change gw).stageOf n callId = gw.stageOf n callId) :
    (m.on g change).stageOf k = m.stageOf k := by
  rw [stageOf_on, stageOf]
  congr 1
  funext gw
  split
  · exact hsame gw _ _
  · rfl

/-! ### The invariant -/

/-- What a job has done; one that does not exist has done nothing. -/
def ToldAt : Option Stage → List Act → Prop
  | none, as => as = []
  | some stage, as => Told stage as

/-- The log tells the stage of every job, and a claim that was won by a job is
there and was won by no other. -/
structure Tells (m : Mesh D) : Prop where
  told : ∀ k, ToldAt (m.stageOf k) (m.log.share k)
  claimed : ∀ k, (k, .won) ∈ m.log → m.shared.claims.claimed k.callId
  winner : ∀ k l, (k, .won) ∈ m.log → (l, .won) ∈ m.log → k.callId = l.callId → k = l

omit [DataSpaceApi D] in
/-- A step that adds nothing to the log and takes no claim away, and after which
every job is where it was or is a new one, keeps the invariant. -/
theorem Tells.quiet {m' : Mesh D} (h : m.Tells) (hlog : m'.log = m.log)
    (hclaims : m'.shared.claims = m.shared.claims)
    (hstage : ∀ k, m'.stageOf k = m.stageOf k ∨
      m.stageOf k = none ∧ (m'.stageOf k = some .evaluate ∨ m'.stageOf k = some .consult)) :
    m'.Tells where
  told := by
    intro k
    have htold := h.told k
    rw [hlog]
    obtain hsame | ⟨hnone, hnew | hnew⟩ := hstage k
    · rwa [hsame]
    · rw [hnone] at htold
      rw [hnew]
      exact htold
    · rw [hnone] at htold
      rw [hnew]
      exact htold
  claimed := by rw [hlog, hclaims]; exact h.claimed
  winner := by rw [hlog]; exact h.winner

omit [DataSpaceApi D] in
theorem Tells.on_same (h : m.Tells)
    (hsame : ∀ gw n callId, (change gw).stageOf n callId = gw.stageOf n callId) :
    (m.on g change).Tells :=
  h.quiet rfl rfl fun _ => .inl (stageOf_on_same hsame)

omit [DataSpaceApi D] in
/-- A job that is added comes after all others, so that its number is new. -/
theorem Tells.on_addJob (h : m.Tells)
    (hchange : ∀ gw, change gw = gw ∨ ∃ request stage inSet,
      (stage = .evaluate ∨ stage = .consult) ∧ change gw = gw.addJob request stage inSet) :
    (m.on g change).Tells := by
  refine h.quiet rfl rfl fun k => ?_
  rw [stageOf_on, stageOf]
  cases hgw : m.gateways[k.gateway]? with
  | none => exact .inl rfl
  | some gw =>
      by_cases hg : g = k.gateway
      · simp only [hg, if_true, Option.bind_some]
        obtain hsame | ⟨request, stage, inSet, hstage, hadd⟩ := hchange gw
        · exact .inl (by rw [hsame])
        · rw [hadd, Gateway.stageOf_addJob]
          split
          · next hnew =>
              right
              have hlast : gw.stageOf k.number k.callId = none := by
                simp [Gateway.stageOf, hnew.1]
              obtain rfl | rfl := hstage
              · exact ⟨hlast, .inl rfl⟩
              · exact ⟨hlast, .inr rfl⟩
          · exact .inl rfl
      · exact .inl (by simp [hg])

omit [DataSpaceApi D] in
/-- The job is the only one whose stage changes. -/
theorem stageOf_on_setStage {n : Nat} {stage : Stage} {gw : Gateway} {job : Job}
    (hgw : m.gateways[g]? = some gw) (hjob : gw.jobs[n]? = some job) :
    (m.on g (·.setStage n stage)).stageOf k =
      if k = ⟨g, n, job.request.callId⟩ then some stage else m.stageOf k := by
  obtain ⟨g', n', callId⟩ := k
  rw [stageOf_on, stageOf]
  by_cases hg : g = g'
  · subst hg
    simp only [hgw, if_true, Option.bind_some, Gateway.stageOf_setStage]
    by_cases hn : n = n'
    · subst hn
      by_cases hid : job.request.callId = callId
      · simp [Gateway.stageOf, hjob, hid]
      · simp [Gateway.stageOf, hjob, hid, Ne.symm hid]
    · simp [hn, Ne.symm hn]
  · simp [hg, Ne.symm hg]

omit [DataSpaceApi D] in
/-- A step of one job adds to the share of that job only, and wins a claim only
where there was none. -/
theorem Tells.add {m' : Mesh D} {stage : Stage} {acts : List Act} (h : m.Tells)
    (hlog : m'.log = m.log ++ acts.map (k, ·))
    (hstage : ∀ l, m'.stageOf l = if l = k then some stage else m.stageOf l)
    (htold : Told stage (m.log.share k ++ acts))
    (hkeep : ∀ callId, m.shared.claims.claimed callId → m'.shared.claims.claimed callId)
    (hwon : .won ∈ acts →
      m.shared.claims.claimed k.callId = false ∧ m'.shared.claims.claimed k.callId) :
    m'.Tells := by
  have hmem : ∀ l, (l, Act.won) ∈ m'.log → (l, Act.won) ∈ m.log ∨ l = k ∧ Act.won ∈ acts := by
    intro l hl
    rw [hlog] at hl
    obtain hl | hl := List.mem_append.mp hl
    · exact .inl hl
    · obtain ⟨a, ha, heq⟩ := List.mem_map.mp hl
      obtain ⟨rfl, rfl⟩ := Prod.mk.inj heq
      exact .inr ⟨rfl, ha⟩
  -- a claim that is won now was won by nobody before
  have hfresh : ∀ l, Act.won ∈ acts → (l, Act.won) ∈ m.log → l.callId ≠ k.callId := by
    intro l ha hl heq
    have hclaimed := h.claimed l hl
    rw [heq, (hwon ha).1] at hclaimed
    exact Bool.false_ne_true hclaimed
  refine ⟨fun l => ?_, fun l hl => ?_, fun l l' hl hl' heq => ?_⟩
  · rw [hstage, hlog, share_append]
    by_cases hlk : l = k
    · subst hlk
      rw [if_pos rfl, share_map_self]
      exact htold
    · rw [if_neg hlk, share_map_of_ne (Ne.symm hlk), List.append_nil]
      exact h.told l
  · obtain hl | ⟨rfl, ha⟩ := hmem l hl
    · exact hkeep _ (h.claimed l hl)
    · exact (hwon ha).2
  · obtain hl | ⟨rfl, ha⟩ := hmem l hl
    · obtain hl' | ⟨rfl, ha'⟩ := hmem l' hl'
      · exact h.winner l l' hl hl' heq
      · exact absurd heq (hfresh l ha' hl)
    · obtain hl' | ⟨rfl, -⟩ := hmem l' hl'
      · exact absurd heq.symm (hfresh l' ha hl')
      · rfl

theorem Tells.advance (h : m.Tells) (n : Nat) (w : World) : (m.advance g n w).Tells := by
  unfold Mesh.advance
  cases hgw : m.gateways[g]? with
  | none => exact h
  | some gw =>
      cases hjob : gw.jobs[n]? with
      | none => simpa [hjob] using h
      | some job =>
          simp only [hjob]
          have hstage : m.stageOf ⟨g, n, job.request.callId⟩ = some job.stage := by
            simp [stageOf, Gateway.stageOf, hgw, hjob]
          have htold := h.told ⟨g, n, job.request.callId⟩
          rw [hstage] at htold
          exact h.add rfl (fun _ => stageOf_on_setStage hgw hjob) (advance_told htold)
            (fun _ hclaimed => advance_keeps hclaimed) advance_claims

variable (parse : String → Except String Json)

theorem Tells.step (h : m.Tells) (s : Step D) : (m.step parse s).Tells := by
  cases s with
  | launch owner registry policy =>
      refine h.quiet rfl rfl fun k => .inl ?_
      -- the new gateway has no jobs
      obtain hlt | hge := lt_or_ge k.gateway m.gateways.length
      · simp [Mesh.step, stageOf, List.getElem?_append_left hlt]
      · rw [stageOf, stageOf, List.getElem?_eq_none hge]
        simp only [Mesh.step, List.getElem?_append_right hge]
        cases (k.gateway - m.gateways.length) <;> simp [Gateway.stageOf]
  | receive g request =>
      refine h.on_addJob fun gw => ?_
      unfold Gateway.receive
      split
      · right
        split
        · exact ⟨request, .evaluate, true, .inl rfl, rfl⟩
        · exact ⟨request, .consult, false, .inr rfl, rfl⟩
      · exact .inl rfl
  | process g request =>
      exact h.on_addJob fun gw => .inr ⟨request, .evaluate, false, .inl rfl, rfl⟩
  | reject g request =>
      exact h.on_addJob fun gw => .inr ⟨request, .consult, false, .inr rfl, rfl⟩
  | acceptSnapshot g snapshot nowNs => exact h.on_same fun _ _ _ => rfl
  | acceptUpdate g update nowNs => exact h.on_same fun _ _ _ => rfl
  | advance g n w => exact h.advance n w
  | joined g n => exact h.on_same fun _ _ _ => Gateway.stageOf_join
  | others change => exact h.quiet rfl rfl fun _ => .inl rfl

omit [DataSpaceApi D] in
theorem tells_start (claims : ClaimStore) (space : D) : (Mesh.start claims space).Tells where
  told := fun _ => rfl
  claimed := by simp [Mesh.start]
  winner := by simp [Mesh.start]

theorem Tells.run (h : m.Tells) (steps : List (Step D)) : (m.run parse steps).Tells :=
  Machine.foldl_invariant steps h fun _ s ht => ht.step parse s

omit [DataSpaceApi D] in
/-- What the shares say by themselves, and the one winner of each claim. -/
theorem Tells.accounted (h : m.Tells) : Accounted m.log := by
  have hbegun : ∀ k, Partial (m.log.share k) := by
    intro k
    have htold := h.told k
    cases hstage : m.stageOf k with
    | none =>
        rw [hstage] at htold
        rw [htold]
        exact ⟨_, .withdrawal none, List.nil_prefix⟩
    | some stage =>
        rw [hstage] at htold
        exact htold.story
  have hwinner : m.log.Preceded (fun a => a.isDispatch) (· = .won) :=
    preceded_of_share fun k => (hbegun k).precededIn fun _ hs => hs.dispatch_after_won
  have hdispatch : ∀ k a, (k, a) ∈ m.log → a.isDispatch → (k, Act.won) ∈ m.log := by
    intro k a hmem ha
    obtain ⟨before, after, heq⟩ := List.append_of_mem hmem
    obtain ⟨b, hb, rfl⟩ := hwinner before k a after heq ha
    rw [heq]
    exact List.mem_append_left _ hb
  refine ⟨fun callId => ?_, fun callId => ?_, hwinner, ?_, ?_, ?_⟩
  · refine pairwise_of_share (P := fun a : Act => a.isDispatch)
      (S := fun k : JobId => k.callId = callId) (fun k => ?_) ?_
    · obtain ⟨story, hstory, hpre⟩ := hbegun k
      exact hstory.once.1.sublist hpre.sublist
    · intro k l a b hk hl hcall hcall' ha hb
      exact h.winner k l (hdispatch k a hk ha) (hdispatch l b hl hb) (hcall.trans hcall'.symm)
  · refine pairwise_of_share (P := fun a : Act => a = .won)
      (S := fun k : JobId => k.callId = callId) (fun k => ?_) ?_
    · obtain ⟨story, hstory, hpre⟩ := hbegun k
      exact hstory.once.2.sublist hpre.sublist
    · rintro k l a b hk hl hcall hcall' rfl rfl
      exact h.winner k l hk hl (hcall.trans hcall'.symm)
  · exact preceded_of_share fun k => (hbegun k).precededIn fun _ hs => hs.denial_after_verdict
  · exact preceded_of_share fun k => (hbegun k).precededIn fun _ hs => hs.overload_after_read
  · intro k a b ha hb hrefusal
    obtain ⟨story, hstory, hpre⟩ := hbegun k
    exact hstory.refusal_idle (hpre.subset (mem_share.mpr ha)) hrefusal
      (hpre.subset (mem_share.mpr hb))

end Mesh

/-- However many gateways share a claim store and a dataspace, and in whatever
order their jobs, deliveries and policies go: a tool is dispatched at most once
for a call and by the winner of its claim, and a job refuses a call only on its own
denied verdict or after it read the call as not taken up. -/
theorem dispatch_accounted {D : Type} [DataSpaceApi D] (parse : String → Except String Json)
    (claims : ClaimStore) (space : D) (steps : List (Step D)) :
    Accounted ((Mesh.start claims space).run parse steps).log :=
  ((Mesh.tells_start claims space).run parse steps).accounted

/-! ### Refusals of a call that is executed -/

namespace Example

def policyText : String := "policy"

/-- The document of a policy that lets `agent-a` call one tool. -/
def document : Json := .obj <| .ofList
  [("version", .ofInt 1),
    ("rules", .obj <| .ofList
      [("llm_inference", .obj <| .ofList
          [("allowed_agents", .strs ["agent-a"]),
            ("agent_policies", .obj <| .ofList
              [("agent-a", .obj <| .ofList
                [("allowed_security_levels", .strs ["PUBLIC"])])])]),
        ("tool_call", .obj <| .ofList
          [("agent_tool_allowlist", .obj <| .ofList [("agent-a", .strs ["test.append"])]),
            ("high_risk_tools", .strs [])])])]

def parse (s : String) : Except String Json :=
  if s = policyText then .ok document else .error "expected value"

def snapshot : SecurityPolicySnapshot := ⟨"default", 1, policyText, "policy-engine-v1", 100⟩

def request : ToolCallRequest :=
  ⟨"call", "request", "agent-a", "test.append", "\x7b\x7d", 0, Status.pending, "", "", 100, 0⟩

def owner (name : String) (h : name ≠ "" ∧ name.utf8ByteSize ≤ maxCallIdBytes) : OwnerId :=
  ⟨name, h.1, h.2⟩

def world : World := ⟨150, .sound, .ok "appended"⟩

/-- Two gateways, of which the first has the policy, and the call is there. -/
def setting : List (Step InMemoryDataSpace) :=
  [.launch (owner "gateway-a" (by decide)) ⟨["test.append"]⟩ (.new "default" 300),
    .launch (owner "gateway-b" (by decide)) ⟨["test.append"]⟩ (.new "default" 300),
    .acceptSnapshot 0 snapshot 110,
    .others fun space => (DataSpaceApi.writeToolCall request space).2]

/-- The first gateway serves the call; the second gets its policy too late. -/
def deniedSteps : List (Step InMemoryDataSpace) :=
  setting ++ [Step.receive 0 request, Step.receive 1 request] ++
    List.replicate 6 (Step.advance 0 0 world) ++ List.replicate 2 (Step.advance 1 0 world)

/-- The second gateway is full when the call reaches it, and reads it just before
the first one serves it. -/
def overloadedSteps : List (Step InMemoryDataSpace) :=
  setting ++
    List.replicate maxInflightJobs (Step.receive 1 { request with callId := "other" }) ++
    [Step.receive 1 request, Step.advance 1 maxInflightJobs world, Step.receive 0 request] ++
    List.replicate 6 (Step.advance 0 0 world) ++ [Step.advance 1 maxInflightJobs world]

def final (steps : List (Step InMemoryDataSpace)) : Mesh InMemoryDataSpace :=
  (Mesh.start (.memory ∅) .new).run parse steps

/-- The status under which the call is seen. -/
def seen (steps : List (Step InMemoryDataSpace)) : Option Int :=
  ((final steps).shared.space.toolCalls.lookup "call").map ToolCallRequest.status

end Example

/-- Once with a gateway that denies the call and once with an overloaded one, the
tool of a call is executed and the call is refused after that. -/
theorem executed_call_refused :
    (((Example.final Example.deniedSteps).log.any fun e => e.2.isDispatch) = true ∧
      ¬ NeverRefused (Example.final Example.deniedSteps).log ∧
      Example.seen Example.deniedSteps = some Status.denied) ∧
    (((Example.final Example.overloadedSteps).log.any fun e => e.2.isDispatch) = true ∧
      ¬ NeverRefused (Example.final Example.overloadedSteps).log ∧
      Example.seen Example.overloadedSteps = some Status.failed) := by
  decide +kernel

end DdsOrchestrator.McpGateway
