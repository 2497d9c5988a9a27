import DdsOrchestrator.WorkflowEngine.Coherence

/-!
Terminal records within one process. The scheduler and the watcher skip a
record that is terminal; a cancellation, a decision and the sweeper do not look
at the flag. What these can still write into a terminal record, and the status
they publish with it, is `Touches`.
-/

namespace DdsOrchestrator.WorkflowEngine

open Loop EngineRuntime Machine

/-! ### Published statuses -/

def Sample.statusOf (wf : String) : Sample → Option WorkflowStatus
  | .state wf' st => if wf' = wf then some st.status else none
  | _ => none

/-- The status in the last state published for the workflow. -/
def lastStatus (wf : String) (log : List Sample) : Option WorkflowStatus :=
  log.reverse.findSome? (Sample.statusOf wf)

/-- The last state published for the workflow was terminal. -/
def Announced (wf : String) (log : List Sample) (status : WorkflowStatus) : Prop :=
  lastStatus wf log = some status ∧ status.isTerminal = true

/-- The states of this list have this status, as far as they are about `wf`. -/
def OnlyStatus (wf : String) (status : WorkflowStatus) (ext : List Sample) : Prop :=
  ∀ st, .state wf st ∈ ext → st.status = status

theorem statusOf_eq_some {wf : String} {s : Sample} {status : WorkflowStatus} :
    s.statusOf wf = some status ↔ ∃ st, s = .state wf st ∧ st.status = status := by
  unfold Sample.statusOf
  split
  · rename_i wf' st
    constructor
    · intro h
      split at h
      · rename_i heq
        injection h with h
        exact ⟨st, by rw [heq], h⟩
      · cases h
    · rintro ⟨st', heq, rfl⟩
      injection heq with hwf hst
      rw [if_pos hwf, hst]
  · rename_i hother
    refine ⟨nofun, ?_⟩
    rintro ⟨st, rfl, -⟩
    exact absurd rfl (hother wf st)

/-- Publications of the announced status leave it announced. -/
theorem Announced.append {wf : String} {log ext : List Sample} {status : WorkflowStatus}
    (h : Announced wf log status) (hext : OnlyStatus wf status ext) :
    Announced wf (log ++ ext) status := by
  refine ⟨?_, h.2⟩
  unfold lastStatus
  rw [List.reverse_append, List.findSome?_append]
  cases hfound : ext.reverse.findSome? (Sample.statusOf wf) with
  | none => simpa [lastStatus] using h.1
  | some found =>
      obtain ⟨s, hs, hstatus⟩ := List.exists_of_findSome?_eq_some hfound
      obtain ⟨st, rfl, hst⟩ := statusOf_eq_some.mp hstatus
      rw [← hst, hext st (List.mem_reverse.mp hs)]
      rfl

theorem Publishes.status {wf wf' : String} {status : WorkflowStatus} {ext : List Sample}
    (h : Publishes wf' status ext) {st : WorkflowState} (hst : .state wf st ∈ ext) :
    wf' = wf ∧ st.status = status := by
  rcases h with rfl | ⟨st', hstatus, rfl⟩
  · cases hst
  · have heq := List.mem_singleton.mp hst
    injection heq with hwf hst
    exact ⟨hwf.symm, by rw [hst, hstatus]⟩

/-! ### What can still write a terminal record -/

/-- A call that writes the record of `wf` although it is terminal, with the
failure reason it leaves and the status it publishes. -/
inductive Touches (wf : String) (wfr : WfRuntime) (r : EngineRuntime) (i : Input) :
    Option String → WorkflowStatus → Prop
  | cancel (intent : WorkflowIntent) (hcall : i.call = .intent intent)
      (hcancel : intent.command = icCancel) (hwf : intent.workflowId.val = wf)
      (hmatch : cancelMatches intent wfr) : Touches wf wfr r i none .cancelled
  | refusal (decision : RoutingDecision) (reason : QosReject)
      (hres : Resolves i r decision wf wfr)
      (hshadow : (verdictOn i.env r wfr decision).isShadow = false)
      (hmap : mapVerdict (verdictOn i.env r wfr decision) wfr.intent r.cfg.mapperPolicy =
        .rejected reason) : Touches wf wfr r i (some (qosReason reason)) .failed
  | plan (decision : RoutingDecision) (e : EffectiveQos) (cand : PlanCandidate)
      (hres : Resolves i r decision wf wfr)
      (hshadow : (verdictOn i.env r wfr decision).isShadow = false)
      (hmap : mapVerdict (verdictOn i.env r wfr decision) wfr.intent r.cfg.mapperPolicy =
        .applied e)
      (hnew : wf ∉ r.journal.decisions) (hplan : i.env.plan ⟨wf, wfr.intent.prompt.val⟩ = .ok cand)
      (hvalid : validateCandidate cand wfr.intent i.env.nowDag = .ok ()) :
      Touches wf wfr r i wfr.failedReason .running
  | overdue (task : Task) (node : String) (hover : Overdue i task)
      (hnew : task.taskId ∉ r.inDoubtMarked)
      (hindex : r.taskIndex.lookup task.taskId = some (wf, node)) :
      Touches wf wfr r i (some (inDoubtReason task.taskId)) .inDoubt

/-- Whatever the call still writes into the record of `wf` is there already:
the same failure reason, and no status other than the one announced. -/
def Settled (wf : String) (r : EngineRuntime) (i : Input) : Prop :=
  ∀ wfr reason status, r.workflows.lookup wf = some wfr → Touches wf wfr r i reason status →
    reason = wfr.failedReason ∧ ∀ announced, Announced wf r.log announced → status = announced

/-! ### One call -/

/-- Within one call on a terminal record `old`: the record keeps its end, and
every state published for it is one that `Touches` lists. -/
structure Ended (wf : String) (old : WfRuntime) (r₀ : EngineRuntime) (i : Input)
    (r : EngineRuntime) : Prop where
  coherent : Coherent r
  record : ∃ wfr, r.workflows.lookup wf = some wfr ∧ wfr.terminal = true ∧
    wfr.failedReason = old.failedReason
  log : ∃ ext, r.log = r₀.log ++ ext ∧
    ∀ st, .state wf st ∈ ext → ∃ reason, Touches wf old r₀ i reason st.status

section Moves

variable {wf : String} {old : WfRuntime} {r₀ r r' : EngineRuntime} {i : Input}

/-- The record of `wf` after the record of some workflow is replaced. -/
theorem Ended.replaced (h : Ended wf old r₀ i r) {wf' : String} {new : WfRuntime}
    (hnew : wf' = wf → new.terminal = true ∧ new.failedReason = old.failedReason) :
    ∃ wfr, (r.workflows.insert wf' new).lookup wf = some wfr ∧ wfr.terminal = true ∧
      wfr.failedReason = old.failedReason := by
  rw [Map.lookup_insert_if]
  by_cases hwf : wf = wf'
  · rw [if_pos hwf]
    exact ⟨new, rfl, hnew hwf.symm⟩
  · rw [if_neg hwf]
    exact h.record

theorem Ended.appended (h : Ended wf old r₀ i r) {new : List Sample}
    (hnew : ∀ st, .state wf st ∈ new → ∃ reason, Touches wf old r₀ i reason st.status) :
    ∃ ext, r.log ++ new = r₀.log ++ ext ∧
      ∀ st, .state wf st ∈ ext → ∃ reason, Touches wf old r₀ i reason st.status := by
  obtain ⟨ext, hlog, hext⟩ := h.log
  refine ⟨ext ++ new, by rw [hlog, List.append_assoc], ?_⟩
  intro st hst
  rcases List.mem_append.mp hst with hst | hst
  · exact hext st hst
  · exact hnew st hst

/-- A workflow that is scheduled or watched is not the terminal one. -/
theorem Ended.ne (h : Ended wf old r₀ i r) {wf' : String} {wfr : WfRuntime}
    (hwf : r.workflows.lookup wf' = some wfr) (hlive : wfr.terminal = false) : wf' ≠ wf := by
  rintro rfl
  obtain ⟨w, hw, hterm, -⟩ := h.record
  rw [hwf, Option.some.injEq] at hw
  rw [hw, hterm] at hlive
  cases hlive

theorem Ended.move (h : Ended wf old r₀ i r) (hold : r₀.workflows.lookup wf = some old)
    (hrestart : ∀ cfg, i.call ≠ .restart cfg)
    (hset : ∀ reason status, Touches wf old r₀ i reason status → reason = old.failedReason)
    (hmove : Move r₀ i r r') : Ended wf old r₀ i r' := by
  have hcoherent := h.coherent.move hmove
  have hsame : ∀ {wf' : String} {wfr : WfRuntime}, r₀.workflows.lookup wf' = some wfr →
      wf' = wf → wfr = old := by
    rintro wf' wfr hwfr rfl
    exact Option.some.inj (hwfr.symm.trans hold)
  -- The states a call publishes for another workflow do not count.
  have hother : ∀ {wf' : String} {status : WorkflowStatus} {ext : List Sample}, wf' ≠ wf →
      Publishes wf' status ext →
      ∀ st, .state wf st ∈ ext → ∃ reason, Touches wf old r₀ i reason st.status :=
    fun hne hext st hst => absurd (hext.status hst).1 hne
  have hnone : ∃ ext, r.log = r₀.log ++ ext ∧
      ∀ st, .state wf st ∈ ext → ∃ reason, Touches wf old r₀ i reason st.status := h.log
  cases hmove with
  | submitted intent hcall hstart hnew =>
      refine ⟨hcoherent, h.replaced ?_, hnone⟩
      rintro rfl
      exact absurd (hnew.symm.trans hold) (by simp)
  | cancelled intent wfr hcall hcancel hwf hmatch n ext hext =>
      have htouch : intent.workflowId.val = wf → Touches wf old r₀ i none .cancelled := by
        intro heq
        exact .cancel intent hcall hcancel heq (hsame hwf heq ▸ hmatch)
      refine ⟨hcoherent, h.replaced fun heq => ⟨rfl, hset _ _ (htouch heq)⟩, h.appended ?_⟩
      intro st hst
      obtain ⟨heq, hstatus⟩ := hext.status hst
      exact ⟨none, hstatus ▸ htouch heq⟩
  | observed decision wf' wfr hres =>
      refine ⟨hcoherent, h.replaced fun heq => ?_, hnone⟩
      obtain ⟨w, hw, hterm, hreason⟩ := h.record
      rw [← heq, hres.registered, Option.some.injEq] at hw
      exact ⟨by rw [hw]; exact hterm, by rw [hw]; exact hreason⟩
  | refused decision wf' wfr reason hres hshadow hmap n ext hext =>
      have htouch : wf' = wf → Touches wf old r₀ i (some (qosReason reason)) .failed := by
        rintro rfl
        obtain rfl := hsame hres.registered rfl
        exact .refusal decision reason hres hshadow hmap
      refine ⟨hcoherent, h.replaced fun heq => ⟨rfl, hset _ _ (htouch heq)⟩, h.appended ?_⟩
      intro st hst
      obtain ⟨heq, hstatus⟩ := hext.status hst
      exact ⟨_, hstatus ▸ htouch heq⟩
  | admitted => exact ⟨hcoherent, h.record, hnone⟩
  | planned decision wf' wfr e hres hshadow hmap j hentry cand hplan hvalid failover qos n ext
      hext =>
      have hkey := (h.coherent.records wf' wfr hres.registered).key
      obtain ⟨-, -, hfresh, -⟩ := hentry.admitted_journalOk
        (toS_val wfr.intent.workflowId.noNul) h.coherent.journal
      have htouch : wf' = wf → Touches wf old r₀ i old.failedReason .running := by
        rintro rfl
        obtain rfl := hsame hres.registered rfl
        refine .plan decision e cand hres hshadow hmap ?_ ?_ hvalid
        · intro hmem
          rw [← hkey] at hmem
          exact hfresh hmem
        · rw [← hkey]
          exact hplan
      refine ⟨hcoherent, h.replaced fun heq => ?_, h.appended ?_⟩
      · obtain ⟨w, hw, hterm, hreason⟩ := h.record
        rw [← heq, hres.registered, Option.some.injEq] at hw
        exact ⟨by rw [← hw] at hterm; exact hterm, by rw [← hw] at hreason; exact hreason⟩
      · intro st hst
        rcases hext with rfl | ⟨p, rest, rfl, hrest⟩
        · cases hst
        · rcases List.mem_cons.mp hst with hst | hst
          · cases hst
          · obtain ⟨heq, hstatus⟩ := hrest.status hst
            exact ⟨_, hstatus ▸ htouch heq⟩
  | rehydrated id row cand hcall hrow hnew hjournal hnew₀ hplan ext hext =>
      refine ⟨hcoherent, h.replaced ?_, h.appended ?_⟩
      · rintro rfl
        exact absurd (hnew₀.symm.trans hold) (by simp)
      · rintro st hst
        rcases hext with rfl | ⟨p, rfl⟩
        · cases hst
        · cases List.mem_singleton.mp hst
  | held wf' node wfr hdue =>
      exact ⟨hcoherent, h.replaced fun heq => absurd heq (h.ne hdue.registered hdue.live), hnone⟩
  | dispatched wf' node wfr hdue taskId state j hmat hindex n ext hext =>
      have hne := h.ne hdue.registered hdue.live
      refine ⟨hcoherent, h.replaced fun heq => absurd heq hne, h.appended ?_⟩
      intro st hst
      rcases hext with rfl | ⟨task, rest, -, rfl, hrest⟩
      · cases hst
      · rcases List.mem_cons.mp hst with hst | hst
        · cases hst
        · exact hother hne hrest st hst
  | incomplete task wf' node wfr hwatch =>
      exact ⟨hcoherent, h.replaced fun heq => absurd heq (h.ne hwatch.registered hwatch.live),
        hnone⟩
  | completed task wf' node wfr hwatch hstatus outputs ready state j hdone n ext hext =>
      have hne := h.ne hwatch.registered hwatch.live
      exact ⟨hcoherent, h.replaced fun heq => absurd heq hne, h.appended (hother hne hext)⟩
  | unfailed task wf' node wfr hwatch =>
      exact ⟨hcoherent, h.replaced fun heq => absurd heq (h.ne hwatch.registered hwatch.live),
        hnone⟩
  | retried task wf' node wfr hwatch hstatus next state j hfail n ext hext =>
      have hne := h.ne hwatch.registered hwatch.live
      exact ⟨hcoherent, h.replaced fun heq => absurd heq hne, h.appended (hother hne hext)⟩
  | exhausted task wf' node wfr hwatch hstatus state j hfail n ext hext =>
      have hne := h.ne hwatch.registered hwatch.live
      exact ⟨hcoherent, h.replaced fun heq => absurd heq hne, h.appended (hother hne hext)⟩
  | unswept => exact ⟨hcoherent, h.record, hnone⟩
  | sweptUnindexed => exact ⟨hcoherent, h.record, hnone⟩
  | swept task hover hnew wf' node wfr hindex hwf hsweep =>
      refine ⟨hcoherent, h.replaced fun heq => ⟨rfl, ?_⟩, hnone⟩
      subst heq
      exact hset _ _ (.overdue task node hover (fun hmem => hnew (hsweep.marked hmem))
        (hsweep.index ▸ hindex))
  | doubted task hover hnew wf' node wfr hindex hindex' hwf hterminal n ext hext =>
      refine ⟨hcoherent, h.replaced fun heq => ⟨hterminal, ?_⟩, h.appended ?_⟩
      · subst heq
        obtain ⟨w, hw, -, hreason⟩ := h.record
        rw [hwf, Option.some.injEq] at hw
        rw [hw]
        exact hreason
      · intro st hst
        obtain ⟨heq, hstatus⟩ := hext.status hst
        subst heq
        refine ⟨some (inDoubtReason task.taskId), ?_⟩
        rw [hstatus]
        exact .overdue task node hover hnew hindex
  | restarted cfg hcall => exact absurd hcall (hrestart cfg)

end Moves

/-! ### Runs -/

/-- Since a point at which `old` was the record of `wf`. -/
structure Final (wf : String) (old : WfRuntime) (base : List Sample) (r : EngineRuntime) :
    Prop where
  coherent : Coherent r
  record : ∃ wfr, r.workflows.lookup wf = some wfr ∧ wfr.terminal = true ∧
    wfr.failedReason = old.failedReason
  log : ∃ ext, r.log = base ++ ext ∧
    ∀ announced, Announced wf base announced → OnlyStatus wf announced ext

theorem Final.step {wf : String} {old : WfRuntime} {base : List Sample} {r : EngineRuntime}
    {i : Input} (h : Final wf old base r) (hrestart : ∀ cfg, i.call ≠ .restart cfg)
    (hsettled : Settled wf r i) : Final wf old base (step r i) := by
  obtain ⟨wfr, hwfr, hterm, hreason⟩ := h.record
  have hended : Ended wf wfr r i (WorkflowEngine.step r i) :=
    step_invariant ⟨h.coherent, ⟨wfr, hwfr, hterm, rfl⟩, [], by simp, by simp⟩
      fun _ _ ht hmove => ht.move hwfr hrestart
        (fun reason status htouch => (hsettled wfr reason status hwfr htouch).1) hmove
  obtain ⟨wfr', hwfr', hterm', hreason'⟩ := hended.record
  refine ⟨hended.coherent, ⟨wfr', hwfr', hterm', hreason'.trans hreason⟩, ?_⟩
  obtain ⟨ext, hlog, hext⟩ := h.log
  obtain ⟨new, hnew, htouched⟩ := hended.log
  refine ⟨ext ++ new, by rw [hnew, hlog, List.append_assoc], ?_⟩
  intro announced hannounced st hst
  rcases List.mem_append.mp hst with hst | hst
  · exact hext announced hannounced st hst
  · obtain ⟨reason, htouch⟩ := htouched st hst
    refine (hsettled wfr reason st.status hwfr htouch).2 announced ?_
    rw [hlog]
    exact hannounced.append (hext announced hannounced)

/-- Once a record is terminal, and as long as every call leaves what it would
write there as it is, the record keeps its end, `workflow_done` its answer, and
no state is published under another status than the terminal one. -/
theorem terminal_final (cfg : RuntimeConfig) (inputs : List Input) (wf : String)
    (wfr : WfRuntime) (after : List Input)
    (hwf : (run cfg inputs).workflows.lookup wf = some wfr) (hterm : wfr.terminal = true)
    (hkeep : Along step (fun r i => (∀ cfg', i.call ≠ .restart cfg') ∧ Settled wf r i)
      (run cfg inputs) after) :
    (∃ wfr', (run cfg (inputs ++ after)).workflows.lookup wf = some wfr' ∧
        wfr'.terminal = true ∧ wfr'.failedReason = wfr.failedReason) ∧
      (run cfg (inputs ++ after)).workflowDone wf = (run cfg inputs).workflowDone wf ∧
      ∃ ext, (run cfg (inputs ++ after)).log = (run cfg inputs).log ++ ext ∧
        ∀ announced, Announced wf (run cfg inputs).log announced →
          OnlyStatus wf announced ext := by
  have hrun : run cfg (inputs ++ after) = after.foldl step (run cfg inputs) := by simp [run]
  have hstart : Final wf wfr (run cfg inputs).log (run cfg inputs) :=
    ⟨coherent_run cfg inputs, ⟨wfr, hwf, hterm, rfl⟩, [], by simp, by simp [OnlyStatus]⟩
  have hfinal : Final wf wfr (run cfg inputs).log (run cfg (inputs ++ after)) := by
    rw [hrun]
    exact hkeep.invariant hstart fun _ _ ht hk => ht.step hk.1 hk.2
  refine ⟨hfinal.record, ?_, hfinal.log⟩
  obtain ⟨wfr', hwfr', hterm', hreason'⟩ := hfinal.record
  simp [workflowDone, hwfr', hwf, hterm, hterm', hreason']

namespace Deployment

def cancelledRun : List Input := admitted ++ [⟨env, .intent cancel⟩]

end Deployment

open Deployment in
/-- A cancelled workflow that is ticked and cancelled again. -/
theorem terminal_final_cancelled :
    ∃ wfr, (run config cancelledRun).workflows.lookup "wf-1" = some wfr ∧ wfr.terminal = true ∧
      (run config (cancelledRun ++ [⟨env, .tickScheduler⟩, ⟨env, .intent cancel⟩])).workflowDone
        "wf-1" = (run config cancelledRun).workflowDone "wf-1" ∧
      Announced "wf-1" (run config cancelledRun).log .cancelled ∧
      ∃ ext, (run config (cancelledRun ++ [⟨env, .tickScheduler⟩, ⟨env, .intent cancel⟩])).log =
          (run config cancelledRun).log ++ ext ∧ OnlyStatus "wf-1" .cancelled ext := by
  have hrecord : ((run config cancelledRun).workflows.lookup "wf-1").isSome = true := by
    decide +kernel
  obtain ⟨wfr, hwf⟩ := Option.isSome_iff_exists.mp hrecord
  have hterm : ((run config cancelledRun).workflows.lookup "wf-1").map (·.terminal) =
      some true := by
    decide +kernel
  rw [hwf, Option.map_some, Option.some.injEq] at hterm
  have hannounced : Announced "wf-1" (run config cancelledRun).log .cancelled :=
    ⟨by decide +kernel, rfl⟩
  have hkeep : Along step (fun r i => (∀ cfg', i.call ≠ .restart cfg') ∧ Settled "wf-1" r i)
      (run config cancelledRun) [⟨env, .tickScheduler⟩, ⟨env, .intent cancel⟩] := by
    refine ⟨⟨by simp, ?_⟩, ⟨by simp, ?_⟩, trivial⟩
    · intro w reason status hw htouch
      cases htouch with
      | cancel _ hcall => cases hcall
      | refusal _ _ hres => cases hres.call
      | plan _ _ _ hres => cases hres.call
      | overdue _ _ hover => cases hover.call
    · intro w reason status hw htouch
      cases htouch with
      | refusal _ _ hres => cases hres.call
      | plan _ _ _ hres => cases hres.call
      | overdue _ _ hover => cases hover.call
      | cancel =>
          have hreason : ((step (run config cancelledRun) ⟨env, .tickScheduler⟩).workflows.lookup
              "wf-1").map (·.failedReason) = some none := by
            decide +kernel
          have hlast : lastStatus "wf-1" (step (run config cancelledRun)
              ⟨env, .tickScheduler⟩).log = some .cancelled := by
            decide +kernel
          rw [hw, Option.map_some, Option.some.injEq] at hreason
          refine ⟨hreason.symm, fun announced ha => ?_⟩
          rw [Announced, hlast, Option.some.injEq] at ha
          exact ha.1
  obtain ⟨-, hdone, ext, hlog, hext⟩ :=
    terminal_final config cancelledRun "wf-1" wfr _ hwf hterm hkeep
  exact ⟨wfr, hwf, hterm, hdone, hannounced, ext, hlog, hext _ hannounced⟩

open Deployment in
/-- A refused decision ends the workflow as FAILED; a late cancellation then
publishes CANCELLED, drops the reason, and `workflow_done` turns to true. -/
theorem failed_then_cancelled :
    ∃ inputs : List Input,
      ((run config inputs).workflows.lookup "wf-1").map (fun w => (w.terminal, w.failedReason)) =
          some (true, some (qosReason .noFallbackAvailable)) ∧
        (run config inputs).workflowDone "wf-1" = some false ∧
        Announced "wf-1" (run config inputs).log .failed ∧
        ((run config (inputs ++ [⟨env, .intent cancel⟩])).workflows.lookup "wf-1").map
          (fun w => (w.terminal, w.failedReason)) = some (true, none) ∧
        (run config (inputs ++ [⟨env, .intent cancel⟩])).workflowDone "wf-1" = some true ∧
        Announced "wf-1" (run config (inputs ++ [⟨env, .intent cancel⟩])).log .cancelled := by
  refine ⟨[⟨env, .intent intent⟩, ⟨late, .decision decision⟩], ?_⟩
  refine ⟨by decide +kernel, by decide +kernel, ⟨by decide +kernel, rfl⟩, by decide +kernel,
    by decide +kernel, by decide +kernel, rfl⟩

end DdsOrchestrator.WorkflowEngine
