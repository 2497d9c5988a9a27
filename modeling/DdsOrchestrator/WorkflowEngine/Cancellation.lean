import DdsOrchestrator.WorkflowEngine.Coherence

/-!
Cancellation across restarts. The record of a cancelled workflow is terminal
and stays so in its process, but the journal does not know of the cancel: a
later process takes the workflow in again, from its stored intent or from a
new START of a workflow that was never admitted.
-/

namespace DdsOrchestrator.WorkflowEngine

open Loop EngineRuntime Machine

/-- The call is a cancellation of `wf` and its state is published. -/
def CancelAccepted (r : EngineRuntime) (i : Input) (wf : String) : Prop :=
  ∃ intent st, i.call = .intent intent ∧ intent.command = icCancel ∧
    intent.workflowId.val = wf ∧ st.status = .cancelled ∧ Writes r i (.state wf st)

/-- The call takes in a workflow that this process does not know: a START of a
workflow without a decision, or a recovery that finds its intent and gets a
plan for it. -/
def Readmits (wf : String) (r : EngineRuntime) (i : Input) : Prop :=
  r.workflows.lookup wf = none ∧
    ((∃ intent, i.call = .intent intent ∧ intent.command ≠ icCancel ∧
        intent.workflowId.val = wf ∧ wf ∉ r.journal.decisions) ∨
      i.call = .recoverFromJournal ∧ ∃ row cand, r.journal.intents.lookup wf = some row ∧
        i.env.plan ⟨wf, row.prompt⟩ = .ok cand)

/-- Nothing can be scheduled for `wf`: its record is terminal, or it has no
plan and its decision is spent. -/
def Closed (wf : String) (r : EngineRuntime) : Prop :=
  ∀ wfr, r.workflows.lookup wf = some wfr →
    wfr.terminal = true ∨ wfr.graph.nodes = [] ∧ wf ∈ r.journal.decisions

def Sample.isTaskOf (wf : String) : Sample → Bool
  | .task wf' _ _ _ => wf' = wf
  | _ => false

section Moves

variable {r₀ r r' : EngineRuntime} {i : Input} {wf : String}

theorem Closed.not_due (h : Closed wf r) {node : String} {wfr : WfRuntime} :
    ¬ Due i r wf node wfr := by
  intro hdue
  rcases h wfr hdue.registered with hterm | ⟨hnil, -⟩
  · exact absurd (hterm.symm.trans hdue.live) (by simp)
  · obtain ⟨spec, hspec, -⟩ := hdue.node
    rw [hnil] at hspec
    cases hspec

theorem Closed.not_watched (h : Closed wf r) (hr : Coherent r) {task : Task} {node : String}
    {wfr : WfRuntime} : ¬ Watched i r task wf node wfr := by
  intro hwatch
  rcases h wfr hwatch.registered with hterm | ⟨hnil, -⟩
  · exact absurd (hterm.symm.trans hwatch.live) (by simp)
  · obtain ⟨spec, hspec, -⟩ := hwatch.node hr
    rw [hnil] at hspec
    cases hspec

/-- A new record of any workflow, `wf` only if it is closed as well. -/
theorem Closed.set (h : Closed wf r) {wf' : String} {wfr : WfRuntime} {j : Journal}
    {log : List Sample} {index : Map String (String × String)} {marked : Finset String}
    (hsub : ∀ id ∈ r.journal.decisions, id ∈ j.decisions)
    (hwfr : wf' = wf → wfr.terminal = true ∨ wfr.graph.nodes = [] ∧ wf ∈ j.decisions) :
    Closed wf { r.setWf wf' wfr with
      journal := j, log := log, taskIndex := index, inDoubtMarked := marked } := by
  intro w hw
  rw [lookup_setWf] at hw
  split at hw
  · injection hw with hw
    subst hw
    exact hwfr (Eq.symm ‹_›)
  · exact (h w hw).imp id fun hnil => ⟨hnil.1, hsub wf hnil.2⟩

theorem Closed.move (h : Closed wf r) (hr : Coherent r) (hkeep : ¬ Readmits wf r₀ i)
    (hmove : Move r₀ i r r') : Closed wf r' := by
  have hsame : ∀ id ∈ r.journal.decisions, id ∈ r.journal.decisions := fun _ h => h
  have hold : ∀ (wf' : String) (wfr : WfRuntime), r.workflows.lookup wf' = some wfr →
      wf' = wf → wfr.terminal = true ∨ wfr.graph.nodes = [] ∧ wf ∈ r.journal.decisions := by
    rintro wf' wfr hwfr rfl
    exact h wfr hwfr
  cases hmove with
  | submitted intent hcall hstart hnew =>
      refine h.set hsame ?_
      rintro rfl
      by_cases hdecided : intent.workflowId.val ∈ r₀.journal.decisions
      · exact .inr ⟨rfl, hdecided⟩
      · exact absurd ⟨hnew, .inl ⟨intent, hcall, hstart, rfl, hdecided⟩⟩ hkeep
  | cancelled intent wfr => exact h.set hsame fun _ => .inl rfl
  | observed decision wf' wfr hres =>
      exact h.set hsame fun heq => hold wf' wfr hres.registered heq
  | refused decision wf' wfr => exact h.set hsame fun _ => .inl rfl
  | admitted decision wf' wfr e hres hshadow hmap j hentry =>
      obtain ⟨-, -, -, hsub, -⟩ := hentry.admitted_journalOk
        (toS_val wfr.intent.workflowId.noNul) hr.journal
      intro w hw
      exact (h w hw).imp id fun hnil => ⟨hnil.1, hsub wf hnil.2⟩
  | planned decision wf' wfr e hres hshadow hmap j hentry =>
      obtain ⟨-, -, hfresh, hsub, -⟩ := hentry.admitted_journalOk
        (toS_val wfr.intent.workflowId.noNul) hr.journal
      refine h.set hsub ?_
      rintro rfl
      rcases h wfr hres.registered with hterm | ⟨-, hdecided⟩
      · exact .inl hterm
      · -- The journal admits a workflow once.
        have hkey := (hr.records _ wfr hres.registered).key
        rw [← hkey] at hdecided
        exact absurd hdecided hfresh
  | rehydrated id row cand hcall hrow hnew hjournal hnew₀ hplan =>
      refine h.set hsame ?_
      rintro rfl
      exact absurd ⟨hnew₀, .inr ⟨hcall, row, cand, hjournal ▸ hrow, hplan⟩⟩ hkeep
  | held wf' node wfr hdue result state j hmat =>
      obtain ⟨-, -, hkept⟩ := hdue.materialized hr hmat
      refine h.set hkept.sub ?_
      rintro rfl
      exact absurd hdue h.not_due
  | dispatched wf' node wfr hdue taskId state j hmat =>
      obtain ⟨-, -, hkept⟩ := hdue.materialized hr hmat
      refine h.set hkept.sub ?_
      rintro rfl
      exact absurd hdue h.not_due
  | incomplete task wf' node wfr hwatch hstatus outputs e state j hdone =>
      obtain ⟨-, -, hkept⟩ := hwatch.completed hr hdone
      refine h.set hkept.sub ?_
      rintro rfl
      exact absurd hwatch (h.not_watched hr)
  | completed task wf' node wfr hwatch hstatus outputs ready state j hdone =>
      obtain ⟨-, -, hkept⟩ := hwatch.completed hr hdone
      refine h.set hkept.sub ?_
      rintro rfl
      exact absurd hwatch (h.not_watched hr)
  | unfailed task wf' node wfr hwatch hstatus e state j hfail =>
      obtain ⟨-, -, hkept⟩ := hwatch.failed hr hfail
      refine h.set hkept.sub ?_
      rintro rfl
      exact absurd hwatch (h.not_watched hr)
  | retried task wf' node wfr hwatch hstatus next state j hfail =>
      obtain ⟨-, -, hkept⟩ := hwatch.failed hr hfail
      refine h.set hkept.sub ?_
      rintro rfl
      exact absurd hwatch (h.not_watched hr)
  | exhausted task wf' node wfr hwatch hstatus state j hfail =>
      obtain ⟨-, -, hkept⟩ := hwatch.failed hr hfail
      exact h.set hkept.sub fun _ => .inl rfl
  | unswept => exact h
  | sweptUnindexed => exact h
  | swept task hover hnew wf' => exact h.set hsame fun _ => .inl rfl
  | doubted task hover hnew wf' node wfr hindex hindex' hwf =>
      exact h.set hsame fun heq => hold wf' wfr hwf heq
  | restarted => simp [Closed, EngineRuntime.new]

end Moves

/-! ### Runs -/

/-- After a base log: coherent, closed, and no task of `wf` since. -/
structure Quiet (wf : String) (base : List Sample) (r : EngineRuntime) : Prop where
  coherent : Coherent r
  closed : Closed wf r
  log : ∃ ext, r.log = base ++ ext ∧ ∀ s ∈ ext, s.isTaskOf wf = false

theorem Quiet.step {wf : String} {base : List Sample} {r : EngineRuntime} {i : Input}
    (h : Quiet wf base r) (hkeep : ¬ Readmits wf r i) : Quiet wf base (step r i) := by
  refine step_invariant h ?_
  rintro t t' ⟨ht, hclosed, ext, hlog, hext⟩ hmove
  refine ⟨ht.move hmove, hclosed.move ht hkeep hmove, ?_⟩
  obtain ⟨new, hnew, htasks⟩ := hmove.tasks
  refine ⟨ext ++ new, by rw [hnew, hlog, List.append_assoc], ?_⟩
  intro s hs
  rcases List.mem_append.mp hs with hs | hs
  · exact hext s hs
  · cases s with
    | task wf' node attempt task =>
        obtain ⟨wfr, -, -, hdue, -⟩ := htasks wf' node attempt task hs
        simp only [Sample.isTaskOf, decide_eq_false_iff_not]
        rintro rfl
        exact hclosed.not_due hdue
    | plan | state => rfl

theorem CancelAccepted.terminal {wf : String} {r : EngineRuntime} {i : Input}
    (h : CancelAccepted r i wf) :
    ∃ wfr, (step r i).workflows.lookup wf = some wfr ∧ wfr.terminal = true := by
  obtain ⟨intent, st, hcall, hcancel, rfl, -, ext, hlog, hmem⟩ := h
  have hsame : (step r i).log = r.log → False := by
    intro heq
    rw [heq] at hlog
    have hnil : ext = [] := by simpa using hlog
    rw [hnil] at hmem
    cases hmem
  have hstep : step r i = (r.onIntent i.env intent).2 := by simp only [step, hcall]
  rw [hstep] at hsame ⊢
  unfold onIntent at hsame ⊢
  simp only [hcancel, if_true] at hsame ⊢
  cases hwf : r.workflows.lookup intent.workflowId.val with
  | none =>
      simp only [hwf] at hsame
      exact absurd trivial hsame
  | some wfr =>
      simp only [hwf] at hsame ⊢
      split
      · obtain ⟨n, ext', -, heq⟩ := publishState_eq i.env
          (r := r.setWf intent.workflowId.val { wfr with terminal := true, failedReason := none })
          .cancelled (lookup_setWf r _ _ _ |>.trans (if_pos rfl))
        rw [heq, setWf_record]
        exact ⟨_, by rw [lookup_record, if_pos rfl], rfl⟩
      · rename_i hmatch
        rw [if_neg hmatch] at hsame
        exact absurd rfl hsame

/-- After an accepted cancellation, and as long as no call lets the workflow
back in, no task of the workflow is written. -/
theorem cancel_durable (cfg : RuntimeConfig) (before : List Input) (i : Input) (wf : String)
    (after : List Input) (hcancel : CancelAccepted (run cfg before) i wf)
    (hkeep : Along step (fun r i => ¬ Readmits wf r i) (run cfg (before ++ [i])) after) :
    ∃ ext, (run cfg (before ++ i :: after)).log = (run cfg (before ++ [i])).log ++ ext ∧
      ∀ s ∈ ext, s.isTaskOf wf = false := by
  have hrun : run cfg (before ++ [i]) = step (run cfg before) i := by simp [run]
  have hall : run cfg (before ++ i :: after) = after.foldl step (run cfg (before ++ [i])) := by
    simp [run]
  have hquiet : Quiet wf (run cfg (before ++ [i])).log (run cfg (before ++ [i])) := by
    refine ⟨coherent_run cfg _, ?_, [], by simp, by simp⟩
    obtain ⟨wfr, hwfr, hterm⟩ := hcancel.terminal
    intro w hw
    rw [hrun, hwfr, Option.some.injEq] at hw
    exact .inl (hw ▸ hterm)
  rw [hall]
  exact (hkeep.invariant hquiet fun _ _ hq hk => hq.step hk).log

namespace Deployment

def cancelled : Input := ⟨env, .intent cancel⟩

/-- What the cancellation publishes. -/
def cancelledState : WorkflowState :=
  stateSample "wf-1" { ((run config admitted).workflows.lookup "wf-1").getD
    (awaiting config intent) with terminal := true, stateRev := 2 } .cancelled 10 10

theorem cancelAccepted : CancelAccepted (run config admitted) cancelled "wf-1" := by
  refine ⟨cancel, cancelledState, rfl, rfl, rfl, rfl, [.state "wf-1" cancelledState], ?_,
    List.mem_singleton.mpr rfl⟩
  decide +kernel

end Deployment

open Deployment in
/-- A tick, a restart and a repeated START of the decided workflow. -/
theorem cancel_durable_restarted :
    ∃ ext, (run config (admitted ++ cancelled :: [⟨env, .tickScheduler⟩, ⟨env, .restart config⟩,
        ⟨env, .intent intent⟩, ⟨env, .tickScheduler⟩])).log =
      (run config (admitted ++ [cancelled])).log ++ ext ∧
      ∀ s ∈ ext, s.isTaskOf "wf-1" = false := by
  refine cancel_durable config admitted cancelled "wf-1" _ cancelAccepted ⟨?_, ?_, ?_, ?_, trivial⟩
  · rintro ⟨-, ⟨_, h, -⟩ | ⟨h, -⟩⟩ <;> cases h
  · rintro ⟨-, ⟨_, h, -⟩ | ⟨h, -⟩⟩ <;> cases h
  · rintro ⟨-, ⟨_, h, -, -, hnew⟩ | ⟨h, -⟩⟩
    · exact hnew (by decide +kernel)
    · cases h
  · rintro ⟨-, ⟨_, h, -⟩ | ⟨h, -⟩⟩ <;> cases h

open Deployment in
/-- The cancel is forgotten by a restart: the workflow is rehydrated from its
stored intent and its task goes out. -/
theorem cancel_forgotten :
    CancelAccepted (run config admitted) cancelled "wf-1" ∧
      (run config (admitted ++ [cancelled])).log.any (Sample.isTaskOf "wf-1") = false ∧
      (run config (admitted ++ [cancelled, ⟨env, .restart config⟩, ⟨env, .recoverFromJournal⟩,
        ⟨env, .tickScheduler⟩])).log.any (Sample.isTaskOf "wf-1") = true :=
  ⟨cancelAccepted, by decide +kernel⟩

end DdsOrchestrator.WorkflowEngine
