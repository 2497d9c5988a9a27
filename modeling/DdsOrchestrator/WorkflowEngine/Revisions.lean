import DdsOrchestrator.Dataspace.WorkflowSpace
import DdsOrchestrator.WorkflowEngine.Boundary
import DdsOrchestrator.WorkflowEngine.Outbox

/-!
The revisions of the published states. They are numbered by a counter of the
record, which is as old as the record: a process that takes a workflow up again
begins at one, under a plan revision whose states are out already. The counter
has 32 bits.

A write that fails leaves no state in the log. As every write may fail or not,
what holds of the log of every run holds of a state that is about to be
written: it is the last one of a run in which its own write succeeds.
-/

namespace DdsOrchestrator.WorkflowEngine

open Loop EngineRuntime EngineState Machine Dataspace

/-! ### Runs in which the counters go on -/

/-- The states of a log, in the order in which they were published. -/
def statesOf (log : List Sample) : List WorkflowState :=
  log.filterMap fun
    | .state _ st => some st
    | _ => none

/-- How often a call can publish the state of a workflow: once for each node that
is ready, or for each task that is visible. -/
def publications (i : Input) (wfr : WfRuntime) : Nat :=
  match i.call with
  | .intent _ | .decision _ => 1
  | .recoverFromJournal | .restart _ => 0
  | .tickScheduler => (wfr.graph.readyNodes wfr.state.doneSet).length
  | .tickWatchTasks | .tickTimeouts => (i.env.allTasks.toOption.getD []).length

/-- No state of this plan revision of the workflow has been published. -/
def Unpublished (wf : String) (planRevision : Nat) (r : EngineRuntime) : Prop :=
  ∀ st ∈ statesOf r.log, st.workflowId = toS wf → st.planRevision ≠ planRevision

structure CountsOn (r : EngineRuntime) (i : Input) : Prop where
  /-- A start registers no workflow that has published without a plan. -/
  started : ∀ intent, i.call = .intent intent → intent.command ≠ icCancel →
    r.workflows.lookup intent.workflowId.val = none →
    Unpublished intent.workflowId.val 0 r
  /-- A recovery takes up no workflow that has published under its plan. -/
  rehydrated : i.call = .recoverFromJournal → ∀ id row cand,
    r.journal.intents.lookup id = some row → r.workflows.lookup id = none →
    i.env.plan ⟨id, row.prompt⟩ = .ok cand → Unpublished id 1 r
  /-- No counter comes to its end. -/
  room : ∀ wf wfr, r.workflows.lookup wf = some wfr →
    wfr.stateRev + publications i wfr < 2 ^ 32

/-! ### The invariant -/

structure Counted (r : EngineRuntime) : Prop where
  increasing : RevisionsIncrease (statesOf r.log)
  current : ∀ wf wfr, r.workflows.lookup wf = some wfr → ∀ st ∈ statesOf r.log,
    st.workflowId = toS wf → st.planRevision = wfr.graph.planRevision →
    st.stateRevision ≤ wfr.stateRev
  decided : ∀ st ∈ statesOf r.log, st.planRevision ≠ 0 →
    st.workflowId.val ∈ r.journal.decisions

@[simp] theorem statesOf_nil : statesOf [] = [] := rfl

@[simp] theorem statesOf_append (log ext : List Sample) :
    statesOf (log ++ ext) = statesOf log ++ statesOf ext :=
  List.filterMap_append

/-- A publication of `wf` holds at most one state, and that is one of `wf`. -/
def AtMostOneState (wf : String) (ext : List Sample) : Prop :=
  statesOf ext = [] ∨ ∃ st, statesOf ext = [st] ∧ .state wf st ∈ ext

theorem Publishes.atMostOneState {wf : String} {status : WorkflowStatus} {ext : List Sample}
    (h : Publishes wf status ext) : AtMostOneState wf ext := by
  rcases h with rfl | ⟨st, -, rfl⟩
  · exact .inl rfl
  · exact .inr ⟨st, rfl, by simp⟩

theorem AtMostOneState.cons {wf : String} {ext : List Sample} {sample : Sample}
    (h : AtMostOneState wf ext) (hother : statesOf [sample] = []) :
    AtMostOneState wf (sample :: ext) := by
  have hsame : statesOf (sample :: ext) = statesOf ext := by
    rw [← List.singleton_append, statesOf_append, hother, List.nil_append]
  rw [AtMostOneState, hsame]
  exact h.imp_right fun ⟨st, hst, hmem⟩ => ⟨st, hst, by simp [hmem]⟩

section Calls

variable {r₀ r r' : EngineRuntime} {i : Input} {wf : String}

/-- A record that is published under its next number. What is out under its plan
revision is not above the number it had. -/
theorem Counted.publish {w w' : WfRuntime} {n : Nat} {ext : List Sample} (h : Counted r)
    (hr' : Coherent r')
    (hlookup : ∀ id, r'.workflows.lookup id =
      if id = wf then some w' else r.workflows.lookup id)
    (hlog : r'.log = r.log ++ ext) (hone : AtMostOneState wf ext) (hnum : Numbered wf w n ext)
    (hrev : w'.stateRev = n) (hplan : w'.graph.planRevision = w.graph.planRevision)
    (hcurrent : ∀ st ∈ statesOf r.log, st.workflowId = toS wf →
      st.planRevision = w.graph.planRevision → st.stateRevision ≤ w.stateRev)
    (hroom : n ≠ w.stateRev → w.stateRev + 1 < 2 ^ 32)
    (hsub : ∀ id ∈ r.journal.decisions, id ∈ r'.journal.decisions) : Counted r' := by
  have hrecord : r'.workflows.lookup wf = some w' := (hlookup wf).trans (if_pos rfl)
  have hok := hr'.records wf w' hrecord
  have hge : w.stateRev ≤ n := by
    rcases hnum.1 with heq | heq
    · exact heq.ge
    · by_cases hsame : n = w.stateRev
      · exact hsame.ge
      · have := hroom hsame
        omega
  have hold : ∀ st ∈ statesOf r.log, st.workflowId = toS wf →
      st.planRevision = w'.graph.planRevision → st.stateRevision ≤ w'.stateRev := by
    intro st hst hid hp
    rw [hrev]
    exact (hcurrent st hst hid (hp.trans hplan)).trans hge
  have hother : ∀ id wfr, id ≠ wf → r'.workflows.lookup id = some wfr →
      r.workflows.lookup id = some wfr := by
    intro id wfr hne hw
    rwa [hlookup, if_neg hne] at hw
  rcases hone with hnone | ⟨st, hst, hmem⟩
  · have hstates : statesOf r'.log = statesOf r.log := by simp [hlog, hnone]
    refine ⟨by rw [hstates]; exact h.increasing, ?_, ?_⟩
    · intro id wfr hw
      rw [hstates]
      by_cases hid : id = wf
      · subst hid
        rw [hrecord, Option.some.injEq] at hw
        subst hw
        exact hold
      · exact h.current id wfr (hother id wfr hid hw)
    · rw [hstates]
      exact fun st hst hne => hsub _ (h.decided st hst hne)
  · obtain ⟨hn, hstrev, hstplan, hstid⟩ := hnum.2 st hmem
    have hnext : n = w.stateRev + 1 := by
      have := hroom (by omega)
      omega
    have hstates : statesOf r'.log = statesOf r.log ++ [st] := by simp [hlog, hst]
    have hkey : st.workflowId.val = wf := by
      rw [hstid, ← hok.key, toS_coe]
    refine ⟨?_, ?_, ?_⟩
    · rw [hstates, RevisionsIncrease, List.pairwise_append]
      refine ⟨h.increasing, by simp, ?_⟩
      intro a ha b hb hid hp
      rw [List.mem_singleton] at hb
      subst hb
      have hle := hcurrent a ha (hid.trans hstid) (hp.trans hstplan)
      omega
    · intro id wfr hw a ha hid hp
      rw [hstates, List.mem_append, List.mem_singleton] at ha
      by_cases hwf : id = wf
      · subst hwf
        rw [hrecord, Option.some.injEq] at hw
        subst hw
        rcases ha with ha | rfl
        · exact hold a ha hid hp
        · rw [hrev, hstrev]
      · rcases ha with ha | rfl
        · exact h.current id wfr (hother id wfr hwf hw) a ha hid hp
        · have hval : id = wf := by
            rw [← hkey, hid, ← (hr'.records id wfr hw).key, toS_coe]
          exact absurd hval hwf
    · intro a ha hne
      rw [hstates, List.mem_append, List.mem_singleton] at ha
      rcases ha with ha | rfl
      · exact hsub _ (h.decided a ha hne)
      · rw [hkey]
        rcases hok.plan with ⟨-, hdec⟩ | ⟨hzero, -⟩
        · exact hdec
        · exact absurd (hstplan.trans (hplan.symm.trans hzero)) hne

/-- A record that changes, but for its number and its plan revision. -/
theorem Counted.kept {old w' : WfRuntime} (h : Counted r) (hr' : Coherent r')
    (hold : r.workflows.lookup wf = some old)
    (hlookup : ∀ id, r'.workflows.lookup id =
      if id = wf then some w' else r.workflows.lookup id)
    (hlog : r'.log = r.log) (hrev : w'.stateRev = old.stateRev)
    (hplan : w'.graph.planRevision = old.graph.planRevision)
    (hsub : ∀ id ∈ r.journal.decisions, id ∈ r'.journal.decisions) : Counted r' := by
  have hnothing : r'.log = r.log ++ [] := by simp [hlog]
  exact h.publish hr' hlookup hnothing (.inl rfl) ⟨.inl rfl, by simp⟩ hrev hplan
    (h.current wf old hold) (fun hne => absurd rfl hne) hsub

/-- A record that is new, with nothing out under its plan revision. -/
theorem Counted.register {w' : WfRuntime} {ext : List Sample} (h : Counted r) (hr' : Coherent r')
    (hnew : Unpublished wf w'.graph.planRevision r)
    (hlookup : ∀ id, r'.workflows.lookup id =
      if id = wf then some w' else r.workflows.lookup id)
    (hlog : r'.log = r.log ++ ext) (hext : statesOf ext = [])
    (hsub : ∀ id ∈ r.journal.decisions, id ∈ r'.journal.decisions) : Counted r' := by
  have hnone : ∀ st, .state wf st ∉ ext := by
    intro st hst
    have hmem : st ∈ statesOf ext := List.mem_filterMap.mpr ⟨_, hst, rfl⟩
    rw [hext] at hmem
    cases hmem
  refine h.publish (w := w') hr' hlookup hlog (.inl hext) ⟨.inl rfl, ?_⟩ rfl rfl ?_
    (fun hne => absurd rfl hne) hsub
  · exact fun st hst => absurd hst (hnone st)
  · exact fun st hst hid hp => absurd hp (hnew st hst hid)

/-- The loops of a call keep this: the invariant, and while a recovery goes on no
state is published. -/
structure Counting (r₀ : EngineRuntime) (i : Input) (r : EngineRuntime) : Prop where
  coherent : Coherent r
  counted : Counted r
  quiet : i.call = .recoverFromJournal → statesOf r.log = statesOf r₀.log

theorem Counting.refl (hr : Coherent r) (h : Counted r) : Counting r i r := ⟨hr, h, fun _ => rfl⟩

theorem Counting.move (h : Counting r₀ i r) (hi : CountsOn r₀ i) (hmove : Move r₀ i r r')
    (hroom : ∀ wf wfr w, r.workflows.lookup wf = some wfr → r'.workflows.lookup wf = some w →
      w.stateRev ≠ wfr.stateRev → wfr.stateRev + 1 < 2 ^ 32) : Counting r₀ i r' := by
  have hr' := h.coherent.move hmove
  have hsub := (hmove.decides h.coherent).1
  have hloud : ∀ {call : Call} {P : Prop}, i.call = call → call ≠ .recoverFromJournal →
      i.call = .recoverFromJournal → P := by
    intro call P hcall hne hrec
    exact absurd (hcall.symm.trans hrec) hne
  -- A move that publishes the record `old` of `wf` under its next number.
  have hpublish : ∀ {wf : String} {old w' : WfRuntime} {n : Nat} {ext : List Sample},
      r.workflows.lookup wf = some old →
      (∀ id, r'.workflows.lookup id = if id = wf then some w' else r.workflows.lookup id) →
      r'.log = r.log ++ ext → AtMostOneState wf ext → Numbered wf old n ext →
      w'.stateRev = n → w'.graph.planRevision = old.graph.planRevision → Counted r' := by
    intro wf old w' n ext hold hlookup hlog hone hnum hrev hplan
    refine h.counted.publish hr' hlookup hlog hone hnum hrev hplan (h.counted.current wf old hold)
      ?_ hsub
    intro hne
    exact hroom wf old w' hold ((hlookup wf).trans (if_pos rfl)) (hrev ▸ hne)
  cases hmove with
  | submitted intent hcall hstart hnew =>
      have hnothing : (r₀.setWf intent.workflowId.val (awaiting r₀.cfg intent)).log =
          r₀.log ++ [] := by
        simp [setWf]
      exact ⟨hr', h.counted.register hr' (hi.started intent hcall hstart hnew)
        (lookup_setWf _ _ _) hnothing rfl hsub, hloud hcall (by simp)⟩
  | cancelled intent wfr hcall hcancel hwf hmatch n ext hext hnum =>
      exact ⟨hr', hpublish hwf (lookup_record _ _ _ ext) rfl hext.atMostOneState hnum rfl rfl,
        hloud hcall (by simp)⟩
  | observed decision wf wfr hres =>
      exact ⟨hr', h.counted.kept hr' hres.registered (lookup_setWf _ _ _) rfl rfl rfl hsub,
        hloud hres.call (by simp)⟩
  | refused decision wf wfr reason hres hshadow hmap n ext hext hnum =>
      exact ⟨hr', hpublish hres.registered (lookup_record _ _ _ ext) rfl hext.atMostOneState hnum
        rfl rfl, hloud hres.call (by simp)⟩
  | admitted decision wf wfr e hres =>
      exact ⟨hr', ⟨h.counted.increasing, h.counted.current, fun st hst hne =>
        hsub _ (h.counted.decided st hst hne)⟩, hloud hres.call (by simp)⟩
  | planned decision wf wfr e hres hshadow hmap j hentry cand hplan hvalid failover qos n ext hext
      hnum =>
      have hone : AtMostOneState wf ext := by
        rcases hext with rfl | ⟨p, rest, rfl, hrest⟩
        · exact .inl rfl
        · exact hrest.atMostOneState.cons rfl
      -- The workflow was not decided, so nothing is out under plan revision 1.
      have hfresh : wf ∉ r₀.journal.decisions := by
        obtain ⟨-, -, hfresh, -⟩ := hentry.admitted_journalOk
          (toS_val wfr.intent.workflowId.noNul) h.coherent.journal
        rw [← (h.coherent.records wf wfr hres.registered).key]
        exact hfresh
      refine ⟨hr', h.counted.publish hr' (lookup_record _ _ _ ext) rfl hone hnum rfl rfl ?_ ?_
        hsub, hloud hres.call (by simp)⟩
      · intro st hst hid hp
        have hdec := h.counted.decided st hst (by rw [hp]; simp [EngineRuntime.planned,
          PlanGraph.fromCandidate])
        rw [hid, ← (h.coherent.records wf wfr hres.registered).key, toS_coe,
          (h.coherent.records wf wfr hres.registered).key] at hdec
        exact absurd hdec hfresh
      · exact hroom wf wfr _ hres.registered ((lookup_record _ _ _ ext wf).trans (if_pos rfl))
  | rehydrated id row cand hcall hrow hnew hjournal hnew₀ hplan ext hext =>
      have hquiet : statesOf ext = [] := by
        rcases hext with rfl | ⟨p, rfl⟩ <;> rfl
      have hunpublished : Unpublished id 1 r := by
        rw [Unpublished, h.quiet hcall]
        exact hi.rehydrated hcall id row cand (hjournal ▸ hrow) hnew₀ hplan
      refine ⟨hr', h.counted.register hr' hunpublished (lookup_record _ _ _ ext) rfl hquiet hsub,
        ?_⟩
      intro _
      simp [record, hquiet, h.quiet hcall]
  | held wf node wfr hdue =>
      exact ⟨hr', h.counted.kept hr' hdue.registered (lookup_setWf _ _ _) rfl rfl rfl hsub,
        hloud hdue.call (by simp)⟩
  | dispatched wf node wfr hdue taskId state j hmat hindex n ext hext hnum =>
      have hone : AtMostOneState wf ext := by
        rcases hext with rfl | ⟨task, rest, -, rfl, hrest⟩
        · exact .inl rfl
        · exact hrest.atMostOneState.cons rfl
      exact ⟨hr', hpublish hdue.registered (lookup_record _ _ _ ext) rfl hone hnum rfl rfl,
        hloud hdue.call (by simp)⟩
  | incomplete task wf node wfr hwatch | unfailed task wf node wfr hwatch =>
      exact ⟨hr', h.counted.kept hr' hwatch.registered (lookup_setWf _ _ _) rfl rfl rfl hsub,
        hloud hwatch.call (by simp)⟩
  | completed task wf node wfr hwatch hstatus outputs ready state j hdone n ext hext hnum =>
      exact ⟨hr', hpublish hwatch.registered (lookup_record _ _ _ ext) rfl hext.atMostOneState hnum
        rfl rfl, hloud hwatch.call (by simp)⟩
  | retried task wf node wfr hwatch hstatus next state j hfail n ext hext hnum =>
      exact ⟨hr', hpublish hwatch.registered (lookup_record _ _ _ ext) rfl hext.atMostOneState hnum
        rfl rfl, hloud hwatch.call (by simp)⟩
  | exhausted task wf node wfr hwatch hstatus state j hfail n ext hext hnum =>
      exact ⟨hr', hpublish hwatch.registered (lookup_record _ _ _ ext) rfl hext.atMostOneState hnum
        rfl rfl, hloud hwatch.call (by simp)⟩
  | unswept task hover =>
      exact ⟨hr', ⟨h.counted.increasing, h.counted.current, h.counted.decided⟩,
        hloud hover.call (by simp)⟩
  | sweptUnindexed task hover =>
      exact ⟨hr', ⟨h.counted.increasing, h.counted.current, h.counted.decided⟩,
        hloud hover.call (by simp)⟩
  | swept task hover hnew wf node wfr hindex hwf =>
      exact ⟨hr', h.counted.kept hr' hwf (lookup_setWf _ _ _) rfl rfl rfl hsub,
        hloud hover.call (by simp)⟩
  | doubted task hover hnew wf node wfr hindex hindex' hwf hterminal n ext hext hnum =>
      exact ⟨hr', hpublish hwf (lookup_record _ _ _ ext) rfl hext.atMostOneState hnum rfl rfl,
        hloud hover.call (by simp)⟩
  | restarted cfg hcall =>
      exact ⟨hr', ⟨h.counted.increasing, by simp [EngineRuntime.new], h.counted.decided⟩,
        hloud hcall (by simp)⟩

theorem Numbered.le {w : WfRuntime} {n : Nat} {ext : List Sample} (h : Numbered wf w n ext) :
    n ≤ w.stateRev + 1 := by
  rcases h.1 with heq | heq
  · omega
  · rw [heq]
    exact Nat.mod_le _ _

/-- A move of a tick takes a counter at most one further. -/
theorem Move.stateRev_le (h : Move r₀ i r r') (hstart : ∀ intent, i.call ≠ .intent intent)
    (hrec : i.call ≠ .recoverFromJournal) {w : WfRuntime}
    (hw : r'.workflows.lookup wf = some w) :
    ∃ wfr, r.workflows.lookup wf = some wfr ∧ w.stateRev ≤ wfr.stateRev + 1 := by
  have hset : ∀ {wf' : String} {old w' : WfRuntime}, r.workflows.lookup wf' = some old →
      (∀ id, r'.workflows.lookup id = if id = wf' then some w' else r.workflows.lookup id) →
      w'.stateRev ≤ old.stateRev + 1 →
      ∃ wfr, r.workflows.lookup wf = some wfr ∧ w.stateRev ≤ wfr.stateRev + 1 := by
    intro wf' old w' hold hlookup hle
    rw [hlookup] at hw
    split at hw
    · rename_i heq
      injection hw with hw
      subst heq hw
      exact ⟨old, hold, hle⟩
    · exact ⟨w, hw, Nat.le_succ _⟩
  cases h with
  | submitted intent hcall | cancelled intent wfr hcall => exact absurd hcall (hstart intent)
  | observed decision wf wfr hres =>
      exact hset hres.registered (lookup_setWf _ _ _) (Nat.le_succ _)
  | refused decision wf wfr reason hres hshadow hmap n ext hext hnum =>
      exact hset hres.registered (lookup_record _ _ _ ext) hnum.le
  | admitted | unswept | sweptUnindexed => exact ⟨w, hw, Nat.le_succ _⟩
  | planned decision wf wfr e hres hshadow hmap j hentry cand hplan hvalid failover qos n ext hext
      hnum =>
      exact hset hres.registered (lookup_record _ _ _ ext) hnum.le
  | rehydrated id row cand hcall => exact absurd hcall hrec
  | held wf node wfr hdue => exact hset hdue.registered (lookup_setWf _ _ _) (Nat.le_succ _)
  | dispatched wf node wfr hdue taskId state j hmat hindex n ext hext hnum =>
      exact hset hdue.registered (lookup_record _ _ _ ext) hnum.le
  | incomplete task wf node wfr hwatch | unfailed task wf node wfr hwatch =>
      exact hset hwatch.registered (lookup_setWf _ _ _) (Nat.le_succ _)
  | completed task wf node wfr hwatch hstatus outputs ready state j hdone n ext hext hnum =>
      exact hset hwatch.registered (lookup_record _ _ _ ext) hnum.le
  | retried task wf node wfr hwatch hstatus next state j hfail n ext hext hnum =>
      exact hset hwatch.registered (lookup_record _ _ _ ext) hnum.le
  | exhausted task wf node wfr hwatch hstatus state j hfail n ext hext hnum =>
      exact hset hwatch.registered (lookup_record _ _ _ ext) hnum.le
  | swept task hover hnew wf node wfr hindex hwf =>
      exact hset hwf (lookup_setWf _ _ _) (Nat.le_succ _)
  | doubted task hover hnew wf node wfr hindex hindex' hwf hterminal n ext hext hnum =>
      exact hset hwf (lookup_record _ _ _ ext) hnum.le
  | restarted cfg => simp [EngineRuntime.new] at hw

/-! ### Loops -/

/-- Every counter can still go `k` numbers on. -/
def Roomy (k : Nat) (r : EngineRuntime) : Prop :=
  ∀ wf wfr, r.workflows.lookup wf = some wfr → wfr.stateRev + k < 2 ^ 32

/-- At most one move uses up at most one number of each record. -/
theorem Counting.spend (h : Counting r₀ i r) (hi : CountsOn r₀ i)
    (hstart : ∀ intent, i.call ≠ .intent intent) (hrec : i.call ≠ .recoverFromJournal) {k : Nat}
    (hroom : Roomy (k + 1) r) (hmove : Relation.ReflGen (Move r₀ i) r r') :
    Counting r₀ i r' ∧ Roomy k r' := by
  cases hmove with
  | refl =>
      refine ⟨h, ?_⟩
      intro wf wfr hwf
      have := hroom wf wfr hwf
      omega
  | single hmove =>
      constructor
      · refine h.move hi hmove ?_
        intro wf wfr _ hwf _ _
        have := hroom wf wfr hwf
        omega
      · intro wf w hw
        obtain ⟨wfr, hwf, hle⟩ := hmove.stateRev_le hstart hrec hw
        have := hroom wf wfr hwf
        omega

theorem CountsOn.roomy {k : Nat} (hi : CountsOn r i) (hk : ∀ wfr, publications i wfr = k) :
    Roomy k r := by
  intro wf wfr hwf
  have := hi.room wf wfr hwf
  rwa [hk] at this

theorem counting_watch (hr : Coherent r) (h : Counted r) (hi : CountsOn r i)
    (hcall : i.call = .tickWatchTasks) : Counting r i (r.tickWatchTasks i.env).2 := by
  unfold tickWatchTasks
  split
  · exact .refl hr h
  rename_i tasks htasks
  let I (rest : List Task) (t : EngineRuntime) : Prop :=
    Counting r i t ∧ Roomy rest.length t ∧ ∀ task ∈ rest, task ∈ tasks
  have hbegin : I tasks r :=
    ⟨.refl hr h, hi.roomy fun wfr => by simp [publications, hcall, htasks, Except.toOption],
      fun _ h => h⟩
  have hbody : ∀ task rest t, I (task :: rest) t → I rest (watchTask i.env task t).2 := by
    rintro task rest t ⟨ht, hroom, hmem⟩
    obtain ⟨ht', hroom'⟩ := ht.spend hi (by simp [hcall]) (by simp [hcall]) hroom
      (watchTask_move hcall htasks (hmem task (by simp)))
    exact ⟨ht', hroom', fun task h => hmem task (by simp [h])⟩
  obtain ⟨rest, hend, -⟩ := forEach_consumes hbegin hbody
  exact hend

/-- What a task that is swept leaves as it was, and how many workflows it leaves
to be published. -/
structure SweepCounts (s s' : EngineRuntime × List String) : Prop where
  log : s'.1.log = s.1.log
  decisions : s'.1.journal.decisions = s.1.journal.decisions
  records : ∀ id w, s'.1.workflows.lookup id = some w → ∃ old,
    s.1.workflows.lookup id = some old ∧ w.stateRev = old.stateRev ∧ w.graph = old.graph
  doubtful : s'.2.length ≤ s.2.length + 1

theorem sweepTask_counts (env : Env) (task : Task) (s : EngineRuntime × List String) :
    SweepCounts s (sweepTask env task s).2 := by
  obtain ⟨r, doubtful⟩ := s
  have hsame : ∀ id w, r.workflows.lookup id = some w → ∃ old,
      r.workflows.lookup id = some old ∧ w.stateRev = old.stateRev ∧ w.graph = old.graph :=
    fun _ w hw => ⟨w, hw, rfl, rfl⟩
  unfold sweepTask Journal.markInDoubt
  dsimp only
  split
  · exact ⟨rfl, rfl, hsame, Nat.le_succ _⟩
  split
  · exact ⟨rfl, rfl, hsame, Nat.le_succ _⟩
  by_cases hio : env.journalFails (.markInDoubt task.taskId) = true
  · simp only [hio, if_true]
    exact ⟨rfl, rfl, hsame, Nat.le_succ _⟩
  simp only [hio, if_false, Bool.false_eq_true]
  split
  · exact ⟨rfl, rfl, hsame, Nat.le_succ _⟩
  rename_i wf node hindex
  split
  · exact ⟨rfl, rfl, hsame, by simp⟩
  rename_i wfr hwf
  refine ⟨rfl, rfl, ?_, by simp⟩
  intro id w hw
  rw [lookup_setWf] at hw
  split at hw
  · rename_i hid
    injection hw with hw
    subst hid hw
    exact ⟨wfr, hwf, rfl, rfl⟩
  · exact hsame id w hw

theorem SweepCounts.counted {s s' : EngineRuntime × List String} (h : SweepCounts s s')
    (hs : Counted s.1) : Counted s'.1 := by
  refine ⟨by rw [h.log]; exact hs.increasing, ?_, ?_⟩
  · intro id w hw st hst hid hp
    obtain ⟨old, hold, hrev, hgraph⟩ := h.records id w hw
    rw [h.log] at hst
    rw [hgraph] at hp
    rw [hrev]
    exact hs.current id old hold st hst hid hp
  · rw [h.log, h.decisions]
    exact hs.decided

theorem SweepCounts.roomy {s s' : EngineRuntime × List String} {k : Nat} (h : SweepCounts s s')
    (hs : Roomy k s.1) : Roomy k s'.1 := by
  intro id w hw
  obtain ⟨old, hold, hrev, -⟩ := h.records id w hw
  rw [hrev]
  exact hs id old hold

/-- The sweep has come to the tasks `rest`. -/
structure SweepCounting (r : EngineRuntime) (i : Input) (tasks rest : List Task)
    (s : EngineRuntime × List String) : Prop where
  sweeping : Sweeping r i s
  counted : Counted s.1
  room : Roomy tasks.length s.1
  doubtful : s.2.length + rest.length ≤ tasks.length
  visible : ∀ task ∈ rest, task ∈ tasks

theorem SweepCounting.task {tasks rest : List Task} {task : Task} {s : EngineRuntime × List String}
    (hcall : i.call = .tickTimeouts) (htasks : i.env.allTasks = .ok tasks)
    (h : SweepCounting r i tasks (task :: rest) s) :
    SweepCounting r i tasks rest (sweepTask i.env task s).2 := by
  have hcounts := sweepTask_counts i.env task s
  refine ⟨sweepTask_sweeping hcall htasks (h.visible task (by simp)) h.sweeping,
    hcounts.counted h.counted, hcounts.roomy h.room, ?_,
    fun task ht => h.visible task (by simp [ht])⟩
  have hgrows := hcounts.doubtful
  have hfits := h.doubtful
  rw [List.length_cons] at hfits
  omega

/-- The publication of the workflows in doubt has come to `rest`. -/
structure DoubtCounting (r : EngineRuntime) (i : Input) (doubtful rest : List String)
    (t : EngineRuntime) : Prop where
  counting : Counting r i t
  index : t.taskIndex = r.taskIndex
  terminal : ∀ wf ∈ doubtful, ∀ w, t.workflows.lookup wf = some w → w.terminal = true
  room : Roomy rest.length t
  among : ∀ wf ∈ rest, wf ∈ doubtful

theorem DoubtCounting.workflow {doubtful rest : List String} {s t : EngineRuntime}
    (hi : CountsOn r i) (hcall : i.call = .tickTimeouts) (hsweep : Sweeping r i (s, doubtful))
    (h : DoubtCounting r i doubtful (wf :: rest) t) :
    DoubtCounting r i doubtful rest (publishInDoubt i.env wf t).2 := by
  have hwf := h.among wf (by simp)
  obtain ⟨task, node, hover, hnew, hindex, -⟩ := hsweep.doubtful wf hwf
  obtain ⟨hmove, hindex', hkeep⟩ :=
    publishInDoubt_move hover hnew hindex h.index (h.terminal wf hwf)
  obtain ⟨hcounting, hroom⟩ :=
    h.counting.spend hi (by simp [hcall]) (by simp [hcall]) h.room hmove
  exact ⟨hcounting, hindex', fun wf' hwf' => hkeep wf' (h.terminal wf' hwf'), hroom,
    fun wf' h' => h.among wf' (by simp [h'])⟩

theorem counting_timeouts (hr : Coherent r) (h : Counted r) (hi : CountsOn r i)
    (hcall : i.call = .tickTimeouts) : Counting r i (r.tickTimeouts i.env).2 := by
  unfold tickTimeouts
  split
  · exact .refl hr h
  rename_i tasks htasks
  have hbegin : SweepCounting r i tasks tasks (r, []) :=
    ⟨⟨.refl, .refl r, by simp⟩, h,
      hi.roomy fun wfr => by simp [publications, hcall, htasks, Except.toOption], by simp,
      fun _ h => h⟩
  obtain ⟨left, hswept⟩ := forEach_consumes hbegin fun task rest s h => h.task hcall htasks
  generalize forEach (sweepTask i.env) tasks (r, []) = out at hswept ⊢
  obtain ⟨result, r', doubtful⟩ := out
  have hr' : Coherent r' := hswept.sweeping.chain.invariant hr fun _ _ ht hmove => ht.move hmove
  have hcounting : Counting r i r' := ⟨hr', hswept.counted, fun hrec => by simp [hcall] at hrec⟩
  cases result with
  | error e => exact hcounting
  | ok marked =>
      rw [andThen_ok_snd]
      have hroom : Roomy doubtful.length r' := by
        intro wf wfr hwf
        have hspace := hswept.room wf wfr hwf
        have hfits := hswept.doubtful
        dsimp only at hfits
        omega
      have hpublish : DoubtCounting r i doubtful doubtful r' := by
        refine ⟨hcounting, hswept.sweeping.frame.index, ?_, hroom, fun _ h => h⟩
        intro wf hwf
        obtain ⟨-, -, -, -, -, hterm⟩ := hswept.sweeping.doubtful wf hwf
        exact hterm
      obtain ⟨rest, hend⟩ :=
        forEach_consumes hpublish fun wf rest t h => h.workflow hi hcall hswept.sweeping
      exact hend.counting

/-- The pass over the ready nodes of `wf` has come to `rest`: the record has a
number left for each of them, and the other records are as they were. -/
structure Passing (r₀ : EngineRuntime) (i : Input) (s : EngineRuntime) (wf : String)
    (wfr : WfRuntime) (rest : List String) (t : EngineRuntime) : Prop where
  counting : Counting r₀ i t
  record : ∃ w, t.workflows.lookup wf = some w ∧ w.graph = wfr.graph ∧ w.terminal = false ∧
    w.state.doneSet = wfr.state.doneSet ∧ w.stateRev + rest.length < 2 ^ 32
  records : ∀ id, id ≠ wf → t.workflows.lookup id = s.workflows.lookup id
  ready : ∀ node ∈ rest, node ∈ (wfr.graph.readyNodes wfr.state.doneSet).map (·.nodeId)

theorem Passing.node {s t : EngineRuntime} {wfr : WfRuntime} {node : String} {rest : List String}
    (hi : CountsOn r₀ i) (hcall : i.call = .tickScheduler)
    (h : Passing r₀ i s wf wfr (node :: rest) t) :
    Passing r₀ i s wf wfr rest (scheduleNode i.env wf node t).2 := by
  obtain ⟨w, hw, hgraph, hterm, hdone, hroom⟩ := h.record
  rw [List.length_cons] at hroom
  have hdue : Due i t wf node w := by
    refine ⟨hcall, hw, hterm, ?_⟩
    rw [hgraph, hdone]
    exact List.mem_map.mp (h.ready node (by simp))
  have hmove : Move r₀ i t (scheduleNode i.env wf node t).2 := (scheduleNode_move hdue).1
  obtain ⟨w', result, hgraph', hterm', hmat, hlookup⟩ := scheduleNode_eq hdue
  have hdone' := materialize_doneSet i.env.journalFails w.graph node t.cfg.perAttemptMicrounits
    w.state t.journal
  rw [hmat] at hdone'
  have hw' := (hlookup wf).trans (if_pos rfl)
  refine ⟨h.counting.move hi hmove ?_, ⟨w', hw', hgraph'.trans hgraph, hterm',
    hdone'.trans hdone, ?_⟩, ?_, fun id hid => h.ready id (by simp [hid])⟩
  · intro id old new hold hnew hne
    by_cases hid : id = wf
    · subst hid
      rw [hw, Option.some.injEq] at hold
      subst hold
      omega
    · rw [hlookup, if_neg hid, hold, Option.some.injEq] at hnew
      exact absurd (by rw [hnew]) hne
  · obtain ⟨old, hold, hle⟩ := hmove.stateRev_le (by simp [hcall]) (by simp [hcall]) hw'
    rw [hw, Option.some.injEq] at hold
    subst hold
    omega
  · intro id hid
    rw [hlookup, if_neg hid]
    exact h.records id hid

theorem counting_scheduleWorkflow (h : Counting r₀ i r) (hi : CountsOn r₀ i)
    (hcall : i.call = .tickScheduler)
    (hsame : r.workflows.lookup wf = r₀.workflows.lookup wf) :
    Counting r₀ i (scheduleWorkflow i.env wf r).2 ∧
      ∀ id, id ≠ wf → (scheduleWorkflow i.env wf r).2.workflows.lookup id =
        r.workflows.lookup id := by
  unfold scheduleWorkflow
  split
  · exact ⟨h, fun _ _ => rfl⟩
  rename_i wfr hwf
  split
  · exact ⟨h, fun _ _ => rfl⟩
  rename_i hlive
  have hroom := hi.room wf wfr (hsame ▸ hwf)
  simp only [publications, hcall] at hroom
  have hbegin : Passing r₀ i r wf wfr ((wfr.graph.readyNodes wfr.state.doneSet).map (·.nodeId)) r :=
    ⟨h, ⟨wfr, hwf, rfl, by simpa using hlive, rfl, by simpa using hroom⟩, fun _ _ => rfl,
      fun _ h => h⟩
  obtain ⟨rest, hend⟩ := forEach_consumes hbegin fun node rest t h => h.node hi hcall
  exact ⟨hend.counting, hend.records⟩

theorem counting_scheduler (hr : Coherent r) (h : Counted r) (hi : CountsOn r i)
    (hcall : i.call = .tickScheduler) : Counting r i (r.tickScheduler i.env).2 := by
  let I (rest : List String) (t : EngineRuntime) : Prop :=
    Counting r i t ∧ rest.Nodup ∧ ∀ wf ∈ rest, t.workflows.lookup wf = r.workflows.lookup wf
  have hbegin : I (r.workflowIds i.env) r :=
    ⟨.refl hr h, nodup_workflowIds i.env r, fun _ _ => rfl⟩
  have hbody : ∀ wf rest t, I (wf :: rest) t → I rest (scheduleWorkflow i.env wf t).2 := by
    rintro wf rest t ⟨ht, hnodup, hsame⟩
    obtain ⟨hnotMem, hnodup⟩ := List.nodup_cons.mp hnodup
    obtain ⟨ht', hothers⟩ := counting_scheduleWorkflow ht hi hcall (hsame wf (by simp))
    refine ⟨ht', hnodup, fun id hid => ?_⟩
    rw [hothers id (by rintro rfl; exact hnotMem hid)]
    exact hsame id (by simp [hid])
  obtain ⟨rest, hend, -⟩ := forEach_consumes hbegin hbody
  exact hend

/-- The calls that take in an intent or a decision make their moves from the
state they begin in. -/
theorem Move.source_eq (h : Move r₀ i r r')
    (hcall : (∃ intent, i.call = .intent intent) ∨ ∃ decision, i.call = .decision decision) :
    r = r₀ := by
  cases h with
  | submitted | cancelled | observed | refused | admitted | planned | restarted => rfl
  | rehydrated _ _ _ hother => rcases hcall with ⟨_, hcall⟩ | ⟨_, hcall⟩ <;> simp [hcall] at hother
  | held _ _ _ hdue | dispatched _ _ _ hdue =>
      have hother := hdue.call
      rcases hcall with ⟨_, hcall⟩ | ⟨_, hcall⟩ <;> simp [hcall] at hother
  | incomplete _ _ _ _ hwatch | completed _ _ _ _ hwatch | unfailed _ _ _ _ hwatch
  | retried _ _ _ _ hwatch | exhausted _ _ _ _ hwatch =>
      have hother := hwatch.call
      rcases hcall with ⟨_, hcall⟩ | ⟨_, hcall⟩ <;> simp [hcall] at hother
  | unswept _ hover | sweptUnindexed _ hover | swept _ hover | doubted _ hover =>
      have hother := hover.call
      rcases hcall with ⟨_, hcall⟩ | ⟨_, hcall⟩ <;> simp [hcall] at hother

theorem counting_intake (hr : Coherent r) (h : Counted r) (hi : CountsOn r i)
    (hcall : (∃ intent, i.call = .intent intent) ∨ ∃ decision, i.call = .decision decision) :
    Counting r i (step r i) := by
  refine step_invariant (I := Counting r i) (.refl hr h) ?_
  intro t t' ht hmove
  obtain rfl := hmove.source_eq hcall
  refine ht.move hi hmove ?_
  intro wf wfr w hwf _ _
  have hroom := hi.room wf wfr hwf
  rcases hcall with ⟨_, hcall⟩ | ⟨_, hcall⟩ <;> simpa [publications, hcall] using hroom

/-- A recovery leaves the records it finds. -/
theorem Move.recover_keeps (h : Move r₀ i r r') (hcall : i.call = .recoverFromJournal)
    {wfr : WfRuntime} (hwf : r.workflows.lookup wf = some wfr) :
    r'.workflows.lookup wf = some wfr := by
  cases h with
  | rehydrated id row cand _ _ hnew _ _ _ ext =>
      have hne : wf ≠ id := by
        rintro rfl
        rw [hnew] at hwf
        cases hwf
      exact (lookup_record _ _ _ ext wf).trans ((if_neg hne).trans hwf)
  | submitted _ hother | cancelled _ _ hother | restarted _ hother => simp [hcall] at hother
  | observed _ _ _ hres | refused _ _ _ _ hres | admitted _ _ _ _ hres | planned _ _ _ _ hres =>
      have hother := hres.call
      simp [hcall] at hother
  | held _ _ _ hdue | dispatched _ _ _ hdue =>
      have hother := hdue.call
      simp [hcall] at hother
  | incomplete _ _ _ _ hwatch | completed _ _ _ _ hwatch | unfailed _ _ _ _ hwatch
  | retried _ _ _ _ hwatch | exhausted _ _ _ _ hwatch =>
      have hother := hwatch.call
      simp [hcall] at hother
  | unswept _ hover | sweptUnindexed _ hover | swept _ hover | doubted _ hover =>
      have hother := hover.call
      simp [hcall] at hother

theorem counting_recover (hr : Coherent r) (h : Counted r) (hi : CountsOn r i)
    (hcall : i.call = .recoverFromJournal) : Counting r i (step r i) := by
  refine step_invariant (I := Counting r i) (.refl hr h) ?_
  intro t t' ht hmove
  refine ht.move hi hmove ?_
  intro wf wfr w hwf hw hne
  rw [hmove.recover_keeps hcall hwf, Option.some.injEq] at hw
  exact absurd (by rw [hw]) hne

/-- A call that meets the condition keeps the count. -/
theorem Counted.call (hr : Coherent r) (h : Counted r) (hi : CountsOn r i) :
    Counted (step r i) := by
  cases hcall : i.call with
  | intent intent => exact (counting_intake hr h hi (.inl ⟨intent, hcall⟩)).counted
  | decision decision => exact (counting_intake hr h hi (.inr ⟨decision, hcall⟩)).counted
  | recoverFromJournal => exact (counting_recover hr h hi hcall).counted
  | tickScheduler => simpa only [step, hcall] using (counting_scheduler hr h hi hcall).counted
  | tickWatchTasks => simpa only [step, hcall] using (counting_watch hr h hi hcall).counted
  | tickTimeouts => simpa only [step, hcall] using (counting_timeouts hr h hi hcall).counted
  | restart cfg =>
      simp only [step, hcall]
      exact ⟨h.increasing, by simp [EngineRuntime.new], h.decided⟩

end Calls

/-- In every run in which the counters go on, over any number of restarts, the
states of each workflow and plan revision are published with increasing
revisions, and no cache that receives them refuses one as stale or as a
conflict. -/
theorem state_revisions_increase (cfg : RuntimeConfig) (inputs : List Input)
    (hrun : Along step CountsOn (initial cfg) inputs) :
    RevisionsIncrease (statesOf (run cfg inputs).log) ∧
      NeverOutdated (statesOf (run cfg inputs).log) := by
  have hcounted : Coherent (run cfg inputs) ∧ Counted (run cfg inputs) := by
    refine hrun.invariant (I := fun r => Coherent r ∧ Counted r)
      ⟨coherent_new journalOk_empty [] cfg, ?_⟩ ?_
    · exact ⟨List.Pairwise.nil, by simp [initial, EngineRuntime.new], by
        simp [initial, EngineRuntime.new]⟩
    · rintro r i ⟨hr, h⟩ hi
      exact ⟨hr.step i, h.call hr hi⟩
  exact ⟨hcounted.2.increasing, hcounted.2.increasing.neverOutdated⟩

namespace Deployment

/-- A workflow is admitted and scheduled, and the process ends. -/
def ended : List Input := admitted ++ [⟨env, .tickScheduler⟩, ⟨env, .restart config⟩]

/-- The next process takes the workflow up and schedules it again. -/
def takenUp : List Input := ended ++ [⟨env, .recoverFromJournal⟩, ⟨env, .tickScheduler⟩]

/-- The condition for a call that registers nothing, by a look at the records. -/
theorem countsOn_of_entries {r : EngineRuntime} {i : Input}
    (hstart : ∀ intent, i.call ≠ .intent intent) (hrec : i.call ≠ .recoverFromJournal)
    (hroom : r.workflows.entries.all fun e => e.2.stateRev + publications i e.2 < 2 ^ 32) :
    CountsOn r i := by
  refine ⟨fun intent h => absurd h (hstart intent), fun h => absurd h hrec, ?_⟩
  intro wf wfr hwf
  simpa using List.all_eq_true.mp hroom ⟨wf, wfr⟩ (Map.mem_entries.mpr hwf)

theorem ended_countsOn : Along step CountsOn (initial config) ended := by
  refine ⟨⟨?_, by simp, by simp [initial, EngineRuntime.new]⟩, ?_, ?_, ?_, trivial⟩
  · intro _ _ _ _ st hst
    cases hst
  · exact countsOn_of_entries (by simp) (by simp) (by decide +kernel)
  · exact countsOn_of_entries (by simp) (by simp) (by decide +kernel)
  · exact countsOn_of_entries (by simp) (by simp) (by decide +kernel)

end Deployment

open Deployment in
theorem ended_revisions_increase :
    RevisionsIncrease (statesOf (run config ended).log) ∧
      NeverOutdated (statesOf (run config ended).log) :=
  state_revisions_increase config ended ended_countsOn

open Deployment in
/-- The process that takes the workflow up publishes its first revision once
more, and the cache that has the second refuses it as stale. -/
theorem takenUp_revision_stale :
    (statesOf (run config takenUp).log).map
        (fun st => (st.workflowId.val, st.planRevision, st.stateRevision)) =
          [("wf-1", 1, 1), ("wf-1", 1, 2), ("wf-1", 1, 1)] ∧
      ¬ RevisionsIncrease (statesOf (run config takenUp).log) ∧
      ¬ NeverOutdated (statesOf (run config takenUp).log) := by
  obtain ⟨hrevisions, hfalls, hrefused⟩ :
      (statesOf (run config takenUp).log).map
          (fun st => (st.workflowId.val, st.planRevision, st.stateRevision)) =
            [("wf-1", 1, 1), ("wf-1", 1, 2), ("wf-1", 1, 1)] ∧
        ¬ RevisionsIncrease (statesOf (run config takenUp).log) ∧
        (statesOf (run config takenUp).log).getLast?.map (fun last =>
          (((statesOf (run config takenUp).log).dropLast.map StateCache.Traffic.state).foldl
            (StateCache.receive 0) (.new .default)).admitState 0 last) =
          some (.error (.stale StateCache.topic "wf-1|1" 2 1)) := by
    decide +kernel
  refine ⟨hrevisions, hfalls, ?_⟩
  generalize statesOf (run config takenUp).log = states at hrefused ⊢
  intro hnever
  obtain ⟨last, hlast, herr⟩ := Option.map_eq_some_iff.mp hrefused
  obtain ⟨earlier, rfl⟩ := List.getLast?_eq_some_iff.mp hlast
  rw [List.dropLast_concat] at herr
  have htraffic : ((earlier ++ [last]).map StateCache.Traffic.state).filterMap
      StateCache.Traffic.state? = earlier ++ [last] := by
    rw [List.filterMap_map]
    exact List.filterMap_some
  have hfresh := hnever 0 .default _ _ [] last _ htraffic (List.map_append ..) herr
  cases hfresh

end DdsOrchestrator.WorkflowEngine
