import DdsOrchestrator.WorkflowEngine.Coherence

/-!
The boundary between deciding and doing. A workflow leaves a trace in the
journal or on a topic only after a decision call that was authorised for it:
accepted out of shadow under the pinned calibration, or replaced by a fallback
template that its intent names and the policy has. Restarts do not open the
boundary, because recovery reads the rows that such a call wrote.
-/

namespace DdsOrchestrator.WorkflowEngine

open EngineRuntime Machine

/-! ### Authorised decisions -/

/-- Accepted out of shadow: the pin is set and is the decision's calibration,
and decision and intent agree on request, workflow and all revisions. -/
structure ActiveAccept (policy : DecisionPolicy) (decision : RoutingDecision)
    (intent : WorkflowIntent) (verdict : Verdict) : Prop where
  verdict : ∃ caps profile priority below, verdict = .accept caps profile priority false below
  pinned : policy.calibrationPin = some decision.calibrationRevision.val
  correlated : correlated decision intent
  revisions : revisionsPinned decision intent policy
  checkpoint : checkpointPinned decision intent

/-- No usable decision, and the intent names a template of the policy. -/
structure FallbackNamed (policy : QosMapperPolicy) (intent : WorkflowIntent)
    (verdict : Verdict) : Prop where
  verdict : (∃ code, verdict = .error code) ∨ ∃ reason detail, verdict = .reject reason detail
  template : ∃ tpl ∈ policy.fallbackTemplates, tpl.id = intent.fallbackTemplateId.val

/-- The call takes in a decision for `wf` that authorises work on it. -/
def Authorises (r : EngineRuntime) (i : Input) (wf : String) : Prop :=
  ∃ decision wfr, Resolves i r decision wf wfr ∧
    (ActiveAccept r.cfg.decisionPolicy decision wfr.intent (verdictOn i.env r wfr decision) ∨
      FallbackNamed r.cfg.mapperPolicy wfr.intent (verdictOn i.env r wfr decision))

/-- A mapping that applies to a verdict outside shadow authorises. -/
theorem authorises_of_applied {r : EngineRuntime} {i : Input} {decision : RoutingDecision}
    {wf : String} {wfr : WfRuntime} {e : EffectiveQos} (hres : Resolves i r decision wf wfr)
    (hshadow : (verdictOn i.env r wfr decision).isShadow = false)
    (hmap : mapVerdict (verdictOn i.env r wfr decision) wfr.intent r.cfg.mapperPolicy =
      .applied e) : Authorises r i wf := by
  refine ⟨decision, wfr, hres, ?_⟩
  cases hverdict : verdictOn i.env r wfr decision with
  | accept caps profile priority shadow below =>
      rw [hverdict] at hshadow
      have hfalse : shadow = false := hshadow
      subst hfalse
      obtain ⟨hcorr, hrev, hcheck, hgate⟩ := validate_accept hverdict
      exact .inl ⟨⟨caps, profile, priority, below, rfl⟩, shadowOnly_eq_false.mp hgate.symm, hcorr,
        hrev, hcheck⟩
  | error code =>
      rw [hverdict] at hmap
      exact .inr ⟨.inl ⟨code, rfl⟩, mapFallback_applied hmap⟩
  | reject reason detail =>
      rw [hverdict] at hmap
      exact .inr ⟨.inr ⟨reason, detail, rfl⟩, mapFallback_applied hmap⟩

/-! ### Traces -/

/-- A sample that only an admitted workflow may leave: a task, a plan, or a
state that reports work. Refusals and cancellations are published for
workflows that were never admitted, too. -/
def Sample.ofWork : Sample → Option String
  | .task wf _ _ _ => some wf
  | .plan wf _ => some wf
  | .state wf st =>
      match st.status with
      | .failed | .cancelled => none
      | _ => some wf

/-- Reservations and outbox rows belong to decided workflows. -/
structure JournalTraced (j : Journal) : Prop where
  reservations : ∀ key row, j.reservations.lookup key = some row → row.workflowId ∈ j.decisions
  outbox : ∀ row ∈ j.outbox, row.workflowId ∈ j.decisions

structure Traced (r : EngineRuntime) : Prop where
  coherent : Coherent r
  journal : JournalTraced r.journal
  log : ∀ s ∈ r.log, ∀ wf, s.ofWork = some wf → wf ∈ r.journal.decisions

section Journal

variable {j j' : Journal}

theorem JournalTraced.appended (hj : JournalTraced j) {wf : String} {rows : List OutboxRow}
    (hrows : Journal.Appended wf j.outbox rows) (hwf : wf ∈ j.decisions) :
    JournalTraced { j with outbox := rows } := by
  refine ⟨hj.reservations, ?_⟩
  rcases hrows with rfl | ⟨row, hrow, rfl⟩
  · exact hj.outbox
  · intro row' hrow'
    rcases List.mem_append.mp hrow' with h | h
    · exact hj.outbox row' h
    · rw [List.mem_singleton.mp h, hrow]
      exact hwf

theorem Journal.ReserveStep.traced {wf key purpose : String} {tokens microunits : UInt64}
    {result : Except JournalError Journal.ReserveOutcome}
    (h : Journal.ReserveStep wf key purpose tokens microunits j result j')
    (hj : JournalTraced j) (hwf : wf ∈ j.decisions) : JournalTraced j' := by
  cases h with
  | failed | replayed | consumed => exact hj
  | reserved =>
      refine ⟨?_, hj.outbox⟩
      intro k row hrow
      rcases Map.lookup_insert_eq_some.mp hrow with ⟨-, rfl⟩ | ⟨-, hold⟩
      · exact hwf
      · exact hj.reservations k row hold

theorem Journal.releaseReservation_traced (io : JournalCall → Bool) (key : String)
    (measured : Option UInt64) (hj : JournalTraced j) :
    JournalTraced (j.releaseReservation io key measured).2 := by
  have h := Journal.releaseReservation_step io key measured j
  have hclosed : ∀ row : ReservationRow, j.reservations.lookup key = some row →
      ∀ k row', (j.reservations.insert key
        { row with state := Journal.releasedState measured }).lookup k = some row' →
        row'.workflowId ∈ j.decisions := by
    intro row hrow k row' hrow'
    rcases Map.lookup_insert_eq_some.mp hrow' with ⟨-, rfl⟩ | ⟨-, hold⟩
    · exact hj.reservations key row hrow
    · exact hj.reservations k row' hold
  generalize j.releaseReservation io key measured = out at h ⊢
  obtain ⟨result, j'⟩ := out
  dsimp only at h ⊢
  cases h with
  | failed => exact hj
  | orphan row hrow => exact ⟨hclosed row hrow, hj.outbox⟩
  | released row w hrow => exact ⟨hclosed row hrow, hj.outbox⟩

theorem Journal.AdmitStep.traced {a : Journal.Admission} {result : Except JournalError _}
    (h : Journal.AdmitStep a j result j') (hj : JournalTraced j) : JournalTraced j' := by
  cases h with
  | failed | replay | conflict => exact hj
  | admitted =>
      have hdecided : ∀ id ∈ j.decisions, id ∈ j.decisions.insert a.workflowId a.decisionRow :=
        fun id hid => by simp [hid]
      unfold Journal.insertIntentOrIgnore
      split <;> exact ⟨fun key row hrow => hdecided _ (hj.reservations key row hrow),
        fun row hrow => hdecided _ (hj.outbox row hrow)⟩

theorem Journal.RecordStep.traced {key : AttemptKey} {taskId : String} {state : AttemptState}
    {result : Except JournalError Unit} (h : Journal.RecordStep key taskId state j result j')
    (hj : JournalTraced j) : JournalTraced j' := by
  cases h with
  | failed | ignored => exact hj
  | written => exact ⟨hj.reservations, hj.outbox⟩

end Journal

section Operations

variable {io : JournalCall → Bool} {graph : PlanGraph} {node : String} {s s' : EngineState}
  {j j' : Journal}

theorem Journal.RecordStep.decisions {key : AttemptKey} {taskId : String} {state : AttemptState}
    {result : Except JournalError Unit} (h : Journal.RecordStep key taskId state j result j') :
    j'.decisions = j.decisions := by
  cases h <;> rfl

theorem EngineState.MaterializeStep.traced {microunits : UInt64}
    {result : Except EngineError String}
    (h : EngineState.MaterializeStep graph node microunits s j result s' j')
    (hj : JournalTraced j) (hwf : graph.workflowId ∈ j.decisions) : JournalTraced j' := by
  cases h with
  | unknown | done | doubtful | unreserved | consumed => exact hj
  | unrecorded _ _ _ _ _ hreserve =>
      obtain ⟨_, -, hstep⟩ := hreserve
      exact hstep.traced hj hwf
  | recorded _ _ _ _ j₁ j₂ hreserve hrecord rows _ _ hrows =>
      obtain ⟨_, -, hstep⟩ := hreserve
      refine (hrecord.traced (hstep.traced hj hwf)).appended hrows ?_
      rw [hrecord.decisions, hstep.kept.decisions]
      exact hwf

theorem EngineState.DoneStep.traced {attempt : Nat} {outputs : List (String × String)}
    {result : Except EngineError (List String)}
    (h : EngineState.DoneStep io graph node attempt outputs s j result s' j')
    (hj : JournalTraced j) (hwf : graph.workflowId ∈ j.decisions) : JournalTraced j' := by
  have happended : ∀ j₁ rows, Journal.RecordStep (graph.workflowId, node, attempt)
      (EngineState.taskIdOf graph node attempt) .done j (.ok ()) j₁ →
      Journal.Appended graph.workflowId j₁.outbox rows →
      JournalTraced { j₁ with outbox := rows } := by
    intro j₁ rows hrecord hrows
    refine (hrecord.traced hj).appended hrows ?_
    rw [hrecord.decisions]
    exact hwf
  cases h with
  | refused | unrecorded => exact hj
  | unsent _ _ _ _ _ _ _ j₁ hrecord rows _ hrows => exact happended j₁ rows hrecord hrows
  | completed _ _ _ _ _ _ _ j₁ hrecord rows _ hrows =>
      exact Journal.releaseReservation_traced _ _ _ (happended j₁ rows hrecord hrows)

theorem EngineState.FailStep.traced {attempt : Nat} {failover : Bool}
    {result : Except EngineError (Option Nat)}
    (h : EngineState.FailStep io graph node attempt failover s j result s' j')
    (hj : JournalTraced j) (hwf : graph.workflowId ∈ j.decisions) : JournalTraced j' := by
  have hrelease := Journal.releaseReservation_traced io
    (EngineState.reservationKey graph.workflowId node attempt) none hj
  cases h with
  | refused => exact hj
  | unrecorded => exact hrelease
  | retried _ _ _ _ _ _ j₂ hrecord _ rows _ _ hrows =>
      refine (hrecord.traced hrelease).appended hrows ?_
      rw [hrecord.decisions, (Journal.releaseReservation_kept io _ none j).decisions]
      exact hwf
  | closed _ _ _ _ _ _ _ hrecord => exact hrecord.traced hrelease

end Operations

/-! ### Every trace is of a decided workflow -/

section Moves

variable {r₀ r r' : EngineRuntime} {i : Input}

/-- Only workflows with a plan have nodes, and those are decided. -/
theorem RecordOk.decided {j : Journal} {wf node : String} {wfr : WfRuntime}
    (h : RecordOk j wf wfr) (hnode : ∃ spec ∈ wfr.graph.nodes, spec.nodeId = node) :
    wf ∈ j.decisions := by
  rcases h.plan with ⟨-, hwf⟩ | ⟨-, hnil⟩
  · exact hwf
  · obtain ⟨spec, hspec, -⟩ := hnode
    rw [hnil] at hspec
    cases hspec

theorem Publishes.ofWork {wf : String} {status : WorkflowStatus} {ext : List Sample}
    (h : Publishes wf status ext) {s : Sample} (hs : s ∈ ext) {wf' : String}
    (hwork : s.ofWork = some wf') : wf' = wf ∧ status ≠ .failed ∧ status ≠ .cancelled := by
  rcases h with rfl | ⟨st, hst, rfl⟩
  · cases hs
  · rw [List.mem_singleton.mp hs] at hwork
    subst hst
    unfold Sample.ofWork at hwork
    cases hstatus : st.status <;> simp [hstatus] at hwork <;> simp [hwork]

/-- What a move appends to the log: work only for decided workflows, and tasks
only by the scheduler. -/
theorem Move.writes (hr : Coherent r) (h : Move r₀ i r r') :
    ∃ ext, r'.log = r.log ++ ext ∧ ∀ s ∈ ext,
      (∀ wf, s.ofWork = some wf → wf ∈ r'.journal.decisions) ∧
      ∀ wf node attempt task, s = .task wf node attempt task → i.call = .tickScheduler := by
  have hnone : ∃ ext : List Sample, r.log = r.log ++ ext ∧ ∀ s ∈ ext,
      (∀ wf, s.ofWork = some wf → wf ∈ r'.journal.decisions) ∧
      ∀ wf node attempt task, s = .task wf node attempt task → i.call = .tickScheduler :=
    ⟨[], by simp, by simp⟩
  have hstate : ∀ {wf : String} {status : WorkflowStatus} {ext : List Sample},
      Publishes wf status ext → (status = .failed ∨ status = .cancelled ∨
        wf ∈ r'.journal.decisions) → ∀ s ∈ ext,
      (∀ wf, s.ofWork = some wf → wf ∈ r'.journal.decisions) ∧
      ∀ wf node attempt task, s = .task wf node attempt task → i.call = .tickScheduler := by
    intro wf status ext hext hwf s hs
    constructor
    · intro wf' hwork
      obtain ⟨rfl, hfailed, hcancelled⟩ := hext.ofWork hs hwork
      exact (hwf.resolve_left hfailed).resolve_left hcancelled
    · rintro wf' node attempt task rfl
      rcases hext with rfl | ⟨st, -, rfl⟩
      · cases hs
      · cases List.mem_singleton.mp hs
  have hcoherent := hr.move h
  cases h with
  | submitted | observed | admitted | held | incomplete | unfailed | unswept | sweptUnindexed |
      swept | restarted => exact hnone
  | cancelled intent wfr hcall hcancel hwf hmatch n ext hext =>
      exact ⟨ext, rfl, hstate hext (.inr (.inl rfl))⟩
  | refused decision wf wfr reason hres hshadow hmap n ext hext =>
      exact ⟨ext, rfl, hstate hext (.inl rfl)⟩
  | planned decision wf wfr e hres hshadow hmap j hentry cand hplan hvalid failover qos n ext
      hext =>
      have hwf : wf ∈ j.decisions := by
        rcases (hcoherent.records wf _ (by simp; rfl)).plan with ⟨-, h⟩ | ⟨h, -⟩
        · exact h
        · cases h
      refine ⟨ext, rfl, ?_⟩
      rcases hext with rfl | ⟨p, rest, rfl, hrest⟩
      · simp
      · intro s hs
        rcases List.mem_cons.mp hs with rfl | hs
        · exact ⟨by rintro _ ⟨⟩; exact hwf, by simp⟩
        · exact hstate hrest (.inr (.inr hwf)) s hs
  | rehydrated id row cand hcall hrow hnew hjournal hnew₀ hplan ext hext =>
      refine ⟨ext, rfl, ?_⟩
      have hid := (hr.journal.intents id).mp (Map.mem_iff_lookup.mpr ⟨row, hrow⟩)
      rcases hext with rfl | ⟨p, rfl⟩
      · simp
      · intro s hs
        rw [List.mem_singleton.mp hs]
        exact ⟨by rintro _ ⟨⟩; exact hid, by simp⟩
  | dispatched wf node wfr hdue taskId state j hmat hindex n ext hext =>
      obtain ⟨-, -, hkept⟩ := hdue.materialized hr hmat
      have hwf := hkept.sub wf ((hr.records wf wfr hdue.registered).decided hdue.node)
      refine ⟨ext, rfl, ?_⟩
      rcases hext with rfl | ⟨task, rest, -, rfl, hrest⟩
      · simp
      · intro s hs
        rcases List.mem_cons.mp hs with rfl | hs
        · exact ⟨by rintro _ ⟨⟩; exact hwf, fun _ _ _ _ _ => hdue.call⟩
        · exact hstate hrest (.inr (.inr hwf)) s hs
  | completed task wf node wfr hwatch hstatus outputs ready state j hdone n ext hext =>
      obtain ⟨-, -, hkept⟩ := hwatch.completed hr hdone
      have hwf := hkept.sub wf ((hr.records wf wfr hwatch.registered).decided (hwatch.node hr))
      exact ⟨ext, rfl, hstate hext (.inr (.inr hwf))⟩
  | retried task wf node wfr hwatch hstatus next state j hfail n ext hext =>
      obtain ⟨-, -, hkept⟩ := hwatch.failed hr hfail
      have hwf := hkept.sub wf ((hr.records wf wfr hwatch.registered).decided (hwatch.node hr))
      exact ⟨ext, rfl, hstate hext (.inr (.inr hwf))⟩
  | exhausted task wf node wfr hwatch hstatus state j hfail n ext hext =>
      exact ⟨ext, rfl, hstate hext (.inl rfl)⟩
  | doubted task hover hnew wf node wfr hindex hindex' hwf hterminal n ext hext =>
      obtain ⟨old, hold, hnode⟩ := hr.index _ _ _ hindex'
      have hdecided := (hr.records wf old hold).decided hnode
      exact ⟨ext, rfl, hstate hext (.inr (.inr hdecided))⟩

/-- A move decides a workflow only when its call authorises it. -/
theorem Move.decides (hr : Coherent r) (h : Move r₀ i r r') :
    (∀ wf ∈ r.journal.decisions, wf ∈ r'.journal.decisions) ∧
      ∀ wf ∈ r'.journal.decisions, wf ∈ r.journal.decisions ∨ Authorises r₀ i wf := by
  have hsame : ∀ {j : Journal}, j.decisions = r.journal.decisions →
      (∀ wf ∈ r.journal.decisions, wf ∈ j.decisions) ∧
        ∀ wf ∈ j.decisions, wf ∈ r.journal.decisions ∨ Authorises r₀ i wf := by
    intro j hj
    rw [hj]
    exact ⟨fun _ h => h, fun _ h => .inl h⟩
  have hadmitted : ∀ {decision : RoutingDecision} {wf : String} {wfr : WfRuntime}
      {e : EffectiveQos} {j : Journal}, Resolves i r₀ decision wf wfr →
      Coherent r₀ → (verdictOn i.env r₀ wfr decision).isShadow = false →
      mapVerdict (verdictOn i.env r₀ wfr decision) wfr.intent r₀.cfg.mapperPolicy =
        .applied e →
      Journal.AdmitStep (admission decision wfr.intent (verdictOn i.env r₀ wfr decision))
        r₀.journal (.ok .admitted) j →
      (∀ id ∈ r₀.journal.decisions, id ∈ j.decisions) ∧
        ∀ id ∈ j.decisions, id ∈ r₀.journal.decisions ∨ Authorises r₀ i id := by
    intro decision wf wfr e j hres hr₀ hshadow hmap hentry
    obtain ⟨-, -, -, hsub, -⟩ := hentry.admitted_journalOk (toS_val wfr.intent.workflowId.noNul)
      hr₀.journal
    refine ⟨hsub, ?_⟩
    intro id hid
    have hauth := authorises_of_applied hres hshadow hmap
    have hkey := (hr₀.records wf wfr hres.registered).key
    cases hentry with
    | admitted =>
        have hid' : id ∈ r₀.journal.decisions.insert wfr.intent.workflowId.val
            (admission decision wfr.intent (verdictOn i.env r₀ wfr decision)).decisionRow := by
          unfold Journal.insertIntentOrIgnore at hid
          split at hid <;> exact hid
        rcases (AList.mem_insert _).mp hid' with rfl | hold
        · exact .inr (hkey.symm ▸ hauth)
        · exact .inl hold
  cases h with
  | submitted | cancelled | observed | refused | rehydrated | unswept | sweptUnindexed | swept |
      doubted | restarted => exact hsame rfl
  | admitted decision wf wfr e hres hshadow hmap j hentry =>
      exact hadmitted hres hr hshadow hmap hentry
  | planned decision wf wfr e hres hshadow hmap j hentry =>
      exact hadmitted hres hr hshadow hmap hentry
  | held wf node wfr hdue result state j hmat =>
      exact hsame (hdue.materialized hr hmat).2.2.decisions
  | dispatched wf node wfr hdue taskId state j hmat =>
      exact hsame (hdue.materialized hr hmat).2.2.decisions
  | incomplete task wf node wfr hwatch hstatus outputs e state j hdone =>
      exact hsame (hwatch.completed hr hdone).2.2.decisions
  | completed task wf node wfr hwatch hstatus outputs ready state j hdone =>
      exact hsame (hwatch.completed hr hdone).2.2.decisions
  | unfailed task wf node wfr hwatch hstatus e state j hfail =>
      exact hsame (hwatch.failed hr hfail).2.2.decisions
  | retried task wf node wfr hwatch hstatus next state j hfail =>
      exact hsame (hwatch.failed hr hfail).2.2.decisions
  | exhausted task wf node wfr hwatch hstatus state j hfail =>
      exact hsame (hwatch.failed hr hfail).2.2.decisions

theorem Traced.move (hr : Traced r) (h : Move r₀ i r r') : Traced r' := by
  refine ⟨hr.coherent.move h, ?_, ?_⟩
  · have hwf : ∀ {wf : String} {wfr : WfRuntime}, r.workflows.lookup wf = some wfr →
        (∃ node, ∃ spec ∈ wfr.graph.nodes, spec.nodeId = node) →
        wfr.graph.workflowId ∈ r.journal.decisions := by
      rintro wf wfr hwf ⟨node, hnode⟩
      have hok := hr.coherent.records wf wfr hwf
      exact hok.graph.symm ▸ hok.decided hnode
    cases h with
    | submitted | cancelled | observed | refused | rehydrated | unswept | doubted | restarted =>
        exact hr.journal
    | admitted decision wf wfr e hres hshadow hmap j hentry => exact hentry.traced hr.journal
    | planned decision wf wfr e hres hshadow hmap j hentry => exact hentry.traced hr.journal
    | held wf node wfr hdue result state j hmat =>
        exact (hdue.materialized hr.coherent hmat).1.traced hr.journal
          (hwf hdue.registered ⟨node, hdue.node⟩)
    | dispatched wf node wfr hdue taskId state j hmat =>
        exact (hdue.materialized hr.coherent hmat).1.traced hr.journal
          (hwf hdue.registered ⟨node, hdue.node⟩)
    | incomplete task wf node wfr hwatch hstatus outputs e state j hdone =>
        exact (hwatch.completed hr.coherent hdone).1.traced hr.journal
          (hwf hwatch.registered ⟨node, hwatch.node hr.coherent⟩)
    | completed task wf node wfr hwatch hstatus outputs ready state j hdone =>
        exact (hwatch.completed hr.coherent hdone).1.traced hr.journal
          (hwf hwatch.registered ⟨node, hwatch.node hr.coherent⟩)
    | unfailed task wf node wfr hwatch hstatus e state j hfail =>
        exact (hwatch.failed hr.coherent hfail).1.traced hr.journal
          (hwf hwatch.registered ⟨node, hwatch.node hr.coherent⟩)
    | retried task wf node wfr hwatch hstatus next state j hfail =>
        exact (hwatch.failed hr.coherent hfail).1.traced hr.journal
          (hwf hwatch.registered ⟨node, hwatch.node hr.coherent⟩)
    | exhausted task wf node wfr hwatch hstatus state j hfail =>
        exact (hwatch.failed hr.coherent hfail).1.traced hr.journal
          (hwf hwatch.registered ⟨node, hwatch.node hr.coherent⟩)
    | sweptUnindexed => exact ⟨hr.journal.reservations, hr.journal.outbox⟩
    | swept => exact ⟨hr.journal.reservations, hr.journal.outbox⟩
  · obtain ⟨ext, hlog, hext⟩ := h.writes hr.coherent
    intro s hs wf hwork
    rw [hlog] at hs
    rcases List.mem_append.mp hs with hold | hnew
    · exact (h.decides hr.coherent).1 wf (hr.log s hold wf hwork)
    · exact (hext s hnew).1 wf hwork

end Moves

theorem Traced.step {r : EngineRuntime} (hr : Traced r) (i : Input) : Traced (step r i) :=
  step_invariant hr fun _ _ ht h => ht.move h

theorem traced_run (cfg : RuntimeConfig) (inputs : List Input) : Traced (run cfg inputs) :=
  foldl_invariant inputs
    ⟨coherent_new journalOk_empty [] cfg,
      ⟨by simp [initial, EngineRuntime.new, Journal.empty],
        by simp [initial, EngineRuntime.new, Journal.empty]⟩,
      by simp [initial, EngineRuntime.new]⟩
    fun _ i hr => hr.step i

/-! ### Runs -/

theorem step_decides {r : EngineRuntime} (hr : Coherent r) (i : Input) :
    ∀ wf ∈ (step r i).journal.decisions, wf ∈ r.journal.decisions ∨ Authorises r i wf := by
  refine (step_invariant (I := fun t => Coherent t ∧ ∀ wf ∈ t.journal.decisions,
    wf ∈ r.journal.decisions ∨ Authorises r i wf) ⟨hr, fun _ h => .inl h⟩ ?_).2
  rintro t t' ⟨ht, hdecided⟩ h
  refine ⟨ht.move h, fun wf hwf => ?_⟩
  rcases (h.decides ht).2 wf hwf with hold | hauth
  · exact hdecided wf hold
  · exact .inr hauth

/-- An earlier call of the run authorised work on `wf`. -/
def AuthorisedIn (cfg : RuntimeConfig) (inputs : List Input) (wf : String) : Prop :=
  ∃ before i after, inputs = before ++ i :: after ∧ Authorises (run cfg before) i wf

theorem decided_authorised (cfg : RuntimeConfig) (inputs : List Input) :
    ∀ wf ∈ (run cfg inputs).journal.decisions, AuthorisedIn cfg inputs wf := by
  induction inputs using List.reverseRecOn with
  | nil => simp [run, initial, EngineRuntime.new, Journal.empty]
  | append_singleton inputs i ih =>
      intro wf hwf
      have hrun : run cfg (inputs ++ [i]) = step (run cfg inputs) i := by simp [run]
      rw [hrun] at hwf
      rcases step_decides (coherent_run cfg inputs) i wf hwf with hold | hauth
      · obtain ⟨before, k, after, rfl, h⟩ := ih wf hold
        exact ⟨before, k, after ++ [i], by simp, h⟩
      · exact ⟨inputs, i, [], rfl, hauth⟩

theorem step_tasks {r : EngineRuntime} (hr : Coherent r) (i : Input) {wf node : String}
    {attempt : Nat} {task : Task} (h : .task wf node attempt task ∈ (step r i).log) :
    .task wf node attempt task ∈ r.log ∨ i.call = .tickScheduler := by
  refine (step_invariant (I := fun t => Coherent t ∧ (.task wf node attempt task ∈ t.log →
    .task wf node attempt task ∈ r.log ∨ i.call = .tickScheduler)) ⟨hr, .inl⟩ ?_).2 h
  rintro t t' ⟨ht, hold⟩ hmove
  refine ⟨ht.move hmove, fun hmem => ?_⟩
  obtain ⟨ext, hlog, hext⟩ := hmove.writes ht
  rw [hlog] at hmem
  rcases List.mem_append.mp hmem with hmem | hmem
  · exact hold hmem
  · exact .inr ((hext _ hmem).2 _ _ _ _ rfl)

/-- A shadow acceptance only leaves telemetry in the record of its workflow. -/
theorem onDecision_shadow {r : EngineRuntime} {i : Input} {decision : RoutingDecision}
    {wf : String} {wfr : WfRuntime} (hres : Resolves i r decision wf wfr)
    (hshadow : (verdictOn i.env r wfr decision).isShadow = true) :
    ∃ qos, step r i = r.setWf wf { wfr with qos := qos } := by
  refine ⟨shadowQos (verdictOn i.env r wfr decision) wfr.intent r.cfg.mapperPolicy, ?_⟩
  simp only [step, hres.call, onDecision, hres.found, hres.registered, takeDecision, hshadow,
    if_true]

/-- Over every run, restarts included: a call writes a task for a workflow
only after a call that authorised it; any row or sample of work belongs to a
workflow authorised before; and a shadow acceptance by itself changes neither
the journal nor the topics, nor anything in a record but its telemetry. -/
theorem work_is_authorised (cfg : RuntimeConfig) (inputs : List Input) (i : Input) :
    (∀ wf node attempt task, Writes (run cfg inputs) i (.task wf node attempt task) →
      AuthorisedIn cfg inputs wf) ∧
    (∀ wf, (wf ∈ (run cfg inputs).journal.decisions ∨ wf ∈ (run cfg inputs).journal.intents ∨
        wf ∈ (run cfg inputs).journal.workflows ∨
        (∃ key row, (run cfg inputs).journal.reservations.lookup key = some row ∧
          row.workflowId = wf) ∨
        (∃ key row, (run cfg inputs).journal.attempts.lookup key = some row ∧ key.1 = wf) ∨
        (∃ row ∈ (run cfg inputs).journal.outbox, row.workflowId = wf) ∨
        ∃ s ∈ (run cfg inputs).log, s.ofWork = some wf) →
      AuthorisedIn cfg inputs wf) ∧
    ∀ decision wf wfr, Resolves i (run cfg inputs) decision wf wfr →
      (verdictOn i.env (run cfg inputs) wfr decision).isShadow = true →
      (step (run cfg inputs) i).journal = (run cfg inputs).journal ∧
        (step (run cfg inputs) i).log = (run cfg inputs).log ∧
        ∃ qos, step (run cfg inputs) i = (run cfg inputs).setWf wf { wfr with qos := qos } := by
  have htraced := traced_run cfg inputs
  have hcoherent := htraced.coherent
  have hauth := decided_authorised cfg inputs
  refine ⟨?_, ?_, ?_⟩
  · rintro wf node attempt task ⟨ext, hlog, hmem⟩
    have hin : Sample.task wf node attempt task ∈ (step (run cfg inputs) i).log := by
      rw [hlog]
      exact List.mem_append_right _ hmem
    have hdecided := (htraced.step i).log _ hin wf rfl
    rcases step_decides hcoherent i wf hdecided with hold | ⟨decision, wfr, hres, -⟩
    · exact hauth wf hold
    · -- The scheduler takes in no decision, so the task was there before.
      rcases step_tasks hcoherent i hin with hold | hcall
      · exact hauth wf (htraced.log _ hold wf rfl)
      · rw [hres.call] at hcall
        cases hcall
  · rintro wf (h | h | h | ⟨key, row, hrow, rfl⟩ | ⟨key, row, hrow, rfl⟩ | ⟨row, hrow, rfl⟩ |
      ⟨s, hs, hwork⟩)
    · exact hauth wf h
    · exact hauth wf ((hcoherent.journal.intents wf).mp h)
    · exact hauth wf ((hcoherent.journal.workflows wf).mp h)
    · exact hauth _ (htraced.journal.reservations key row hrow)
    · exact hauth _ ((hcoherent.journal.workflows _).mp
        (hcoherent.journal.attempts key row hrow).1)
    · exact hauth _ (htraced.journal.outbox row hrow)
    · exact hauth wf (htraced.log s hs wf hwork)
  · intro decision wf wfr hres hshadow
    obtain ⟨qos, hstep⟩ := onDecision_shadow hres hshadow
    exact ⟨by rw [hstep]; rfl, by rw [hstep]; rfl, qos, hstep⟩

end DdsOrchestrator.WorkflowEngine
