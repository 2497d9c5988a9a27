import DdsOrchestrator.WorkflowEngine.Progress

/-!
What a tick that returned has done for a workflow on its way. The scheduler has
indexed every node that was ready, unless its reservation was consumed by
somebody else, and then the node is held back for good. The watcher has
finished every node whose task is done and whose declared outputs it can
supply.
-/

namespace DdsOrchestrator.WorkflowEngine

open Loop EngineRuntime Machine EngineState

section Ticks

variable {r₀ r r' : EngineRuntime} {i : Input} {wf : String} {graph : PlanGraph}

/-! ### Scheduling -/

/-- Materialisation consumes no reservation. -/
theorem EngineState.MaterializeStep.spent_of {node : String} {microunits : UInt64}
    {s s' : EngineState} {j j' : Journal} {result : Except EngineError String}
    (h : EngineState.MaterializeStep graph node microunits s j result s' j') {key : String}
    (hspent : j'.Spent key) : j.Spent key := by
  have hreserve : ∀ {k : String} {tokens : UInt64} {j₁ : Journal},
      EngineState.Reserves graph.workflowId k tokens microunits j j₁ → j₁.Spent key →
      j.Spent key := by
    rintro k tokens j₁ ⟨out, hout, hstep⟩ ⟨row, hrow, hstate⟩
    cases hstep with
    | replayed | consumed => exact ⟨row, hrow, hstate⟩
    | reserved =>
        rcases Map.lookup_insert_eq_some.mp hrow with ⟨-, rfl⟩ | ⟨-, hold⟩
        · exact absurd rfl hstate
        · exact ⟨row, hold, hstate⟩
  cases h with
  | unknown | done | doubtful | unreserved | consumed => exact hspent
  | unrecorded _ _ _ _ _ hres => exact hreserve hres hspent
  | recorded _ _ _ _ j₁ j₂ hres hrecord rows =>
      obtain ⟨row, hrow, hstate⟩ := hspent
      exact hreserve hres ⟨row, hrecord.reservations_eq ▸ hrow, hstate⟩

/-- A move of a tick operates on one node: it schedules it and finishes
nothing, or it watches one of its tasks and indexes nothing. -/
theorem Move.tick (hr : Coherent r) (hi : Steady i) (h : Move r₀ i r r') :
    ∃ wf node wfr wfr', (∃ p p', Operates r r' wf node wfr wfr' p p') ∧
      (Due i r wf node wfr ∧ wfr'.state.doneSet = wfr.state.doneSet ∧
          (∀ key, r'.journal.Spent key → r.journal.Spent key) ∨
        (∃ task, Watched i r task wf node wfr) ∧
          ∀ t e, r'.taskIndex.lookup t = some e → r.taskIndex.lookup t = some e) := by
  have hdone : ∀ {wf node : String} {wfr : WfRuntime} {state : EngineState} {j : Journal}
      {result : Except EngineError String}, Due i r wf node wfr →
      wfr.state.materialize i.env.journalFails wfr.graph node r.cfg.perAttemptMicrounits
        r.journal = (result, state, j) →
      state.doneSet = wfr.state.doneSet ∧ ∀ key, j.Spent key → r.journal.Spent key := by
    intro wf node wfr state j result hdue hmat
    have hsame := EngineState.materialize_doneSet i.env.journalFails wfr.graph node
      r.cfg.perAttemptMicrounits wfr.state r.journal
    rw [hmat] at hsame
    exact ⟨hsame, fun key => (hdue.materialized hr hmat).1.spent_of⟩
  cases h with
  | submitted _ hcall | cancelled _ _ hcall | rehydrated _ _ _ hcall | restarted _ hcall =>
      exact (hi.not_call hcall (by simp) (by simp)).elim
  | observed _ _ _ hres | refused _ _ _ _ hres =>
      exact (hi.not_call hres.call (by simp) (by simp)).elim
  | admitted _ _ _ _ hres | planned _ _ _ _ hres =>
      exact (hi.not_call hres.call (by simp) (by simp)).elim
  | unswept _ hover | sweptUnindexed _ hover | swept _ hover | doubted _ hover =>
      exact (hi.not_call hover.call (by simp) (by simp)).elim
  | held wf node wfr hdue result state j hmat =>
      exact ⟨wf, node, wfr, _, hdue.operates hr hmat (lookup_setWf _ _ _)
        (fun _ _ h => .inl h) hdue.live, .inl ⟨hdue, hdone hdue hmat⟩⟩
  | dispatched wf node wfr hdue taskId state j hmat _ n ext =>
      exact ⟨wf, node, wfr, _, hdue.operates_dispatched hr hmat (lookup_record r wf _ ext) rfl
        hdue.live, .inl ⟨hdue, hdone hdue hmat⟩⟩
  | incomplete task wf node wfr hwatch _ outputs e state j hdone =>
      exact ⟨wf, node, wfr, _, hwatch.operates_done hr hdone (lookup_setWf _ _ _) rfl,
        .inr ⟨⟨task, hwatch⟩, fun _ _ h => h⟩⟩
  | completed task wf node wfr hwatch _ outputs ready state j hdone n ext =>
      exact ⟨wf, node, wfr, _, hwatch.operates_done hr hdone (lookup_record r wf _ ext) rfl,
        .inr ⟨⟨task, hwatch⟩, fun _ _ h => h⟩⟩
  | unfailed task wf node wfr hwatch _ e state j hfail =>
      exact ⟨wf, node, wfr, _, hwatch.operates_failed hr hfail (lookup_setWf _ _ _)
        (fun _ _ h => h) (by simp) fun _ => hi.journal _, .inr ⟨⟨task, hwatch⟩, fun _ _ h => h⟩⟩
  | retried task wf node wfr hwatch _ next state j hfail n ext =>
      have herase : ∀ t e, (r.taskIndex.erase task.taskId).lookup t = some e →
          r.taskIndex.lookup t = some e := fun _ _ => Map.lookup_of_lookup_erase
      exact ⟨wf, node, wfr, _, hwatch.operates_failed hr hfail (lookup_record r wf _ ext) herase
        (by simp) fun _ => hi.journal _, .inr ⟨⟨task, hwatch⟩, herase⟩⟩
  | exhausted task wf node wfr hwatch _ state j hfail n ext =>
      exact ⟨wf, node, wfr, _, hwatch.operates_failed hr hfail (lookup_record r wf _ ext)
        (fun _ _ h => h) (fun _ => rfl) fun _ => hi.journal _,
        .inr ⟨⟨task, hwatch⟩, fun _ _ h => h⟩⟩

/-- What holds during a tick of the scheduler that started in `r`. -/
structure Scheduling (wf : String) (graph : PlanGraph) (r t : EngineRuntime) : Prop where
  advances : Advances wf graph r t
  done : doneNodes t wf = doneNodes r wf
  spent : ∀ key, t.journal.Spent key → r.journal.Spent key

theorem Scheduling.refl (h : OnTrack wf graph r) : Scheduling wf graph r r :=
  ⟨.refl h, rfl, fun _ h => h⟩

/-- The watcher watches only during its own tick. -/
theorem Watched.not_scheduler {task : Task} {node : String} {wfr : WfRuntime}
    (h : Watched i r task wf node wfr) (hcall : i.call = .tickScheduler) : False := by
  cases h.call.symm.trans hcall

theorem Scheduling.move {t t' : EngineRuntime} (h : Scheduling wf graph r t) (hi : Steady i)
    (hcall : i.call = .tickScheduler) (hmove : Move r₀ i t t') : Scheduling wf graph r t' := by
  have hadv := h.advances.track.move hi (fun _ _ _ hw => (hw.not_scheduler hcall).elim) hmove
  obtain ⟨wf', node, wfr, wfr', ⟨p, p', hops⟩, hcase⟩ :=
    hmove.tick h.advances.track.orderly.coherent hi
  rcases hcase with ⟨-, hdone, hspent⟩ | ⟨⟨task, hwatch⟩, -⟩
  · refine ⟨h.advances.trans hadv, ?_, fun key hkey => h.spent key (hspent key hkey)⟩
    rw [← h.done]
    by_cases hwf : wf' = wf
    · subst hwf
      rw [doneNodes_of_lookup hops.registered, ← hdone]
      exact doneNodes_of_lookup (by rw [hops.records, if_pos rfl])
    · exact hops.doneNodes_other hwf
  · exact (hwatch.not_scheduler hcall).elim

theorem OnTrack.terminal_iff (h : OnTrack wf graph r) {wfr : WfRuntime}
    (hwf : r.workflows.lookup wf = some wfr) :
    wfr.terminal = true ↔ ∀ n ∈ graph.nodes, n.nodeId ∈ doneNodes r wf := by
  have hfollow := h.following hwf
  rw [hfollow.terminal, (h.orderly.coherent.records wf wfr hwf).tracks.allDone_iff,
    hfollow.graph, doneNodes_of_lookup hwf]

/-- A node that is ready when the tick starts stays due during the tick. -/
theorem Scheduling.due {t : EngineRuntime} {node : String} (h : Scheduling wf graph r t)
    (hcall : i.call = .tickScheduler)
    (hready : ∃ spec ∈ graph.readyNodes (doneNodes r wf), spec.nodeId = node) :
    ∃ wfr, Due i t wf node wfr := by
  have htrack := h.advances.track
  obtain ⟨wfr, hwf, hfollow⟩ := htrack.record
  obtain ⟨spec, hspec, hid⟩ := hready
  refine ⟨wfr, hcall, hwf, ?_, spec, ?_, hid⟩
  · rw [← Bool.not_eq_true, htrack.terminal_iff hwf, h.done]
    intro hall
    have hundone := (List.mem_filter.mp hspec).2
    simp only [decide_eq_true_eq] at hundone
    exact hundone.1 (hall spec (List.mem_of_mem_filter hspec))
  · rw [hfollow.graph, ← doneNodes_of_lookup hwf, h.done]
    exact hspec

/-- Only nodes that are indexed are in doubt. -/
def Clear (wf : String) (r : EngineRuntime) : Prop :=
  ∀ wfr node p, r.workflows.lookup wf = some wfr → wfr.state.nodes.lookup node = some p →
    p.inDoubt = true → Indexed r.taskIndex wf node

/-- No node that is ready finds the reservation of its first attempt consumed,
unless it is indexed. -/
def Unconsumed (wf : String) (r : EngineRuntime) : Prop :=
  ∀ wfr, r.workflows.lookup wf = some wfr →
    ∀ spec ∈ wfr.graph.readyNodes wfr.state.doneSet,
      r.journal.Spent (reservationKey wf spec.nodeId 1) → Indexed r.taskIndex wf spec.nodeId

/-- An operation keeps the workflow clear unless it meets a consumed
reservation of a node that is not indexed. -/
theorem Clear.operates (h : Clear wf r) {wf' node : String} {wfr wfr' : WfRuntime}
    {p p' : NodeProgress} (hops : Operates r r' wf' node wfr wfr' p p')
    (hindex : ∀ t n, r.taskIndex.lookup t = some (wf, n) → r'.taskIndex.lookup t = some (wf, n))
    (hspent : wf' = wf → r'.journal.Spent (reservationKey wf node p.activeAttempt) →
      Indexed r.taskIndex wf node) : Clear wf r' := by
  have hkeep : ∀ {n : String}, Indexed r.taskIndex wf n → Indexed r'.taskIndex wf n :=
    fun ⟨t, ht⟩ => ⟨t, hindex t _ ht⟩
  intro w n q hw hq hdoubt
  rw [hops.records] at hw
  split at hw
  swap
  · exact hkeep (h w n q hw hq hdoubt)
  rename_i hwf
  subst hwf
  injection hw with hw
  subst hw
  rw [hops.acts.state] at hq
  split at hq
  swap
  · exact hkeep (h wfr n q hops.registered hq hdoubt)
  rename_i hnode
  subst hnode
  injection hq with hq
  subst hq
  cases hops.acts.effect with
  | kept _ hsame =>
      rcases hsame.doubt hdoubt with hold | hkey
      · exact hkeep (h wfr n p hops.registered hops.tracked hold)
      · exact hkeep (hspent rfl hkey)
  | recorded _ _ _ _ hclear _ _ hp =>
      exact absurd (hp ▸ hdoubt) (by rw [hclear]; simp)
  | finished hopen | retried hopen | closed hopen => exact hkeep hopen.indexed

theorem Scheduling.unconsumed {t : EngineRuntime} {node : String}
    (h : Scheduling wf graph r t) (htrack : OnTrack wf graph r) (hfree : Unconsumed wf r)
    (hready : ∃ spec ∈ graph.readyNodes (doneNodes r wf), spec.nodeId = node)
    (hspent : t.journal.Spent (reservationKey wf node 1)) : Indexed t.taskIndex wf node := by
  obtain ⟨wfr, hwf, hfollow⟩ := htrack.record
  obtain ⟨spec, hspec, rfl⟩ := hready
  rw [doneNodes_of_lookup hwf, ← hfollow.graph] at hspec
  obtain ⟨k, hk⟩ := hfree wfr hwf spec hspec (h.spent _ hspent)
  exact ⟨k, h.advances.index k _ hk⟩

theorem Due.ready_at {t : EngineRuntime} {node : String} {wfr : WfRuntime}
    (hdue : Due i t wf node wfr) (h : Scheduling wf graph r t) :
    ∃ spec ∈ graph.readyNodes (doneNodes r wf), spec.nodeId = node := by
  have hready := hdue.ready
  rw [(h.advances.track.following hdue.registered).graph, ← doneNodes_of_lookup hdue.registered,
    h.done] at hready
  exact hready

theorem Clear.scheduled {t t' : EngineRuntime} (hclear : Clear wf t)
    (h : Scheduling wf graph r t) (htrack : OnTrack wf graph r) (hfree : Unconsumed wf r)
    (hi : Steady i) (hcall : i.call = .tickScheduler) (hmove : Move r₀ i t t') : Clear wf t' := by
  have hnext := h.move hi hcall hmove
  have hadv := h.advances.track.move hi (fun _ _ _ hw => (hw.not_scheduler hcall).elim) hmove
  obtain ⟨wf', node, wfr, wfr', ⟨p, p', hops⟩, hcase⟩ :=
    hmove.tick h.advances.track.orderly.coherent hi
  rcases hcase with ⟨hdue, -, hspent⟩ | ⟨⟨task, hwatch⟩, -⟩
  · refine hclear.operates hops hadv.index ?_
    rintro rfl hkey
    have hone := (h.advances.track.following hops.registered).active node p hops.tracked
    rw [hone] at hkey
    exact h.unconsumed htrack hfree (hdue.ready_at h) (hspent _ hkey)
  · exact (hwatch.not_scheduler hcall).elim

theorem Due.progress_eq {node : String} {wfr : WfRuntime} (hdue : Due i r wf node wfr)
    (h : OnTrack wf graph r) : ∃ p, wfr.state.nodes.lookup node = some p ∧
      wfr.state.progress node = p ∧ wfr.state.started node = p ∧ p.done = false := by
  obtain ⟨p, hp⟩ := h.orderly.coherent.tracked hdue.registered hdue.node
  have hprogress : wfr.state.progress node = p := by simp [EngineState.progress, hp]
  have hone := (h.following hdue.registered).active node p hp
  refine ⟨p, hp, hprogress, ?_, ?_⟩
  · rw [EngineState.started, hprogress, hone, Nat.max_self]
    rw [← hone]
  · obtain ⟨spec, hspec, rfl⟩ := hdue.ready
    have hundone := (List.mem_filter.mp hspec).2
    simp only [decide_eq_true_eq, mem_doneSet, not_exists, not_and] at hundone
    exact Bool.eq_false_iff.mpr fun hdone => hundone.1 p hp hdone

/-- A due node that nothing holds back is indexed once it was scheduled. -/
theorem scheduleNode_indexes {node : String} {wfr : WfRuntime} (h : OnTrack wf graph r)
    (hi : Steady i) (hdue : Due i r wf node wfr) (hclear : Clear wf r)
    (hfree : r.journal.Spent (reservationKey wf node 1) → Indexed r.taskIndex wf node)
    (hok : (scheduleNode i.env wf node r).1.isOk) :
    Indexed (scheduleNode i.env wf node r).2.taskIndex wf node := by
  have hr := h.orderly.coherent
  have hmove : Move r i r (scheduleNode i.env wf node r).2 := (scheduleNode_move hdue).1
  have hadv := h.move hi (fun _ _ _ hw => (hw.not_scheduler hdue.call).elim) hmove
  by_cases hindexed : Indexed r.taskIndex wf node
  · obtain ⟨t, ht⟩ := hindexed
    exact ⟨t, hadv.index t node ht⟩
  obtain ⟨p, hp, hprogress, hstarted, hundone⟩ := hdue.progress_eq h
  have hone := (h.following hdue.registered).active node p hp
  have hwf := (hr.records wf wfr hdue.registered).graph
  unfold scheduleNode at hok hadv ⊢
  simp only [hdue.registered] at hok hadv ⊢
  rcases hmat : wfr.state.materialize i.env.journalFails wfr.graph node
    r.cfg.perAttemptMicrounits r.journal with ⟨result, state, j⟩
  rw [hmat] at hok hadv
  dsimp only at hok hadv ⊢
  obtain ⟨hstep, -, hkept⟩ := hdue.materialized hr hmat
  split
  · -- The node is not done.
    cases hstep with
    | done hdone => simp [hprogress, hundone] at hdone
    | recorded _ _ _ _ _ _ _ _ _ _ hresult => rcases hresult with h | ⟨_, h⟩ <;> cases h
  · -- Nothing holds it back.
    cases hstep with
    | doubtful hdoubt =>
        rw [hprogress] at hdoubt
        exact absurd (hclear wfr node p hdue.registered hp hdoubt) hindexed
    | consumed _ spec hspec row hrow hstate =>
        rw [hstarted, hone, hwf] at hrow
        exact absurd (hfree ⟨row, hrow, hstate⟩) hindexed
    | recorded _ _ _ _ _ _ _ _ _ _ hresult => rcases hresult with h | ⟨_, h⟩ <;> cases h
  · simp [Except.isOk, Except.toBool] at hok
  · rename_i taskId
    obtain ⟨hid, hrow⟩ := hdue.recorded hr hmat
    split
    · rename_i hmem
      -- The entry under this task id is the one of this node.
      obtain ⟨⟨wf', node'⟩, hentry⟩ := Map.mem_iff_lookup.mp hmem
      obtain ⟨a, hkey, hid'⟩ := h.orderly.recorded taskId wf' node' hentry
      obtain ⟨row, hlookup, -⟩ := Option.map_eq_some_iff.mp hrow
      obtain ⟨row', hlookup'⟩ := Map.mem_iff_lookup.mp (hstep.rowsGrow _ hkey)
      have hj := hkept.ok hr.journal
      have hkeys := hj.unique _ _ _ _ hlookup hlookup' (by
        rw [(hj.attempts _ _ hlookup).2, (hj.attempts _ _ hlookup').2, ← hid, ← hid'])
      simp only [Prod.mk.injEq] at hkeys
      obtain ⟨rfl, rfl, -⟩ := hkeys
      exact ⟨taskId, hentry⟩
    · obtain ⟨n, ext, -, heq⟩ := dispatch_eq taskId state j hdue
      rw [heq]
      exact ⟨taskId, by simp⟩

theorem mem_workflowIds {env : Env} {wfr : WfRuntime} (hwf : r.workflows.lookup wf = some wfr) :
    wf ∈ r.workflowIds env := by
  rw [workflowIds, List.mem_insertionSort, ← AList.mem_keys]
  exact Map.mem_iff_lookup.mpr ⟨wfr, hwf⟩

/-- The rule for a tick of the scheduler that returned: what the scheduling of
a ready node makes, and every move keeps, holds when the tick is over. -/
theorem tickScheduler_establishes {I P : EngineRuntime → Prop} {spec : NodeSpec}
    (h : OnTrack wf graph r) (hi : Steady i) (hcall : i.call = .tickScheduler)
    (hok : (r.tickScheduler i.env).1.isOk) (hspec : spec ∈ graph.readyNodes (doneNodes r wf))
    (hs : I r) (hI : ∀ t t', Scheduling wf graph r t → I t → Move r i t t' → I t')
    (hmake : ∀ t wfr, Scheduling wf graph r t → I t → Due i t wf spec.nodeId wfr →
      (scheduleNode i.env wf spec.nodeId t).1.isOk → P (scheduleNode i.env wf spec.nodeId t).2)
    (hkeep : ∀ t t', Scheduling wf graph r t → I t → P t → Move r i t t' → P t') :
    P (r.tickScheduler i.env).2 := by
  have hinv : ∀ {t t' : EngineRuntime}, Moves r i t t' → Scheduling wf graph r t ∧ I t →
      Scheduling wf graph r t' ∧ I t' := by
    intro t t' hmoves ht
    refine Moves.invariant (I := fun t => Scheduling wf graph r t ∧ I t) hmoves ht ?_
    rintro a b ⟨ha, hIa⟩ hmove
    exact ⟨ha.move hi hcall hmove, hI a b ha hIa hmove⟩
  have hstay : ∀ {t t' : EngineRuntime}, Moves r i t t' → Scheduling wf graph r t ∧ I t →
      P t → P t' := by
    intro t t' hmoves ht hP
    refine (Moves.invariant (I := fun t => (Scheduling wf graph r t ∧ I t) ∧ P t) hmoves
      ⟨ht, hP⟩ ?_).2
    rintro a b ⟨⟨ha, hIa⟩, hPa⟩ hmove
    exact ⟨⟨ha.move hi hcall hmove, hI a b ha hIa hmove⟩, hkeep a b ha hIa hPa hmove⟩
  obtain ⟨wfr, hwf, -⟩ := h.record
  have hready : ∃ s ∈ graph.readyNodes (doneNodes r wf), s.nodeId = spec.nodeId :=
    ⟨spec, hspec, rfl⟩
  -- The loop over the workflows reaches this one.
  refine forEach_establishes (I := fun t => Scheduling wf graph r t ∧ I t) hok
    (mem_workflowIds hwf) ⟨.refl h, hs⟩ (fun y _ t ht => hinv (scheduleWorkflow_moves hcall) ht) ?_
    (fun y _ t ht hP => hstay (scheduleWorkflow_moves hcall) ht hP)
  rintro t ⟨ht, hIt⟩ hokw
  obtain ⟨w, hdue⟩ := ht.due hcall hready
  have hsame : (w.graph.readyNodes w.state.doneSet) = graph.readyNodes (doneNodes r wf) := by
    rw [(ht.advances.track.following hdue.registered).graph,
      ← doneNodes_of_lookup hdue.registered, ht.done]
  unfold scheduleWorkflow at hokw ⊢
  simp only [hdue.registered, hdue.live, Bool.false_eq_true, if_false, hsame] at hokw ⊢
  -- And the loop over its ready nodes reaches the node.
  have hnode : ∀ {node : String}, node ∈ (graph.readyNodes (doneNodes r wf)).map (·.nodeId) →
      ∀ t, Scheduling wf graph r t ∧ I t → Moves r i t (scheduleNode i.env wf node t).2 := by
    intro node hmem t ht
    obtain ⟨s, hs, hid⟩ := List.mem_map.mp hmem
    obtain ⟨w, hdue⟩ := ht.1.due hcall ⟨s, hs, hid⟩
    exact .single (scheduleNode_move hdue).1
  refine forEach_establishes (I := fun t => Scheduling wf graph r t ∧ I t) hokw
    (List.mem_map.mpr ⟨spec, hspec, rfl⟩) ⟨ht, hIt⟩
    (fun y hy t ht => hinv (hnode hy t ht) ht) ?_
    (fun y hy t ht hP => hstay (hnode hy t ht) ht hP)
  rintro t ⟨ht, hIt⟩ hokn
  obtain ⟨w, hdue⟩ := ht.due hcall hready
  exact hmake t w ht hIt hdue hokn

theorem tickScheduler_scheduling (h : OnTrack wf graph r) (hi : Steady i)
    (hcall : i.call = .tickScheduler) : Scheduling wf graph r (r.tickScheduler i.env).2 :=
  (tickScheduler_moves hcall).invariant (.refl h) fun _ _ ha hmove => ha.move hi hcall hmove

theorem tickScheduler_clear (h : OnTrack wf graph r) (hi : Steady i)
    (hcall : i.call = .tickScheduler) (hclear : Clear wf r) (hfree : Unconsumed wf r) :
    Clear wf (r.tickScheduler i.env).2 := by
  refine (Moves.invariant (I := fun t => Scheduling wf graph r t ∧ Clear wf t)
    (tickScheduler_moves hcall) ⟨.refl h, hclear⟩ ?_).2
  rintro a b ⟨ha, hc⟩ hmove
  exact ⟨ha.move hi hcall hmove, hc.scheduled ha h hfree hi hcall hmove⟩

/-- A tick of the scheduler that returned has indexed every node that was
ready. -/
theorem tickScheduler_indexes (h : OnTrack wf graph r) (hi : Steady i)
    (hcall : i.call = .tickScheduler) (hclear : Clear wf r) (hfree : Unconsumed wf r)
    (hok : (r.tickScheduler i.env).1.isOk) {spec : NodeSpec}
    (hspec : spec ∈ graph.readyNodes (doneNodes r wf)) :
    Indexed (r.tickScheduler i.env).2.taskIndex wf spec.nodeId := by
  refine tickScheduler_establishes (I := Clear wf)
    (P := fun t => Indexed t.taskIndex wf spec.nodeId) h hi hcall hok hspec hclear
    (fun t t' ht hc hmove => hc.scheduled ht h hfree hi hcall hmove) ?_ ?_
  · intro t w ht hc hdue hokn
    exact scheduleNode_indexes ht.advances.track hi hdue hc
      (ht.unconsumed h hfree ⟨spec, hspec, rfl⟩) hokn
  · rintro t t' ht hc ⟨k, hk⟩ hmove
    have hadv := ht.advances.track.move hi (fun _ _ _ hw => (hw.not_scheduler hcall).elim) hmove
    exact ⟨k, hadv.index k _ hk⟩

/-! ### Nodes that are held back -/

/-- The node is in doubt and was never dispatched. -/
structure HeldBack (wf node : String) (r : EngineRuntime) : Prop where
  unindexed : ¬ Indexed r.taskIndex wf node
  doubtful : ∃ wfr p, r.workflows.lookup wf = some wfr ∧
    wfr.state.nodes.lookup node = some p ∧ p.inDoubt = true ∧ p.done = false

theorem HeldBack.undone {node : String} (h : HeldBack wf node r) : node ∉ doneNodes r wf := by
  obtain ⟨wfr, p, hwf, hp, -, hundone⟩ := h.doubtful
  rw [doneNodes_of_lookup hwf, mem_doneSet]
  rintro ⟨q, hq, hdone⟩
  rw [hp, Option.some.injEq] at hq
  rw [← hq, hundone] at hdone
  cases hdone

/-- An operation indexes a node only if it records it. -/
theorem Operates.indexed_of {wf' node node' : String} {wfr wfr' : WfRuntime}
    {p p' : NodeProgress} (hops : Operates r r' wf' node' wfr wfr' p p')
    (hindexed : Indexed r'.taskIndex wf node) :
    Indexed r.taskIndex wf node ∨ (wf' = wf ∧ node' = node ∧ p.inDoubt = false ∧
      ¬ r.journal.Spent (reservationKey wf node p.activeAttempt)) := by
  obtain ⟨t, ht⟩ := hindexed
  by_cases heq : (wf, node) = (wf', node')
  swap
  · exact .inl ⟨t, hops.index t _ ht heq⟩
  injection heq with hwf hnode
  subst hwf hnode
  cases hops.acts.effect with
  | kept _ hsame => exact .inl ⟨t, hsame.index t ht⟩
  | recorded _ _ _ _ hclear hfree => exact .inr ⟨rfl, rfl, hclear, hfree⟩
  | finished hopen | retried hopen | closed hopen => exact .inl hopen.indexed

theorem HeldBack.move {node : String} (h : HeldBack wf node r) (hr : Coherent r) (hi : Steady i)
    (hmove : Move r₀ i r r') : HeldBack wf node r' := by
  obtain ⟨wf', node', wfr, wfr', ⟨p, p', hops⟩, hcase⟩ := hmove.tick hr hi
  obtain ⟨w, q, hw, hq, hdoubt, hundone⟩ := h.doubtful
  have hsame : wf' = wf → node' = node → w = wfr ∧ q = p := by
    rintro rfl rfl
    have hwfr : w = wfr := Option.some.inj (hw.symm.trans hops.registered)
    subst hwfr
    exact ⟨rfl, Option.some.inj (hq.symm.trans hops.tracked)⟩
  constructor
  · intro hindexed
    rcases hops.indexed_of hindexed with hold | ⟨hwf, hnode, hclear, -⟩
    · exact h.unindexed hold
    · rw [← (hsame hwf hnode).2, hdoubt] at hclear
      cases hclear
  · by_cases hwf : wf = wf'
    swap
    · exact ⟨w, q, by rw [hops.records, if_neg hwf, hw], hq, hdoubt, hundone⟩
    subst hwf
    have hwfr : w = wfr := Option.some.inj (hw.symm.trans hops.registered)
    subst hwfr
    refine ⟨wfr', ?_⟩
    by_cases hnode : node = node'
    swap
    · exact ⟨q, by rw [hops.records, if_pos rfl], by rw [hops.acts.state, if_neg hnode, hq],
        hdoubt, hundone⟩
    subst hnode
    obtain ⟨-, rfl⟩ := hsame rfl rfl
    -- Only the scheduler can reach the node, and it leaves it as it is.
    rcases hcase with ⟨-, hdone, -⟩ | ⟨⟨task, hwatch⟩, -⟩
    swap
    · exact absurd ⟨task.taskId, hwatch.indexed⟩ h.unindexed
    have hlookup : wfr'.state.nodes.lookup node = some p' := by
      rw [hops.acts.state, if_pos rfl]
      rfl
    refine ⟨p', by rw [hops.records, if_pos rfl], hlookup, ?_, ?_⟩
    · cases hops.acts.effect with
      | kept _ hkept =>
          by_contra hne
          exact Bool.false_ne_true ((hkept.clear (eq_false_of_ne_true hne)).symm.trans hdoubt)
      | recorded _ _ _ _ hclear => exact absurd (hclear.symm.trans hdoubt) (by simp)
      | finished hopen | retried hopen | closed hopen => exact absurd hopen.indexed h.unindexed
    · by_contra hne
      have hmem : node ∈ w.state.doneSet := by
        rw [← hdone]
        exact mem_doneSet.mpr ⟨p', hlookup, by simpa using hne⟩
      obtain ⟨q', hq', hd⟩ := mem_doneSet.mp hmem
      rw [hq, Option.some.injEq] at hq'
      rw [← hq', hundone] at hd
      cases hd

/-- A due node whose reservation is consumed is held back once it was
scheduled. -/
theorem scheduleNode_holdsBack {node : String} {wfr : WfRuntime} (h : OnTrack wf graph r)
    (hdue : Due i r wf node wfr) (hindexed : ¬ Indexed r.taskIndex wf node)
    (hspent : r.journal.Spent (reservationKey wf node 1))
    (hok : (scheduleNode i.env wf node r).1.isOk) :
    HeldBack wf node (scheduleNode i.env wf node r).2 := by
  have hr := h.orderly.coherent
  obtain ⟨p, hp, hprogress, hstarted, hundone⟩ := hdue.progress_eq h
  have hone := (h.following hdue.registered).active node p hp
  have hwf := (hr.records wf wfr hdue.registered).graph
  unfold scheduleNode at hok ⊢
  simp only [hdue.registered] at hok ⊢
  rcases hmat : wfr.state.materialize i.env.journalFails wfr.graph node
    r.cfg.perAttemptMicrounits r.journal with ⟨result, state, j⟩
  rw [hmat] at hok
  dsimp only at hok ⊢
  obtain ⟨hstep, -, -⟩ := hdue.materialized hr hmat
  cases hstep with
  | unknown | unreserved | unrecorded => simp [Except.isOk, Except.toBool] at hok
  | done hdone => simp [hprogress, hundone] at hdone
  | doubtful hdoubt =>
      rw [hprogress] at hdoubt
      exact ⟨hindexed, _, p, (lookup_setWf _ _ _ _).trans (if_pos rfl), hp, hdoubt, hundone⟩
  | consumed =>
      refine ⟨hindexed, _, { p with inDoubt := true },
        (lookup_setWf _ _ _ _).trans (if_pos rfl), ?_, rfl, hundone⟩
      rw [hstarted]
      exact (EngineState.lookup_set _ _ _ _).trans (if_pos rfl)
  | recorded _ _ _ _ _ _ hreserve =>
      rw [hstarted, hone, hwf] at hreserve
      exact absurd hspent hreserve.free.1

/-- A tick of the scheduler that returned has held back every ready node that
met a consumed reservation. -/
theorem tickScheduler_holdsBack (h : OnTrack wf graph r) (hi : Steady i)
    (hcall : i.call = .tickScheduler) (hok : (r.tickScheduler i.env).1.isOk) {spec : NodeSpec}
    (hspec : spec ∈ graph.readyNodes (doneNodes r wf))
    (hindexed : ¬ Indexed r.taskIndex wf spec.nodeId)
    (hspent : r.journal.Spent (reservationKey wf spec.nodeId 1)) :
    HeldBack wf spec.nodeId (r.tickScheduler i.env).2 := by
  refine tickScheduler_establishes (P := HeldBack wf spec.nodeId)
    (I := fun t => ¬ Indexed t.taskIndex wf spec.nodeId ∧
      t.journal.Spent (reservationKey wf spec.nodeId 1)) h hi hcall hok hspec ⟨hindexed, hspent⟩
    ?_ (fun t w ht hI hdue hokn => scheduleNode_holdsBack ht.advances.track hdue hI.1 hI.2 hokn)
    fun t t' ht _ hP hmove => hP.move ht.advances.track.orderly.coherent hi hmove
  rintro t t' ht ⟨hnone, hkey⟩ hmove
  obtain ⟨wf', node, wfr, wfr', ⟨p, p', hops⟩, -⟩ :=
    hmove.tick ht.advances.track.orderly.coherent hi
  refine ⟨fun hnew => ?_, hops.acts.keys.spent _ hkey⟩
  rcases hops.indexed_of hnew with hold | ⟨rfl, rfl, -, hfree⟩
  · exact hnone hold
  · rw [(ht.advances.track.following hops.registered).active _ p hops.tracked] at hfree
    exact hfree hkey

/-! ### Watching -/

/-- A result of a node that is not done, in a healthy journal that knows its
attempt, is accepted when the declared outputs are there. -/
theorem EngineState.onDone_accepts {io : JournalCall → Bool} {node : String} {attempt : Nat}
    {outputs : List (String × String)} {s : EngineState} {j : Journal} {spec : NodeSpec}
    {p : NodeProgress} (hio : ∀ call, io call = false)
    (hkey : (graph.workflowId, node, attempt) ∈ j.attempts) (hspec : graph.node node = some spec)
    (hp : s.nodes.lookup node = some p) (hundone : p.done = false)
    (hattempt : attempt = p.activeAttempt) (hvalid : outputsValid spec outputs = true) :
    ∃ ready state j', s.onDone io graph node attempt outputs j = (.ok ready, state, j') := by
  have hrecord := Journal.recordAttempt_known hio hkey
    (laya1TaskId graph.workflowId graph.planRevision node attempt) .done
  unfold onDone
  simp only [hspec, hp, hundone, Bool.false_eq_true, if_false, hattempt, ne_eq, not_true,
    hvalid, Bool.not_true]
  rw [hattempt] at hrecord
  split
  · rename_i heq
    rw [heq] at hrecord
    cases hrecord
  split
  · rename_i heq
    simp [Journal.outboxAppend, hio] at heq
  · exact ⟨_, _, _, rfl⟩

/-- A finished task finishes its node when the watcher can supply the outputs. -/
theorem watchTask_finishes {task : Task} {node : String} (h : OnTrack wf graph r) (hi : Steady i)
    (hindex : r.taskIndex.lookup task.taskId = some (wf, node)) (hstatus : task.status = tsDone)
    (hsupply : Suppliable graph node) (hok : (watchTask i.env task r).1.isOk) :
    node ∈ doneNodes (watchTask i.env task r).2 wf := by
  have hr := h.orderly.coherent
  obtain ⟨wfr, hwf, hfollow⟩ := h.record
  obtain ⟨w, hw, n, hn, rfl⟩ := hr.index _ _ _ hindex
  obtain rfl : w = wfr := Option.some.inj (hw.symm.trans hwf)
  unfold watchTask at hok ⊢
  simp only [hindex, hwf] at hok ⊢
  by_cases hterminal : w.terminal = true
  · simp only [hterminal, if_true]
    exact (h.terminal_iff hwf).mp hterminal n (hfollow.graph ▸ hn)
  simp only [hterminal, Bool.false_eq_true, if_false, hstatus, if_true] at hok ⊢
  split at hok
  · simp [Except.isOk, Except.toBool] at hok
  rename_i outputs houtputs
  obtain ⟨p, hp⟩ := hr.tracked hwf ⟨n, hn, rfl⟩
  obtain ⟨spec, hspec⟩ := PlanGraph.node_isSome hn
  have hattempt : ((w.state.nodes.lookup n.nodeId).map (·.activeAttempt)).getD 1 =
      p.activeAttempt := by
    simp [hp]
  rw [hattempt]
  unfold completeTask
  cases hdone : p.done with
  | true =>
      -- The result is refused, and the node was done before.
      have hrefused : w.state.onDone i.env.journalFails w.graph n.nodeId p.activeAttempt
          [(nodeOutputName w.graph n.nodeId, outputHash outputs)] r.journal =
            (.error (.alreadyDone n.nodeId), w.state, r.journal) := by
        simp [onDone, hspec, hp, hdone]
      simp only [hrefused]
      exact mem_doneNodes ((lookup_setWf r wf w wf).trans (if_pos rfl))
        (mem_doneSet.mpr ⟨p, hp, hdone⟩)
  | false =>
      have hgraph := (hr.records wf w hwf).graph
      have hkey : (w.graph.workflowId, n.nodeId, p.activeAttempt) ∈ r.journal.attempts := by
        rw [hgraph, hfollow.active _ p hp]
        exact (h.entry hindex).2
      have hvalid := (outputsValid_iff hspec outputs).mpr (hfollow.graph ▸ hsupply)
      obtain ⟨ready, state, j, haccept⟩ :=
        EngineState.onDone_accepts hi.journal hkey hspec hp hdone rfl hvalid
      have hmem : n.nodeId ∈ state.doneSet := by
        have hstep := onDone_step i.env.journalFails w.graph n.nodeId p.activeAttempt
          [(nodeOutputName w.graph n.nodeId, outputHash outputs)] w.state r.journal
        rw [haccept] at hstep
        cases hstep with
        | completed =>
            exact mem_doneSet.mpr ⟨_, (EngineState.lookup_set _ _ _ _).trans (if_pos rfl), rfl⟩
      simp only [haccept]
      have hpublished : ∀ (w' : WfRuntime) (status : WorkflowStatus), w'.state = state →
          n.nodeId ∈ doneNodes (publishState i.env wf status
            { r.setWf wf w' with journal := j }).2 wf := by
        intro w' status hstate
        obtain ⟨k, ext, -, heq⟩ := publishState_eq i.env status
          (r := { r.setWf wf w' with journal := j })
          ((lookup_setWf r wf w' wf).trans (if_pos rfl))
        rw [heq]
        exact mem_doneNodes ((lookup_record _ wf _ ext wf).trans (if_pos rfl)) (hstate ▸ hmem)
      split
      · rw [andThen_ok_snd]
        exact hpublished _ .done rfl
      · rw [andThen_ok_snd]
        exact hpublished _ .running rfl

/-- What holds during a tick of the watcher that started in `r`. -/
structure Watching (wf : String) (graph : PlanGraph) (r t : EngineRuntime) : Prop where
  advances : Advances wf graph r t
  index : ∀ k e, t.taskIndex.lookup k = some e → r.taskIndex.lookup k = some e

/-- No visible task of the workflow has failed. -/
def Unfailing (i : Input) (wf : String) (r : EngineRuntime) : Prop :=
  ∀ tasks, i.env.allTasks = .ok tasks → ∀ task ∈ tasks, ∀ node,
    r.taskIndex.lookup task.taskId = some (wf, node) → task.status ≠ tsFailed

theorem Watching.advances_move {t t' : EngineRuntime} (h : Watching wf graph r t) (hi : Steady i)
    (hunfailing : Unfailing i wf r) (hmove : Move r₀ i t t') : Advances wf graph t t' := by
  refine h.advances.track.move hi ?_ hmove
  intro task node wfr hwatch
  obtain ⟨tasks, htasks, hmem⟩ := hwatch.visible
  exact hunfailing tasks htasks task hmem node (h.index _ _ hwatch.indexed)

theorem Watching.move {t t' : EngineRuntime} (h : Watching wf graph r t) (hi : Steady i)
    (hcall : i.call = .tickWatchTasks) (hunfailing : Unfailing i wf r) (hmove : Move r₀ i t t') :
    Watching wf graph r t' := by
  have hadv := h.advances_move hi hunfailing hmove
  obtain ⟨wf', node, wfr, wfr', -, hcase⟩ := hmove.tick h.advances.track.orderly.coherent hi
  rcases hcase with ⟨hdue, -⟩ | ⟨-, hindex⟩
  · cases hdue.call.symm.trans hcall
  · exact ⟨h.advances.trans hadv, fun k e hk => h.index k e (hindex k e hk)⟩

theorem tickWatchTasks_watching (h : OnTrack wf graph r) (hi : Steady i)
    (hcall : i.call = .tickWatchTasks) (hunfailing : Unfailing i wf r) :
    Watching wf graph r (r.tickWatchTasks i.env).2 :=
  (tickWatchTasks_moves hcall).invariant ⟨.refl h, fun _ _ h => h⟩
    fun _ _ ht hmove => ht.move hi hcall hunfailing hmove

theorem Clear.watched {t t' : EngineRuntime} (hclear : Clear wf t)
    (h : Watching wf graph r t) (hi : Steady i) (hcall : i.call = .tickWatchTasks)
    (hunfailing : Unfailing i wf r) (hmove : Move r₀ i t t') : Clear wf t' := by
  have hadv := h.advances_move hi hunfailing hmove
  obtain ⟨wf', node, wfr, wfr', ⟨p, p', hops⟩, hcase⟩ :=
    hmove.tick h.advances.track.orderly.coherent hi
  rcases hcase with ⟨hdue, -⟩ | ⟨⟨task, hwatch⟩, -⟩
  · cases hdue.call.symm.trans hcall
  · refine hclear.operates hops hadv.index ?_
    rintro rfl -
    exact ⟨task.taskId, hwatch.indexed⟩

theorem tickWatchTasks_clear (h : OnTrack wf graph r) (hi : Steady i)
    (hcall : i.call = .tickWatchTasks) (hunfailing : Unfailing i wf r) (hclear : Clear wf r) :
    Clear wf (r.tickWatchTasks i.env).2 := by
  refine (Moves.invariant (I := fun t => Watching wf graph r t ∧ Clear wf t)
    (tickWatchTasks_moves hcall) ⟨⟨.refl h, fun _ _ h => h⟩, hclear⟩ ?_).2
  rintro a b ⟨ha, hc⟩ hmove
  exact ⟨ha.move hi hcall hunfailing hmove, hc.watched ha hi hcall hunfailing hmove⟩

/-- A tick of the watcher that returned has finished every node with a finished
task whose outputs it can supply. -/
theorem tickWatchTasks_finishes {tasks : List Task} {task : Task} {node : String}
    (h : OnTrack wf graph r) (hi : Steady i) (hcall : i.call = .tickWatchTasks)
    (hunfailing : Unfailing i wf r) (htasks : i.env.allTasks = .ok tasks) (hmem : task ∈ tasks)
    (hindex : r.taskIndex.lookup task.taskId = some (wf, node)) (hstatus : task.status = tsDone)
    (hsupply : Suppliable graph node) (hok : (r.tickWatchTasks i.env).1.isOk) :
    node ∈ doneNodes (r.tickWatchTasks i.env).2 wf := by
  have hmoves : ∀ y ∈ tasks, ∀ t, Moves r i t (watchTask i.env y t).2 :=
    fun y hy t => (watchTask_move hcall htasks hy).to_reflTransGen
  have hinv : ∀ {t t' : EngineRuntime}, Moves r i t t' → Watching wf graph r t →
      Watching wf graph r t' :=
    fun hm ht => hm.invariant ht fun _ _ ha hmove => ha.move hi hcall hunfailing hmove
  unfold tickWatchTasks at hok ⊢
  simp only [htasks] at hok ⊢
  refine forEach_establishes (I := Watching wf graph r)
    (P := fun t => node ∈ doneNodes t wf) hok hmem ⟨.refl h, fun _ _ h => h⟩
    (fun y hy t ht => hinv (hmoves y hy t) ht) ?_ ?_
  · intro t ht hokt
    exact watchTask_finishes ht.advances.track hi (ht.advances.index _ _ hindex) hstatus hsupply
      hokt
  · intro y hy t ht hdone
    refine (Moves.invariant (I := fun t => Watching wf graph r t ∧ node ∈ doneNodes t wf)
      (hmoves y hy t) ⟨ht, hdone⟩ ?_).2
    rintro a b ⟨ha, hda⟩ hmove
    exact ⟨ha.move hi hcall hunfailing hmove, (ha.advances_move hi hunfailing hmove).done hda⟩

end Ticks

end DdsOrchestrator.WorkflowEngine
