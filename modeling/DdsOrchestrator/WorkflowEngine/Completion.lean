import Mathlib.Data.Finset.Card
import Mathlib.Order.WellFounded
import DdsOrchestrator.WorkflowEngine.Ticks

/-!
Whether an admitted plan finishes. A round is a tick of the scheduler and then
one of the watcher. In a fair round nothing fails, and while a task of the
workflow is waited for, one of them is seen finished. After as many fair rounds
as the plan has nodes every node is done, if the watcher can supply what the
nodes declare: it hands a node's result in under the first declared name only,
so a node that declares two names is never accepted.
-/

namespace DdsOrchestrator.WorkflowEngine

open Loop EngineRuntime Machine EngineState

/-! ### Rounds -/

structure Round where
  schedule : Env
  watch : Env

namespace Round

def scheduler (round : Round) : Input := ⟨round.schedule, .tickScheduler⟩

def watcher (round : Round) : Input := ⟨round.watch, .tickWatchTasks⟩

end Round

def roundStep (r : EngineRuntime) (round : Round) : EngineRuntime :=
  step (step r round.scheduler) round.watcher

/-- The task is indexed and its node is not done. -/
def Outstanding (r : EngineRuntime) (wf t node : String) : Prop :=
  r.taskIndex.lookup t = some (wf, node) ∧ node ∉ doneNodes r wf

/-- No journal call fails, both ticks return, no task of the workflow fails, and
while one is waited for, one of them is seen finished. -/
structure FairRound (wf : String) (r : EngineRuntime) (round : Round) : Prop where
  journal : ∀ call, round.schedule.journalFails call = false ∧
    round.watch.journalFails call = false
  scheduled : (r.tickScheduler round.schedule).1.isOk
  watched : ((step r round.scheduler).tickWatchTasks round.watch).1.isOk
  unfailing : Unfailing round.watcher wf (step r round.scheduler)
  finished : (∃ t node, Outstanding (step r round.scheduler) wf t node) →
    ∃ tasks, round.watch.allTasks = .ok tasks ∧ ∃ task ∈ tasks, ∃ node,
      Outstanding (step r round.scheduler) wf task.taskId node ∧ task.status = tsDone

theorem FairRound.steady_scheduler {wf : String} {r : EngineRuntime} {round : Round}
    (h : FairRound wf r round) : Steady round.scheduler :=
  ⟨.inl rfl, fun call => (h.journal call).1⟩

theorem FairRound.steady_watcher {wf : String} {r : EngineRuntime} {round : Round}
    (h : FairRound wf r round) : Steady round.watcher :=
  ⟨.inr rfl, fun call => (h.journal call).2⟩

/-- A plan whose dependencies are known and ranked has a ready node as long as
some node is not done. -/
theorem PlanGraph.exists_ready {graph : PlanGraph} {rank : String → Nat}
    (hknown : ∀ n ∈ graph.nodes, ∀ d ∈ n.dependencies, ∃ k ∈ graph.nodes, k.nodeId = d)
    (hrank : ∀ n ∈ graph.nodes, ∀ d ∈ n.dependencies, rank d < rank n.nodeId)
    {done : Finset String} (hne : ∃ n ∈ graph.nodes, n.nodeId ∉ done) :
    ∃ n, n ∈ graph.readyNodes done := by
  obtain ⟨n, ⟨hn, hundone⟩, hmin⟩ := (measure fun n : NodeSpec => rank n.nodeId).wf.has_min
    {n | n ∈ graph.nodes ∧ n.nodeId ∉ done} hne
  refine ⟨n, List.mem_filter.mpr ⟨hn, ?_⟩⟩
  simp only [decide_eq_true_eq]
  refine ⟨hundone, fun d hd => ?_⟩
  by_contra hdone
  obtain ⟨k, hk, rfl⟩ := hknown n hn d hd
  exact hmin k ⟨hk, hdone⟩ (hrank n hn _ hd)

section Rounds

variable {r : EngineRuntime} {round : Round} {wf : String} {graph : PlanGraph}

theorem OnTrack.advances_round (h : OnTrack wf graph r) (hfair : FairRound wf r round) :
    Advances wf graph r (roundStep r round) := by
  have hs := tickScheduler_scheduling h hfair.steady_scheduler rfl
  exact hs.advances.trans
    (tickWatchTasks_watching hs.advances.track hfair.steady_watcher rfl hfair.unfailing).advances

theorem OnTrack.clear_round (h : OnTrack wf graph r) (hfair : FairRound wf r round)
    (hclear : Clear wf r) (hfree : Unconsumed wf r) : Clear wf (roundStep r round) := by
  have hs := tickScheduler_scheduling h hfair.steady_scheduler rfl
  exact tickWatchTasks_clear hs.advances.track hfair.steady_watcher rfl hfair.unfailing
    (tickScheduler_clear h hfair.steady_scheduler rfl hclear hfree)

/-- A fair round finishes a node as long as some node is not done. -/
theorem OnTrack.finishes_round (h : OnTrack wf graph r) (hfair : FairRound wf r round)
    (hclear : Clear wf r) (hfree : Unconsumed wf r)
    (hready : ∃ spec, spec ∈ graph.readyNodes (doneNodes r wf))
    (hsupply : ∀ n ∈ graph.nodes, Suppliable graph n.nodeId) :
    ∃ n ∈ graph.nodes, n.nodeId ∉ doneNodes r wf ∧ n.nodeId ∈ doneNodes (roundStep r round) wf := by
  obtain ⟨spec, hspec⟩ := hready
  have hs := tickScheduler_scheduling h hfair.steady_scheduler rfl
  obtain ⟨t, ht⟩ := tickScheduler_indexes h hfair.steady_scheduler rfl hclear hfree
    hfair.scheduled hspec
  have hundone : spec.nodeId ∉ doneNodes (step r round.scheduler) wf := by
    have := (List.mem_filter.mp hspec).2
    simp only [decide_eq_true_eq] at this
    rw [show doneNodes (step r round.scheduler) wf = doneNodes r wf from hs.done]
    exact this.1
  obtain ⟨tasks, htasks, task, hmem, node, ⟨hindex, hopen⟩, hstatus⟩ :=
    hfair.finished ⟨t, spec.nodeId, ht, hundone⟩
  have htrack := hs.advances.track
  obtain ⟨wfr, hwf, n, hn, rfl⟩ := htrack.orderly.coherent.index _ _ _ hindex
  rw [(htrack.following hwf).graph] at hn
  refine ⟨n, hn, ?_, ?_⟩
  · rw [← hs.done]
    exact hopen
  · exact tickWatchTasks_finishes htrack hfair.steady_watcher rfl hfair.unfailing htasks hmem
      hindex hstatus (hsupply n hn) hfair.watched

/-- The nodes that are not done. -/
def remaining (wf : String) (graph : PlanGraph) (r : EngineRuntime) : Nat :=
  ((graph.nodes.map (·.nodeId)).toFinset \ doneNodes r wf).card

theorem remaining_eq_zero {wf : String} {graph : PlanGraph} {r : EngineRuntime} :
    remaining wf graph r = 0 ↔ ∀ n ∈ graph.nodes, n.nodeId ∈ doneNodes r wf := by
  rw [remaining, Finset.card_eq_zero, Finset.sdiff_eq_empty_iff_subset]
  constructor
  · exact fun h n hn => h (List.mem_toFinset.mpr (List.mem_map.mpr ⟨n, hn, rfl⟩))
  · intro h id hid
    obtain ⟨n, hn, rfl⟩ := List.mem_map.mp (List.mem_toFinset.mp hid)
    exact h n hn

theorem remaining_le (wf : String) (graph : PlanGraph) (r : EngineRuntime) :
    remaining wf graph r ≤ graph.nodes.length :=
  calc remaining wf graph r
    _ ≤ (graph.nodes.map (·.nodeId)).toFinset.card := Finset.card_le_card Finset.sdiff_subset
    _ ≤ (graph.nodes.map (·.nodeId)).length := List.toFinset_card_le _
    _ = graph.nodes.length := List.length_map _

theorem remaining_lt {r' : EngineRuntime} (hdone : doneNodes r wf ⊆ doneNodes r' wf)
    (hnew : ∃ n ∈ graph.nodes, n.nodeId ∉ doneNodes r wf ∧ n.nodeId ∈ doneNodes r' wf) :
    remaining wf graph r' < remaining wf graph r := by
  obtain ⟨n, hn, hopen, hclosed⟩ := hnew
  refine Finset.card_lt_card ⟨Finset.sdiff_subset_sdiff subset_rfl hdone, fun hsub => ?_⟩
  have hmem : n.nodeId ∈ (graph.nodes.map (·.nodeId)).toFinset \ doneNodes r wf :=
    Finset.mem_sdiff.mpr ⟨List.mem_toFinset.mpr (List.mem_map.mpr ⟨n, hn, rfl⟩), hopen⟩
  exact (Finset.mem_sdiff.mp (hsub hmem)).2 hclosed

/-! ### Fair runs -/

variable {rounds : List Round}

theorem OnTrack.advances_rounds (h : OnTrack wf graph r)
    (hfair : Along roundStep (FairRound wf) r rounds) :
    Advances wf graph r (rounds.foldl roundStep r) :=
  hfair.invariant (.refl h) fun _ _ ht hround => ht.trans (ht.track.advances_round hround)

/-- A plan that nothing holds back and whose outputs can be supplied finishes
within as many fair rounds as it has nodes. -/
theorem OnTrack.completes (h : OnTrack wf graph r) (rank : String → Nat) (hclear : Clear wf r)
    (hne : graph.nodes ≠ [])
    (hknown : ∀ n ∈ graph.nodes, ∀ d ∈ n.dependencies, ∃ k ∈ graph.nodes, k.nodeId = d)
    (hrank : ∀ n ∈ graph.nodes, ∀ d ∈ n.dependencies, rank d < rank n.nodeId)
    (hsupply : ∀ n ∈ graph.nodes, Suppliable graph n.nodeId)
    (hfair : Along roundStep (FairRound wf) r rounds)
    (hfree : Along roundStep (fun t _ => Unconsumed wf t) r rounds)
    (hlen : graph.nodes.length ≤ rounds.length) : Completed wf (rounds.foldl roundStep r) := by
  rw [(h.advances_rounds hfair).track.completed_iff hne, ← remaining_eq_zero]
  refine (hfair.and hfree).reaches (I := fun t => OnTrack wf graph t ∧ Clear wf t)
    (Q := fun t => remaining wf graph t = 0) (remaining wf graph) ⟨h, hclear⟩ ?_ ?_ ?_
    (fun _ _ hzero => hzero) ((remaining_le wf graph r).trans hlen)
  · rintro t rd ⟨ht, hc⟩ ⟨hround, hu⟩
    exact ⟨(ht.advances_round hround).track, ht.clear_round hround hc hu⟩
  · rintro t rd ⟨ht, -⟩ ⟨hround, -⟩ hall
    rw [remaining_eq_zero] at hall ⊢
    exact fun n hn => (ht.advances_round hround).done (hall n hn)
  · rintro t rd ⟨ht, hc⟩ ⟨hround, hu⟩ hopen
    have hopen : ∃ n ∈ graph.nodes, n.nodeId ∉ doneNodes t wf := by
      simpa [remaining_eq_zero] using hopen
    exact remaining_lt (ht.advances_round hround).done
      (ht.finishes_round hround hc hu (PlanGraph.exists_ready hknown hrank hopen) hsupply)

/-- A completed plan has only nodes whose outputs the watcher could supply. -/
theorem OnTrack.suppliable_of_completed (h : OnTrack wf graph r) (hne : graph.nodes ≠ [])
    (hstart : doneNodes r wf = ∅) (hfair : Along roundStep (FairRound wf) r rounds)
    (hdone : Completed wf (rounds.foldl roundStep r)) :
    ∀ n ∈ graph.nodes, Suppliable graph n.nodeId := by
  have hadv := h.advances_rounds hfair
  rw [hadv.track.completed_iff hne] at hdone
  intro n hn
  rcases hadv.supplied n.nodeId (hdone n hn) with hold | hnew
  · rw [hstart] at hold
    cases hold
  · exact hnew

theorem HeldBack.through {node : String} (h : HeldBack wf node r) (htrack : OnTrack wf graph r)
    (hfair : Along roundStep (FairRound wf) r rounds) :
    HeldBack wf node (rounds.foldl roundStep r) := by
  have hstep : ∀ {t : EngineRuntime} {i : Input}, Coherent t → HeldBack wf node t → Steady i →
      HeldBack wf node (step t i) := by
    intro t i ht hback hi
    exact (step_invariant (I := fun t => Coherent t ∧ HeldBack wf node t) ⟨ht, hback⟩
      fun a b ha hmove => ⟨ha.1.move hmove, ha.2.move ha.1 hi hmove⟩).2
  refine (hfair.invariant (I := fun t => OnTrack wf graph t ∧ HeldBack wf node t) ⟨htrack, h⟩
    ?_).2
  rintro t rd ⟨ht, hback⟩ hround
  have hcoherent := ht.orderly.coherent
  exact ⟨(ht.advances_round hround).track, hstep (hcoherent.step _)
    (hstep hcoherent hback hround.steady_scheduler) hround.steady_watcher⟩

/-- In a run that completes, no ready node met a consumed reservation. -/
theorem OnTrack.unconsumed_of_completed (h : OnTrack wf graph r) (hne : graph.nodes ≠ [])
    (hfair : Along roundStep (FairRound wf) r rounds)
    (hdone : Completed wf (rounds.foldl roundStep r)) :
    Along roundStep (fun t _ => Unconsumed wf t) r rounds := by
  induction rounds generalizing r with
  | nil => trivial
  | cons rd rounds ih =>
      obtain ⟨hround, hrest⟩ := hfair
      have hnext := h.advances_round hround
      refine ⟨?_, ih hnext.track hrest hdone⟩
      -- A node that did would be held back for good.
      intro wfr hwf spec hspec hspent
      by_contra hindexed
      have hgraph := (h.following hwf).graph
      rw [hgraph, ← doneNodes_of_lookup hwf] at hspec
      have hback := tickScheduler_holdsBack h hround.steady_scheduler rfl hround.scheduled hspec
        hindexed hspent
      have hmid := (tickScheduler_scheduling h hround.steady_scheduler rfl).advances.track
      have hback' : HeldBack wf spec.nodeId (roundStep r rd) :=
        step_invariant (I := fun t => Coherent t ∧ HeldBack wf spec.nodeId t)
          ⟨hmid.orderly.coherent, hback⟩
          (fun a b ha hmove => ⟨ha.1.move hmove, ha.2.move ha.1 hround.steady_watcher hmove⟩) |>.2
      have hfinal := hback'.through hnext.track hrest
      have hend := (hnext.track.advances_rounds hrest).track
      exact hfinal.undone ((hend.completed_iff hne).mp hdone spec (List.mem_of_mem_filter hspec))

/-- The ticks leave a terminal record as it is. -/
theorem terminal_rounds {w : WfRuntime} (hr : Coherent r) (hwf : r.workflows.lookup wf = some w)
    (hterminal : w.terminal = true) (hfair : Along roundStep (FairRound wf) r rounds) :
    (rounds.foldl roundStep r).workflows.lookup wf = some w := by
  have hstep : ∀ {t : EngineRuntime} {i : Input},
      Coherent t ∧ t.workflows.lookup wf = some w → Steady i →
      Coherent (step t i) ∧ (step t i).workflows.lookup wf = some w := by
    intro t i ht hi
    refine step_invariant (I := fun t => Coherent t ∧ t.workflows.lookup wf = some w) ht ?_
    rintro a b ⟨ha, hlookup⟩ hmove
    refine ⟨ha.move hmove, ?_⟩
    obtain ⟨wf', node, wfr, wfr', ⟨p, p', hops⟩, -⟩ := hmove.tick ha hi
    rw [hops.records, if_neg, hlookup]
    rintro rfl
    have hsame : w = wfr := Option.some.inj (hlookup.symm.trans hops.registered)
    subst hsame
    exact absurd (hterminal.symm.trans hops.live) (by simp)
  exact (hfair.invariant (I := fun t => Coherent t ∧ t.workflows.lookup wf = some w) ⟨hr, hwf⟩
    fun t rd ht hround => hstep (hstep ht hround.steady_scheduler) hround.steady_watcher).2

end Rounds

/-! ### From the admission on -/

/-- Under distinct ids a node is found under its own. -/
theorem PlanGraph.node_of_mem {graph : PlanGraph} (hnodup : (graph.nodes.map (·.nodeId)).Nodup)
    {spec : NodeSpec} (hspec : spec ∈ graph.nodes) : graph.node spec.nodeId = some spec := by
  obtain ⟨found, hfound⟩ := PlanGraph.node_isSome hspec
  obtain ⟨hmem, hid⟩ := PlanGraph.node_eq_some hfound
  rw [hfound, List.inj_on_of_nodup_map hnodup hmem hspec hid]

section Admission

variable {r r' : EngineRuntime} {wf : String} {wfr wfr' : WfRuntime} {cand : PlanCandidate}

/-- The watcher can supply the nodes of a valid plan when each declares at most
one name. -/
theorem ValidPlan.suppliable_iff (h : ValidPlan cand wfr.intent) (wf : String) :
    (∀ spec ∈ (PlanGraph.fromCandidate wf 1 cand).nodes,
        Suppliable (PlanGraph.fromCandidate wf 1 cand) spec.nodeId) ↔
      ∀ n ∈ cand.nodes, ∀ name ∈ n.outputNames, n.outputNames.head? = some name := by
  have hnodup : ((PlanGraph.fromCandidate wf 1 cand).nodes.map (·.nodeId)).Nodup := by
    rw [PlanGraph.fromCandidate, List.map_map]
    exact h.nodup
  constructor
  · intro hall n hn
    have hspec : NodeSpec.fromCandidate n ∈ (PlanGraph.fromCandidate wf 1 cand).nodes :=
      List.mem_map_of_mem hn
    exact hall _ hspec _ (PlanGraph.node_of_mem hnodup hspec)
  · rintro hall spec - spec' hspec'
    obtain ⟨n, hn, rfl⟩ := List.mem_map.mp (PlanGraph.node_eq_some hspec').1
    exact hall n hn

theorem Installed.doneNodes_eq (h : Installed r wf wfr cand r' wfr') : doneNodes r' wf = ∅ := by
  rw [doneNodes_of_lookup h.registered, Finset.eq_empty_iff_forall_notMem]
  intro node hmem
  obtain ⟨p, hp, hdone⟩ := mem_doneSet.mp hmem
  rw [h.fresh node p hp] at hdone
  cases hdone

theorem Installed.clear (h : Installed r wf wfr cand r' wfr') : Clear wf r' := by
  intro w node p hw hp hdoubt
  rw [h.registered, Option.some.injEq] at hw
  rw [h.fresh node p (hw ▸ hp)] at hdoubt
  cases hdoubt

/-- No node of a plan just installed is done, so the plan is not complete. -/
theorem Installed.not_completed (h : Installed r wf wfr cand r' wfr') {s : EngineRuntime}
    (hsame : s.workflows.lookup wf = some wfr') : ¬ Completed wf s := by
  rintro ⟨w, hw, -, -, hne, hall⟩
  rw [hsame, Option.some.injEq] at hw
  subst hw
  obtain ⟨n, hn⟩ := List.exists_mem_of_ne_nil _ hne
  have hmem := hall n hn
  rw [← doneNodes_of_lookup h.registered, h.doneNodes_eq] at hmem
  cases hmem

theorem Installed.onTrack (h : Installed r wf wfr cand r' wfr') (hvalid : ValidPlan cand wfr.intent)
    (hr : Orderly r) (hr' : Orderly r') (hwf : r.workflows.lookup wf = some wfr)
    (hfresh : wf ∉ r.journal.decisions) (hlive : wfr.terminal = false) :
    OnTrack wf (PlanGraph.fromCandidate wf 1 cand) r' := by
  refine ⟨hr', ⟨wfr', h.registered, h.graph, ?_, ?_, ?_⟩, ?_⟩
  · exact h.failedReason.trans (hr.unblemished wf wfr hwf hlive)
  · rw [h.terminal, hlive, eq_comm, ← Bool.not_eq_true,
      (hr'.coherent.records wf wfr' h.registered).tracks.allDone_iff, ← doneNodes_of_lookup
        h.registered, h.doneNodes_eq, h.graph]
    obtain ⟨n, hn⟩ := List.exists_mem_of_ne_nil _ hvalid.nonempty
    intro hall
    cases hall _ (List.mem_map_of_mem hn)
  · intro node p hp
    rw [h.fresh node p hp]
    rfl
  · -- A workflow that was not decided has no rows.
    intro node a hrow
    rw [h.attempts] at hrow
    obtain ⟨row, hlookup⟩ := Map.mem_iff_lookup.mp hrow
    exact absurd ((hr.coherent.journal.workflows wf).mp
      (hr.coherent.journal.attempts _ _ hlookup).1) hfresh

end Admission

/-- A plan that is admitted completes within as many fair rounds as it has
nodes exactly when its workflow had not ended before, each node declares at most
one output name, and no ready node meets a reservation that is consumed. -/
theorem plan_completes_iff (cfg : RuntimeConfig) (before : List Input) (i : Input)
    (decision : RoutingDecision) (wf : String) (wfr : WfRuntime) (cand : PlanCandidate)
    (hadmitted : PlanAdmitted (run cfg before) i decision wf wfr cand) (rounds : List Round)
    (hfair : Along roundStep (FairRound wf) (run cfg (before ++ [i])) rounds)
    (hlen : cand.nodes.length ≤ rounds.length) :
    Completed wf (rounds.foldl roundStep (run cfg (before ++ [i]))) ↔
      wfr.terminal = false ∧
        (∀ n ∈ cand.nodes, ∀ name ∈ n.outputNames, n.outputNames.head? = some name) ∧
        Along roundStep (fun r _ => Unconsumed wf r) (run cfg (before ++ [i])) rounds := by
  have hr := orderly_run cfg before
  have hr' := orderly_run cfg (before ++ [i])
  obtain ⟨hvalid, wfr', hins⟩ := hadmitted.installed hr.coherent
  have hstep : step (run cfg before) i = run cfg (before ++ [i]) := by simp [run]
  rw [hstep] at hins
  have hwf := hadmitted.resolves.registered
  cases hterminal : wfr.terminal with
  | true =>
      have hkept := terminal_rounds hr'.coherent hins.registered
        (hins.terminal.trans hterminal) hfair
      simp [hins.not_completed hkept]
  | false =>
      have htrack := hins.onTrack hvalid hr hr' hwf hadmitted.fresh hterminal
      have hne : (PlanGraph.fromCandidate wf 1 cand).nodes ≠ [] := by
        simpa [PlanGraph.fromCandidate] using hvalid.nonempty
      rw [← hvalid.suppliable_iff wf]
      constructor
      · intro hdone
        exact ⟨rfl, htrack.suppliable_of_completed hne hins.doneNodes_eq hfair hdone,
          htrack.unconsumed_of_completed hne hfair hdone⟩
      · rintro ⟨-, hsupply, hfree⟩
        obtain ⟨rank, hrank⟩ := hvalid.ranked
        refine htrack.completes rank hins.clear hne ?_ ?_ hsupply hfair hfree ?_
        · intro spec hspec d hd
          obtain ⟨n, hn, rfl⟩ := List.mem_map.mp hspec
          obtain ⟨k, hk, rfl⟩ := hvalid.known n hn d hd
          exact ⟨_, List.mem_map_of_mem hk, rfl⟩
        · intro spec hspec d hd
          obtain ⟨n, hn, rfl⟩ := List.mem_map.mp hspec
          exact hrank n hn d hd
        · simpa [PlanGraph.fromCandidate] using hlen

namespace Deployment

/-- The scheduler ticks, and the watcher sees the one task finished. -/
def finishing : Round := ⟨env, showing [seen taskId tsDone 1000]⟩

/-- The planner declares two outputs for its one node. -/
def twoOutputs (request : PlanRequest) : PlanCandidate :=
  { directTemplatePlan request with
    nodes := (directTemplatePlan request).nodes.map fun n =>
      { n with outputNames := ["summary", "sources"] } }

def twoOutputsDecision : Input :=
  ⟨{ env with plan := fun request => .ok (twoOutputs request) }, .decision decision⟩

/-- The ticks of the finishing round return and leave the one task to wait for. -/
def FinishingReturns (r : EngineRuntime) : Prop :=
  (r.tickScheduler env).1.isOk ∧
    ((step r finishing.scheduler).tickWatchTasks finishing.watch).1.isOk ∧
    (step r finishing.scheduler).taskIndex.lookup taskId = some ("wf-1", "direct-0") ∧
    "direct-0" ∉ doneNodes (step r finishing.scheduler) "wf-1"

instance (r : EngineRuntime) : Decidable (FinishingReturns r) :=
  inferInstanceAs (Decidable (_ ∧ _))

/-- The finishing round is fair wherever its ticks return. -/
theorem fairRound_finishing {r : EngineRuntime} (h : FinishingReturns r) :
    FairRound "wf-1" r finishing := by
  obtain ⟨hscheduled, hwatched, hindex, hopen⟩ := h
  refine ⟨fun _ => ⟨rfl, rfl⟩, hscheduled, hwatched, ?_, fun _ => ?_⟩
  · intro tasks htasks task hmem _ _
    cases htasks
    rw [List.mem_singleton.mp hmem]
    decide
  · exact ⟨_, rfl, _, List.mem_singleton.mpr rfl, "direct-0", ⟨hindex, hopen⟩, rfl⟩

end Deployment

open Deployment in
/-- The direct plan is complete after one round. -/
theorem direct_plan_completes :
    PlanAdmitted (run config [⟨env, .intent intent⟩]) ⟨env, .decision decision⟩ decision "wf-1"
        (awaiting config intent) (directTemplatePlan ⟨"wf-1", "resuma"⟩) ∧
      FairRound "wf-1" (run config admitted) finishing ∧
      Completed "wf-1" (roundStep (run config admitted) finishing) := by
  have hadmitted : PlanAdmitted (run config [⟨env, .intent intent⟩]) ⟨env, .decision decision⟩
      decision "wf-1" (awaiting config intent) (directTemplatePlan ⟨"wf-1", "resuma"⟩) :=
    ⟨⟨rfl, by decide +kernel, rfl⟩, by decide +kernel, by decide +kernel,
      by decide +kernel⟩
  obtain ⟨hround, hnone⟩ : FinishingReturns (run config admitted) ∧
      (run config admitted).journal.reservations.keys = [] := by decide +kernel
  have hfree : Unconsumed "wf-1" (run config admitted) := by
    rintro _ _ _ _ ⟨row, hrow, -⟩
    have hmem := AList.mem_keys.mp (Map.mem_iff_lookup.mpr ⟨row, hrow⟩)
    rw [hnone] at hmem
    cases hmem
  have hround := fairRound_finishing hround
  exact ⟨hadmitted, hround, (plan_completes_iff config [⟨env, .intent intent⟩] _ decision "wf-1"
    _ _ hadmitted [finishing] ⟨hround, trivial⟩ (by decide)).mpr
    ⟨rfl, by decide, hfree, trivial⟩⟩

open Deployment in
/-- With two declared outputs the finished task is not accepted: after the one
fair round its node is still open. -/
theorem two_outputs_never_complete :
    PlanAdmitted (run config [⟨env, .intent intent⟩]) twoOutputsDecision decision "wf-1"
        (awaiting config intent) (twoOutputs ⟨"wf-1", "resuma"⟩) ∧
      (twoOutputs ⟨"wf-1", "resuma"⟩).nodes.length = 1 ∧
      FairRound "wf-1" (run config [⟨env, .intent intent⟩, twoOutputsDecision]) finishing ∧
      ¬ Completed "wf-1"
        (roundStep (run config [⟨env, .intent intent⟩, twoOutputsDecision]) finishing) := by
  obtain ⟨hround, hlive⟩ :
      FinishingReturns (run config [⟨env, .intent intent⟩, twoOutputsDecision]) ∧
        ((roundStep (run config [⟨env, .intent intent⟩, twoOutputsDecision])
          finishing).workflows.lookup "wf-1").map (·.terminal) = some false := by
    decide +kernel
  refine ⟨⟨⟨rfl, by decide +kernel, rfl⟩, by decide +kernel, by decide +kernel,
      by decide +kernel⟩, rfl, fairRound_finishing hround, ?_⟩
  rintro ⟨w, hw, hterminal, -⟩
  rw [hw, Option.map_some, hterminal] at hlive
  cases hlive

end DdsOrchestrator.WorkflowEngine
