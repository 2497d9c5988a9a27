import DdsOrchestrator.Studio.RunnerInvariant

/-!
One server at a time, and no run that comes in the way of a later one. This holds in the runs
that are started with care, and breaks in three ways in others: a stop that comes too early is
lost, a message that comes too late ends another run, and another run's server is killed for it.
-/

namespace DdsOrchestrator.Studio.Runner

namespace World

/-- At most one server is alive. It is handed over, or on its way to that, until it has
exited. It is killed only after a stop of its own run, or after its own worker has failed. A
run that was asked to stop while it was starting has no server, or one that was signalled. -/
structure Exclusive (s : World) : Prop where
  one : ∀ r r', s.Alive r → s.Alive r' → r = r'
  held : ∀ r, s.Alive r → s.InHand r ∨ s.OnItsWay r ∨ s.Held r
  killed : ∀ r, (s.runs r).killed = true → (s.runs r).cancel = true ∨ (s.runs r).failed = true
  stopped : ∀ r, (s.runs r).askedToStop = true →
    (s.runs r).process = .unborn ∨ (s.runs r).termed = true ∨ (s.runs r).killed = true

/-- A message of an earlier run changes neither the status nor the child, and a child is kept
as long as it is alive. -/
structure Orderly (s : World) (i : Input) : Prop where
  stale : ∀ nowMs host m channel, i = .frame nowMs host → s.ui = .drain →
    s.channel = m :: channel → m.run < s.runner.cancelCurrent →
      (s.step i).runner.status = s.runner.status ∧ (s.step i).runner.child = s.runner.child
  kept : ∀ c, s.runner.child = some c → s.Alive c.run → (s.step i).runner.child = some c

section Inv

variable {s : World} {host : Host} {nowMs : Nat}

theorem Inv.exclusive (h : s.Inv) : s.Exclusive where
  one := fun r r' hr hr' => (h.alive_current hr).trans (h.alive_current hr').symm
  held := fun r hr => by
    have hcurrent := h.alive_current hr
    subst hcurrent
    exact h.held hr
  killed := h.killed
  stopped := fun r hr => .inl (h.asked r hr).2

/-- Of an earlier run only lines and answers to probes are left, and an answer finds no server
running. -/
theorem Inv.handle_stale (h : s.Inv) {m : Message} (hm : m ∈ s.channel)
    (hstale : m.run < s.runner.cancelCurrent) :
    (s.runner.handle nowMs m.msg).status = s.runner.status ∧
      (s.runner.handle nowMs m.msg).child = s.runner.child := by
  obtain ⟨run, msg⟩ := m
  cases msg with
  | line text => exact ⟨rfl, rfl⟩
  | health ok ms =>
      simp only [RunnerState.handle]
      cases hstatus : s.runner.status with
      | running pid since healthy =>
          have hline := h.healthy pid since healthy hstatus _ hm hstale
          cases hline
      | _ => exact ⟨hstatus, rfl⟩
  | _ => rcases h.stale _ hm hstale with hmsg | hmsg <;> cases hmsg

theorem child_start (host : Host) (s : World) :
    (s.start host).runner.child = s.runner.child := by
  have hsame : (s.runner.start host).1.child = s.runner.child := by
    rcases start_cases host s.runner with ⟨-, -, hchild, -⟩ | ⟨-, -, hchild, -⟩ <;> exact hchild
  rw [World.start]
  dsimp only
  split_ifs <;> exact hsame

theorem child_stop (nowMs : Nat) (termed : Bool) (s : World) :
    (s.stop nowMs termed).runner.child = s.runner.child := by
  have hnote := runner_noteStop s
  rw [World.stop]
  dsimp only
  split
  · rw [hnote]
  · show s.noteStop.runner.child = s.runner.child
    rw [hnote]

theorem child_restart (nowMs : Nat) (termed : Bool) (host : Host) (s : World) :
    (s.restart nowMs termed host).runner.child = s.runner.child := by
  rw [World.restart]
  split
  · exact child_start host s
  · exact child_stop nowMs termed s

/-- A server comes only where no child is held. -/
theorem Inv.child_receive (h : s.Inv) {c : Child} (hchild : s.runner.child = some c) :
    (s.receive nowMs).runner.child = some c := by
  cases hchannel : s.channel with
  | nil =>
      rw [receive_nil hchannel]
      exact hchild
  | cons m channel =>
      have hm : m ∈ s.channel := by
        rw [hchannel]
        exact List.mem_cons_self
      rw [receive_cons hchannel]
      obtain ⟨run, msg⟩ := m
      cases msg with
      | spawned c' =>
          -- While a server is on its way the runner holds none.
          have hnone := h.onItsWay _ hm rfl
          rw [hchild] at hnone
          cases hnone
      | finished =>
          simp only [RunnerState.handle]
          split_ifs <;> exact hchild
      | health ok ms =>
          simp only [RunnerState.handle]
          split <;> exact hchild
      | _ => exact hchild

theorem Inv.child_frame (h : s.Inv) {c : Child} (hchild : s.runner.child = some c)
    (halive : s.Alive c.run) : (s.frame nowMs host).runner.child = some c := by
  rw [World.frame]
  cases s.ui with
  | idle => exact hchild
  | drain => exact h.child_receive hchild
  | orphan =>
      simp only [World.killOrphan]
      split
      · split_ifs <;> exact hchild
      · exact hchild
  | reap =>
      simp only [World.reap, hchild]
      -- A child that is alive is not reaped.
      have hprocess : (s.runs c.run).process = .alive := halive
      rw [hprocess]
      exact hchild
  | escalate =>
      simp only [World.escalate]
      split
      · split_ifs <;> exact hchild
      · exact hchild
  | probe =>
      simp only [World.probe]
      split_ifs <;> exact hchild

theorem Inv.orderly (h : s.Inv) (i : Input) : s.Orderly i where
  stale := by
    rintro nowMs host m channel rfl hui hchannel hstale
    have hm : m ∈ s.channel := by
      rw [hchannel]
      exact List.mem_cons_self
    have hstep : s.step (.frame nowMs host) = s.receive nowMs := by
      simp only [World.step, World.frame, hui]
    rw [hstep, receive_cons hchannel]
    exact h.handle_stale hm hstale
  kept := by
    intro c hchild halive
    cases i with
    | start host =>
        simp only [World.step]
        split_ifs
        · exact (child_start host s).trans hchild
        · exact hchild
    | stop nowMs termed =>
        simp only [World.step]
        split_ifs
        · exact (child_stop nowMs termed s).trans hchild
        · exact hchild
    | restart nowMs termed host =>
        simp only [World.step]
        split_ifs
        · exact (child_restart nowMs termed host s).trans hchild
        · exact hchild
    | poll =>
        simp only [World.step]
        split_ifs <;> exact hchild
    | frame nowMs host => exact h.child_frame hchild halive
    | work run a =>
        simp only [World.step, World.work]
        split <;> exact hchild
    | print run text =>
        simp only [World.step]
        split_ifs <;> exact hchild
    | probed run answered =>
        simp only [World.step]
        split_ifs <;> exact hchild
    | exit run code =>
        simp only [World.step]
        split_ifs <;> exact hchild

end Inv

end World

/-- In every run in which the runner is started only when the earlier runs are over, and is not
stopped while it starts and may still get a server, there is one server at a time, and no run
comes in the way of a later one. -/
theorem careful_runs (params : RunnerParams) (inputs : List Input)
    (hrun : Machine.Along World.step World.Careful (.new params) inputs) :
    (∀ before after, inputs = before ++ after →
      (before.foldl World.step (.new params)).Exclusive) ∧
    Machine.Along World.step World.Orderly (.new params) inputs := by
  constructor
  · rintro before after rfl
    rw [Machine.along_append] at hrun
    have hinv := hrun.1.invariant (World.inv_new params) fun s i h hi => h.step hi
    exact hinv.exclusive
  · exact hrun.of_invariant (World.inv_new params) (fun s i h hi => h.step hi)
      fun s i h _ => h.orderly i

section Runs

def loopbackParams : RunnerParams :=
  { exe := "/bin/echo", model := "/bin/echo", port := 8081, ctx := 1024, batch := 64
    threads := 4, bind := "127.0.0.1", healthTimeoutSecs := 180 }

/-- A machine with the program, the model and a free port. -/
def readyHost : Host :=
  { isExecutable := fun _ => true, isFile := fun _ => true, bind := fun _ => .ok () }

/-- What a worker finds whose server comes up. -/
def comesUp (pid : Nat) : Answer :=
  { durationMs := 1, build := "—", modelGb := "0.00", spawner := .ok pid, late := false
    health := .ok 3, models := .ok ["m"], proof := .ok "INFERENCIA_OK" }

def works (run n : Nat) (a : Answer) : List Input := List.replicate n (.work run a)

def frames (n : Nat) : List Input := List.replicate n (.frame 0 readyHost)

/-- A run that is stopped while its worker waits for the server, and another one after it. -/
def twoRuns : List Input :=
  [Input.start readyHost] ++ works 1 4 (comesUp 7) ++ [Input.poll] ++ frames 7 ++
    [Input.stop 0 true] ++ works 1 3 (comesUp 7) ++
    [Input.probed 1 none, Input.exit 1 none, Input.poll] ++ frames 8 ++
    [Input.start readyHost] ++ works 2 4 (comesUp 8)

theorem careful_runs_two :
    (∀ before after, twoRuns = before ++ after →
      (before.foldl World.step (.new loopbackParams)).Exclusive) ∧
    Machine.Along World.step World.Orderly (.new loopbackParams) twoRuns :=
  careful_runs loopbackParams twoRuns (by decide +kernel)

/-- A stop that comes while the run starts finds no child and is forgotten. -/
def forgottenStop : List Input :=
  [Input.start readyHost, Input.stop 0 true] ++ works 1 4 (comesUp 7) ++ [Input.poll] ++ frames 2

/-- The first run fails to spawn its server. The second is started before the first worker has
sent its last message, which then ends the second one, and a third is started beside it. -/
def twoServers : List Input :=
  [Input.start readyHost] ++ works 1 4 { comesUp 7 with spawner := .error "ENOENT" } ++
    [Input.poll] ++ frames 7 ++ [Input.start readyHost] ++ works 1 1 (comesUp 7) ++
    [Input.poll] ++ frames 6 ++ [Input.start readyHost] ++ works 2 3 (comesUp 8) ++
    works 3 3 (comesUp 9)

/-- The worker of the first run asks for the models when the run is stopped. Its server exits,
the second run comes up, and then the first worker reports that it got no answer. -/
def lateReport : List Input :=
  [Input.start readyHost] ++ works 1 9 (comesUp 7) ++ [Input.poll] ++ frames 9 ++
    [Input.stop 0 true] ++ [Input.exit 1 none, Input.poll] ++ frames 5 ++
    [Input.start readyHost] ++ works 2 4 (comesUp 8) ++ [Input.poll] ++ frames 7 ++
    works 1 2 { comesUp 7 with models := .error "refused" } ++ [Input.poll]

/-- The stop is lost, two servers are alive, and the report of the first run fails the second
one and gets its server killed. -/
theorem runner_breaks :
    ¬ (forgottenStop.foldl World.step (.new loopbackParams)).Exclusive ∧
    ¬ (twoServers.foldl World.step (.new loopbackParams)).Exclusive ∧
    ¬ Machine.Along World.step World.Orderly (.new loopbackParams) (lateReport ++ frames 1) ∧
    ¬ ((lateReport ++ frames 3).foldl World.step (.new loopbackParams)).Exclusive := by
  refine ⟨fun h => ?_, fun h => ?_, fun h => ?_, fun h => ?_⟩
  · exact absurd (h.stopped 1 (by decide +kernel)) (by decide +kernel)
  · exact absurd (h.one 2 3 (by decide +kernel) (by decide +kernel)) (by decide)
  · obtain ⟨-, horderly, -⟩ := Machine.along_append.mp h
    have hsame := horderly.stale 0 readyHost
      ⟨1, .step ⟨"④ modelo & KV cache (/v1/models)", false, "refused", 1⟩⟩ [] rfl
      (by decide +kernel) (by decide +kernel) (by decide +kernel)
    exact absurd hsame.1 (by decide +kernel)
  · exact absurd (h.killed 2 (by decide +kernel)) (by decide +kernel)

end Runs

end DdsOrchestrator.Studio.Runner
