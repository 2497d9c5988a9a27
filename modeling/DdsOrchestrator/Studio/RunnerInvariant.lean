import DdsOrchestrator.Studio.Runner

/-!
What the runs of the runner keep as long as each run starts only once those before it are over:
their workers have ended, their reports are received and their probes are back. Then only the
current run has anything left to do, and what the runner holds and shows is its.
-/

namespace DdsOrchestrator.Studio.Runner

/-! ### Messages and servers -/

namespace RunnerMsg

def isLine : RunnerMsg → Bool
  | .line _ => true
  | _ => false

def isHealth : RunnerMsg → Bool
  | .health _ _ => true
  | _ => false

def isSpawned : RunnerMsg → Bool
  | .spawned _ => true
  | _ => false

/-- The report of a step that failed. -/
def isFailure : RunnerMsg → Bool
  | .step s => !s.ok
  | _ => false

end RunnerMsg

namespace World

def Alive (s : World) (run : Nat) : Prop := (s.runs run).process = .alive

/-- The worker of the run has spawned the server and not yet sent it. -/
def InHand (s : World) (run : Nat) : Prop := ∃ pid, (s.runs run).worker = .handOver pid

/-- The server of the run is in a message. -/
def OnItsWay (s : World) (run : Nat) : Prop := ∃ pid, ⟨run, .spawned ⟨run, pid⟩⟩ ∈ s.channel

/-- The runner has the server of the run. -/
def Held (s : World) (run : Nat) : Prop := ∃ pid, s.runner.child = some ⟨run, pid⟩

end World

/-! ### When a run may start -/

/-- The worker has not yet handed a server over and may still do so. -/
def Worker.early : Worker → Bool
  | .validate | .spawn | .handOver _ => true
  | .report _ next => next.early
  | _ => false

/-- The run has no server and gets none. -/
def Run.Serverless (r : Run) : Prop := r.worker.early = false ∧ r.process = .unborn

namespace World

/-- The earlier runs are over: their workers have ended, their reports are received, and no
probe is under way. -/
structure Ready (s : World) : Prop where
  ended : ∀ r ≤ s.runner.cancelCurrent, (s.runs r).worker = .ended
  received : ∀ m ∈ s.channel, m.msg.isLine = true ∨ m.msg.isHealth = true
  probed : s.probes = []

def childExited (s : World) : Bool :=
  match s.runner.child with
  | none => false
  | some child => match (s.runs child.run).process with
    | .exited _ => true
    | _ => false

/-- The frame finds the child exited and starts the next run. -/
def Restarts (host : Host) (s : World) : Prop :=
  s.runner.autostart = true ∧ (s.runner.params.validate host).isOk = true ∧
    s.childExited = true

/-- A run is started only when the earlier ones are over and no child is held, and no stop is
called while one is starting that may still get a server. -/
def Careful (s : World) : Input → Prop
  | .start host => s.ui = .idle → (s.runner.start host).2 = true →
      s.runner.child = none ∧ s.Ready
  | .stop _ _ => s.ui = .idle → s.runner.status = .starting →
      (s.runs s.runner.cancelCurrent).Serverless
  | .restart _ _ host => s.ui = .idle → s.runner.child = none →
      (s.runner.start host).2 = true → s.Ready
  | .frame _ host => s.ui = .reap → s.Restarts host → s.Ready
  | _ => True

instance (r : Run) : Decidable r.Serverless := inferInstanceAs (Decidable (_ ∧ _))

instance (s : World) (run : Nat) : Decidable (s.Alive run) :=
  inferInstanceAs (Decidable (_ = _))

instance (s : World) : Decidable s.Ready :=
  decidable_of_iff ((∀ r ≤ s.runner.cancelCurrent, (s.runs r).worker = .ended) ∧
      (∀ m ∈ s.channel, m.msg.isLine = true ∨ m.msg.isHealth = true) ∧ s.probes = [])
    ⟨fun h => ⟨h.1, h.2.1, h.2.2⟩, fun h => ⟨h.ended, h.received, h.probed⟩⟩

instance (host : Host) (s : World) : Decidable (s.Restarts host) :=
  inferInstanceAs (Decidable (_ ∧ _ ∧ _))

instance decidableCareful (s : World) : ∀ i, Decidable (s.Careful i)
  | .start _ => inferInstanceAs (Decidable (_ → _ → _ ∧ _))
  | .stop _ _ => inferInstanceAs (Decidable (_ → _ → Run.Serverless _))
  | .restart _ _ _ => inferInstanceAs (Decidable (_ → _ → _ → _))
  | .frame _ _ => inferInstanceAs (Decidable (_ → _ → _))
  | .poll | .work _ _ | .print _ _ | .probed _ _ | .exit _ _ => .isTrue trivial

end World

/-! ### One operation of a worker -/

/-- What an operation of a worker can do to its run, and what it can send. -/
structure Worked (number : Nat) (r r' : Run) (msg : Option RunnerMsg) : Prop where
  cancel : r'.cancel = r.cancel
  killed : r'.killed = r.killed
  askedToStop : r'.askedToStop = r.askedToStop
  serverless : r.worker.early = false → r'.process = r.process
  failed : r.failed = true → r'.failed = true
  born : r'.process = .alive → r.process = .alive ∨ ∃ pid, r'.worker = .handOver pid
  handedOver : ∀ pid, r.worker = .handOver pid → msg = some (.spawned ⟨number, pid⟩)
  early : r'.worker.early = true → r.worker.early = true
  sent : ∀ m, msg = some m → m.isSpawned = true →
    r'.worker.early = false ∧ ∃ pid, r.worker = .handOver pid
  failure : ∀ m, msg = some m → m.isFailure = true → r'.failed = true

section Worked

variable {number : Nat} {r : Run}

/-- An operation that sends nothing and spawns nothing. -/
theorem worked_silent {next : Worker} (hhand : ∀ pid, r.worker ≠ .handOver pid)
    (hearly : next.early = true → r.worker.early = true) :
    Worked number r { r with worker := next } none where
  cancel := rfl
  killed := rfl
  askedToStop := rfl
  serverless := fun _ => rfl
  failed := id
  born := .inl
  handedOver := fun pid hworker => absurd hworker (hhand pid)
  early := hearly
  sent := by rintro m ⟨⟩
  failure := by rintro m ⟨⟩

/-- A step that ends is reported next. Only after the first step may a server be spawned. -/
theorem worked_stepped {step : String} {durationMs : Nat} {outcome : Except String String}
    {next : Worker} (hhand : ∀ pid, r.worker ≠ .handOver pid)
    (hearly : next.early = true → r.worker.early = true) :
    Worked number r (r.stepped step durationMs outcome next) none := by
  cases outcome with
  | ok detail => exact worked_silent hhand hearly
  | error detail => exact worked_silent hhand fun h => by cases h

theorem worked_unlessCancelled {next : Worker} (hhand : ∀ pid, r.worker ≠ .handOver pid)
    (hearly : next.early = true → r.worker.early = true) :
    Worked number r (r.unlessCancelled next) none := by
  rw [Run.unlessCancelled]
  split_ifs
  · exact worked_silent hhand fun h => by cases h
  · exact worked_silent hhand hearly

theorem worked_report {s : StepResult} {next : Worker} (hworker : r.worker = .report s next) :
    Worked number r { r with worker := next, failed := r.failed || !s.ok } (some (.step s)) where
  cancel := rfl
  killed := rfl
  askedToStop := rfl
  serverless := fun _ => rfl
  failed := fun h => by simp [h]
  born := .inl
  handedOver := fun pid h => by rw [hworker] at h; cases h
  early := fun h => by rw [hworker]; exact h
  sent := by rintro m ⟨rfl⟩ hspawned; cases hspawned
  failure := by
    rintro m ⟨rfl⟩ hfailure
    exact Bool.or_eq_true_iff.mpr (.inr hfailure)

theorem worked_finish (hworker : r.worker = .finish) :
    Worked number r { r with worker := .ended } (some .finished) where
  cancel := rfl
  killed := rfl
  askedToStop := rfl
  serverless := fun _ => rfl
  failed := id
  born := .inl
  handedOver := fun pid h => by rw [hworker] at h; cases h
  early := fun h => by cases h
  sent := by rintro m ⟨rfl⟩ hspawned; cases hspawned
  failure := by rintro m ⟨rfl⟩ hfailure; cases hfailure

theorem worked_spawned {pid : Nat} (hworker : r.worker = .spawn) :
    Worked number r { r with worker := .handOver pid, process := .alive } none where
  cancel := rfl
  killed := rfl
  askedToStop := rfl
  serverless := fun h => by rw [hworker] at h; cases h
  failed := id
  born := fun _ => .inr ⟨pid, rfl⟩
  handedOver := fun pid h => by rw [hworker] at h; cases h
  early := fun _ => by rw [hworker]; rfl
  sent := by rintro m ⟨⟩
  failure := by rintro m ⟨⟩

theorem worked_handedOver {pid : Nat} {step : StepResult} (hworker : r.worker = .handOver pid) :
    Worked number r { r with worker := .report step .awaitHealth, reading := true }
      (some (.spawned ⟨number, pid⟩)) where
  cancel := rfl
  killed := rfl
  askedToStop := rfl
  serverless := fun _ => rfl
  failed := id
  born := .inl
  handedOver := fun pid' h => by
    rw [hworker] at h
    obtain rfl := Worker.handOver.inj h
    rfl
  early := fun h => by cases h
  sent := by
    rintro m ⟨rfl⟩ -
    exact ⟨rfl, pid, hworker⟩
  failure := by rintro m ⟨rfl⟩ hfailure; cases hfailure

end Worked

theorem Run.work_spec (number : Nat) (a : Answer) (r : Run) :
    Worked number r (r.work number a).1 (r.work number a).2 := by
  cases hworker : r.worker with
  | validate =>
      have hhand : ∀ pid, r.worker ≠ .handOver pid := by simp [hworker]
      simp only [Run.work, hworker]
      split_ifs
      · refine worked_silent hhand ?_
        rintro ⟨⟩
      · dsimp only
        refine worked_stepped hhand fun _ => ?_
        rw [hworker]
        rfl
  | spawn =>
      have hhand : ∀ pid, r.worker ≠ .handOver pid := by simp [hworker]
      simp only [Run.work, hworker]
      cases a.spawner with
      | ok pid => exact worked_spawned hworker
      | error e =>
          dsimp only
          refine worked_stepped hhand ?_
          rintro ⟨⟩
  | handOver pid =>
      simp only [Run.work, hworker]
      exact worked_handedOver hworker
  | awaitHealth =>
      have hhand : ∀ pid, r.worker ≠ .handOver pid := by simp [hworker]
      simp only [Run.work, hworker]
      split_ifs
      · dsimp only
        refine worked_stepped hhand ?_
        rintro ⟨⟩
      · refine worked_unlessCancelled hhand ?_
        rintro ⟨⟩
  | askHealth =>
      have hhand : ∀ pid, r.worker ≠ .handOver pid := by simp [hworker]
      simp only [Run.work, hworker]
      cases a.health with
      | ok ms =>
          dsimp only
          refine worked_stepped hhand ?_
          rintro ⟨⟩
      | error e =>
          refine worked_silent hhand ?_
          rintro ⟨⟩
  | beforeModels =>
      simp only [Run.work, hworker]
      refine worked_unlessCancelled (by simp [hworker]) ?_
      rintro ⟨⟩
  | askModels =>
      simp only [Run.work, hworker]
      refine worked_stepped (by simp [hworker]) ?_
      rintro ⟨⟩
  | beforeProof =>
      simp only [Run.work, hworker]
      refine worked_unlessCancelled (by simp [hworker]) ?_
      rintro ⟨⟩
  | askProof =>
      simp only [Run.work, hworker]
      refine worked_stepped (by simp [hworker]) ?_
      rintro ⟨⟩
  | report s next =>
      simp only [Run.work, hworker]
      exact worked_report hworker
  | finish =>
      simp only [Run.work, hworker]
      exact worked_finish hworker
  | ended =>
      simp only [Run.work, hworker]
      show Worked number r { r with worker := r.worker } none
      exact worked_silent (by simp [hworker]) id

/-! ### The invariant -/

/-- Nothing that matters comes behind a server that is on its way. -/
def Behind (current : Nat) (m m' : Message) : Prop :=
  m.msg.isSpawned = true →
    m'.msg.isSpawned = false ∧ (m'.run < current → m'.msg.isLine = true)

namespace World

/-- Only the current run has anything left to do, and the status and the child are its. -/
structure Tidy (s : World) : Prop where
  later : ∀ r, s.runner.cancelCurrent < r → ∃ params, s.runs r = .notBegun params
  ended : ∀ r < s.runner.cancelCurrent, (s.runs r).worker = .ended
  dead : ∀ r < s.runner.cancelCurrent, ¬ s.Alive r
  begun : ∀ m ∈ s.channel, m.run ≤ s.runner.cancelCurrent
  stale : ∀ m ∈ s.channel, m.run < s.runner.cancelCurrent →
    m.msg.isLine = true ∨ m.msg.isHealth = true
  healthy : ∀ pid since healthy, s.runner.status = .running pid since healthy →
    ∀ m ∈ s.channel, m.run < s.runner.cancelCurrent → m.msg.isLine = true
  behind : s.channel.Pairwise (Behind s.runner.cancelCurrent)
  owner : ∀ m ∈ s.channel, ∀ c, m.msg = .spawned c → c.run = m.run
  probes : ∀ r ∈ s.probes, r = s.runner.cancelCurrent
  childRun : ∀ c, s.runner.child = some c → c.run = s.runner.cancelCurrent
  childStatus : ∀ c, s.runner.child = some c → s.runner.status ≠ .starting
  early : (s.runs s.runner.cancelCurrent).worker.early = true →
    s.runner.child = none ∧ ∀ m ∈ s.channel, m.msg.isSpawned = false
  onItsWay : ∀ m ∈ s.channel, m.msg.isSpawned = true → s.runner.child = none
  failing : ∀ m ∈ s.channel, m.msg.isFailure = true → (s.runs m.run).failed = true
  failed : ∀ detail, s.runner.status = .failed detail →
    (s.runs s.runner.cancelCurrent).failed = true
  stopping : ∀ pid since, s.runner.status = .stopping pid since →
    (s.runs s.runner.cancelCurrent).cancel = true
  killed : ∀ r, (s.runs r).killed = true → (s.runs r).cancel = true ∨ (s.runs r).failed = true
  asked : ∀ r, (s.runs r).askedToStop = true → (s.runs r).Serverless

structure Inv (s : World) : Prop extends s.Tidy where
  held : s.Alive s.runner.cancelCurrent → s.InHand s.runner.cancelCurrent ∨
    s.OnItsWay s.runner.cancelCurrent ∨ s.Held s.runner.cancelCurrent

theorem inv_new (params : RunnerParams) : (new params).Inv where
  later := fun r _ => ⟨params, rfl⟩
  ended := fun r _ => rfl
  dead := fun r _ h => by cases h
  begun := fun m hm => by cases hm
  stale := fun m hm => by cases hm
  healthy := fun pid since healthy h => by cases h
  behind := .nil
  owner := fun m hm => by cases hm
  probes := fun r hr => by cases hr
  childRun := fun c h => by cases h
  childStatus := fun c h => by cases h
  early := fun h => by cases h
  onItsWay := fun m hm => by cases hm
  held := fun h => by cases h
  failing := fun m hm => by cases hm
  failed := fun detail h => by cases h
  stopping := fun pid since h => by cases h
  killed := fun r h => by cases h
  asked := fun r h => by cases h

section Inv

variable {s : World} {host : Host} {nowMs : Nat}

theorem Tidy.setCurrent (h : s.Tidy) {r : Run}
    (hearly : r.worker.early = true → (s.runs s.runner.cancelCurrent).worker.early = true)
    (hfailed : (s.runs s.runner.cancelCurrent).failed = true → r.failed = true)
    (hcancel : (s.runs s.runner.cancelCurrent).cancel = true → r.cancel = true)
    (hkilled : r.killed = true → r.cancel = true ∨ r.failed = true)
    (hasked : r.askedToStop = true → r.Serverless) : (s.setRun s.runner.cancelCurrent r).Tidy :=
  { h with
    later := fun run hrun => by
      obtain ⟨params, hnot⟩ := h.later run hrun
      exact ⟨params, (runs_setRun_of_ne (Nat.ne_of_gt hrun) r s).trans hnot⟩
    ended := fun run hrun => by
      have hne : run ≠ s.runner.cancelCurrent := Nat.ne_of_lt hrun
      rw [runs_setRun_of_ne hne]
      exact h.ended run hrun
    dead := fun run hrun => by
      have hne : run ≠ s.runner.cancelCurrent := Nat.ne_of_lt hrun
      rw [Alive, runs_setRun_of_ne hne]
      exact h.dead run hrun
    early := fun hrun => h.early (hearly (by simpa using hrun))
    failing := fun m hm hfailure => by
      have hbefore := h.failing m hm hfailure
      by_cases hrun : m.run = s.runner.cancelCurrent
      · rw [hrun] at hbefore ⊢
        simpa using hfailed hbefore
      · rwa [runs_setRun_of_ne hrun]
    failed := fun detail hstatus => by simpa using hfailed (h.failed detail hstatus)
    stopping := fun pid since hstatus => by simpa using hcancel (h.stopping pid since hstatus)
    killed := fun run hrun => by
      by_cases hcurrent : run = s.runner.cancelCurrent
      · subst hcurrent
        rw [runs_setRun_self] at hrun ⊢
        exact hkilled hrun
      · rw [runs_setRun_of_ne hcurrent] at hrun ⊢
        exact h.killed run hrun
    asked := fun run => by
      by_cases hcurrent : run = s.runner.cancelCurrent
      · subst hcurrent
        rw [runs_setRun_self]
        exact hasked
      · rw [runs_setRun_of_ne hcurrent]
        exact h.asked run }

/-- The current run goes on in a way that loses no server. -/
theorem Inv.setCurrent (h : s.Inv) {r : Run}
    (hearly : r.worker.early = true → (s.runs s.runner.cancelCurrent).worker.early = true)
    (hborn : r.process = .alive → s.Alive s.runner.cancelCurrent ∨ ∃ pid, r.worker = .handOver pid)
    (hhand : ∀ pid, (s.runs s.runner.cancelCurrent).worker = .handOver pid →
      r.worker = .handOver pid)
    (hfailed : (s.runs s.runner.cancelCurrent).failed = true → r.failed = true)
    (hcancel : (s.runs s.runner.cancelCurrent).cancel = true → r.cancel = true)
    (hkilled : r.killed = true → r.cancel = true ∨ r.failed = true)
    (hasked : r.askedToStop = true → r.Serverless) : (s.setRun s.runner.cancelCurrent r).Inv :=
  { h.toTidy.setCurrent hearly hfailed hcancel hkilled hasked with
    held := fun halive => by
      rcases hborn (by simpa [Alive] using halive) with hbefore | ⟨pid, hpid⟩
      · rcases h.held hbefore with ⟨pid, hpid⟩ | hrest
        · exact .inl ⟨pid, by simpa using hhand pid hpid⟩
        · exact .inr hrest
      · exact .inl ⟨pid, by simpa using hpid⟩ }

theorem Tidy.worker_other (h : s.Tidy) {run : Nat} (hrun : run ≠ s.runner.cancelCurrent) :
    (s.runs run).worker = .ended := by
  rcases Nat.lt_or_gt_of_ne hrun with hlt | hgt
  · exact h.ended run hlt
  · obtain ⟨params, hnot⟩ := h.later run hgt
    rw [hnot]
    rfl

/-- A message is sent. Of an earlier run this can only be a line, and a server comes once. -/
theorem Tidy.send (h : s.Tidy) {run : Nat} {msg : RunnerMsg} (hrun : run ≤ s.runner.cancelCurrent)
    (hline : run < s.runner.cancelCurrent → msg.isLine = true)
    (hspawned : ∀ c, msg = .spawned c → c.run = run ∧ s.runner.child = none ∧
      (s.runs s.runner.cancelCurrent).worker.early = false ∧
        ∀ m ∈ s.channel, m.msg.isSpawned = false)
    (hfailure : msg.isFailure = true → (s.runs run).failed = true) : (s.send run msg).Tidy := by
  have hcases : msg.isSpawned = false ∨ ∃ c, msg = .spawned c := by
    cases msg with
    | spawned c => exact .inr ⟨c, rfl⟩
    | _ => exact .inl rfl
  exact
  { h with
    begun := List.forall_mem_append.mpr ⟨h.begun, by simpa using hrun⟩
    stale := List.forall_mem_append.mpr ⟨h.stale, by simpa using fun hlt => .inl (hline hlt)⟩
    healthy := fun pid since healthy hstatus =>
      List.forall_mem_append.mpr ⟨h.healthy pid since healthy hstatus, by simpa using hline⟩
    behind := List.pairwise_append.mpr ⟨h.behind, List.pairwise_singleton _ _, by
      intro m hm m' hm' hmspawned
      obtain rfl := List.mem_singleton.mp hm'
      refine ⟨?_, hline⟩
      rcases hcases with hother | ⟨c, hc⟩
      · exact hother
      · obtain ⟨-, -, -, hnone⟩ := hspawned c hc
        rw [hnone m hm] at hmspawned
        cases hmspawned⟩
    owner := List.forall_mem_append.mpr ⟨h.owner, by
      intro m hm c hc
      obtain rfl := List.mem_singleton.mp hm
      exact (hspawned c hc).1⟩
    early := fun hearly => ⟨(h.early hearly).1, List.forall_mem_append.mpr ⟨(h.early hearly).2, by
      intro m hm
      obtain rfl := List.mem_singleton.mp hm
      rcases hcases with hother | ⟨c, hc⟩
      · exact hother
      · obtain ⟨-, -, hlate, -⟩ := hspawned c hc
        rw [runs_send, runner_send, hlate] at hearly
        cases hearly⟩⟩
    onItsWay := List.forall_mem_append.mpr ⟨h.onItsWay, by
      intro m hm hmspawned
      obtain rfl := List.mem_singleton.mp hm
      rcases hcases with hother | ⟨c, hc⟩
      · rw [hother] at hmspawned
        cases hmspawned
      · exact (hspawned c hc).2.1⟩
    failing := List.forall_mem_append.mpr ⟨h.failing, by simpa using hfailure⟩ }

theorem Inv.send (h : s.Inv) {run : Nat} {msg : RunnerMsg} (hrun : run ≤ s.runner.cancelCurrent)
    (hline : run < s.runner.cancelCurrent → msg.isLine = true)
    (hspawned : ∀ c, msg ≠ .spawned c)
    (hfailure : msg.isFailure = true → (s.runs run).failed = true) : (s.send run msg).Inv :=
  { h.toTidy.send hrun hline (fun c hc => absurd hc (hspawned c)) hfailure with
    held := fun halive => by
      rcases h.held halive with hhand | ⟨pid, hway⟩ | hheld
      · exact .inl hhand
      · exact .inr (.inl ⟨pid, List.mem_append_left _ hway⟩)
      · exact .inr (.inr hheld) }

/-- The worker of a run goes on. -/
theorem Inv.work (h : s.Inv) (run : Nat) (a : Answer) : (s.work run a).Inv := by
  by_cases hrun : run = s.runner.cancelCurrent
  · subst hrun
    have hworked := (s.runs s.runner.cancelCurrent).work_spec s.runner.cancelCurrent a
    rw [World.work]
    generalize (s.runs s.runner.cancelCurrent).work s.runner.cancelCurrent a = outcome at hworked ⊢
    obtain ⟨r, msg⟩ := outcome
    dsimp only at hworked ⊢
    have hkilled : r.killed = true → r.cancel = true ∨ r.failed = true := by
      intro hkilled
      rw [hworked.killed] at hkilled
      rw [hworked.cancel]
      exact (h.killed _ hkilled).imp_right hworked.failed
    have hcancel : (s.runs s.runner.cancelCurrent).cancel = true → r.cancel = true :=
      hworked.cancel.trans
    have hasked : r.askedToStop = true → r.Serverless := by
      intro hasked
      rw [hworked.askedToStop] at hasked
      obtain ⟨hlate, hunborn⟩ := h.asked _ hasked
      refine ⟨?_, (hworked.serverless hlate).trans hunborn⟩
      by_contra hearly
      rw [hworked.early (by simpa using hearly)] at hlate
      cases hlate
    by_cases hhand : ∃ pid, (s.runs s.runner.cancelCurrent).worker = .handOver pid
    · -- The server goes from the hand of the worker into the channel.
      obtain ⟨pid, hpid⟩ := hhand
      obtain rfl := hworked.handedOver pid hpid
      obtain ⟨hlate, -⟩ := hworked.sent _ rfl rfl
      obtain ⟨hchild, hnone⟩ := h.early (by rw [hpid]; rfl)
      have htidy := h.toTidy.setCurrent hworked.early hworked.failed hcancel hkilled hasked
      refine ⟨htidy.send (Nat.le_refl _) (fun hlt => absurd hlt (Nat.lt_irrefl _)) ?_ ?_,
        fun _ => .inr (.inl ⟨pid, List.mem_append_right _ (List.mem_singleton.mpr rfl)⟩)⟩
      · rintro c ⟨rfl⟩
        refine ⟨rfl, hchild, ?_, hnone⟩
        simpa using hlate
      · rintro ⟨⟩
    · have hset := h.setCurrent hworked.early hworked.born
        (fun pid hpid => absurd ⟨pid, hpid⟩ hhand) hworked.failed hcancel hkilled hasked
      cases msg with
      | none => exact hset
      | some msg =>
          refine hset.send (Nat.le_refl _) (fun hlt => absurd hlt (Nat.lt_irrefl _)) ?_ ?_
          · rintro c rfl
            exact hhand (hworked.sent _ rfl rfl).2
          · intro hfailure
            simpa using hworked.failure msg rfl hfailure
  · -- The workers of the other runs have ended, and do nothing.
    have hended := h.worker_other hrun
    have hsame : (s.runs run).work run a = (s.runs run, none) := by
      simp only [Run.work, hended]
    rw [World.work, hsame]
    dsimp only
    rwa [setRun_same]

/-- The first message is taken from the channel. -/
theorem Tidy.drop (h : s.Tidy) {m : Message} {channel : List Message}
    (hchannel : s.channel = m :: channel) : ({ s with channel } : World).Tidy := by
  have hsub : ∀ m' ∈ channel, m' ∈ s.channel := fun m' hm' => by
    rw [hchannel]
    exact .tail m hm'
  have hbehind := h.behind
  rw [hchannel] at hbehind
  exact
  { h with
    begun := fun m' hm' => h.begun m' (hsub m' hm')
    stale := fun m' hm' => h.stale m' (hsub m' hm')
    healthy := fun pid since healthy hstatus m' hm' =>
      h.healthy pid since healthy hstatus m' (hsub m' hm')
    behind := hbehind.of_cons
    owner := fun m' hm' => h.owner m' (hsub m' hm')
    early := fun hearly => ⟨(h.early hearly).1, fun m' hm' => (h.early hearly).2 m' (hsub m' hm')⟩
    onItsWay := fun m' hm' => h.onItsWay m' (hsub m' hm')
    failing := fun m' hm' => h.failing m' (hsub m' hm') }

theorem Inv.drop (h : s.Inv) {m : Message} {channel : List Message}
    (hchannel : s.channel = m :: channel) (hspawned : m.msg.isSpawned = false) :
    ({ s with channel } : World).Inv :=
  { h.toTidy.drop hchannel with
    held := fun halive => by
      rcases h.held halive with hhand | ⟨pid, hway⟩ | hheld
      · exact .inl hhand
      · rw [hchannel] at hway
        rcases List.mem_cons.mp hway with rfl | hlater
        · cases hspawned
        · exact .inr (.inl ⟨pid, hlater⟩)
      · exact .inr (.inr hheld) }

/-- The runner changes, but neither its child nor its run. -/
theorem Inv.setRunner (h : s.Inv) {r : RunnerState} (hchild : r.child = s.runner.child)
    (hcurrent : r.cancelCurrent = s.runner.cancelCurrent)
    (hhealthy : ∀ pid since healthy, r.status = .running pid since healthy →
      ∀ m ∈ s.channel, m.run < s.runner.cancelCurrent → m.msg.isLine = true)
    (hstarting : ∀ c, s.runner.child = some c → r.status ≠ .starting)
    (hfailed : ∀ detail, r.status = .failed detail →
      (s.runs s.runner.cancelCurrent).failed = true)
    (hstopping : ∀ pid since, r.status = .stopping pid since →
      (s.runs s.runner.cancelCurrent).cancel = true) : ({ s with runner := r } : World).Inv := by
  obtain ⟨params, status, steps, console, error, child, autostart, current, polled⟩ := r
  dsimp only at hchild hcurrent hhealthy hstarting hfailed hstopping
  subst hchild hcurrent
  exact
  { h with
    healthy := hhealthy
    childStatus := hstarting
    failed := hfailed
    stopping := hstopping }

/-- The same with the status as it is. -/
theorem Inv.setNotes (h : s.Inv) {r : RunnerState} (hchild : r.child = s.runner.child)
    (hcurrent : r.cancelCurrent = s.runner.cancelCurrent)
    (hstatus : r.status = s.runner.status) : ({ s with runner := r } : World).Inv := by
  apply h.setRunner hchild hcurrent
  · rw [hstatus]
    exact h.healthy
  · rw [hstatus]
    exact h.childStatus
  · rw [hstatus]
    exact h.failed
  · rw [hstatus]
    exact h.stopping

theorem Inv.setUi (h : s.Inv) (ui : Ui) : ({ s with ui } : World).Inv := { h with }

theorem Tidy.run_eq (h : s.Tidy) {m : Message} (hm : m ∈ s.channel) (hline : m.msg.isLine = false)
    (hhealth : m.msg.isHealth = false) : m.run = s.runner.cancelCurrent := by
  rcases Nat.lt_or_eq_of_le (h.begun m hm) with hlt | heq
  · rcases h.stale m hm hlt with hline' | hhealth'
    · rw [hline] at hline'
      cases hline'
    · rw [hhealth] at hhealth'
      cases hhealth'
  · exact heq

/-- The runner gets the server of its run. -/
theorem Inv.receiveSpawned (h : s.Inv) {run : Nat} {c : Child} {channel : List Message}
    (hchannel : s.channel = ⟨run, .spawned c⟩ :: channel) :
    ({ s with channel
              runner := s.runner.handle nowMs (.spawned c) } : World).Inv := by
  have hm : (⟨run, .spawned c⟩ : Message) ∈ s.channel := by
    rw [hchannel]
    exact List.mem_cons_self
  have hrun : run = s.runner.cancelCurrent := h.run_eq hm rfl rfl
  have howner : c.run = s.runner.cancelCurrent := (h.owner _ hm c rfl).trans hrun
  have hsame : (⟨s.runner.cancelCurrent, c.pid⟩ : Child) = c := by rw [← howner]
  have hbehind := h.behind
  rw [hchannel] at hbehind
  have hrest := (List.pairwise_cons.mp hbehind).1
  -- A worker that may still spawn has sent no server.
  have hlate : (s.runs s.runner.cancelCurrent).worker.early = false := by
    by_contra hearly
    have hnone := (h.early (by simpa using hearly)).2 _ hm
    cases hnone
  exact
  { h.toTidy.drop hchannel with
    healthy := fun _ _ _ _ m' hm' hlt => (hrest m' hm' rfl).2 hlt
    childRun := by
      rintro c' ⟨rfl⟩
      exact howner
    childStatus := fun _ _ hstatus => by cases hstatus
    early := fun hearly => by
      have hearly : (s.runs s.runner.cancelCurrent).worker.early = true := hearly
      rw [hlate] at hearly
      cases hearly
    onItsWay := fun m' hm' hspawned => by
      have hnot := (hrest m' hm' rfl).1
      rw [hspawned] at hnot
      cases hnot
    held := fun _ => .inr (.inr ⟨c.pid, congrArg some hsame.symm⟩)
    failed := fun _ hstatus => by cases hstatus
    stopping := fun _ _ hstatus => by cases hstatus }

/-- A step that failed shows as a failure, or not at all once the run was stopped. -/
theorem status_of_failure (r : RunnerState) (now : Nat) {st : StepResult}
    (hfailure : st.ok = false) :
    (∃ pid since, r.status = .stopping pid since ∧
      (r.handle now (.step st)).status = .stopping pid since) ∨
    ∃ detail, (r.handle now (.step st)).status = .failed detail := by
  have hok : ¬ st.ok = true := by
    rw [hfailure]
    exact Bool.false_ne_true
  simp only [RunnerState.handle, if_neg hok]
  cases r.status with
  | stopping pid since => exact .inl ⟨pid, since, rfl, rfl⟩
  | _ => exact .inr ⟨_, rfl⟩

theorem Inv.handleStep (h : s.Inv) {st : StepResult}
    (hfailed : st.ok = false → (s.runs s.runner.cancelCurrent).failed = true) :
    ({ s with runner := s.runner.handle nowMs (.step st) } : World).Inv := by
  cases hok : st.ok with
  | true =>
      refine h.setNotes rfl rfl ?_
      simp only [RunnerState.handle, hok, if_true]
  | false =>
      rcases status_of_failure s.runner nowMs hok with
        ⟨pid, since, hbefore, hafter⟩ | ⟨detail, hafter⟩
      · exact h.setNotes rfl rfl (hafter.trans hbefore.symm)
      · -- Only a status that shows a failure has to be accounted for.
        refine h.setRunner rfl rfl ?_ ?_ (fun _ _ => hfailed hok) ?_ <;> rw [hafter]
        · rintro _ _ _ ⟨⟩
        · rintro _ _ ⟨⟩
        · rintro _ _ ⟨⟩

theorem Inv.handleFinished (h : s.Inv) :
    ({ s with runner := s.runner.handle nowMs .finished } : World).Inv := by
  simp only [RunnerState.handle]
  split_ifs with hstarting
  · refine h.setRunner rfl rfl ?_ ?_ ?_ ?_
    · rintro _ _ _ ⟨⟩
    · rintro _ _ ⟨⟩
    · rintro _ ⟨⟩
    · rintro _ _ ⟨⟩
  · exact h

theorem Inv.handleHealth (h : s.Inv) {ok : Bool} {ms : Nat} :
    ({ s with runner := s.runner.handle nowMs (.health ok ms) } : World).Inv := by
  simp only [RunnerState.handle]
  cases hstatus : s.runner.status with
  | running pid since healthy =>
      dsimp only
      refine h.setRunner rfl rfl ?_ ?_ ?_ ?_
      · exact fun _ _ _ _ => h.healthy pid since healthy hstatus
      · rintro _ _ ⟨⟩
      · rintro _ ⟨⟩
      · rintro _ _ ⟨⟩
  | _ => exact h

theorem receive_nil (hchannel : s.channel = []) : s.receive nowMs = { s with ui := .orphan } := by
  simp only [World.receive, hchannel]

theorem receive_cons {m : Message} {channel : List Message} (hchannel : s.channel = m :: channel) :
    s.receive nowMs = { s with channel, runner := s.runner.handle nowMs m.msg } := by
  simp only [World.receive, hchannel]

theorem Inv.receive (h : s.Inv) (nowMs : Nat) : (s.receive nowMs).Inv := by
  cases hchannel : s.channel with
  | nil =>
      rw [receive_nil hchannel]
      exact h.setUi .orphan
  | cons m channel =>
      have hm : m ∈ s.channel := by
        rw [hchannel]
        exact List.mem_cons_self
      rw [receive_cons hchannel]
      obtain ⟨run, msg⟩ := m
      cases msg with
      | line text => exact (h.drop hchannel rfl).setNotes rfl rfl rfl
      | step st =>
          have hrun : run = s.runner.cancelCurrent := h.run_eq hm rfl rfl
          refine (h.drop hchannel rfl).handleStep fun hok => ?_
          have hfailed : (s.runs run).failed = true :=
            h.failing _ hm (by simp [RunnerMsg.isFailure, hok])
          rwa [hrun] at hfailed
      | spawned c => exact h.receiveSpawned hchannel
      | finished => exact (h.drop hchannel rfl).handleFinished
      | health ok ms => exact (h.drop hchannel rfl).handleHealth

/-- A start begins a run, or leaves the status, the child and the run. -/
theorem start_cases (host : Host) (r : RunnerState) :
    ((r.start host).2 = true ∧ (r.start host).1.status = .starting ∧
      (r.start host).1.child = r.child ∧
      (r.start host).1.cancelCurrent = r.cancelCurrent + 1) ∨
    ((r.start host).2 = false ∧ (r.start host).1.status = r.status ∧
      (r.start host).1.child = r.child ∧ (r.start host).1.cancelCurrent = r.cancelCurrent) := by
  rw [RunnerState.start]
  split_ifs
  · exact .inr ⟨rfl, rfl, rfl, rfl⟩
  · split
    · exact .inr ⟨rfl, rfl, rfl, rfl⟩
    · exact .inl ⟨rfl, rfl, rfl, rfl⟩

theorem Ready.not_spawned (h : s.Ready) {m : Message} (hm : m ∈ s.channel) :
    m.msg.isSpawned = false := by
  obtain ⟨run, msg⟩ := m
  rcases h.received _ hm with hmsg | hmsg <;> cases msg <;> first | rfl | cases hmsg

theorem Ready.not_failure (h : s.Ready) {m : Message} (hm : m ∈ s.channel) :
    m.msg.isFailure = false := by
  obtain ⟨run, msg⟩ := m
  rcases h.received _ hm with hmsg | hmsg <;> cases msg <;> first | rfl | cases hmsg

/-- Once the runs are over and no child is held, no server is alive. -/
theorem Inv.none_alive (h : s.Inv) (hready : s.Ready) (hchild : s.runner.child = none) :
    ¬ s.Alive s.runner.cancelCurrent := by
  intro halive
  -- It would be in the hand of a worker, in the channel, or the child.
  rcases h.held halive with ⟨pid, hhand⟩ | ⟨pid, hway⟩ | ⟨pid, hheld⟩
  · have hended := hready.ended _ (Nat.le_refl _)
    rw [hhand] at hended
    cases hended
  · have hnot := hready.not_spawned hway
    cases hnot
  · rw [hchild] at hheld
    cases hheld

theorem Inv.begin (h : s.Inv) (hready : s.Ready) (hchild : s.runner.child = none)
    {r : RunnerState} {params : RunnerParams} (hstatus : r.status = .starting)
    (hchild' : r.child = s.runner.child) (hcurrent : r.cancelCurrent = s.runner.cancelCurrent + 1) :
    (({ s with runner := r } : World).setRun r.cancelCurrent (.begin params)).Inv := by
  obtain ⟨_, status, steps, console, error, child, autostart, current, polled⟩ := r
  dsimp only at hstatus hchild' hcurrent
  subst hstatus hchild' hcurrent
  have hself := runs_setRun_self (s.runner.cancelCurrent + 1) (.begin params) s
  have hother : ∀ run, run ≠ s.runner.cancelCurrent + 1 →
      (s.setRun (s.runner.cancelCurrent + 1) (.begin params)).runs run = s.runs run :=
    fun run hrun => runs_setRun_of_ne hrun _ s
  exact
  { later := fun run hrun => by
      have hlt : s.runner.cancelCurrent + 1 < run := hrun
      obtain ⟨params', hnot⟩ := h.later run (by omega)
      exact ⟨params', (hother run (by omega)).trans hnot⟩
    ended := fun run hrun => by
      have hlt : run < s.runner.cancelCurrent + 1 := hrun
      exact (congrArg Run.worker (hother run (by omega))).trans (hready.ended run (by omega))
    dead := fun run hrun halive => by
      have hlt : run < s.runner.cancelCurrent + 1 := hrun
      have hbefore : s.Alive run :=
        (congrArg Run.process (hother run (by omega))).symm.trans halive
      -- The run that was the current one is an earlier one now.
      rcases Nat.lt_or_eq_of_le (Nat.le_of_lt_succ hlt) with hearlier | heq
      · exact h.dead run hearlier hbefore
      · rw [heq] at hbefore
        exact h.none_alive hready hchild hbefore
    begun := fun m hm => Nat.le_succ_of_le (h.begun m hm)
    stale := fun m hm _ => hready.received m hm
    healthy := fun _ _ _ hstatus => by cases hstatus
    behind := h.behind.imp_of_mem fun hm _ _ hspawned => by
      rw [hready.not_spawned hm] at hspawned
      cases hspawned
    owner := h.owner
    probes := fun run hrun => by
      have hnone : run ∈ s.probes := hrun
      rw [hready.probed] at hnone
      cases hnone
    childRun := fun c hc => by
      rw [hchild] at hc
      cases hc
    childStatus := fun c hc => by
      rw [hchild] at hc
      cases hc
    early := fun _ => ⟨hchild, fun m hm => hready.not_spawned hm⟩
    onItsWay := fun _ _ _ => hchild
    held := fun halive => by
      have hunborn : (Run.begin params).process = .alive :=
        (congrArg Run.process hself).symm.trans halive
      cases hunborn
    failing := fun m hm hfailure => by
      rw [hready.not_failure hm] at hfailure
      cases hfailure
    failed := fun _ hstatus => by cases hstatus
    stopping := fun _ _ hstatus => by cases hstatus
    killed := fun run hrun => by
      by_cases hcurrent : run = s.runner.cancelCurrent + 1
      · subst hcurrent
        have hkilled : (Run.begin params).killed = true :=
          (congrArg Run.killed hself).symm.trans hrun
        cases hkilled
      · have hsame := hother run hcurrent
        have hkilled := h.killed run ((congrArg Run.killed hsame).symm.trans hrun)
        rw [← hsame] at hkilled
        exact hkilled
    asked := fun run => by
      by_cases hcurrent : run = s.runner.cancelCurrent + 1
      · subst hcurrent
        intro hasked
        have hnot : (Run.begin params).askedToStop = true :=
          (congrArg Run.askedToStop hself).symm.trans hasked
        cases hnot
      · have hsame := hother run hcurrent
        intro hasked
        have hserverless := h.asked run ((congrArg Run.askedToStop hsame).symm.trans hasked)
        rw [← hsame] at hserverless
        exact hserverless }

theorem Inv.start (h : s.Inv) (host : Host)
    (hcareful : (s.runner.start host).2 = true → s.runner.child = none ∧ s.Ready) :
    (s.start host).Inv := by
  rw [World.start]
  rcases start_cases host s.runner with
    ⟨hspawned, hstatus, hchild, hcurrent⟩ | ⟨hspawned, hstatus, hchild, hcurrent⟩
  · obtain ⟨hnone, hready⟩ := hcareful hspawned
    simp only [hspawned, if_true]
    exact h.begin hready hnone hstatus hchild hcurrent
  · simp only [hspawned]
    exact h.setNotes hchild hcurrent hstatus

/-! ### The other steps -/

/-- A flag of the current run is set. -/
theorem Inv.flag (h : s.Inv) {r : Run}
    (hworker : r.worker = (s.runs s.runner.cancelCurrent).worker)
    (hprocess : r.process = (s.runs s.runner.cancelCurrent).process)
    (hfailed : r.failed = (s.runs s.runner.cancelCurrent).failed)
    (hcancel : (s.runs s.runner.cancelCurrent).cancel = true → r.cancel = true)
    (hkilled : r.killed = true → r.cancel = true ∨ r.failed = true)
    (hasked : r.askedToStop = true → (s.runs s.runner.cancelCurrent).Serverless) :
    (s.setRun s.runner.cancelCurrent r).Inv :=
  h.setCurrent (by rw [hworker]; exact id) (fun halive => .inl (hprocess.symm.trans halive))
    (fun pid hpid => hworker.trans hpid) hfailed.trans hcancel hkilled
    (fun h => by rw [Run.Serverless, hworker, hprocess]; exact hasked h)

theorem Inv.kill (h : s.Inv) {c : Child} {note : String} (hchild : s.runner.child = some c)
    (hreason : (s.runs s.runner.cancelCurrent).cancel = true ∨
      (s.runs s.runner.cancelCurrent).failed = true) : (s.kill c note).Inv := by
  rw [World.kill, h.childRun c hchild]
  have hflag := h.flag (r := { s.runs s.runner.cancelCurrent with killed := true })
    rfl rfl rfl id (fun _ => hreason) (h.asked _)
  exact hflag.setNotes rfl rfl rfl

theorem Inv.killOrphan (h : s.Inv) : s.killOrphan.Inv := by
  rw [World.killOrphan]
  split
  · next detail c hstatus hchild =>
      split_ifs
      · exact h.kill hchild (.inr (h.failed detail hstatus))
      · exact h
  · exact h

theorem Inv.escalate (h : s.Inv) : (s.escalate nowMs).Inv := by
  rw [World.escalate]
  split
  · next pid since c hstatus hchild =>
      split_ifs
      · exact h.kill hchild (.inl (h.stopping pid since hstatus))
      · exact h
  · exact h

theorem Inv.probe (h : s.Inv) : (s.probe nowMs).Inv := by
  rw [World.probe]
  split_ifs
  · exact { h with
      probes := fun run hrun => by
        rcases List.mem_cons.mp hrun with rfl | hold
        · rfl
        · exact h.probes run hold }
  · exact h

theorem runner_noteStop (s : World) : s.noteStop.runner = s.runner := by
  rw [noteStop]
  split_ifs <;> rfl

theorem noteStop_of_child (h : s.Inv) {c : Child} (hchild : s.runner.child = some c) :
    s.noteStop = s := by
  rw [noteStop, if_neg (h.childStatus c hchild)]

theorem Inv.noteStop (h : s.Inv)
    (hserverless : s.runner.status = .starting →
      (s.runs s.runner.cancelCurrent).Serverless) : s.noteStop.Inv := by
  rw [World.noteStop]
  split_ifs with hstarting
  · exact h.flag rfl rfl rfl id (h.killed _) fun _ => hserverless hstarting
  · exact h

theorem Inv.stop (h : s.Inv) (nowMs : Nat) (termed : Bool)
    (hserverless : s.runner.status = .starting →
      (s.runs s.runner.cancelCurrent).Serverless) : (s.stop nowMs termed).Inv := by
  cases hchild : s.runner.child with
  | none =>
      have hnote : s.stop nowMs termed = s.noteStop := by
        rw [World.stop]
        dsimp only
        rw [runner_noteStop, hchild]
      rw [hnote]
      exact h.noteStop hserverless
  | some c =>
      -- With a child the status is not `starting`, so the stop is not noted.
      rw [World.stop, noteStop_of_child h hchild]
      dsimp only
      rw [hchild]
      dsimp only
      rw [h.childRun c hchild]
      have hcancelled := h.flag (r := { s.runs s.runner.cancelCurrent with cancel := true })
        rfl rfl rfl (fun _ => rfl) (fun _ => .inl rfl) (h.asked _)
      generalize hs : s.setRun s.runner.cancelCurrent _ = s' at hcancelled ⊢
      have hcancel : (s'.runs s'.runner.cancelCurrent).cancel = true := by
        rw [← hs]
        exact congrArg Run.cancel (runs_setRun_self _ _ _)
      have hsame : s.runner.cancelCurrent = s'.runner.cancelCurrent := by
        rw [← hs]
        rfl
      rw [hsame]
      have htermed := hcancelled.flag
        (r := { s'.runs s'.runner.cancelCurrent with termed := true })
        rfl rfl rfl id (fun _ => .inl hcancel) (hcancelled.asked _)
      refine htermed.setRunner rfl rfl ?_ ?_ ?_ ?_
      · rintro _ _ _ ⟨⟩
      · rintro _ _ ⟨⟩
      · rintro _ ⟨⟩
      · intro _ _ _
        exact (congrArg Run.cancel (runs_setRun_self _ _ _)).trans hcancel

theorem Inv.restart (h : s.Inv) (termed : Bool) (host : Host)
    (hcareful : s.runner.child = none → (s.runner.start host).2 = true → s.Ready) :
    (s.restart nowMs termed host).Inv := by
  rw [World.restart]
  cases hchild : s.runner.child with
  | none => exact h.start host fun hspawned => ⟨hchild, hcareful hchild hspawned⟩
  | some c =>
      have hstop := h.stop nowMs termed fun hstarting =>
        absurd hstarting (h.childStatus c hchild)
      exact hstop.setNotes rfl rfl rfl

/-- The child has exited, and the runner lets go of it. -/
theorem Inv.exited (h : s.Inv) {c : Child} {code : Option Int} (hchild : s.runner.child = some c)
    (hprocess : (s.runs c.run).process = .exited code) :
    ({ s with runner := s.runner.exited code } : World).Inv := by
  have hdead : ¬ s.Alive s.runner.cancelCurrent := by
    intro halive
    rw [Alive, ← h.childRun c hchild, hprocess] at halive
    cases halive
  exact
  { h with
    healthy := fun _ _ _ hstatus => by cases hstatus
    childRun := fun _ hc => by cases hc
    childStatus := fun _ hc => by cases hc
    early := fun hearly => ⟨rfl, (h.early hearly).2⟩
    onItsWay := fun _ _ _ => rfl
    held := fun halive => absurd halive hdead
    failed := fun _ hstatus => by cases hstatus
    stopping := fun _ _ hstatus => by cases hstatus }

theorem isOk_of_start {r : RunnerState} (h : (r.start host).2 = true) :
    (r.params.validate host).isOk = true := by
  rw [RunnerState.start] at h
  split_ifs at h
  cases hvalid : r.params.validate host with
  | error detail =>
      rw [hvalid] at h
      cases h
  | ok _ => rfl

theorem Inv.reap (h : s.Inv) (hcareful : s.Restarts host → s.Ready) : (s.reap host).Inv := by
  rw [World.reap]
  cases hchild : s.runner.child with
  | none => exact h
  | some c =>
      dsimp only
      cases hprocess : (s.runs c.run).process with
      | exited code =>
          have hexited := h.exited hchild hprocess
          dsimp only
          split_ifs with hautostart
          · have hnotes := hexited.setNotes
              (r := { s.runner.exited code with autostart := false }) rfl rfl rfl
            refine hnotes.start host fun hspawned => ⟨rfl, ?_⟩
            have hvalid := isOk_of_start hspawned
            have hready := hcareful
              ⟨hautostart, hvalid, by simp only [childExited, hchild, hprocess]⟩
            exact ⟨hready.ended, hready.received, hready.probed⟩
          · exact hexited
      | _ => exact h

theorem Inv.frame (h : s.Inv) (hcareful : s.Careful (.frame nowMs host)) :
    (s.frame nowMs host).Inv := by
  rw [World.frame]
  cases hui : s.ui with
  | idle => exact h
  | drain => exact h.receive nowMs
  | orphan => exact h.killOrphan.setUi .reap
  | reap => exact (h.reap (hcareful hui)).setUi .escalate
  | escalate => exact h.escalate.setUi .probe
  | probe => exact h.probe.setUi .idle

theorem Tidy.alive_current (h : s.Tidy) {run : Nat} (halive : s.Alive run) :
    run = s.runner.cancelCurrent := by
  rcases Nat.lt_trichotomy run s.runner.cancelCurrent with hlt | heq | hgt
  · exact absurd halive (h.dead run hlt)
  · exact heq
  · obtain ⟨params, hnot⟩ := h.later run hgt
    rw [Alive, hnot] at halive
    cases halive

theorem Inv.exit (h : s.Inv) {run : Nat} (code : Option Int) (halive : s.Alive run) :
    (s.setRun run { s.runs run with process := .exited code }).Inv := by
  rw [h.alive_current halive]
  refine h.setCurrent id ?_ (fun _ hpid => hpid) id id (h.killed _) fun hasked => ?_
  · rintro ⟨⟩
  · have hunborn := (h.asked _ hasked).2
    rw [← h.alive_current halive] at hunborn
    rw [Alive, hunborn] at halive
    cases halive

theorem Inv.reading_le (h : s.Inv) {run : Nat} (hreading : (s.runs run).reading = true) :
    run ≤ s.runner.cancelCurrent := by
  by_contra hgt
  obtain ⟨params, hnot⟩ := h.later run (Nat.lt_of_not_le hgt)
  rw [hnot] at hreading
  cases hreading

theorem Inv.probed (h : s.Inv) {run : Nat} {ok : Bool} {ms : Nat} (hrun : run ∈ s.probes) :
    (({ s with probes := s.probes.erase run } : World).send run (.health ok ms)).Inv := by
  have herased : ({ s with probes := s.probes.erase run } : World).Inv :=
    { h with probes := fun r hr => h.probes r (List.mem_of_mem_erase hr) }
  have hcurrent := h.probes run hrun
  refine herased.send (Nat.le_of_eq hcurrent) (fun hlt => ?_) ?_ ?_
  · exact absurd hcurrent (Nat.ne_of_lt hlt)
  · rintro c ⟨⟩
  · rintro ⟨⟩

theorem Inv.step (h : s.Inv) {i : Input} (hcareful : s.Careful i) : (s.step i).Inv := by
  cases i with
  | start host =>
      simp only [World.step]
      split_ifs with hui
      · exact h.start host (hcareful hui)
      · exact h
  | stop nowMs termed =>
      simp only [World.step]
      split_ifs with hui
      · exact h.stop nowMs termed (hcareful hui)
      · exact h
  | restart nowMs termed host =>
      simp only [World.step]
      split_ifs with hui
      · exact h.restart termed host (hcareful hui)
      · exact h
  | poll =>
      simp only [World.step]
      split_ifs
      · exact h.setUi .drain
      · exact h
  | frame nowMs host => exact h.frame hcareful
  | work run a => exact h.work run a
  | print run text =>
      simp only [World.step]
      split_ifs with hreading
      · refine h.send (h.reading_le hreading) (fun _ => rfl) ?_ ?_
        · rintro c ⟨⟩
        · rintro ⟨⟩
      · exact h
  | probed run answered =>
      simp only [World.step]
      split_ifs with hrun
      · exact h.probed hrun
      · exact h
  | exit run code =>
      simp only [World.step]
      split_ifs with halive
      · exact h.exit code halive
      · exact h

end Inv

end World

end DdsOrchestrator.Studio.Runner
