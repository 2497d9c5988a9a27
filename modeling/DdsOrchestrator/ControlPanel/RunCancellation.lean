import DdsOrchestrator.ControlPanel.AnsibleRuns

/-!
What a cancellation does to the runs. There is one process at a time, however the threads
interleave: a run is only started when no other one is active, and its thread ends behind
the process.

Between the mark of a cancellation and its kill the run can go on, and so can the next one.
A cancellation that comes too early finds no process, and one that is too late finds that of
another run; either way the run was marked, and ends as cancelled.
-/

namespace DdsOrchestrator.ControlPanel

namespace Worker

/-- The run has no process yet. -/
def early : Worker → Bool
  | entering _ _ | spawning _ _ => true
  | _ => false

/-- The process may be alive. -/
def holdsChild : Worker → Bool
  | storing _ | waiting _ => true
  | _ => false

/-- The process was spawned, and the status of the run is still to be read. -/
def unread : Worker → Bool
  | storing _ | waiting _ | clearing _ _ | reading _ _ => true
  | _ => false

end Worker

namespace AnsibleRunner

variable {r : AnsibleRunner} {id : ℕ} {w : Worker} {run : AnsibleRun}

theorem setRun_runs_of_ne (r : AnsibleRunner) {other : ℕ} (hne : other ≠ id) (run : AnsibleRun) :
    (r.setRun id run).runs other = r.runs other := Function.update_of_ne hne _ _

theorem setChild_children_of_ne (r : AnsibleRunner) {other : ℕ} (hne : other ≠ id) (fate : Fate) :
    (r.setChild id fate).children other = r.children other := Function.update_of_ne hne _ _

/-! ### What is asked of the runs -/

def OneAlive (r : AnsibleRunner) : Prop :=
  ∀ a b, r.children a = some .alive → r.children b = some .alive → a = b

/-- A run that ended as cancelled has no process, or one that a cancellation killed. -/
def CancelledIsKilled (r : AnsibleRunner) : Prop :=
  ∀ id run, r.runs id = some run → run.status = .cancelled →
    r.children id = none ∨ ∃ canceller, r.children id = some (.killed canceller)

def KillsOwn (r : AnsibleRunner) : Prop :=
  ∀ id canceller, r.children id = some (.killed canceller) → canceller = id

/-- The process of the run was spawned, and its thread has not read the status yet. -/
def InFlight (r : AnsibleRunner) (id : ℕ) : Prop := ∃ w, r.workers id = some w ∧ w.unread

/-- A cancellation that goes to kill finds no living process stored but that of its own run,
and finds it if it is in flight. No process is spawned for a run that has been cancelled to
the end before, and no thread reads its status between the mark and the kill. -/
def Careful (r : AnsibleRunner) : RunnerStep → Prop
  | .kill id => id ∈ r.cancels →
      (∀ child, r.activeChild = some child → r.children child = some .alive → child = id) ∧
      (r.InFlight id → r.activeChild = some id ∧ r.children id = some .alive)
  | .work id io =>
      match r.workers id with
      | some (.spawning _ _) => io.spawnError = none → r.isCancelling id → id ∈ r.cancels
      | some (.reading _ _) => r.isCancelling id → id ∉ r.cancels
      | _ => True
  | _ => True

/-! ### One process at a time -/

/-- What every step keeps. -/
structure Inv (r : AnsibleRunner) : Prop where
  active : ∀ id w, r.workers id = some w → r.active = true
  single : ∀ a b v w, r.workers a = some v → r.workers b = some w → a = b
  fresh : ∀ id, r.sequence ≤ id → r.runs id = none ∧ r.children id = none
  alive : ∀ id, r.children id = some .alive → ∃ w, r.workers id = some w ∧ w.holdsChild
  early : ∀ id w, r.workers id = some w → w.early → r.children id = none
  stored : ∀ id secrets, r.workers id = some (.waiting secrets) → r.activeChild = some id
  pending : ∀ id w run, r.workers id = some w → w ≠ .releasing → r.runs id = some run →
    run.status = .running ∨ run.status = .cancelling
  started : ∀ id w, r.workers id = some w → id < r.sequence
  entering : ∀ id run secrets, r.workers id = some (.entering run secrets) →
    run.status = .running

theorem inv_new (automationRoot inventory : String) : Inv (new automationRoot inventory) where
  active := by simp [new]
  single := by simp [new]
  fresh := by simp [new]
  alive := by simp [new]
  early := by simp [new]
  stored := by simp [new]
  pending := by simp [new]
  started := by simp [new]
  entering := by simp [new]

theorem Inv.oneAlive (h : Inv r) : OneAlive r := by
  intro a b ha hb
  obtain ⟨v, hv, -⟩ := h.alive a ha
  obtain ⟨w, hw, -⟩ := h.alive b hb
  exact h.single a b v w hv hw

/-- Nobody else is at work. -/
theorem Inv.workers_eq (h : Inv r) (hw : r.workers id = some w) {other : ℕ} (hne : other ≠ id) :
    r.workers other = none := by
  cases hother : r.workers other with
  | none => rfl
  | some v => exact absurd (h.single other id v w hother hw) hne

/-- Before a start that is taken nobody is at work. -/
theorem Inv.idle_of_inactive (h : Inv r) (hactive : r.active = false) (other : ℕ) :
    r.workers other = none := by
  cases hother : r.workers other with
  | none => rfl
  | some v =>
      rw [h.active other v hother] at hactive
      cases hactive

/-- With nobody else at work the one who is put there is the only one. -/
theorem only_at_work {workers : ℕ → Option Worker}
    (hnone : ∀ other, other ≠ id → workers other = none) {other : ℕ} {v : Worker}
    (hv : Function.update workers id (some w) other = some v) : other = id ∧ v = w := by
  by_cases hsame : other = id
  · rw [hsame, Function.update_self, Option.some.injEq] at hv
    exact ⟨hsame, hv.symm⟩
  · rw [Function.update_of_ne hsame, hnone other hsame] at hv
    cases hv

/-- A start is refused, or nobody was at work and the new run is. -/
theorem startAsync_cases (r : AnsibleRunner) (request : StartRequest) :
    (r.startAsync request).2 = r ∨ ∃ run : AnsibleRun, run.status = .running ∧
      r.active = false ∧ (r.startAsync request).2 = { r with
        active := true
        sequence := r.sequence + 1
        workers := Function.update r.workers r.sequence
          (some (.entering run request.secrets)) } := by
  unfold startAsync
  split
  · exact .inl rfl
  · split
    · exact .inl rfl
    · split
      · exact .inl rfl
      · split
        · exact .inl rfl
        · next hactive => exact .inr ⟨_, rfl, by simpa using hactive, rfl⟩

/-- What a section of a thread changes: its own place, record and process, and which process
is stored. -/
structure Advances (r : AnsibleRunner) (id : ℕ) (w : Worker) (r' : AnsibleRunner) : Prop where
  sequence : r'.sequence = r.sequence
  cancels : r'.cancels = r.cancels
  active : r'.active = r.active
  workers : r'.workers = Function.update r.workers id (some w)
  runs : ∀ other, other ≠ id → r'.runs other = r.runs other
  children : ∀ other, other ≠ id → r'.children other = r.children other

theorem Inv.advance {r' : AnsibleRunner} {w' : Worker} (h : Inv r) (hw : r.workers id = some w)
    (ha : Advances r id w' r') (halive : r'.children id = some .alive → w'.holdsChild)
    (hearly : w'.early → r'.children id = none)
    (hstored : ∀ secrets, w' = .waiting secrets → r'.activeChild = some id)
    (hpending : w' ≠ .releasing → ∀ run, r'.runs id = some run →
      run.status = .running ∨ run.status = .cancelling)
    (hentering : ∀ run secrets, w' ≠ .entering run secrets) : Inv r' := by
  have hone : ∀ other v, r'.workers other = some v → other = id ∧ v = w' := by
    intro other v hv
    rw [ha.workers] at hv
    exact only_at_work (fun _ => h.workers_eq hw) hv
  have hself : r'.workers id = some w' := by rw [ha.workers, Function.update_self]
  refine ⟨?_, ?_, ?_, ?_, ?_, ?_, ?_, ?_, ?_⟩
  · intro _ _ _
    rw [ha.active]
    exact h.active id w hw
  · intro a b v v' hv hv'
    rw [(hone a v hv).1, (hone b v' hv').1]
  · intro other hle
    rw [ha.sequence] at hle
    have hne : other ≠ id := by
      rintro rfl
      exact absurd (h.started _ w hw) (Nat.not_lt.mpr hle)
    rw [ha.runs other hne, ha.children other hne]
    exact h.fresh other hle
  · intro other hother
    by_cases hsame : other = id
    · subst hsame
      exact ⟨w', hself, halive hother⟩
    · rw [ha.children other hsame] at hother
      obtain ⟨v, hv, -⟩ := h.alive other hother
      rw [h.workers_eq hw hsame] at hv
      cases hv
  · intro other v hv hvearly
    obtain ⟨rfl, rfl⟩ := hone other v hv
    exact hearly hvearly
  · intro other secrets hv
    obtain ⟨rfl, hwaiting⟩ := hone other _ hv
    exact hstored secrets hwaiting.symm
  · intro other v run hv hne hrun
    obtain ⟨rfl, rfl⟩ := hone other v hv
    exact hpending hne run hrun
  · intro other v hv
    obtain ⟨rfl, -⟩ := hone other v hv
    rw [ha.sequence]
    exact h.started _ w hw
  · intro other run secrets hv
    exact absurd (hone other _ hv).2.symm (hentering run secrets)

/-- What waiting for the process of a run leaves of it. -/
structure Waited (r : AnsibleRunner) (id : ℕ) (children : ℕ → Option Fate) : Prop where
  others : ∀ other, other ≠ id → children other = r.children other
  ended : children id ≠ some .alive
  killed : ∀ canceller, children id = some (.killed canceller) ↔
    r.children id = some (.killed canceller)

/-- What one section of a thread does. -/
inductive Worked (r : AnsibleRunner) (id : ℕ) (io : WorkIo) : AnsibleRunner → Prop
  | idle (hw : r.workers id = none) : Worked r id io r
  | enter {run secrets} (hw : r.workers id = some (.entering run secrets)) :
      Worked r id io ((r.setRun id run).goOn id (.spawning run.command secrets))
  | fail {command secrets runs} (hw : r.workers id = some (.spawning command secrets))
      (hothers : ∀ other, other ≠ id → runs other = r.runs other)
      (hstatus : ∀ run, runs id = some run → run.status = .failed) :
      Worked r id io ({ r with runs := runs }.goOn id .releasing)
  | spawn {command secrets} (hw : r.workers id = some (.spawning command secrets))
      (hspawned : io.spawnError = none) :
      Worked r id io ((r.setChild id .alive).goOn id (.storing secrets))
  | store {secrets} (hw : r.workers id = some (.storing secrets)) :
      Worked r id io ({ r with activeChild := some id }.goOn id (.waiting secrets))
  | wait {secrets lines status children} (hw : r.workers id = some (.waiting secrets))
      (hwaited : r.activeChild = some id → Waited r id children) :
      Worked r id io ({ r with children := children }.goOn id (.clearing lines status))
  | clear {lines status activeChild} (hw : r.workers id = some (.clearing lines status)) :
      Worked r id io ({ r with activeChild := activeChild }.goOn id (.reading lines status))
  | read {lines status} (hw : r.workers id = some (.reading lines status)) :
      Worked r id io (r.goOn id (.recording lines status (r.isCancelling id)))
  | record {lines status cancelled runs}
      (hw : r.workers id = some (.recording lines status cancelled))
      (hothers : ∀ other, other ≠ id → runs other = r.runs other)
      (hstatus : ∀ run, runs id = some run → run.status = .cancelled → cancelled) :
      Worked r id io ({ r with runs := runs }.goOn id .releasing)
  | release (hw : r.workers id = some .releasing) :
      Worked r id io { r with active := false, workers := Function.update r.workers id none }

theorem finishRun_eq (r : AnsibleRunner) (id : ℕ) (code : Option ℤ) (error : Option String) :
    ∃ runs, r.finishRun id .failed code error = { r with runs := runs } ∧
      (∀ other, other ≠ id → runs other = r.runs other) ∧
      ∀ run, runs id = some run → run.status = .failed := by
  unfold finishRun
  split
  · next hnone =>
      refine ⟨r.runs, rfl, fun _ _ => rfl, fun run hrun => ?_⟩
      rw [hnone] at hrun
      cases hrun
  · refine ⟨_, rfl, fun other hne => Function.update_of_ne hne _ _, fun run hrun => ?_⟩
    rw [Function.update_self] at hrun
    cases hrun
    rfl

theorem record_eq (r : AnsibleRunner) (id : ℕ) (lines : List String)
    (status : Option ExitStatus) (cancelled : Bool) :
    ∃ runs, r.record id lines status cancelled = { r with runs := runs } ∧
      (∀ other, other ≠ id → runs other = r.runs other) ∧
      ∀ run, runs id = some run → run.status = .cancelled → cancelled := by
  unfold record
  split
  · next hnone =>
      refine ⟨r.runs, rfl, fun _ _ => rfl, fun run hrun => ?_⟩
      rw [hnone] at hrun
      cases hrun
  · refine ⟨_, rfl, fun other hne => Function.update_of_ne hne _ _, fun run hrun => ?_⟩
    rw [Function.update_self] at hrun
    cases hrun
    dsimp only
    split
    · next hcancelled => exact fun _ => hcancelled
    · split
      · exact fun hfinished => by cases hfinished
      · exact fun hfailed => by cases hfailed

theorem wait_eq (r : AnsibleRunner) (id : ℕ) (io : WorkIo) :
    ∃ children, (r.wait io).2 = { r with children := children } ∧
      (r.activeChild = some id → Waited r id children) := by
  unfold wait
  split
  · next hnone =>
      refine ⟨r.children, rfl, fun hstored => ?_⟩
      rw [hnone] at hstored
      cases hstored
  · next child hchild =>
      split
      · next status hexited =>
          refine ⟨r.children, rfl, fun hstored => ⟨fun _ _ => rfl, ?_, fun _ => Iff.rfl⟩⟩
          obtain rfl : child = id := Option.some.inj (hchild.symm.trans hstored)
          simp [hexited]
      · next canceller hkilled =>
          refine ⟨r.children, rfl, fun hstored => ⟨fun _ _ => rfl, ?_, fun _ => Iff.rfl⟩⟩
          obtain rfl : child = id := Option.some.inj (hchild.symm.trans hstored)
          simp [hkilled]
      · next halive =>
          refine ⟨_, rfl, fun hstored => ?_⟩
          obtain rfl : child = id := Option.some.inj (hchild.symm.trans hstored)
          exact ⟨fun other hne => Function.update_of_ne hne _ _, by simp, by simp [halive]⟩
      · next hnone =>
          refine ⟨r.children, rfl, fun hstored => ⟨fun _ _ => rfl, ?_, fun _ => Iff.rfl⟩⟩
          obtain rfl : child = id := Option.some.inj (hchild.symm.trans hstored)
          simp [hnone]

theorem worked_work (r : AnsibleRunner) (id : ℕ) (io : WorkIo) : Worked r id io (r.work id io) := by
  unfold work
  split
  · next hw => exact .idle hw
  · next hw => exact .enter hw
  · next hw =>
      obtain ⟨runs, heq, hothers, hstatus⟩ := r.finishRun_eq id none (some "comando vazio")
      rw [heq]
      exact .fail hw hothers hstatus
  · next hw =>
      split
      · next err _ =>
          obtain ⟨runs, heq, hothers, hstatus⟩ := r.finishRun_eq id none (some err)
          rw [heq]
          exact .fail hw hothers hstatus
      · next hspawned => exact .spawn hw hspawned
  · next hw => exact .store hw
  · next hw =>
      obtain ⟨children, heq, hwaited⟩ := r.wait_eq id io
      rw [heq]
      exact .wait hw hwaited
  · next hw => exact .clear hw
  · next hw => exact .read hw
  · next hw =>
      obtain ⟨runs, heq, hothers, hstatus⟩ := r.record_eq id _ _ _
      rw [heq]
      exact .record hw hothers hstatus
  · next hw => exact .release hw

/-- Without a process that may be alive there is none. -/
theorem Inv.not_alive (h : Inv r) (hw : r.workers id = some w) (hnone : w.holdsChild = false) :
    r.children id ≠ some .alive := by
  intro halive
  obtain ⟨v, hv, hholds⟩ := h.alive id halive
  rw [hw, Option.some.injEq] at hv
  rw [← hv, hnone] at hholds
  cases hholds

/-- A section behind the spawn that does not go on to the wait. -/
theorem Inv.advance_later {r' : AnsibleRunner} {w' : Worker} (h : Inv r)
    (hw : r.workers id = some w) (ha : Advances r id w' r')
    (halive : r'.children id = some .alive → w'.holdsChild) (hlater : w'.early = false)
    (hwaiting : ∀ secrets, w' ≠ .waiting secrets)
    (hruns : w' = .releasing ∨ (w ≠ .releasing ∧ r'.runs id = r.runs id)) : Inv r' := by
  refine h.advance hw ha halive ?_ ?_ ?_ ?_
  · intro hearly
    rw [hlater] at hearly
    cases hearly
  · intro secrets hw'
    exact absurd hw' (hwaiting secrets)
  · intro hne run hrun
    obtain hreleasing | ⟨hbusy, hsame⟩ := hruns
    · exact absurd hreleasing hne
    · exact h.pending id w run hw hbusy (hsame ▸ hrun)
  · rintro run secrets rfl
    cases hlater

theorem advances_goOn {r' : AnsibleRunner} (w : Worker) (hsequence : r'.sequence = r.sequence)
    (hcancels : r'.cancels = r.cancels) (hactive : r'.active = r.active)
    (hworkers : r'.workers = r.workers)
    (hruns : ∀ other, other ≠ id → r'.runs other = r.runs other)
    (hchildren : ∀ other, other ≠ id → r'.children other = r.children other) :
    Advances r id w (r'.goOn id w) :=
  ⟨hsequence, hcancels, hactive, by rw [goOn, hworkers], hruns, hchildren⟩

/-- Behind the last section nobody is at work. -/
theorem Inv.idle_of_release (h : Inv r) (hw : r.workers id = some w) (other : ℕ) (v : Worker) :
    Function.update r.workers id none other ≠ some v := by
  intro hv
  by_cases hsame : other = id
  · rw [hsame, Function.update_self] at hv
    cases hv
  · rw [Function.update_of_ne hsame, h.workers_eq hw hsame] at hv
    cases hv

theorem Inv.work (h : Inv r) (id : ℕ) (io : WorkIo) : Inv (r.work id io) := by
  have hworked := worked_work r id io
  generalize r.work id io = r' at hworked ⊢
  cases hworked with
  | idle hw => exact h
  | @enter run secrets hw =>
      have hnone := h.early id _ hw rfl
      refine h.advance hw (advances_goOn _ rfl rfl rfl rfl
        (fun other hne => Function.update_of_ne hne _ _) fun _ _ => rfl) ?_ (fun _ => hnone) ?_ ?_
        ?_
      · exact fun halive => absurd halive (h.not_alive hw rfl)
      · intro secrets' hwaiting
        cases hwaiting
      · intro _ run' hrun
        have hself : some run = some run' := (Function.update_self id _ r.runs).symm.trans hrun
        cases hself
        exact .inl (h.entering id run secrets hw)
      · intro run' secrets' hentering
        cases hentering
  | fail hw hothers hstatus =>
      exact h.advance_later hw (advances_goOn _ rfl rfl rfl rfl hothers fun _ _ => rfl)
        (fun halive => absurd halive (h.not_alive hw rfl)) rfl (fun _ hw' => by cases hw')
        (.inl rfl)
  | spawn hw hspawned =>
      exact h.advance_later hw (advances_goOn _ rfl rfl rfl rfl (fun _ _ => rfl)
        fun other hne => Function.update_of_ne hne _ _) (fun _ => rfl) rfl
        (fun _ hw' => by cases hw') (.inr ⟨(fun hw' => by cases hw'), rfl⟩)
  | store hw =>
      refine h.advance hw (advances_goOn _ rfl rfl rfl rfl (fun _ _ => rfl) fun _ _ => rfl)
        (fun _ => rfl) ?_ (fun _ _ => rfl) ?_ ?_
      · intro hearly
        cases hearly
      · intro _ run hrun
        exact h.pending id _ run hw (fun hw' => by cases hw') hrun
      · intro run secrets hentering
        cases hentering
  | wait hw hwaited =>
      have hchild := hwaited (h.stored id _ hw)
      exact h.advance_later hw (advances_goOn _ rfl rfl rfl rfl (fun _ _ => rfl) hchild.others)
        (fun halive => absurd halive hchild.ended) rfl (fun _ hw' => by cases hw')
        (.inr ⟨(fun hw' => by cases hw'), rfl⟩)
  | clear hw =>
      exact h.advance_later hw (advances_goOn _ rfl rfl rfl rfl (fun _ _ => rfl) fun _ _ => rfl)
        (fun halive => absurd halive (h.not_alive hw rfl)) rfl (fun _ hw' => by cases hw')
        (.inr ⟨(fun hw' => by cases hw'), rfl⟩)
  | read hw =>
      exact h.advance_later hw (advances_goOn _ rfl rfl rfl rfl (fun _ _ => rfl) fun _ _ => rfl)
        (fun halive => absurd halive (h.not_alive hw rfl)) rfl (fun _ hw' => by cases hw')
        (.inr ⟨(fun hw' => by cases hw'), rfl⟩)
  | record hw hothers hstatus =>
      exact h.advance_later hw (advances_goOn _ rfl rfl rfl rfl hothers fun _ _ => rfl)
        (fun halive => absurd halive (h.not_alive hw rfl)) rfl (fun _ hw' => by cases hw')
        (.inl rfl)
  | release hw =>
      have hidle := h.idle_of_release hw
      refine ⟨?_, ?_, h.fresh, ?_, ?_, ?_, ?_, ?_, ?_⟩
      · exact fun other v hv => (hidle other v hv).elim
      · exact fun a b v v' hv => (hidle a v hv).elim
      · intro other halive
        obtain ⟨v, hv, hholds⟩ := h.alive other halive
        obtain rfl := h.single other id v _ hv hw
        rw [hw, Option.some.injEq] at hv
        rw [← hv] at hholds
        cases hholds
      · exact fun other v hv => (hidle other v hv).elim
      · exact fun other secrets hv => (hidle other _ hv).elim
      · exact fun other v run hv => (hidle other v hv).elim
      · exact fun other v hv => (hidle other v hv).elim
      · exact fun other run secrets hv => (hidle other _ hv).elim

/-! ### The other steps -/

theorem Inv.start (h : Inv r) (request : StartRequest) : Inv (r.startAsync request).2 := by
  obtain hsame | ⟨run, hrunning, hactive, heq⟩ := startAsync_cases r request
  · rw [hsame]
    exact h
  · rw [heq]
    have hnone := h.idle_of_inactive hactive
    have hone : ∀ other v, Function.update r.workers r.sequence
        (some (.entering run request.secrets)) other = some v →
        other = r.sequence ∧ v = .entering run request.secrets :=
      fun _ _ => only_at_work fun other _ => hnone other
    refine ⟨fun _ _ _ => rfl, ?_, ?_, ?_, ?_, ?_, ?_, ?_, ?_⟩
    · intro a b v v' hv hv'
      rw [(hone a v hv).1, (hone b v' hv').1]
    · exact fun other hle => h.fresh other (Nat.le_of_succ_le hle)
    · intro other halive
      obtain ⟨v, hv, -⟩ := h.alive other halive
      rw [hnone other] at hv
      cases hv
    · intro other v hv _
      rw [(hone other v hv).1]
      exact (h.fresh r.sequence (Nat.le_refl _)).2
    · intro other secrets hv
      cases (hone other _ hv).2
    · intro other v run' hv _ hrun
      rw [(hone other v hv).1] at hrun
      rw [show r.runs r.sequence = none from (h.fresh r.sequence (Nat.le_refl _)).1] at hrun
      cases hrun
    · intro other v hv
      rw [(hone other v hv).1]
      exact Nat.lt_succ_self _
    · intro other run' secrets hv
      cases (hone other _ hv).2
      exact hrunning

/-- A process that ends, by itself or killed. -/
theorem Inv.setChild (h : Inv r) {child : ℕ} (halive : r.children child = some .alive)
    (fate : Fate) : Inv (r.setChild child fate) := by
  have hchildren : ∀ other, (r.setChild child fate).children other = some .alive →
      r.children other = some .alive := by
    intro other hother
    by_cases hsame : other = child
    · rw [hsame]
      exact halive
    · exact (Function.update_of_ne hsame _ _).symm.trans hother
  have hnone : ∀ other, r.children other = none →
      (r.setChild child fate).children other = none := by
    intro other hother
    have hne : other ≠ child := by
      rintro rfl
      rw [halive] at hother
      cases hother
    exact (Function.update_of_ne hne _ _).trans hother
  refine ⟨h.active, h.single, ?_, ?_, ?_, h.stored, h.pending, h.started, h.entering⟩
  · exact fun other hle => ⟨(h.fresh other hle).1, hnone other (h.fresh other hle).2⟩
  · exact fun other hother => h.alive other (hchildren other hother)
  · exact fun other v hv hearly => hnone other (h.early other v hv hearly)

theorem Inv.exit (h : Inv r) (id : ℕ) (status : ExitStatus) : Inv (r.exit id status) := by
  unfold AnsibleRunner.exit
  split
  · next halive => exact h.setChild halive _
  · exact h

/-- A cancellation is refused, or marks a run that is running. -/
theorem cancel_cases (r : AnsibleRunner) (id : ℕ) :
    (r.cancel id).2 = r ∨ ∃ run, r.runs id = some run ∧ run.status = .running ∧
      (r.cancel id).2 =
        { r.setRun id { run with status := .cancelling } with cancels := id :: r.cancels } := by
  unfold cancel
  split
  · exact .inl rfl
  · next run hrun =>
      split
      · exact .inl rfl
      · next hrunning => exact .inr ⟨run, hrun, not_not.mp hrunning, rfl⟩

theorem Inv.cancel (h : Inv r) (id : ℕ) : Inv (r.cancel id).2 := by
  obtain hsame | ⟨run, hrun, hrunning, heq⟩ := cancel_cases r id
  · rw [hsame]
    exact h
  · rw [heq]
    refine ⟨h.active, h.single, fun other hle => ⟨?_, (h.fresh other hle).2⟩, h.alive, h.early,
      h.stored, ?_, h.started, h.entering⟩
    · have hne : other ≠ id := by
        rintro rfl
        rw [(h.fresh _ hle).1] at hrun
        cases hrun
      exact (Function.update_of_ne hne _ _).trans (h.fresh other hle).1
    · intro other v run' hv hne hrun'
      by_cases hsame : other = id
      · rw [hsame] at hrun'
        have hself := (Function.update_self id _ r.runs).symm.trans hrun'
        cases hself
        exact .inr rfl
      · exact h.pending other v run' hv hne ((Function.update_of_ne hsame _ _).symm.trans hrun')

/-- A kill has nothing to do, or ends the process that is stored. -/
theorem kill_cases (r : AnsibleRunner) (id : ℕ) :
    r.kill id = r ∧ id ∉ r.cancels ∨ id ∈ r.cancels ∧
      (r.kill id = { r with cancels := r.cancels.erase id } ∧
        (∀ child, r.activeChild = some child → r.children child ≠ some .alive) ∨
      ∃ child, r.activeChild = some child ∧ r.children child = some .alive ∧
        r.kill id = ({ r with cancels := r.cancels.erase id } : AnsibleRunner).setChild child
          (.killed id)) := by
  unfold kill
  split
  · next hmem =>
      refine .inr ⟨hmem, ?_⟩
      dsimp only
      split
      · next hnone =>
          refine .inl ⟨rfl, fun child hchild => ?_⟩
          rw [hnone] at hchild
          cases hchild
      · next child hchild =>
          split
          · next halive => exact .inr ⟨child, hchild, halive, rfl⟩
          · next hended =>
              refine .inl ⟨rfl, fun other hother => ?_⟩
              obtain rfl : child = other := Option.some.inj (hchild.symm.trans hother)
              exact hended
  · next hnot => exact .inl ⟨rfl, hnot⟩

theorem Inv.kill (h : Inv r) (id : ℕ) : Inv (r.kill id) := by
  have hcancels : Inv { r with cancels := r.cancels.erase id } :=
    ⟨h.active, h.single, h.fresh, h.alive, h.early, h.stored, h.pending, h.started, h.entering⟩
  obtain ⟨hsame, -⟩ | ⟨-, ⟨heq, -⟩ | ⟨child, -, halive, heq⟩⟩ := kill_cases r id
  · rw [hsame]
    exact h
  · rw [heq]
    exact hcancels
  · rw [heq]
    exact hcancels.setChild halive _

theorem Inv.step (h : Inv r) (s : RunnerStep) : Inv (r.step s) := by
  cases s with
  | start request => exact h.start request
  | work id io => exact h.work id io
  | exit id status => exact h.exit id status
  | cancel id => exact h.cancel id
  | kill id => exact h.kill id

/-! ### Careful cancellations -/

/-- What careful steps keep as well: a run that is marked in time is killed before its thread
reads the status. -/
structure Kept (r : AnsibleRunner) : Prop where
  own : KillsOwn r
  cancelled : CancelledIsKilled r
  marked : ∀ id w, r.workers id = some w → w.unread → r.isCancelling id →
    id ∈ r.cancels ∨ r.children id = some (.killed id)
  read : ∀ id lines status, r.workers id = some (.recording lines status true) →
    r.children id = some (.killed id)

theorem kept_new (automationRoot inventory : String) : Kept (new automationRoot inventory) where
  own := by simp [KillsOwn, new]
  cancelled := by simp [CancelledIsKilled, new]
  marked := by simp [new]
  read := by simp [new]

/-- A section that kills nothing: it is enough to look at its own run. -/
theorem Kept.advance {r' : AnsibleRunner} {w' : Worker} (hk : Kept r) (h : Inv r)
    (hw : r.workers id = some w) (ha : Advances r id w' r')
    (hkilled : ∀ canceller, r'.children id = some (.killed canceller) → canceller = id)
    (hcancelled : ∀ run, r'.runs id = some run → run.status = .cancelled →
      r'.children id = some (.killed id))
    (hmarked : w'.unread → r'.isCancelling id → id ∈ r.cancels ∨ r'.children id = some (.killed id))
    (hread : ∀ lines status, w' = .recording lines status true →
      r'.children id = some (.killed id)) : Kept r' := by
  have hone : ∀ other v, r'.workers other = some v → other = id ∧ v = w' := by
    intro other v hv
    rw [ha.workers] at hv
    exact only_at_work (fun _ => h.workers_eq hw) hv
  refine ⟨?_, ?_, ?_, ?_⟩
  · intro other canceller hother
    by_cases hsame : other = id
    · rw [hsame] at hother ⊢
      exact hkilled canceller hother
    · rw [ha.children other hsame] at hother
      exact hk.own other canceller hother
  · intro other run hrun hstatus
    by_cases hsame : other = id
    · rw [hsame] at hrun ⊢
      exact .inr ⟨id, hcancelled run hrun hstatus⟩
    · rw [ha.runs other hsame] at hrun
      rw [ha.children other hsame]
      exact hk.cancelled other run hrun hstatus
  · intro other v hv hunread hcancelling
    obtain ⟨rfl, rfl⟩ := hone other v hv
    rw [ha.cancels]
    exact hmarked hunread hcancelling
  · intro other lines status hv
    obtain ⟨rfl, hv'⟩ := hone other _ hv
    exact hread lines status hv'.symm

/-- The run of a thread that has not recorded it is not recorded as cancelled. -/
theorem Inv.not_cancelled (h : Inv r) (hw : r.workers id = some w) (hne : w ≠ .releasing)
    (hrun : r.runs id = some run) : run.status ≠ .cancelled := by
  intro hstatus
  rcases h.pending id w run hw hne hrun with hrunning | hcancelling
  · rw [hrunning] at hstatus
    cases hstatus
  · rw [hcancelling] at hstatus
    cases hstatus

/-- A section that leaves the record of its run as it is. -/
theorem Kept.advance_same {r' : AnsibleRunner} {w' : Worker} (hk : Kept r) (h : Inv r)
    (hw : r.workers id = some w) (hne : w ≠ .releasing) (ha : Advances r id w' r')
    (hrun : r'.runs id = r.runs id)
    (hkilled : ∀ canceller, r'.children id = some (.killed canceller) → canceller = id)
    (hmarked : w'.unread → r'.isCancelling id → id ∈ r.cancels ∨ r'.children id = some (.killed id))
    (hread : ∀ lines status, w' = .recording lines status true →
      r'.children id = some (.killed id)) : Kept r' := by
  refine hk.advance h hw ha hkilled ?_ hmarked hread
  intro run hsame hcancelled
  rw [hrun] at hsame
  exact absurd hcancelled (h.not_cancelled hw hne hsame)

theorem Kept.work (hk : Kept r) (h : Inv r) {io : WorkIo} (hc : r.Careful (.work id io)) :
    Kept (r.work id io) := by
  have hworked := worked_work r id io
  generalize r.work id io = r' at hworked ⊢
  cases hworked with
  | idle hw => exact hk
  | @enter run secrets hw =>
      refine hk.advance h hw (advances_goOn _ rfl rfl rfl rfl
        (fun other hne => Function.update_of_ne hne _ _) fun _ _ => rfl) (hk.own id) ?_ ?_ ?_
      · intro run' hrun hstatus
        have hself : some run = some run' := (Function.update_self id _ r.runs).symm.trans hrun
        cases hself
        rw [h.entering id run secrets hw] at hstatus
        cases hstatus
      · intro hunread
        cases hunread
      · intro lines status hw'
        cases hw'
  | @fail command secrets runs hw hothers hstatus =>
      refine hk.advance h hw (advances_goOn _ rfl rfl rfl rfl hothers fun _ _ => rfl)
        (hk.own id) ?_ ?_ ?_
      · intro run hrun hcancelled
        rw [hstatus run hrun] at hcancelled
        cases hcancelled
      · intro hunread
        cases hunread
      · intro lines status hw'
        cases hw'
  | @spawn command secrets hw hspawned =>
      have hself : (Function.update r.children id (some .alive)) id = some .alive :=
        Function.update_self ..
      refine hk.advance_same h hw (fun hw' => by cases hw') (advances_goOn _ rfl rfl rfl rfl
        (fun _ _ => rfl) fun other hne => Function.update_of_ne hne _ _) rfl ?_ ?_ ?_
      · intro canceller hkilled
        cases hself.symm.trans hkilled
      · intro _ hcancelling
        simp only [Careful, hw] at hc
        exact .inl (hc hspawned hcancelling)
      · intro lines status hw'
        cases hw'
  | store hw =>
      refine hk.advance_same h hw (fun hw' => by cases hw') (advances_goOn _ rfl rfl rfl rfl
        (fun _ _ => rfl) fun _ _ => rfl) rfl (hk.own id) (fun _ => hk.marked id _ hw rfl) ?_
      intro lines status hw'
      cases hw'
  | wait hw hwaited =>
      have hchild := hwaited (h.stored id _ hw)
      refine hk.advance_same h hw (fun hw' => by cases hw') (advances_goOn _ rfl rfl rfl rfl
        (fun _ _ => rfl) hchild.others) rfl
        (fun canceller hkilled => hk.own id canceller ((hchild.killed canceller).mp hkilled)) ?_ ?_
      · intro _ hcancelling
        exact (hk.marked id _ hw rfl hcancelling).imp_right (hchild.killed id).mpr
      · intro lines status hw'
        cases hw'
  | clear hw =>
      refine hk.advance_same h hw (fun hw' => by cases hw') (advances_goOn _ rfl rfl rfl rfl
        (fun _ _ => rfl) fun _ _ => rfl) rfl (hk.own id) (fun _ => hk.marked id _ hw rfl) ?_
      intro lines status hw'
      cases hw'
  | @read lines status hw =>
      refine hk.advance_same h hw (fun hw' => by cases hw') (advances_goOn _ rfl rfl rfl rfl
        (fun _ _ => rfl) fun _ _ => rfl) rfl (hk.own id) ?_ ?_
      · intro hunread
        cases hunread
      · intro lines' status' hw'
        simp only [Careful, hw] at hc
        have hcancelling : r.isCancelling id = true := (Worker.recording.inj hw').2.2
        exact (hk.marked id _ hw rfl hcancelling).resolve_left (hc hcancelling)
  | @record lines status cancelled runs hw hothers hstatus =>
      refine hk.advance h hw (advances_goOn _ rfl rfl rfl rfl hothers fun _ _ => rfl)
        (hk.own id) ?_ ?_ ?_
      · intro run hrun hcancelled
        obtain rfl : cancelled = true := hstatus run hrun hcancelled
        exact hk.read id lines status hw
      · intro hunread
        cases hunread
      · intro lines' status' hw'
        cases hw'
  | release hw =>
      have hidle := h.idle_of_release hw
      exact ⟨hk.own, hk.cancelled, fun other v hv => (hidle other v hv).elim,
        fun other lines status hv => (hidle other _ hv).elim⟩

theorem Kept.start (hk : Kept r) (h : Inv r) (request : StartRequest) :
    Kept (r.startAsync request).2 := by
  obtain hsame | ⟨run, -, hactive, heq⟩ := startAsync_cases r request
  · rw [hsame]
    exact hk
  · rw [heq]
    have hone : ∀ other v, Function.update r.workers r.sequence
        (some (.entering run request.secrets)) other = some v →
        v = .entering run request.secrets :=
      fun _ _ hv => (only_at_work (fun other _ => h.idle_of_inactive hactive other) hv).2
    refine ⟨hk.own, hk.cancelled, ?_, ?_⟩
    · intro other v hv hunread
      rw [hone other v hv] at hunread
      cases hunread
    · intro other lines status hv
      cases hone other _ hv

theorem Kept.exit (hk : Kept r) (id : ℕ) (status : ExitStatus) : Kept (r.exit id status) := by
  unfold AnsibleRunner.exit
  split
  · next halive =>
      -- a process that is alive was not killed
      have hkilled : ∀ other canceller, r.children other = some (.killed canceller) ↔
          (r.setChild id (.exited status)).children other = some (.killed canceller) := by
        intro other canceller
        by_cases hsame : other = id
        · subst hsame
          simp [AnsibleRunner.setChild, halive]
        · rw [r.setChild_children_of_ne hsame]
      refine ⟨fun other canceller hother => hk.own other canceller ((hkilled _ _).mpr hother), ?_,
        ?_, ?_⟩
      · intro other run hrun hcancelled
        obtain hnone | ⟨canceller, hother⟩ := hk.cancelled other run hrun hcancelled
        · have hne : other ≠ id := by
            rintro rfl
            rw [halive] at hnone
            cases hnone
          exact .inl ((Function.update_of_ne hne _ _).trans hnone)
        · exact .inr ⟨canceller, (hkilled _ _).mp hother⟩
      · intro other v hv hunread hcancelling
        exact (hk.marked other v hv hunread hcancelling).imp_right (hkilled _ _).mp
      · intro other lines status' hv
        exact (hkilled _ _).mp (hk.read other lines status' hv)
  · exact hk

theorem Kept.cancel (hk : Kept r) (id : ℕ) : Kept (r.cancel id).2 := by
  obtain hsame | ⟨run, hrun, -, heq⟩ := cancel_cases r id
  · rw [hsame]
    exact hk
  · rw [heq]
    refine ⟨hk.own, ?_, ?_, hk.read⟩
    · intro other run' hrun' hcancelled
      by_cases hsame : other = id
      · rw [hsame] at hrun'
        cases (Function.update_self id _ r.runs).symm.trans hrun'
        cases hcancelled
      · have hbefore := (r.setRun_runs_of_ne hsame _).symm.trans hrun'
        exact hk.cancelled other run' hbefore hcancelled
    · intro other v hv hunread hcancelling
      by_cases hsame : other = id
      · rw [hsame]
        exact .inl List.mem_cons_self
      · have hruns := r.setRun_runs_of_ne hsame { run with status := .cancelling }
        have hbefore : r.isCancelling other := by
          rw [isCancelling, ← hruns]
          exact hcancelling
        exact (hk.marked other v hv hunread hbefore).imp_left (List.mem_cons_of_mem _)

theorem Kept.kill (hk : Kept r) (hc : r.Careful (.kill id)) : Kept (r.kill id) := by
  obtain ⟨hsame, -⟩ | ⟨hmem, ⟨heq, hended⟩ | ⟨child, hchild, halive, heq⟩⟩ := kill_cases r id
  · rw [hsame]
    exact hk
  · -- there is nothing to kill, so that the run is not in flight
    obtain ⟨-, hflight⟩ := hc hmem
    rw [heq]
    refine ⟨hk.own, hk.cancelled, ?_, hk.read⟩
    intro other v hv hunread hcancelling
    by_cases hsame : other = id
    · subst hsame
      obtain ⟨hstored, hlive⟩ := hflight ⟨v, hv, hunread⟩
      exact absurd hlive (hended other hstored)
    · exact (hk.marked other v hv hunread hcancelling).imp_left
        ((List.mem_erase_of_ne hsame).mpr ·)
  · obtain ⟨hown, -⟩ := hc hmem
    obtain rfl := hown child hchild halive
    rw [heq]
    have hself : ∀ other, other ≠ child → Function.update r.children child
        (some (.killed child)) other = r.children other :=
      fun other hne => Function.update_of_ne hne _ _
    have hkilled : Function.update r.children child (some (.killed child)) child =
        some (.killed child) := Function.update_self ..
    refine ⟨?_, ?_, ?_, ?_⟩
    · intro other canceller hother
      by_cases hsame : other = child
      · rw [hsame] at hother ⊢
        cases hkilled.symm.trans hother
        rfl
      · exact hk.own other canceller ((hself other hsame).symm.trans hother)
    · intro other run hrun hcancelled
      by_cases hsame : other = child
      · rw [hsame]
        exact .inr ⟨child, hkilled⟩
      · have hother := hk.cancelled other run hrun hcancelled
        rwa [← hself other hsame] at hother
    · intro other v hv hunread hcancelling
      by_cases hsame : other = child
      · rw [hsame]
        exact .inr hkilled
      · have hother := hk.marked other v hv hunread hcancelling
        rw [← hself other hsame] at hother
        exact hother.imp_left ((List.mem_erase_of_ne hsame).mpr ·)
    · intro other lines status hv
      by_cases hsame : other = child
      · rw [hsame]
        exact hkilled
      · exact (hself other hsame).trans (hk.read other lines status hv)

theorem Kept.step (hk : Kept r) (h : Inv r) {s : RunnerStep} (hc : r.Careful s) :
    Kept (r.step s) := by
  cases s with
  | start request => exact hk.start h request
  | work id io => exact hk.work h hc
  | exit id status => exact hk.exit id status
  | cancel id => exact hk.cancel id
  | kill id => exact hk.kill hc

/-- There is one process at a time in every run; and if every step is careful, only a run
whose process was killed or never spawned ends as cancelled, and a cancellation kills no
other process than its own. -/
theorem cancellation_kills_own (automationRoot inventory : String) (steps : List RunnerStep) :
    OneAlive (steps.foldl step (new automationRoot inventory)) ∧
    (Machine.Along step Careful (new automationRoot inventory) steps →
      CancelledIsKilled (steps.foldl step (new automationRoot inventory)) ∧
      KillsOwn (steps.foldl step (new automationRoot inventory))) := by
  constructor
  · exact (Machine.foldl_invariant steps (inv_new automationRoot inventory)
      fun _ s h => h.step s).oneAlive
  · intro hcareful
    obtain ⟨-, hkept⟩ := hcareful.invariant (I := fun r => Inv r ∧ Kept r)
      ⟨inv_new automationRoot inventory, kept_new automationRoot inventory⟩
      fun _ s h hc => ⟨h.1.step s, h.2.step h.1 hc⟩
    exact ⟨hkept.cancelled, hkept.own⟩

/-! ### Cancellations in time and out of it -/

def deploy : StartRequest := ⟨"deploy", none, ∅, ∅, true⟩

/-- Every section does what it is there for, and the process ends well. -/
def usual : WorkIo := ⟨none, [], some 0, false, false⟩

/-- The run is cancelled while its process is at work. -/
def inTime : List RunnerStep :=
  .start deploy :: .work 1 usual :: .work 1 usual :: .work 1 usual :: .cancel 1 :: .kill 1 ::
    List.replicate 5 (.work 1 usual)

theorem cancellation_kills_own_inTime :
    CancelledIsKilled (inTime.foldl step (new "/srv" "hosts.ini")) ∧
      KillsOwn (inTime.foldl step (new "/srv" "hosts.ini")) ∧
      (inTime.foldl step (new "/srv" "hosts.ini")).children 1 = some (.killed 1) ∧
      ((inTime.foldl step (new "/srv" "hosts.ini")).runs 1).map (·.status) = some .cancelled := by
  have hcareful : Machine.Along step Careful (new "/srv" "hosts.ini") inTime := by
    refine ⟨trivial, trivial, fun _ h => absurd h (by decide), trivial, trivial, fun _ => ?_,
      trivial, trivial, fun _ => by decide, trivial, trivial, trivial⟩
    exact ⟨fun child hchild _ => (Option.some.inj hchild).symm, fun _ => ⟨rfl, rfl⟩⟩
  obtain ⟨hcancelled, hown⟩ := (cancellation_kills_own "/srv" "hosts.ini" inTime).2 hcareful
  exact ⟨hcancelled, hown, by decide, by decide⟩

/-- The mark and the kill come before the process is spawned. -/
def tooEarly : List RunnerStep :=
  .start deploy :: .work 1 usual :: .cancel 1 :: .kill 1 :: List.replicate 6 (.work 1 usual)

/-- The mark comes in time, and the kill when the next run has its process. -/
def tooLate : List RunnerStep :=
  .start deploy :: .work 1 usual :: .cancel 1 :: List.append (List.replicate 7 (.work 1 usual))
    [.start deploy, .work 2 usual, .work 2 usual, .work 2 usual, .kill 1]

theorem cancellations_out_of_time :
    ¬ (∀ steps : List RunnerStep,
        CancelledIsKilled (steps.foldl step (new "/srv" "hosts.ini"))) ∧
      ¬ ∀ steps : List RunnerStep, KillsOwn (steps.foldl step (new "/srv" "hosts.ini")) := by
  constructor
  · intro h
    have hstatus : ((tooEarly.foldl step (new "/srv" "hosts.ini")).runs 1).map (·.status) =
        some .cancelled := by decide
    have hchild : (tooEarly.foldl step (new "/srv" "hosts.ini")).children 1 =
        some (.exited (some 0)) := by decide
    obtain ⟨run, hrun, hcancelled⟩ := Option.map_eq_some_iff.mp hstatus
    obtain hnone | ⟨canceller, hkilled⟩ := h tooEarly 1 run hrun hcancelled
    · rw [hchild] at hnone
      cases hnone
    · rw [hchild] at hkilled
      cases hkilled
  · intro h
    exact absurd (h tooLate 2 1 (by decide)) (by decide)

end AnsibleRunner

end DdsOrchestrator.ControlPanel
