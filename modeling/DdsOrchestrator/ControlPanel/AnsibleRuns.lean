import DdsOrchestrator.Lib.FileTree
import DdsOrchestrator.Lib.Machine
import DdsOrchestrator.ControlPanel.Redaction

/-!
The runs of Ansible that the panel starts. A run has a thread that spawns the process, waits
for it and records how it ended; whether a run is active, the records and the process stand
behind three locks, each taken for a moment only, and a cancellation takes two of them. Every
section under a lock is one step, and the steps of all threads interleave in any way.

A run goes by its number. The synchronous start, which stores no process and is registered
when it is over, is left out.
-/

namespace DdsOrchestrator.ControlPanel

open FileTree (components Component)

inductive AnsibleError where
  | unknownAction (id : String)
  | playbookEscape (playbook : String)
  | playbookMissing (playbook : String)
  | invalidLimit (limit : String)
  | busy
  deriving DecidableEq

structure AnsibleAction where
  id : String
  playbook : String
  deriving DecidableEq

def listActions : List AnsibleAction :=
  [⟨"status", "status.yml"⟩, ⟨"deploy", "deploy-cluster.yml"⟩,
    ⟨"deploy-v2", "deploy-cluster-v2.yml"⟩, ⟨"stop", "stop-cluster-v2.yml"⟩]

inductive RunStatus where
  | running
  | cancelling
  | cancelled
  | finished
  | failed
  deriving DecidableEq

structure AnsibleRun where
  action : String
  command : List String
  status : RunStatus
  returnCode : Option ℤ
  lines : List String
  error : Option String
  deriving DecidableEq

/-- How a process ended; a signal leaves no code. -/
abbrev ExitStatus := Option ℤ

/-- The process of a run. -/
inductive Fate where
  | alive
  | exited (status : ExitStatus)
  | killed (canceller : ℕ)
  deriving DecidableEq

/-- The section a thread comes to next. -/
inductive Worker where
  | entering (run : AnsibleRun) (secrets : Finset String)
  | spawning (command : List String) (secrets : Finset String)
  | storing (secrets : Finset String)
  | waiting (secrets : Finset String)
  | clearing (lines : List String) (status : Option ExitStatus)
  | reading (lines : List String) (status : Option ExitStatus)
  | recording (lines : List String) (status : Option ExitStatus) (cancelled : Bool)
  | releasing
  deriving DecidableEq

structure AnsibleRunner where
  automationRoot : String
  inventory : String
  active : Bool
  sequence : ℕ
  runs : ℕ → Option AnsibleRun
  /-- The run whose process is stored. -/
  activeChild : Option ℕ
  workers : ℕ → Option Worker
  children : ℕ → Option Fate
  /-- The cancellations that have marked their run and not come to the process yet. -/
  cancels : List ℕ

structure StartRequest where
  actionId : String
  limit : Option String
  secrets : Finset String
  allowedLimits : Finset String
  /-- The playbook is there. -/
  playbookExists : Bool

/-- What the system answers to a section: why nothing was spawned, what the process wrote
and how it ended, whether waiting for it failed, and whether the lock was taken. -/
structure WorkIo where
  spawnError : Option String
  output : List String
  status : ExitStatus
  waitFails : Bool
  contended : Bool

inductive RunnerStep where
  | start (request : StartRequest)
  | work (id : ℕ) (io : WorkIo)
  /-- The process ends by itself. -/
  | exit (id : ℕ) (status : ExitStatus)
  | cancel (id : ℕ)
  | kill (id : ℕ)

namespace AnsibleRunner

def new (automationRoot inventory : String) : AnsibleRunner where
  automationRoot := automationRoot
  inventory := inventory
  active := false
  sequence := 1
  runs _ := none
  activeChild := none
  workers _ := none
  children _ := none
  cancels := []

/-! ### Starting -/

def resolvePlaybook (r : AnsibleRunner) (playbook : String) (found : Bool) :
    Except AnsibleError String :=
  if .rootDir ∈ components playbook.toList ∨ .parentDir ∈ components playbook.toList then
    .error (.playbookEscape playbook)
  else if found then .ok (r.automationRoot ++ "/" ++ playbook)
  else .error (.playbookMissing playbook)

def buildCommand (r : AnsibleRunner) (playbook : String) (limit : Option String)
    (allowedLimits : Finset String) : Except AnsibleError (List String) :=
  let cmd := ["ansible-playbook", "-i", r.inventory, playbook]
  match limit with
  | none => .ok cmd
  | some limit =>
      if limit ∈ allowedLimits then .ok (cmd ++ ["--limit", limit])
      else .error (.invalidLimit limit)

/-- The run is reserved and has its number; nobody else draws one in between. -/
def startAsync (r : AnsibleRunner) (request : StartRequest) :
    Except AnsibleError AnsibleRun × AnsibleRunner :=
  match listActions.find? fun a => a.id = request.actionId with
  | none => (.error (.unknownAction request.actionId), r)
  | some action =>
      match r.resolvePlaybook action.playbook request.playbookExists with
      | .error e => (.error e, r)
      | .ok playbook =>
          match r.buildCommand playbook request.limit request.allowedLimits with
          | .error e => (.error e, r)
          | .ok command =>
              if r.active then (.error .busy, r)
              else
                let run : AnsibleRun := ⟨action.id, command, .running, none, [], none⟩
                (.ok run, { r with
                  active := true
                  sequence := r.sequence + 1
                  workers := Function.update r.workers r.sequence
                    (some (.entering run request.secrets)) })

/-! ### The thread of a run -/

def goOn (r : AnsibleRunner) (id : ℕ) (w : Worker) : AnsibleRunner :=
  { r with workers := Function.update r.workers id (some w) }

def setRun (r : AnsibleRunner) (id : ℕ) (run : AnsibleRun) : AnsibleRunner :=
  { r with runs := Function.update r.runs id (some run) }

def setChild (r : AnsibleRunner) (id : ℕ) (fate : Fate) : AnsibleRunner :=
  { r with children := Function.update r.children id (some fate) }

def finishRun (r : AnsibleRunner) (id : ℕ) (status : RunStatus) (code : Option ℤ)
    (error : Option String) : AnsibleRunner :=
  match r.runs id with
  | none => r
  | some run => r.setRun id { run with status := status, returnCode := code, error := error }

/-- Nothing comes back before the process has ended, even if it cannot be told how. -/
def wait (r : AnsibleRunner) (io : WorkIo) : Option ExitStatus × AnsibleRunner :=
  match r.activeChild with
  | none => (none, r)
  | some child =>
      match r.children child with
      | some (.exited status) => (if io.waitFails then none else some status, r)
      | some (.killed _) => (if io.waitFails then none else some none, r)
      | some .alive =>
          (if io.waitFails then none else some io.status, r.setChild child (.exited io.status))
      | none => (none, r)

def isCancelling (r : AnsibleRunner) (id : ℕ) : Bool :=
  (r.runs id).any fun run => run.status = .cancelling

def record (r : AnsibleRunner) (id : ℕ) (lines : List String) (status : Option ExitStatus)
    (cancelled : Bool) : AnsibleRunner :=
  match r.runs id with
  | none => r
  | some run =>
      r.setRun id { run with
        lines := run.lines ++ lines
        returnCode := status.join
        status :=
          if cancelled then .cancelled
          else if status = some (some 0) then .finished
          else .failed }

def work (r : AnsibleRunner) (id : ℕ) (io : WorkIo) : AnsibleRunner :=
  match r.workers id with
  | none => r
  | some (.entering run secrets) => (r.setRun id run).goOn id (.spawning run.command secrets)
  | some (.spawning [] _) => (r.finishRun id .failed none (some "comando vazio")).goOn id .releasing
  | some (.spawning (_ :: _) secrets) =>
      match io.spawnError with
      | some err => (r.finishRun id .failed none (some err)).goOn id .releasing
      | none => (r.setChild id .alive).goOn id (.storing secrets)
  | some (.storing secrets) => { r with activeChild := some id }.goOn id (.waiting secrets)
  | some (.waiting secrets) =>
      (r.wait io).2.goOn id (.clearing (io.output.map (redact · secrets)) (r.wait io).1)
  | some (.clearing lines status) =>
      { r with activeChild := if io.contended then r.activeChild else none }.goOn id
        (.reading lines status)
  | some (.reading lines status) => r.goOn id (.recording lines status (r.isCancelling id))
  | some (.recording lines status cancelled) =>
      (r.record id lines status cancelled).goOn id .releasing
  | some .releasing => { r with active := false, workers := Function.update r.workers id none }

/-! ### Cancelling -/

/-- A cancellation marks the run; what it has marked it will kill. -/
def cancel (r : AnsibleRunner) (id : ℕ) : Except AnsibleError AnsibleRun × AnsibleRunner :=
  match r.runs id with
  | none => (.error (.unknownAction ("run-" ++ toString id)), r)
  | some run =>
      if run.status ≠ .running then (.ok run, r)
      else
        (.ok { run with status := .cancelling },
          { r.setRun id { run with status := .cancelling } with cancels := id :: r.cancels })

/-- It kills the process that is stored. -/
def kill (r : AnsibleRunner) (id : ℕ) : AnsibleRunner :=
  if id ∈ r.cancels then
    let r : AnsibleRunner := { r with cancels := r.cancels.erase id }
    match r.activeChild with
    | none => r
    | some child => if r.children child = some .alive then r.setChild child (.killed id) else r
  else r

/-! ### Runs -/

def exit (r : AnsibleRunner) (id : ℕ) (status : ExitStatus) : AnsibleRunner :=
  if r.children id = some .alive then r.setChild id (.exited status) else r

def step (r : AnsibleRunner) : RunnerStep → AnsibleRunner
  | .start request => (r.startAsync request).2
  | .work id io => r.work id io
  | .exit id status => r.exit id status
  | .cancel id => (r.cancel id).2
  | .kill id => r.kill id

end AnsibleRunner

end DdsOrchestrator.ControlPanel
