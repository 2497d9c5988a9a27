import Mathlib.Logic.Function.Basic
import DdsOrchestrator.Lib.Lines
import DdsOrchestrator.Lib.Machine

/-!
The runner of a local server. The operator's calls and the frames of the user interface run
in one thread. A start spawns a worker, which spawns the server, hands it over and reports on
five steps. The workers of all the runs send on one channel, and what they send does not say
which run it is from.

A run of the model is any interleaving of the operator's calls, of the parts of a frame, of
the operations of the workers, of the lines the servers print, of the probes of their health
and of their exits. Runs are counted from one, and the number of a run stands for the server
it spawns. What the frame shows of the machine and of the model's file is left out.
-/

namespace DdsOrchestrator.Studio.Runner

def consoleCap : Nat := 500

def stopGraceSecs : Nat := 5

/-! ### Validation -/

structure RunnerParams where
  exe : String
  model : String
  port : UInt16
  ctx : UInt32
  batch : UInt32
  threads : UInt32
  bind : String
  healthTimeoutSecs : Nat
  deriving DecidableEq

inductive BindError where
  | addrInUse
  | other (text : String)

/-- What the validation finds. -/
structure Host where
  isExecutable : String → Bool
  isFile : String → Bool
  bind : String → Except BindError Unit

def trim (s : String) : String := String.ofList (Lines.trim s.toList)

def RunnerParams.validate (host : Host) (p : RunnerParams) : Except String Unit :=
  if trim p.exe = "" then .error "informe o executável do llama-server"
  else if ¬ host.isExecutable (trim p.exe) then
    .error (p.exe ++ " não encontrado ou sem execução")
  else if trim p.model = "" then .error "escolha o artefato GGUF"
  else if ¬ host.isFile (trim p.model) then .error ("modelo ausente: " ++ p.model)
  else if p.port = 0 then .error "porta precisa ser maior que zero"
  else if p.ctx = 0 ∨ p.batch = 0 ∨ p.threads = 0 then
    .error "contexto, batch e threads precisam ser maiores que zero"
  else
    let bind := trim p.bind ++ ":" ++ toString p.port
    match host.bind bind with
    | .ok () => .ok ()
    | .error .addrInUse => .error ("porta ocupada: " ++ bind)
    | .error (.other text) => .error ("bind inválido (" ++ bind ++ "): " ++ text)

/-! ### The state of the runner -/

structure StepResult where
  step : String
  ok : Bool
  detail : String
  durationMs : Nat
  deriving DecidableEq

structure Child where
  run : Nat
  pid : Nat
  deriving DecidableEq

inductive RunnerStatus where
  | stopped
  | starting
  | running (pid since : Nat) (healthy : Option (Bool × Nat))
  | stopping (pid since : Nat)
  | failed (detail : String)
  deriving DecidableEq

inductive RunnerMsg where
  | line (text : String)
  | step (s : StepResult)
  | spawned (child : Child)
  | finished
  | health (ok : Bool) (ms : Nat)
  deriving DecidableEq

structure RunnerState where
  params : RunnerParams
  status : RunnerStatus
  steps : List StepResult
  console : List String
  error : String
  child : Option Child
  autostart : Bool
  /-- The run whose flag it is. -/
  cancelCurrent : Nat
  lastHealthPoll : Option Nat

namespace RunnerState

def new (params : RunnerParams) : RunnerState :=
  { params, status := .stopped, steps := [], console := [], error := "", child := none
    autostart := false, cancelCurrent := 0, lastHealthPoll := none }

def running (r : RunnerState) : Bool :=
  match r.status with
  | .starting | .running _ _ _ | .stopping _ _ => true
  | .stopped | .failed _ => false

def pushLine (line : String) (r : RunnerState) : RunnerState :=
  { r with console :=
      (if r.console.length = consoleCap then r.console.drop 1 else r.console) ++ [line] }

/-- With it comes whether a worker is spawned. -/
def start (host : Host) (r : RunnerState) : RunnerState × Bool :=
  if r.running then (r, false)
  else match r.params.validate host with
    | .error detail => ({ r with error := detail }, false)
    | .ok () =>
      let r := { r with error := "", steps := [], autostart := false
                        cancelCurrent := r.cancelCurrent + 1 }
      ({ r.pushLine "── nova execução ──" with status := .starting }, true)

/-- Whether the signal reached the child is for the system to say. -/
def stop (child : Child) (nowMs : Nat) (termed : Bool) (r : RunnerState) : RunnerState :=
  let r := { r with autostart := false }
  let r := r.pushLine <|
    if termed then "runner: SIGTERM enviado ao PID " ++ toString child.pid
    else "runner: PID " ++ toString child.pid ++ " já havia saído"
  { r with status := .stopping child.pid nowMs }

def handle (nowMs : Nat) (msg : RunnerMsg) (r : RunnerState) : RunnerState :=
  match msg with
  | .line text => r.pushLine text
  | .step s =>
    let status : RunnerStatus :=
      if s.ok then r.status
      else match r.status with
        | .stopping pid since => .stopping pid since
        | _ => .failed (s.step ++ ": " ++ s.detail)
    { r with status, steps := r.steps ++ [s] }
  | .spawned child => { r with child := some child, status := .running child.pid nowMs none }
  -- the worker of any run: `starting` may be the status of a later one
  | .finished => if r.status = .starting then { r with status := .stopped } else r
  | .health ok ms =>
    match r.status with
    | .running pid since _ => { r with status := .running pid since (some (ok, ms)) }
    | _ => r

/-- The child has exited. -/
def exited (code : Option Int) (r : RunnerState) : RunnerState :=
  let r := r.pushLine ("runner: processo encerrado (" ++
    (match code with
      | some code => "exit " ++ toString code
      | none => "sinal") ++ ")")
  { r with child := none, status := .stopped }

end RunnerState

/-! ### Workers -/

/-- The operation a worker comes to next. -/
inductive Worker where
  | validate
  | spawn
  | handOver (pid : Nat)
  | awaitHealth
  | askHealth
  | beforeModels
  | askModels
  | beforeProof
  | askProof
  | report (s : StepResult) (next : Worker)
  | finish
  | ended
  deriving DecidableEq

inductive Process where
  | unborn
  | alive
  | exited (code : Option Int)
  deriving DecidableEq

structure Run where
  params : RunnerParams
  worker : Worker
  /-- The flag that the worker reads. -/
  cancel : Bool
  /-- Somebody reads what the server prints. -/
  reading : Bool
  process : Process
  termed : Bool
  killed : Bool
  /-- The worker has reported a step that failed. -/
  failed : Bool
  /-- A stop was called while the run was starting. -/
  askedToStop : Bool
  deriving DecidableEq

/-- What a worker finds at an operation. -/
structure Answer where
  durationMs : Nat
  build : String
  /-- The size of the model in units of 10^9 bytes, with two decimals. -/
  modelGb : String
  spawner : Except String Nat
  /-- The budget of the wait is used up. -/
  late : Bool
  health : Except String Nat
  models : Except String (List String)
  proof : Except String String

namespace Run

def notBegun (params : RunnerParams) : Run :=
  { params, worker := .ended, cancel := false, reading := false, process := .unborn
    termed := false, killed := false, failed := false, askedToStop := false }

def begin (params : RunnerParams) : Run := { notBegun params with worker := .validate }

def healthBudget (r : Run) : Nat := max r.params.healthTimeoutSecs 1

/-- The worker ends the run here if the flag is set. -/
def unlessCancelled (next : Worker) (r : Run) : Run :=
  { r with worker := if r.cancel then .finish else next }

/-- The step ends like this, and the report on it is next. -/
def stepped (step : String) (durationMs : Nat) (outcome : Except String String) (next : Worker)
    (r : Run) : Run :=
  { r with worker := match outcome with
      | .ok detail => .report ⟨step, true, detail, durationMs⟩ next
      | .error detail => .report ⟨step, false, detail, durationMs⟩ .finish }

/-- One operation of the worker of the run of this number, and what it sends. -/
def work (number : Nat) (a : Answer) (r : Run) : Run × Option RunnerMsg :=
  match r.worker with
  | .validate =>
    if r.cancel then ({ r with worker := .finish }, none)
    else (r.stepped "① validar binário + modelo + porta" a.durationMs
      (.ok (r.params.exe ++ " · modelo " ++ a.modelGb ++ " GB · porta " ++
        toString r.params.port ++ " livre · build: " ++ a.build)) .spawn, none)
  | .spawn =>
    match a.spawner with
    | .ok pid => ({ r with worker := .handOver pid, process := .alive }, none)
    | .error e => (r.stepped "② spawn do processo" a.durationMs (.error e) .finish, none)
  | .handOver pid =>
    ({ r.stepped "② spawn do processo" a.durationMs
        (.ok ("PID " ++ toString pid ++ " ativo")) .awaitHealth with reading := true },
      some (.spawned ⟨number, pid⟩))
  | .awaitHealth =>
    if a.late then
      (r.stepped "③ aguardar /health" a.durationMs
        (.error ("sem 200 em " ++ toString r.healthBudget ++ "s")) .finish, none)
    else (r.unlessCancelled .askHealth, none)
  | .askHealth =>
    match a.health with
    | .ok ms => (r.stepped "③ aguardar /health" a.durationMs
        (.ok ("200 OK em " ++ toString ms ++ "ms")) .beforeModels, none)
    | .error _ => ({ r with worker := .awaitHealth }, none)
  | .beforeModels => (r.unlessCancelled .askModels, none)
  | .askModels =>
    (r.stepped "④ modelo & KV cache (/v1/models)" a.durationMs
      (match a.models with
        | .ok (id :: _) => .ok ("modelo: " ++ id)
        | .ok [] => .error "servidor sem modelos anunciados"
        | .error e => .error e) .beforeProof, none)
  | .beforeProof => (r.unlessCancelled .askProof, none)
  | .askProof => (r.stepped "⑤ prova de geração" a.durationMs a.proof .finish, none)
  | .report s next => ({ r with worker := next, failed := r.failed || !s.ok }, some (.step s))
  | .finish => ({ r with worker := .ended }, some .finished)
  | .ended => (r, none)

end Run

/-! ### The runner and its surroundings -/

/-- A message and the run it is from, which the runner does not see. -/
structure Message where
  run : Nat
  msg : RunnerMsg
  deriving DecidableEq

/-- The part of a frame that comes next. -/
inductive Ui where
  | idle
  | drain
  | orphan
  | reap
  | escalate
  | probe
  deriving DecidableEq

structure World where
  runner : RunnerState
  ui : Ui
  channel : List Message
  runs : Nat → Run
  /-- The probes of health that are under way, each by the run it was sent out in. -/
  probes : List Nat

inductive Input where
  | start (host : Host)
  | stop (nowMs : Nat) (termed : Bool)
  | restart (nowMs : Nat) (termed : Bool) (host : Host)
  | poll
  /-- The next part of the frame. -/
  | frame (nowMs : Nat) (host : Host)
  | work (run : Nat) (a : Answer)
  | print (run : Nat) (text : String)
  /-- A probe comes back, with the time it took if the server has answered. -/
  | probed (run : Nat) (answered : Option Nat)
  | exit (run : Nat) (code : Option Int)

namespace World

def new (params : RunnerParams) : World :=
  { runner := .new params, ui := .idle, channel := [], runs := fun _ => .notBegun params
    probes := [] }

def setRun (run : Nat) (r : Run) (s : World) : World :=
  { s with runs := Function.update s.runs run r }

@[simp] theorem runner_setRun (run : Nat) (r : Run) (s : World) :
    (s.setRun run r).runner = s.runner := rfl

@[simp] theorem channel_setRun (run : Nat) (r : Run) (s : World) :
    (s.setRun run r).channel = s.channel := rfl

@[simp] theorem runs_setRun_self (run : Nat) (r : Run) (s : World) :
    (s.setRun run r).runs run = r := by
  show Function.update s.runs run r run = r
  exact Function.update_self run r s.runs

theorem runs_setRun_of_ne {run run' : Nat} (hrun : run' ≠ run) (r : Run) (s : World) :
    (s.setRun run r).runs run' = s.runs run' := by
  show Function.update s.runs run r run' = s.runs run'
  exact Function.update_of_ne hrun r s.runs

/-- A run that does not change leaves the runs as they are. -/
theorem setRun_same (run : Nat) (s : World) : s.setRun run (s.runs run) = s := by
  rw [setRun, Function.update_eq_self]

def start (host : Host) (s : World) : World :=
  let (runner, spawned) := s.runner.start host
  let s := { s with runner }
  if spawned then s.setRun runner.cancelCurrent (.begin runner.params) else s

/-- The run that is starting is noted as one that was to be stopped. -/
def noteStop (s : World) : World :=
  if s.runner.status = .starting then
    s.setRun s.runner.cancelCurrent
      { s.runs s.runner.cancelCurrent with askedToStop := true }
  else s

def stop (nowMs : Nat) (termed : Bool) (s : World) : World :=
  let s := s.noteStop
  match s.runner.child with
  -- neither the flag is set nor a signal sent, whatever the status is
  | none => s
  | some child =>
    let s := s.setRun s.runner.cancelCurrent
      { s.runs s.runner.cancelCurrent with cancel := true }
    let s := s.setRun child.run { s.runs child.run with termed := true }
    { s with runner := s.runner.stop child nowMs termed }

def restart (nowMs : Nat) (termed : Bool) (host : Host) (s : World) : World :=
  match s.runner.child with
  -- no child is taken for a runner that has stopped
  | none => s.start host
  | some _ =>
    let s := s.stop nowMs termed
    { s with runner := { s.runner with autostart := true } }

def receive (nowMs : Nat) (s : World) : World :=
  match s.channel with
  | [] => { s with ui := .orphan }
  | m :: channel => { s with channel, runner := s.runner.handle nowMs m.msg }

def kill (child : Child) (note : String) (s : World) : World :=
  let s := s.setRun child.run { s.runs child.run with killed := true }
  { s with runner := s.runner.pushLine note }

def killOrphan (s : World) : World :=
  match s.runner.status, s.runner.child with
  | .failed _, some child =>
    if (s.runs child.run).process = .alive then
      s.kill child "runner: processo órfão encerrado (SIGKILL após falha)"
    else s
  | _, _ => s

def reap (host : Host) (s : World) : World :=
  match s.runner.child with
  | none => s
  | some child =>
    match (s.runs child.run).process with
    | .exited code =>
      let s := { s with runner := s.runner.exited code }
      if s.runner.autostart then
        ({ s with runner := { s.runner with autostart := false } } : World).start host
      else s
    | _ => s

def escalate (nowMs : Nat) (s : World) : World :=
  match s.runner.status, s.runner.child with
  | .stopping _ since, some child =>
    if stopGraceSecs ≤ (nowMs - since) / 1000 then
      s.kill child "runner: SIGTERM ignorado, SIGKILL enviado"
    else s
  | _, _ => s

def probe (nowMs : Nat) (s : World) : World :=
  let due := s.runner.lastHealthPoll.all fun polledAt => 2 ≤ (nowMs - polledAt) / 1000
  if due ∧ s.runner.child.isSome then
    { s with runner := { s.runner with lastHealthPoll := some nowMs }
             probes := s.runner.cancelCurrent :: s.probes }
  else s

def frame (nowMs : Nat) (host : Host) (s : World) : World :=
  match s.ui with
  | .idle => s
  | .drain => s.receive nowMs
  | .orphan => { s.killOrphan with ui := .reap }
  | .reap => { s.reap host with ui := .escalate }
  | .escalate => { s.escalate nowMs with ui := .probe }
  | .probe => { s.probe nowMs with ui := .idle }

def send (run : Nat) (msg : RunnerMsg) (s : World) : World :=
  { s with channel := s.channel ++ [⟨run, msg⟩] }

@[simp] theorem runner_send (run : Nat) (msg : RunnerMsg) (s : World) :
    (s.send run msg).runner = s.runner := rfl

@[simp] theorem runs_send (run : Nat) (msg : RunnerMsg) (s : World) :
    (s.send run msg).runs = s.runs := rfl

def work (run : Nat) (a : Answer) (s : World) : World :=
  let (r, msg) := (s.runs run).work run a
  let s := s.setRun run r
  match msg with
  | none => s
  | some msg => s.send run msg

/-- The operator's calls and a new frame have to wait until the frame is over. -/
def step (s : World) (i : Input) : World :=
  match i with
  | .start host => if s.ui = .idle then s.start host else s
  | .stop nowMs termed => if s.ui = .idle then s.stop nowMs termed else s
  | .restart nowMs termed host => if s.ui = .idle then s.restart nowMs termed host else s
  | .poll => if s.ui = .idle then { s with ui := .drain } else s
  | .frame nowMs host => s.frame nowMs host
  | .work run a => s.work run a
  | .print run text => if (s.runs run).reading then s.send run (.line text) else s
  | .probed run answered =>
    if run ∈ s.probes then
      ({ s with probes := s.probes.erase run } : World).send run
        (.health answered.isSome (answered.getD 0))
    else s
  | .exit run code =>
    if (s.runs run).process = .alive then
      s.setRun run { s.runs run with process := .exited code }
    else s

end World

end DdsOrchestrator.Studio.Runner
