import DdsOrchestrator.Lib.Assoc
import DdsOrchestrator.Lib.Machine

/-!
The services the panel runs as processes of its own. The supervisor has one entry a name with
the child it holds, if any; the system has a table of all processes ever started, and those in
it end when they like. Every operation is one section under the lock of the supervisor. Starting
several agents, applying a preset and stopping all agents take the lock anew for each service,
so they are sequences of these operations.

The log of a process, its uptime and the fields of a definition that no operation reads are left
out.
-/

namespace DdsOrchestrator.ControlPanel

open Machine

inductive OverrideValue where
  | bool (on : Bool)
  | int (i : ℤ)
  | text (s : String)

def OverrideValue.asFlagValue : OverrideValue → String
  | bool on => toString on
  | int i => toString i
  | text s => s

structure ServiceDefinition where
  name : String
  command : List String
  cwd : String
  env : List (String × String)

namespace ServiceDefinition

def flagOf (key : String) : String := "--" ++ key.map fun c => if c = '_' then '-' else c

def applyOverride (cmd : List String) (key : String) : OverrideValue → List String
  | .bool true => if flagOf key ∈ cmd then cmd else cmd ++ [flagOf key]
  | .bool false => cmd.filter fun arg => arg ≠ flagOf key
  | value =>
    match cmd.findIdx? fun arg => arg = flagOf key with
    | some idx =>
      if idx + 1 < cmd.length then cmd.set (idx + 1) value.asFlagValue
      else cmd ++ [value.asFlagValue]
    | none => cmd ++ [flagOf key, value.asFlagValue]

/-- The overrides come in the order of their keys. -/
def buildCommand (d : ServiceDefinition) (overrides : List (String × OverrideValue)) :
    List String :=
  overrides.foldl (fun cmd o => applyOverride cmd o.1 o.2) d.command

end ServiceDefinition

/-- A process of the system, which has its place in the table as its number. -/
structure OsProcess where
  service : String
  command : List String
  cwd : String
  env : List (String × String)
  alive : Bool
  /-- A signal leaves none. -/
  exitCode : Option ℤ

/-- What the system answers in one section: whether it can be asked if a child has ended, with
which code a process that is killed ends within ten seconds, if it does, and whether the log
can be opened and the process spawned. -/
structure Answers where
  waits : Bool
  dies : Option (Option ℤ)
  log : Except String Unit
  spawn : Except String Unit

inductive ProcessError where
  | alreadyRunning
  | spawn (text : String)

structure ProcessStatus where
  name : String
  running : Bool
  status : String
  pid : Option ℕ
  exitCode : Option ℤ

structure ManagedProcess where
  name : String
  command : List String
  cwd : String
  env : List (String × String)
  child : Option ℕ
  /-- `started_at` is set. -/
  started : Bool
  exitCode : Option ℤ

namespace ManagedProcess

def new (name : String) (command : List String) (cwd : String) (env : List (String × String)) :
    ManagedProcess :=
  { name, command, cwd, env, child := none, started := false, exitCode := none }

/-- A child that cannot be asked is let go. -/
def refresh (a : Answers) (os : List OsProcess) (p : ManagedProcess) : ManagedProcess :=
  match p.child with
  | none => p
  | some pid =>
    if a.waits then
      match os[pid]? with
      | some q => if q.alive then p else { p with child := none, exitCode := q.exitCode }
      | none => p
    else { p with child := none }

/-- The status of a process that has just been refreshed. -/
def report (p : ManagedProcess) : ProcessStatus :=
  { name := p.name
    running := p.child.isSome
    status := if p.child.isSome then "running" else if p.started then "stopped" else "not_started"
    pid := p.child
    exitCode := p.exitCode }

def kill (a : Answers) (pid : ℕ) (os : List OsProcess) : List OsProcess :=
  match a.dies, os[pid]? with
  | some code, some q =>
    if q.alive then os.set pid { q with alive := false, exitCode := code } else os
  | _, _ => os

/-- The child is let go whether or not it has ended. -/
def stop (a : Answers) (os : List OsProcess) (p : ManagedProcess) :
    ManagedProcess × List OsProcess :=
  match p.child with
  | none => (p, os)
  | some pid =>
    match (kill a pid os)[pid]? with
    | some q =>
      if a.waits && !q.alive then
        ({ p with child := none, exitCode := q.exitCode }, kill a pid os)
      else ({ p with child := none }, kill a pid os)
    | none => ({ p with child := none }, kill a pid os)

def start (a : Answers) (os : List OsProcess) (p : ManagedProcess) :
    Except ProcessError Unit × ManagedProcess × List OsProcess :=
  let p := p.refresh a os
  if p.child.isSome then (.error .alreadyRunning, p, os)
  else
    match a.log with
    | .error e => (.error (.spawn e), p, os)
    | .ok _ =>
      if p.command = [] then (.error (.spawn "comando vazio"), p, os)
      else
        match a.spawn with
        | .error e => (.error (.spawn e), p, os)
        | .ok _ =>
          (.ok (), { p with child := some os.length, started := true, exitCode := none },
            os ++ [⟨p.name, p.command, p.cwd, p.env, true, none⟩])

def restart (a : Answers) (os : List OsProcess) (p : ManagedProcess) :
    Except ProcessError Unit × ManagedProcess × List OsProcess :=
  (p.stop a os).1.start a (p.stop a os).2

end ManagedProcess

inductive SupervisorError where
  | unknownProcess (name : String)
  | process (e : ProcessError)

structure Supervisor where
  /-- The environment of the panel, which its children inherit. -/
  vars : List (String × String)
  processes : Map String ManagedProcess
  os : List OsProcess

namespace Supervisor

def new (vars : List (String × String)) : Supervisor := { vars, processes := ∅, os := [] }

def set (name : String) (p : ManagedProcess) (os : List OsProcess) (s : Supervisor) :
    Supervisor :=
  { s with processes := s.processes.insert name p, os }

/-- A new entry takes the place of one that no longer runs, if it can be started. -/
def launch (d : ServiceDefinition) (overrides : List (String × OverrideValue)) (a : Answers)
    (s : Supervisor) : Except SupervisorError ProcessStatus × Supervisor :=
  let p := ManagedProcess.new d.name (d.buildCommand overrides) d.cwd (s.vars ++ d.env)
  match p.start a s.os with
  | (.ok _, p, os) => (.ok p.report, s.set d.name p os)
  | (.error e, _, _) => (.error (.process e), s)

def startService (d : ServiceDefinition) (overrides : List (String × OverrideValue))
    (a : Answers) (s : Supervisor) : Except SupervisorError ProcessStatus × Supervisor :=
  match s.processes.lookup d.name with
  | none => s.launch d overrides a
  | some p =>
    let p := p.refresh a s.os
    if p.child.isSome then (.ok p.report, s.set d.name p s.os)
    else (s.set d.name p s.os).launch d overrides a

def stopService (name : String) (a : Answers) (s : Supervisor) :
    Except SupervisorError ProcessStatus × Supervisor :=
  match s.processes.lookup name with
  | none => (.error (.unknownProcess name), s)
  | some p => (.ok (p.stop a s.os).1.report, s.set name (p.stop a s.os).1 (p.stop a s.os).2)

def restartService (name : String) (a : Answers) (s : Supervisor) :
    Except SupervisorError ProcessStatus × Supervisor :=
  match s.processes.lookup name with
  | none => (.error (.unknownProcess name), s)
  | some p =>
    match p.restart a s.os with
    | (.ok _, p, os) => (.ok p.report, s.set name p os)
    | (.error e, p, os) => (.error (.process e), s.set name p os)

def status (name : String) (a : Answers) (s : Supervisor) : ProcessStatus × Supervisor :=
  match s.processes.lookup name with
  | some p => ((p.refresh a s.os).report, s.set name (p.refresh a s.os) s.os)
  | none => (⟨name, false, "not_started", none, none⟩, s)

/-- The names in their order. -/
def names (s : Supervisor) : List String := s.processes.keys.mergeSort fun m n => decide (m ≤ n)

def refreshOne (a : String → Answers) (s : Supervisor) (name : String) : Supervisor :=
  (s.status name (a name)).2

def stopOne (a : String → Answers) (s : Supervisor) (name : String) : Supervisor :=
  (s.stopService name (a name)).2

/-- Asking for a status changes one entry, so all of them can be told from the state before. -/
def listStatus (a : String → Answers) (s : Supervisor) : List ProcessStatus × Supervisor :=
  (s.names.map fun name => (s.status name (a name)).1, s.names.foldl (refreshOne a) s)

def stopAll (a : String → Answers) (s : Supervisor) : Supervisor := s.names.foldl (stopOne a) s

inductive Event where
  | start (d : ServiceDefinition) (overrides : List (String × OverrideValue)) (a : Answers)
  | stop (name : String) (a : Answers)
  | restart (name : String) (a : Answers)
  | status (name : String) (a : Answers)
  | listStatus (a : String → Answers)
  | stopAll (a : String → Answers)
  /-- A process ends by itself. -/
  | exits (pid : ℕ) (code : Option ℤ)

def step (s : Supervisor) : Event → Supervisor
  | .start d overrides a => (s.startService d overrides a).2
  | .stop name a => (s.stopService name a).2
  | .restart name a => (s.restartService name a).2
  | .status name a => (s.status name a).2
  | .listStatus a => (s.listStatus a).2
  | .stopAll a => s.stopAll a
  | .exits pid code =>
    match s.os[pid]? with
    | some q =>
      if q.alive then { s with os := s.os.set pid { q with alive := false, exitCode := code } }
      else s
    | none => s

def childOf (name : String) (s : Supervisor) : List ℕ :=
  ((s.processes.lookup name).bind ManagedProcess.child).toList

/-- A child that cannot be asked. -/
def unasked (a : String → Answers) (s : Supervisor) (name : String) : List ℕ :=
  if (a name).waits then [] else s.childOf name

/-- A child that does not end when it is killed. -/
def unstopped (a : String → Answers) (s : Supervisor) (name : String) : List ℕ :=
  if (a name).dies.isSome then [] else s.childOf name

/-- The children that the step gives up: it cannot ask whether they have ended, or they have not
ended ten seconds after they were killed. -/
def givenUp (s : Supervisor) : Event → List ℕ
  | .start d _ a => s.unasked (fun _ => a) d.name
  | .stop name a | .restart name a => s.unstopped (fun _ => a) name
  | .status name a => s.unasked (fun _ => a) name
  | .listStatus a => trace (refreshOne a) (unasked a) s s.names
  | .stopAll a => trace (stopOne a) (unstopped a) s s.names
  | .exits _ _ => []

end Supervisor

end DdsOrchestrator.ControlPanel
