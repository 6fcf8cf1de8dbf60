import Mathlib.Logic.Function.Basic
import Simlock.Lib.Run

/-! The updater's run, step by step, beside the daemons of the host.

    Each awaited step of `runUpdater` is a stage, and what the step answers is the action taken in
    it. Between two steps the daemons go on: they open the databases, write them, listen, exit.

        installing ─▶ stopping ─▶ old daemon awaited ─▶ backup ─▶ start ─▶ running awaited ─▶ done
                                                                    └──────────┴─▶ rollback:
        daemon probed ─▶ result written ─▶ reinstalling ─▶ socket free ─▶ restore ─▶ start ─▶ done

    A killed process exits some time later. Only the updater starts daemons, and a daemon may open
    the databases at any moment of its life. -/

namespace Simlock.Updater

open Simlock.Lib

def databaseFiles : List String :=
  ["state.db", "history.db"].flatMap fun name => [name, name ++ "-wal", name ++ "-shm"]

/-- A daemon process: does it live, does it have the databases open, was it sent SIGKILL? -/
structure Daemon where
  alive : Bool
  opened : Bool
  killed : Bool
  deriving DecidableEq, Repr

/-- A version of the run: the one it installs, or the one it goes back to. -/
inductive Version
  | source
  | target
  deriving DecidableEq, Repr

inductive Stage
  | installing
  | stopping
  | waitingStopped
  | clearing
  | backingUp (rest : List String)
  | starting (version : Version)
  | awaiting (version : Version)
  | probing (reason : String)
  | stoppingNew (reason : String)
  | waitingNew (reason : String)
  | recording (reason : String)
  | reinstalling
  | checking
  | stoppingAnswering
  | waitingAnswering
  | restoring (rest : List String)
  | deleting (code : Nat)
  | finished (code : Nat)
  deriving DecidableEq, Repr

inductive Event
  | started (version : Version)
  | running (version : Version)
  deriving DecidableEq, Repr

/-- The updater and the host: the daemons, the old one first; the data directory; what the old daemon
    left; the backup this run made; what was seen, the last first. -/
structure Run (β : Type) where
  stage : Stage
  daemons : List Daemon
  files : String → Option β
  left : Option (String → Option β)
  backup : String → Option β
  made : Bool
  result : Option String
  stderr : List String
  seen : List Event

variable {β : Type}

/-- `runUpdater` called, with the old daemon running. -/
def Run.start (files : String → Option β) : Run β :=
  { stage := .installing, daemons := [⟨true, true, false⟩], files, left := none,
    backup := fun _ => none, made := false, result := none, stderr := [], seen := [] }

/-- What `probe.state()` answers. -/
structure DaemonState where
  health : String
  version : String
  deriving DecidableEq, Repr

/-- How `daemon start` ended. -/
inductive Command
  | exited (ok : Bool) (stderr : String)
  | timedOut
  deriving DecidableEq, Repr

inductive Action (β : Type)
  | npm (ok : Bool) (message : String)
  | stopReturned
  | poll (listening alive expired : Bool)
  | proceed
  | command (outcome : Command)
  | state (answer : Option DaemonState) (expired : Bool)
  | launch
  | opens (daemon : Nat)
  | writes (daemon : Nat) (name : String) (content : Option β)
  | exits (daemon : Nat)

namespace Run

-- the names of the two versions, `from` and `to`
variable (names : Version → String)

/-- The rollback failed: it is told, and the backup stays. -/
def rollbackFailed (message : String) (s : Run β) : Run β :=
  { s with
    stage := .finished 1
    stderr := s.stderr ++ ["rollback to " ++ names .source ++ " failed: " ++ message ++ "\n"] }

/-- `startDaemon`, from its first turn on. -/
def startDaemon (version : Version) (s : Run β) : Run β :=
  { s with stage := .starting version, seen := .started version :: s.seen }

/-- What follows when a started daemon did not come up. -/
def startFailed (version : Version) (reason : String) (s : Run β) : Run β :=
  match version with
  | .target => { s with stage := .probing reason }
  | .source => s.rollbackFailed names reason

/-- `npm.install` answered. -/
def npm (ok : Bool) (message : String) (s : Run β) : Run β :=
  match s.stage with
  | .installing => { s with stage := if ok then .stopping else .finished 1 }
  | .reinstalling => if ok then { s with stage := .checking } else s.rollbackFailed names message
  | _ => s

/-- `probe.stop()` returned, or its call limit expired. -/
def stopReturned (s : Run β) : Run β :=
  match s.stage with
  | .stopping => { s with stage := .waitingStopped }
  | .stoppingNew reason => { s with stage := .waitingNew reason }
  | .stoppingAnswering => { s with stage := .waitingAnswering }
  | _ => s

/-- The old daemon's process, which a signal ends some time later. -/
def signalOld (s : Run β) : Run β :=
  { s with daemons := s.daemons.modify 0 fun old => { old with killed := true } }

/-- One round of a wait: the socket and, for the old daemon, its pid; a wait past its deadline gives
    up. -/
def poll (listening alive expired : Bool) (s : Run β) : Run β :=
  match s.stage with
  | .waitingStopped =>
    if listening ∨ alive then
      if expired then { s.signalOld with stage := .clearing } else s
    else { s with stage := .clearing }
  | .waitingNew reason =>
    if listening then if expired then { s with stage := .recording reason } else s
    else { s with stage := .recording reason }
  | .checking =>
    if listening then { s with stage := .stoppingAnswering }
    else { s with stage := .restoring databaseFiles }
  | .waitingAnswering =>
    if listening then
      if expired then
        s.rollbackFailed names
          "a daemon still holds the socket, so the database copy was not restored"
      else s
    else { s with stage := .restoring databaseFiles }
  | _ => s

/-- The steps on the data directory. -/
def proceed (s : Run β) : Run β :=
  match s.stage with
  | .clearing => { s with stage := .backingUp databaseFiles, backup := fun _ => none, made := true }
  | .backingUp [] => s.startDaemon .target
  | .backingUp (name :: rest) =>
    { s with
      stage := .backingUp rest
      backup := match s.files name with
        | some content => Function.update s.backup name (some content)
        | none => s.backup }
  | .recording reason =>
    { s with
      stage := .reinstalling
      result := some (names .target ++ " did not start: " ++ reason) }
  | .restoring [] => s.startDaemon .source
  | .restoring (name :: rest) =>
    { s with
      stage := .restoring rest
      files := Function.update s.files name (s.backup name) }
  | .deleting code =>
    { s with stage := .finished code, backup := fun _ => none, made := false }
  | _ => s

def command (outcome : Command) (s : Run β) : Run β :=
  match s.stage with
  | .starting version =>
    match outcome with
    | .timedOut => s.startFailed names version "daemon start: did not exit within 2 minutes"
    | .exited false stderr => s.startFailed names version ("daemon start: " ++ stderr)
    | .exited true _ => { s with stage := .awaiting version }
  | _ => s

/-- An answer of `probe.state()`, or none within its call limit. -/
def state (answer : Option DaemonState) (expired : Bool) (s : Run β) : Run β :=
  match s.stage with
  | .awaiting version =>
    if answer = some ⟨"running", names version⟩ then
      { s with
        stage := .deleting (match version with | .target => 0 | .source => 1)
        seen := .running version :: s.seen }
    else if answer.map (·.health) = some "failed" then s.startFailed names version "health failed"
    else if expired then s.startFailed names version "did not answer within 2 minutes"
    else s
  | .probing reason =>
    match answer with
    | some _ => { s with stage := .stoppingNew reason }
    | none => { s with stage := .recording reason }
  | _ => s

/-! ### The daemons -/

/-- A daemon is launched by a running `daemon start`. -/
def launch (s : Run β) : Run β :=
  match s.stage with
  | .starting _ => { s with daemons := s.daemons ++ [⟨true, false, false⟩] }
  | _ => s

def opens (i : Nat) (s : Run β) : Run β :=
  { s with daemons := s.daemons.modify i fun daemon => { daemon with opened := daemon.alive } }

/-- Whoever has the databases open may write any of them, or remove it. -/
def writes (i : Nat) (name : String) (content : Option β) (s : Run β) : Run β :=
  match s.daemons[i]? with
  | some daemon =>
    if daemon.opened then { s with files := Function.update s.files name content } else s
  | none => s

/-- A process exits; what the old one leaves is noted. -/
def exits (i : Nat) (s : Run β) : Run β :=
  { s with
    daemons := s.daemons.modify i fun daemon => { daemon with alive := false, opened := false }
    left := if i = 0 ∧ s.left = none then some s.files else s.left }

/-- The old daemon's process lives. -/
def oldAlive (s : Run β) : Bool := s.daemons.head?.any (·.alive)

def anyAlive (s : Run β) : Bool := s.daemons.any (·.alive)

end Run

/-- A pid that is answered to be gone has gone. -/
def step (names : Version → String) (s : Run β) : Action β → Run β
  | .npm ok message => s.npm names ok message
  | .stopReturned => s.stopReturned
  | .poll listening alive expired =>
    if alive = false ∧ s.oldAlive = true ∧ s.stage = .waitingStopped then s
    else s.poll names listening alive expired
  | .proceed => s.proceed names
  | .command outcome => s.command names outcome
  | .state answer expired => s.state names answer expired
  | .launch => s.launch
  | .opens i => s.opens i
  | .writes i name content => s.writes i name content
  | .exits i => s.exits i

end Simlock.Updater
