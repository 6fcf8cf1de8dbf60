import Mathlib.Algebra.Ring.Nat
import Simlock.Lib.Indexed
import Simlock.Lib.Run
import Simlock.Tunnels.Hello

/-! The tunnel sessions of a worker.

    A session is one socket of a lease. Its first frame is a HELLO; when that passes its checks the
    tunnels are counted against the lease and the reverse ones are set on the device one after
    another, each by an awaited driver call:

        attach --HELLO--> setting a rule --set--> ... --> READY
           \                   \ refused
            close, lease end, drain: `finish` gives the count back, then removes the rules

    `finish` runs once, on whichever end comes first. A step here is what runs between two awaits. -/

namespace Simlock.Tunnels

open Lib

/-- `DeviceReverse`: `holdsDeviceRule` is false for one that only listens on the worker. -/
structure Rule where
  devicePort : Int
  holdsDeviceRule : Bool
  deriving DecidableEq, Repr

/-- How the session was finished; a phone's end removes the rules and heeds no signal. -/
structure Ended where
  remove : Bool
  signal : Option Nat
  deriving DecidableEq, Repr

inductive Answer where
  | ready (tunnels : List Tunnel)
  | refused (refusal : Refusal)
  | closed (code : Nat)
  deriving DecidableEq, Repr

/-- Where the session's HELLO stands: at rest (none yet, or settled), in an awaited `reverse` call,
    or in the `finish` a failed call awaits before it refuses. -/
inductive HelloWork where
  | idle
  | setting (tunnels : List Tunnel) (devicePort : Int) (rest : List Tunnel)
  | failing (refused : Refusal)
  deriving DecidableEq, Repr

structure Session where
  leaseId : String
  device : Device
  greeted : Bool
  work : HelloWork
  reserved : Int
  endedWith : Option Ended
  reverses : List Rule
  forwards : List Int
  emulatorNamed : Bool
  /-- The rules `finish` has still to remove, the first one under way. -/
  removing : List Rule
  /-- It is in the lease's set. -/
  listed : Bool
  sent : List Answer
  deriving DecidableEq, Repr

def Session.finished (x : Session) : Bool := x.endedWith.isSome

def Session.ofSocket (leaseId : String) (device : Device) : Session :=
  { leaseId, device, greeted := false, work := .idle, reserved := 0, endedWith := none,
    reverses := [], forwards := [], emulatorNamed := false, removing := [], listed := true,
    sent := [] }

/-- What a session does about a rule on the device. -/
inductive RuleStep where
  | asked | taken | removed
  deriving DecidableEq, Repr

structure RuleEvent where
  session : Nat
  devicePort : Int
  step : RuleStep
  /-- The session had ended by then. -/
  afterEnd : Bool
  deriving DecidableEq, Repr

/-- `createTunnelSessions`: the counts of the leases, the sessions in the order of their sockets,
    the signals that have been aborted, and what was done about rules. -/
structure Sessions where
  counts : String → Int
  sessions : List Session
  aborted : Nat → Bool
  rules : List RuleEvent

def Sessions.init : Sessions :=
  { counts := fun _ => 0, sessions := [], aborted := fun _ => false, rules := [] }

def setCount (counts : String → Int) (leaseId : String) (n : Int) : String → Int :=
  fun l => if l = leaseId then n else counts l

def Sessions.put (s : Sessions) (i : Nat) (x : Session) : Sessions :=
  { s with sessions := s.sessions.set i x }

def Sessions.log (s : Sessions) (i : Nat) (devicePort : Int) (step : RuleStep) (afterEnd : Bool) :
    Sessions :=
  { s with rules := s.rules ++ [{ session := i, devicePort, step, afterEnd }] }

def refusedClose : Nat := 4003
def closeLeaseEnded : Nat := 4001
def closeGoingAway : Nat := 1001

def Session.refuse (x : Session) (refused : Refusal) : Session :=
  { x with sent := x.sent ++ [.refused refused, .closed refusedClose] }

def Session.badRequest (x : Session) (message : String) : Session :=
  x.refuse { code := "BAD_REQUEST", message }

/-! ### The end of a session -/

/-- The rule stays: the reclaim that follows removes it. -/
def leftToReclaim (aborted : Nat → Bool) (ended : Ended) (rule : Rule) : Bool :=
  rule.holdsDeviceRule && (!ended.remove || ended.signal.any aborted)

/-- The loop of `finish` up to its next removal; the session is delisted when none is left. -/
def Session.removeFrom (x : Session) (aborted : Nat → Bool) (ended : Ended) (rules : List Rule) :
    Session :=
  let rest := rules.dropWhile (leftToReclaim aborted ended)
  { x with removing := rest, listed := x.listed && !rest.isEmpty }

def Session.endedBy (x : Session) (aborted : Nat → Bool) (removeRulesAsked : Bool)
    (signalAsked : Option Nat) : Session :=
  let ended : Ended :=
    { remove := removeRulesAsked || x.device.physical
      signal := if x.device.physical then none else signalAsked }
  { x with endedWith := some ended }.removeFrom aborted ended x.reverses

/-- `finish` up to its first await; every later call finds it begun. -/
def Sessions.finish (s : Sessions) (i : Nat) (removeRulesAsked : Bool) (signalAsked : Option Nat) :
    Sessions :=
  match s.sessions[i]? with
  | none => s
  | some x =>
    if x.finished then s
    else
      { s with counts := setCount s.counts x.leaseId (s.counts x.leaseId - x.reserved) }.put i
        (x.endedBy s.aborted removeRulesAsked signalAsked)

/-- A removal is done, or its 10 s are over. -/
def Sessions.removed (s : Sessions) (i : Nat) : Sessions :=
  match s.sessions[i]? with
  | none => s
  | some x =>
    match x.endedWith, x.removing with
    | some ended, rule :: rest =>
      (s.log i rule.devicePort .removed true).put i (x.removeFrom s.aborted ended rest)
    | _, _ => s

/-- `endSessions` takes the sessions listed now; `closed` sends each its close. -/
def Sessions.endOne (leaseId : Option String) (code : Nat) (removeRules : Bool)
    (signal : Option Nat) (s : Sessions) (i : Nat) : Sessions :=
  match s.sessions[i]? with
  | none => s
  | some x =>
    if x.listed ∧ (leaseId = none ∨ leaseId = some x.leaseId) then
      (s.put i { x with sent := x.sent ++ [.closed code] }).finish i removeRules signal
    else s

def Sessions.endSessions (s : Sessions) (leaseId : Option String) (code : Nat)
    (removeRules : Bool) (signal : Option Nat) : Sessions :=
  (List.range s.sessions.length).foldl (Sessions.endOne leaseId code removeRules signal) s

/-! ### HELLO -/

/-- The next tunnel that sets a rule on the device. -/
def nextReverse : List Tunnel → Option (Int × List Tunnel)
  | [] => none
  | .port .reverse devicePort :: rest => some (devicePort, rest)
  | _ :: rest => nextReverse rest

/-- The loop over the tunnels up to its next `reverse` call, or its end. -/
def Sessions.setFrom (s : Sessions) (i : Nat) (x : Session) (tunnels rest : List Tunnel) :
    Sessions :=
  match nextReverse rest with
  | some (devicePort, rest) =>
    (s.log i devicePort .asked x.finished).put i
      { x with work := .setting tunnels devicePort rest }
  | none => s.put i { x with work := .idle, sent := x.sent ++ [.ready tunnels] }

def forwardPorts (tunnels : List Tunnel) : List Int :=
  tunnels.filterMap fun
    | .port .forward devicePort => some devicePort
    | _ => none

/-- `hello` up to its first await; it does not look at whether the session has ended. -/
def Sessions.hello (s : Sessions) (i : Nat) (x : Session) (payload : HelloPayload) : Sessions :=
  match checkHello x.device (s.counts x.leaseId) payload with
  | .error refused => s.put i (x.refuse refused)
  | .ok tunnels =>
    { s with counts := setCount s.counts x.leaseId (s.counts x.leaseId + tunnels.length) }.setFrom i
      { x with
        reserved := tunnels.length
        forwards := x.forwards ++ forwardPorts tunnels
        emulatorNamed := x.emulatorNamed || tunnels.any isEmulator }
      tunnels tunnels

/-- `reverse` answered: a rule that arrives after the end is not taken up. -/
def Sessions.ruleSet (s : Sessions) (i : Nat) (holdsDeviceRule : Bool) : Sessions :=
  match s.sessions[i]? with
  | none => s
  | some x =>
    match x.work with
    | .setting tunnels devicePort rest =>
      let rule : Rule := { devicePort, holdsDeviceRule }
      match x.endedWith with
      | some ended =>
        if leftToReclaim s.aborted ended rule then s.put i { x with work := .idle }
        else (s.log i devicePort .removed true).put i { x with work := .idle }
      | none =>
        (s.log i devicePort .taken x.finished).setFrom i
          { x with reverses := x.reverses ++ [rule] } tunnels rest
    | _ => s

/-- What a `reverse` call fails with: a `DeviceTcpError`, or another error's message. -/
inductive RuleError where
  | deviceTcp (code message : String)
  | other (message : String)

def RuleError.refusal (devicePort : Int) : RuleError → Refusal
  | .deviceTcp code message => { code, message }
  | .other message => { code := "TUNNEL_FAILED", message := s!"reverse {devicePort}: {message}" }

/-- `reverse` failed: the session finishes, and refuses once its removals are done. -/
def Sessions.ruleFailed (s : Sessions) (i : Nat) (error : RuleError) : Sessions :=
  match s.sessions[i]? with
  | none => s
  | some x =>
    match x.work with
    | .setting _ devicePort _ =>
      (s.put i { x with work := .failing (error.refusal devicePort) }).finish i true none
    | _ => s

def Sessions.refuses (s : Sessions) (i : Nat) : Sessions :=
  match s.sessions[i]? with
  | none => s
  | some x =>
    match x.work, x.removing with
    | .failing refused, [] => s.put i ({ x with work := .idle }.refuse refused)
    | _, _ => s

/-- `hello` threw where it answers nothing itself. -/
def Sessions.helloFails (s : Sessions) (i : Nat) : Sessions :=
  match s.sessions[i]? with
  | none => s
  | some x =>
    match x.work with
    | .setting _ _ _ =>
      (s.put i ({ x with work := .idle }.refuse
        { code := "TUNNEL_FAILED", message := "the worker could not set the tunnels up" })).finish
        i true none
    | _ => s

/-! ### Frames and steps -/

/-- A message of the socket: one too short to decode, a HELLO, or a frame of another tag, which
    after the HELLO goes to the connections. -/
inductive Frame where
  | short
  | hello (payload : HelloPayload)
  | other (tag : Nat)

def Sessions.handle (s : Sessions) (i : Nat) (frame : Frame) : Sessions :=
  match s.sessions[i]? with
  | none => s
  | some x =>
    match frame with
    | .short => s.put i (x.badRequest "a frame is shorter than its 5-byte header")
    | .hello payload =>
      if x.greeted then s.put i (x.badRequest "HELLO came twice")
      else s.hello i { x with greeted := true } payload
    | .other _ => if x.greeted then s else s.put i (x.badRequest "a frame came before HELLO")

inductive Action where
  | attach (leaseId : String) (device : Device)
  | frame (i : Nat) (frame : Frame)
  | ruleSet (i : Nat) (holdsDeviceRule : Bool)
  | ruleFailed (i : Nat) (error : RuleError)
  | refuses (i : Nat)
  | helloFails (i : Nat)
  /-- The socket closed. -/
  | closed (i : Nat)
  | removed (i : Nat)
  | endLease (leaseId : String) (signal : Nat)
  | drain
  | abort (signal : Nat)

def step (s : Sessions) : Action → Sessions
  | .attach leaseId device => { s with sessions := s.sessions ++ [Session.ofSocket leaseId device] }
  | .frame i frame => s.handle i frame
  | .ruleSet i holdsDeviceRule => s.ruleSet i holdsDeviceRule
  | .ruleFailed i error => s.ruleFailed i error
  | .refuses i => s.refuses i
  | .helloFails i => s.helloFails i
  | .closed i => s.finish i true none
  | .removed i => s.removed i
  | .endLease leaseId signal =>
    s.endSessions (some leaseId) closeLeaseEnded (!s.aborted signal) (some signal)
  | .drain => s.endSessions none closeGoingAway true none
  | .abort signal => { s with aborted := fun n => if n = signal then true else s.aborted n }

end Simlock.Tunnels
