import Simlock.Core.Persistence
import Simlock.Core.Recovery

/-! The health monitor of leased virtual devices.

    A tick copies the leased devices and the leases of the registry, lists what the driver of each of
    their platforms sees, and then takes the devices one at a time: a device that is not listed is
    counted missing and given up after enough in a row, one that is stopped is handed to a recovery,
    which runs beside the tick. A recovery records its attempt in the gate, waits, reboots the device,
    and takes the recovery marks off when that succeeds.

        tick      polling → looking ⇄ clearing | releasing → settling | recovering
        recovery  marking → backoff → rebooting → clearing | releasing → settling

    Between any two steps another module may commit to the registry. `log` is what the monitor saw
    and did, the newest first; the code does not keep it. -/

namespace Simlock.Leasing

open Simlock.Lib Simlock.Core

structure HealthConfig where
  stableObservations : Nat
  maxRecoveryAttempts : Nat
  maxConcurrentRecoveries : Nat
  deriving Repr

inductive ObservedRunState where
  | running | stopped | transitioning
  deriving DecidableEq, Repr

structure ObservedMark where
  durable : Option String
  erasable : Option String
  erasableReadable : Bool
  deriving DecidableEq, Repr

structure ObservedDevice where
  deviceId : String
  runState : ObservedRunState
  mark : Option ObservedMark
  deriving DecidableEq, Repr

inductive ProvenanceDrift where
  | durableMarkMissing | erased | markMismatch
  deriving DecidableEq, Repr

def provenanceDrift (mark : ObservedMark) : Option ProvenanceDrift :=
  match mark.durable with
  | none => some .durableMarkMissing
  | some durable =>
    if !mark.erasableReadable then none
    else
      match mark.erasable with
      | none => some .erased
      | some erasable => if erasable = durable then none else some .markMismatch

inductive GiveUpReason where
  | attemptsExhausted | deviceMissing | provenanceDrift
  deriving DecidableEq, Repr

structure CrashCounters where
  missing : Nat
  stopped : Nat
  deriving DecidableEq, Repr

/-- What a listing shows of a device. -/
inductive Sight where
  | missing | running | transitioning | stopped
  deriving DecidableEq, Repr

/-- What the monitor saw and did. A lease is named with the device it is on when it ends. -/
inductive Happening where
  | seen (deviceId : String) (sight : Sight)
  | attempted (deviceId : String)
  | recovered (deviceId : String)
  | ended (deviceId leaseId : String) (reason : GiveUpReason)
  deriving DecidableEq, Repr

/-- Where `#recover` is. `releasing` is `#giveUp`, after a reboot of its own failed or without one. -/
inductive RecoveryPoint where
  | marking
  | backoff (attempt : Int)
  | rebooting (attempt : Int)
  | clearing
  | releasing (rebooted : Bool)
  | settling
  deriving DecidableEq, Repr

structure Recovery where
  device : VirtualDevice
  lease : LeaseRecord
  point : RecoveryPoint

/-- Where `#runTick` is. -/
inductive TickPoint where
  | polling (platforms : List Platform)
  | looking
  | clearing (device : VirtualDevice) (lease : LeaseRecord) (drift : Option ProvenanceDrift)
  | releasing (device : VirtualDevice) (lease : LeaseRecord) (reason : GiveUpReason)
  | settling (deviceId : String)
  | recovering (device : VirtualDevice) (lease : LeaseRecord)

/-- A tick, with its copy of the leases and of the leased devices still to look at. -/
structure HealthTick where
  leased : List VirtualDevice
  leases : List LeaseRecord
  observed : Platform → Option (List ObservedDevice)
  point : TickPoint

structure HealthMonitor where
  registry : Registry
  counters : String → Option CrashCounters
  inFlight : List String
  recoveries : List Recovery
  tick : Option HealthTick
  disposed : Bool
  log : List Happening

inductive RebootOutcome where
  | failed | gone | recovered
  deriving DecidableEq, Repr

/-- A step of one recovery. A step in the gate has the time it runs at and whether the disk takes its
    write. -/
inductive RecoveryAct where
  | mark (now : Int) (written : Bool)
  | wake
  | rebooted (outcome : RebootOutcome)
  | clear (now : Int) (written : Bool)
  | release (now : Int) (deferReclaim written : Bool)
  | settled

/-- A step of the monitor, or another module's commit. -/
inductive HealthAct where
  | tick
  | listed (devices : Option (List ObservedDevice))
  | turn
  | dispatch
  | tickClear (now : Int) (written : Bool)
  | tickRelease (now : Int) (deferReclaim written : Bool)
  | tickSettled
  | recovery (i : Nat) (a : RecoveryAct)
  | dispose
  | other (now : Int) (call : Call)

/-- The counters after a sight. -/
def CrashCounters.after (counters : CrashCounters) : Sight → CrashCounters
  | .missing => ⟨counters.missing + 1, 0⟩
  | .running => ⟨0, 0⟩
  | .transitioning => counters
  | .stopped => ⟨0, counters.stopped + 1⟩

namespace HealthMonitor

variable (c : HealthConfig) (o : RegistryOptions) (s : HealthMonitor)

/-- A monitor over the records it finds: what they count was recorded before it started. -/
def start (r : Registry) : HealthMonitor where
  registry := r
  counters _ := none
  inFlight := []
  recoveries := []
  tick := none
  disposed := false
  log := r.devices.flatMap fun d => List.replicate d.recoveryCount.toNat (.attempted d.id)

def setPoint (t : HealthTick) (point : TickPoint) : HealthMonitor :=
  { s with tick := some { t with point := point } }

def setCounters (deviceId : String) (counters : Option CrashCounters) : HealthMonitor :=
  { s with counters := Function.update s.counters deviceId counters }

def happened (h : Happening) : HealthMonitor := { s with log := h :: s.log }

/-! ### The tick -/

/-- `registry.snapshot.virtualDevices`, those that are leased. -/
def leasedDevices (r : Registry) : List VirtualDevice :=
  r.devices.filterMap fun
    | .virtual d => if d.state = .leased then some d else none
    | .physical _ => none

/-- The point of a tick with these platforms still to poll. -/
def afterPoll (platforms : List Platform) : TickPoint :=
  if platforms.isEmpty then .looking else .polling platforms

def startTick : HealthMonitor :=
  if s.disposed || s.tick.isSome then s
  else
    let leased := leasedDevices s.registry
    { s with
      counters := fun id => if id ∈ leased.map (·.id) then s.counters id else none
      tick := some
        { leased := leased
          leases := s.registry.leases
          observed := fun _ => none
          point := afterPoll (leased.map (·.spec.platform)).eraseDups } }

/-- `listManaged` of the next platform answered, or failed. -/
def listed (devices : Option (List ObservedDevice)) : HealthMonitor :=
  match s.tick with
  | some t =>
    match t.point with
    | .polling (platform :: platforms) =>
      { s with tick := some { t with
          observed := Function.update t.observed platform devices
          point := afterPoll platforms } }
    | _ => s
  | none => s

/-- What the loop finds for a device of its copy. -/
inductive Look where
  | skipped
  | unleased
  | unlisted
  | saw (lease : LeaseRecord) (observed : Option ObservedDevice)

def look (t : HealthTick) (device : VirtualDevice) : Look :=
  if device.id ∈ s.inFlight then .skipped
  else
    match t.leases.find? (fun lease => lease.deviceId = device.id) with
    | none => .unleased
    | some lease =>
      match t.observed device.spec.platform with
      | none => .unlisted
      | some devices => .saw lease (devices.find? fun d => d.deviceId = device.driverDeviceId)

def sightOf : Option ObservedDevice → Sight
  | none => .missing
  | some observed =>
    match observed.runState with
    | .running => .running
    | .transitioning => .transitioning
    | .stopped => .stopped

/-- `device` has a recovery mark. -/
def isMarked (device : VirtualDevice) : Bool :=
  device.recoveringSince.isSome || device.recoveryAttempts.isSome

/-- Where `#classifyRunning` goes once the marks are off. -/
def afterClear (device : VirtualDevice) (lease : LeaseRecord) (drift : Option ProvenanceDrift) :
    TickPoint :=
  if drift.isSome then .releasing device lease .provenanceDrift else .looking

/-- `#classify`: where the tick goes from what it saw. -/
def classified (device : VirtualDevice) (lease : LeaseRecord) (observed : Option ObservedDevice)
    (counters : CrashCounters) : TickPoint :=
  match sightOf observed with
  | .missing =>
    if c.stableObservations ≤ counters.missing then .releasing device lease .deviceMissing
    else .looking
  | .running =>
    let drift := (observed.bind ObservedDevice.mark).bind provenanceDrift
    if isMarked device then .clearing device lease drift else afterClear device lease drift
  | .transitioning => .looking
  | .stopped =>
    if c.stableObservations ≤ counters.stopped then .recovering device lease else .looking

/-- One turn of the loop of `#runTick`, up to the first wait. -/
def turn : HealthMonitor :=
  match s.tick with
  | none => s
  | some t =>
    match t.point, t.leased with
    | .looking, [] => { s with tick := none }
    | .looking, device :: rest =>
      let t := { t with leased := rest }
      match s.look t device with
      | .skipped | .unlisted => s.setPoint t .looking
      | .unleased => (s.setCounters device.id none).setPoint t .looking
      | .saw lease observed =>
        let counters := ((s.counters device.id).getD ⟨0, 0⟩).after (sightOf observed)
        ((s.setCounters device.id (some counters)).happened
          (.seen device.id (sightOf observed))).setPoint t
            (classified c device lease observed counters)
    | _, _ => s

/-- `#dispatchRecovery`, with the first steps of `#recover`. -/
def dispatch : HealthMonitor :=
  match s.tick with
  | none => s
  | some t =>
    match t.point with
    | .recovering device lease =>
      if s.disposed || c.maxConcurrentRecoveries ≤ s.inFlight.length then s.setPoint t .looking
      else
        let attemptsSoFar := device.recoveryAttempts.getD 0
        let point : RecoveryPoint :=
          if c.maxRecoveryAttempts ≤ attemptsSoFar then .releasing false else .marking
        { s.setPoint t .looking with
          inFlight := if device.id ∈ s.inFlight then s.inFlight else s.inFlight ++ [device.id]
          recoveries := s.recoveries ++ [⟨device, lease, point⟩] }
    | _ => s

/-! ### The gate -/

/-- `clearRecovery` in the gate; `none` when it throws. -/
def cleared (deviceId : String) (now : Int) (written : Bool) : Option Registry :=
  match s.registry.clearRecovery deviceId with
  | .error _ => none
  | .ok none => some s.registry
  | .ok (some draft) => if written then some (Registry.commit o now draft) else none

/-- The section of `releaseDeviceLost`: it ends the lease of this id, if there is one. -/
def endLease (leaseId : String) (reason : GiveUpReason) (now : Int) (deferReclaim written : Bool) :
    HealthMonitor :=
  match s.registry.lease leaseId with
  | none => s
  | some lease =>
    match s.registry.apply o now (.beginRelease leaseId deferReclaim) with
    | none => s
    | some r =>
      if written then
        { s.happened (.ended lease.deviceId leaseId reason) with registry := r }
      else s

def tickClear (now : Int) (written : Bool) : HealthMonitor :=
  match s.tick with
  | none => s
  | some t =>
    match t.point with
    | .clearing device lease drift =>
      match s.cleared o device.id now written with
      | none => s.setPoint t .looking
      | some r => { s.setPoint t (afterClear device lease drift) with registry := r }
    | _ => s

def tickRelease (now : Int) (deferReclaim written : Bool) : HealthMonitor :=
  match s.tick with
  | none => s
  | some t =>
    match t.point with
    | .releasing device lease reason =>
      (s.endLease o lease.id reason now deferReclaim written).setPoint t (.settling device.id)
    | _ => s

def tickSettled : HealthMonitor :=
  match s.tick with
  | none => s
  | some t =>
    match t.point with
    | .settling deviceId => (s.setCounters deviceId none).setPoint t .looking
    | _ => s

/-! ### Recoveries -/

def setRecovery (i : Nat) (x : Recovery) (point : RecoveryPoint) : HealthMonitor :=
  { s with recoveries := s.recoveries.set i { x with point := point } }

def endRecovery (i : Nat) (x : Recovery) : HealthMonitor :=
  { s with
    inFlight := s.inFlight.filter (· ≠ x.device.id)
    recoveries := s.recoveries.eraseIdx i }

/-- `markRecoveryAttempt` in the gate, and what `#recover` makes of the record it returns. -/
def mark (i : Nat) (x : Recovery) (now : Int) (written : Bool) : HealthMonitor :=
  match s.registry.device x.device.id,
      s.registry.apply o now (.markRecoveryAttempt x.device.id now) with
  | some d, some r =>
    if written then
      let attempt := d.recoveryCount + 1
      { (s.happened (.attempted x.device.id)).setRecovery i x
          (if attempt = 1 then .rebooting attempt else .backoff attempt) with registry := r }
    else s.endRecovery i x
  | _, _ => s.endRecovery i x

/-- `recoverLeased` returned, or threw. -/
def rebooted (i : Nat) (x : Recovery) (attempt : Int) : RebootOutcome → HealthMonitor
  | .failed =>
    if c.maxRecoveryAttempts ≤ attempt then s.setRecovery i x (.releasing true)
    else s.endRecovery i x
  | .gone => (s.setCounters x.device.id none).endRecovery i x
  | .recovered => (s.happened (.recovered x.device.id)).setRecovery i x .clearing

/-- The step of a recovery, if it is at its point. -/
def recoveryStep (i : Nat) (x : Recovery) (a : RecoveryAct) : HealthMonitor :=
  match x.point, a with
  | .marking, .mark now written => s.mark o i x now written
  | .backoff attempt, .wake =>
    if s.disposed then s.endRecovery i x else s.setRecovery i x (.rebooting attempt)
  | .rebooting attempt, .rebooted outcome => s.rebooted c i x attempt outcome
  | .clearing, .clear now written =>
    match s.cleared o x.device.id now written with
    | none => s.endRecovery i x
    | some r => { (s.setCounters x.device.id none).endRecovery i x with registry := r }
  | .releasing _, .release now deferReclaim written =>
    (s.endLease o x.lease.id .attemptsExhausted now deferReclaim written).setRecovery i x .settling
  | .settling, .settled => (s.setCounters x.device.id none).endRecovery i x
  | _, _ => s

/-- Another module's commit: any call but the monitor's own two. An id it gives is not in use. -/
def other (now : Int) (call : Call) : HealthMonitor :=
  let fresh := call.adds.all fun added => added.1 ∉ s.registry.devices.map Device.id
  if call.marksRecovery || !fresh then s
  else
    match s.registry.apply o now call with
    | none => s
    | some r => { s with registry := r }

def step (a : HealthAct) : HealthMonitor :=
  match a with
  | .tick => s.startTick
  | .listed devices => s.listed devices
  | .turn => s.turn c
  | .dispatch => s.dispatch c
  | .tickClear now written => s.tickClear o now written
  | .tickRelease now deferReclaim written => s.tickRelease o now deferReclaim written
  | .tickSettled => s.tickSettled
  | .recovery i a =>
    match s.recoveries[i]? with
    | none => s
    | some x => s.recoveryStep c o i x a
  | .dispose => { s with disposed := true }
  | .other now call => s.other o now call

end HealthMonitor

/-! ### The cause of an ending -/

/-- The conclusive sights of a device at the end of the log that did not find it listed. -/
def missesInARow (deviceId : String) : List Happening → Nat
  | [] => 0
  | .seen id sight :: older =>
    if id = deviceId then
      match sight with
      | .missing => missesInARow deviceId older + 1
      | .transitioning => missesInARow deviceId older
      | .running | .stopped => 0
    else missesInARow deviceId older
  | _ :: older => missesInARow deviceId older

/-- The attempts recorded since the device was last seen running or recovered. -/
def attemptsSince (deviceId : String) : List Happening → Nat
  | [] => 0
  | .attempted id :: older =>
    if id = deviceId then attemptsSince deviceId older + 1 else attemptsSince deviceId older
  | .recovered id :: older => if id = deviceId then 0 else attemptsSince deviceId older
  | .seen id sight :: older =>
    if id = deviceId ∧ sight = .running then 0 else attemptsSince deviceId older
  | .ended .. :: older => attemptsSince deviceId older

/-- What the monitor must have seen of a device before it ends its lease for a reason. -/
def HasCause (c : HealthConfig) (deviceId : String) (older : List Happening) : GiveUpReason → Prop
  | .deviceMissing => c.stableObservations ≤ missesInARow deviceId older
  | .attemptsExhausted => c.maxRecoveryAttempts ≤ attemptsSince deviceId older
  | .provenanceDrift => True

instance HasCause.decidable (c : HealthConfig) (deviceId : String) (older : List Happening) :
    ∀ reason, Decidable (HasCause c deviceId older reason)
  | .deviceMissing => Nat.decLe _ _
  | .attemptsExhausted => Nat.decLe _ _
  | .provenanceDrift => .isTrue trivial

/-- Every lease the monitor ended had its cause in what happened before. -/
def EndsWithCause (c : HealthConfig) : List Happening → Prop
  | [] => True
  | .ended deviceId _ reason :: older => HasCause c deviceId older reason ∧ EndsWithCause c older
  | .seen .. :: older | .attempted _ :: older | .recovered _ :: older => EndsWithCause c older

instance EndsWithCause.decidable (c : HealthConfig) :
    ∀ log : List Happening, Decidable (EndsWithCause c log)
  | [] => .isTrue trivial
  | .ended .. :: older => @instDecidableAnd _ _ _ (EndsWithCause.decidable c older)
  | .seen .. :: older => EndsWithCause.decidable c older
  | .attempted _ :: older => EndsWithCause.decidable c older
  | .recovered _ :: older => EndsWithCause.decidable c older

end Simlock.Leasing
