import Simlock.Core.Leases
import Simlock.Core.Persistence

/-! The watcher of physical devices.

    A tick copies the enrolled devices, reads the presence of each platform's devices at once, and
    then takes the devices one at a time. A device that is not present is counted; after enough in a
    row it is marked absent, or its lease is ended. Both are writes in the gate, behind maintenance,
    and the tick waits for them. A module that commits a device `ready` calls `reset` right after: the
    count starts again, and a read begun before no longer counts.

        tick   reading → observing ⇄ waiting (mark absent | end lease | rewrite | reclaim)

    The code does not keep `readied`, `misses` and `absences`: how often a device was committed ready,
    how many reads in a row, begun since the last of these commits, did not find it, and every absence
    that was written with this number. -/

namespace Simlock.Leasing

open Simlock.Lib Simlock.Core

inductive PhysicalRead where
  | present (osVersion : Option String)
  | missing (reason : AbsentReason)
  deriving DecidableEq, Repr

/-- An entry of `listPresentPhysical`. -/
structure PresentPhysical where
  driverDeviceId : String
  present : Bool
  osVersion : Option String
  reason : Option AbsentReason
  deriving DecidableEq, Repr

def PresentPhysical.read (entry : PresentPhysical) : PhysicalRead :=
  if entry.present then .present entry.osVersion
  else .missing (entry.reason.getD .notPresent)

/-- `reads`, of one id: the last entry of it, or not present. -/
def readOf (entries : List PresentPhysical) (driverDeviceId : String) : PhysicalRead :=
  match (entries.filter fun entry => entry.driverDeviceId = driverDeviceId).getLast? with
  | none => .missing .notPresent
  | some entry => entry.read

/-- What the tick waits for in the gate. -/
inductive WatcherWrite where
  | markAbsent (device : PhysicalDevice) (absentReason : AbsentReason)
  | endLease (device : PhysicalDevice) (leaseId : String) (absentReason : AbsentReason)
  | rewriteReason (device : PhysicalDevice) (absentReason : AbsentReason)
  | reclaimReturned (device : PhysicalDevice) (osVersion : Option String)

inductive WatcherPoint where
  | reading
  | observing (entries : List PresentPhysical)
  | waiting (entries : List PresentPhysical) (write : WatcherWrite)

/-- A tick: its copies, the platforms still to read, the devices of the platform still to look at, and
    the generations at the begin of the read. `begun` is `readied` at that time. -/
structure WatcherTick where
  enrolled : List PhysicalDevice
  leaseIds : String → Option String
  platforms : List Platform
  group : List PhysicalDevice
  before : String → Nat
  begun : String → Nat
  point : WatcherPoint

structure PhysicalDeviceWatcher where
  registry : Registry
  counts : String → Nat
  generations : String → Nat
  interrupted : List String
  tick : Option WatcherTick
  disposed : Bool
  resets : List String
  readied : String → Nat
  misses : String → Nat
  absences : List (String × Nat)

/-- The device a call commits `ready`, when that is what the call is for. -/
def readies : Call → Option String
  | .transitionDevice deviceId .ready _ _ => some deviceId
  | .recoverFromQuarantine deviceId .ready => some deviceId
  | .enrollPhysical id _ => some id
  | .reenrollPhysical deviceId _ => some deviceId
  | _ => none

/-- A step of the watcher, or another module's commit. A write has the time it runs at, whether the
    device is claimed then, and whether the disk takes it. -/
inductive WatcherAct where
  | recordInterrupted
  | tick
  | answered (entries : Option (List PresentPhysical))
  | observe
  | write (now : Int) (claimed written : Bool)
  | reset (i : Nat)
  | dispose
  | other (now : Int) (call : Call)

namespace PhysicalDeviceWatcher

variable (stableObservations : Nat) (o : RegistryOptions) (s : PhysicalDeviceWatcher)

def start (r : Registry) : PhysicalDeviceWatcher where
  registry := r
  counts _ := 0
  generations _ := 0
  interrupted := []
  tick := none
  disposed := false
  resets := []
  readied _ := 0
  misses _ := 0
  absences := []

/-- `#enrolled`. -/
def enrolled (r : Registry) : List PhysicalDevice :=
  r.devices.filterMap fun
    | .physical d => if d.state = .deleted then none else some d
    | .virtual _ => none

/-- The ids of the enrolled devices that are being reclaimed. -/
def reclaimingIds (r : Registry) : List String :=
  ((enrolled r).filter fun d => d.state = .reclaiming).map (·.id)

def recordInterrupted : PhysicalDeviceWatcher :=
  { s with interrupted := (s.interrupted ++ reclaimingIds s.registry).eraseDups }

/-- The read of the next platform begins; after the last one the tick is over. -/
def beginRead (t : WatcherTick) : List Platform → PhysicalDeviceWatcher
  | [] => { s with tick := none }
  | platform :: platforms =>
    { s with tick := some { t with
        platforms := platforms
        group := t.enrolled.filter fun d => d.spec.platform = platform
        before := s.generations
        begun := s.readied
        point := .reading } }

def setPoint (t : WatcherTick) (point : WatcherPoint) : PhysicalDeviceWatcher :=
  { s with tick := some { t with point := point } }

/-- The lease of a device; the last one where there are more. -/
def leaseIdOf (r : Registry) (deviceId : String) : Option String :=
  (r.leases.filter fun l => l.deviceId = deviceId).getLast?.map LeaseRecord.id

/-- `#tick`, up to its first read. -/
def startTick : PhysicalDeviceWatcher :=
  if s.disposed || s.tick.isSome then s
  else
    let devices := enrolled s.registry
    let t : WatcherTick :=
      { enrolled := devices
        leaseIds := leaseIdOf s.registry
        platforms := []
        group := []
        before := s.generations
        begun := s.readied
        point := .reading }
    let s := { s with interrupted := s.interrupted.filter (· ∈ reclaimingIds s.registry) }
    s.beginRead t (devices.map (·.spec.platform)).eraseDups

/-- The driver answers, or fails. Its answer comes from a process, so in a task of its own: no commit
    waits for its reset then, since the reset follows its commit in the same task. -/
def answered (entries : Option (List PresentPhysical)) : PhysicalDeviceWatcher :=
  match s.tick with
  | none => s
  | some t =>
    match t.point with
    | .reading =>
      if s.resets ≠ [] then s
      else if s.disposed then { s with tick := none }
      else
        match entries with
        | none => s.beginRead t t.platforms
        | some entries => s.setPoint t (.observing entries)
    | _ => s

/-- What the read adds to the reads in a row that did not find the device. -/
def noted (t : WatcherTick) (deviceId : String) (read : PhysicalRead) : String → Nat :=
  match read with
  | .present _ => Function.update s.misses deviceId 0
  | .missing _ =>
    if t.begun deviceId = s.readied deviceId then
      Function.update s.misses deviceId (s.misses deviceId + 1)
    else s.misses

/-- `#present`, up to its wait. -/
def present (t : WatcherTick) (entries : List PresentPhysical) (device : PhysicalDevice)
    (osVersion : Option String) : PhysicalDeviceWatcher :=
  let s := { s with counts := Function.update s.counts device.id 0 }
  if device.state = .absent then
    s.setPoint t (.waiting entries
      (.reclaimReturned device (some (osVersion.getD device.spec.osVersion))))
  else if device.id ∈ s.interrupted then
    s.setPoint t (.waiting entries (.reclaimReturned device none))
  else s.setPoint t (.observing entries)

/-- `#missed`, up to its wait. -/
def missed (t : WatcherTick) (entries : List PresentPhysical) (device : PhysicalDevice)
    (absentReason : AbsentReason) : PhysicalDeviceWatcher :=
  let count := s.counts device.id + 1
  let s := { s with counts := Function.update s.counts device.id count }
  if count < stableObservations then s.setPoint t (.observing entries)
  else if device.state = .leased then
    match t.leaseIds device.id with
    | none => s.setPoint t (.observing entries)
    | some leaseId => s.setPoint t (.waiting entries (.endLease device leaseId absentReason))
  else s.setPoint t (.waiting entries (.markAbsent device absentReason))

/-- `#observe` of the next device of the group, up to its wait; a disposed watcher stops. -/
def observe : PhysicalDeviceWatcher :=
  match s.tick with
  | none => s
  | some t =>
    match t.point with
    | .observing entries =>
      if s.disposed then { s with tick := none }
      else
        match t.group with
        | [] => s.beginRead t t.platforms
        | device :: group =>
          let read := readOf entries device.driverDeviceId
          let seen := { s with misses := s.noted t device.id read }
          let t := { t with group := group }
          match read with
          | .present osVersion => seen.present t entries device osVersion
          | .missing reason =>
            if device.state = .ready ∨ device.state = .leased then
              if t.before device.id = s.generations device.id then
                seen.missed stableObservations t entries device reason
              else seen.setPoint t (.observing entries)
            else if device.state = .absent ∧ some reason ≠ device.absentReason then
              seen.setPoint t (.waiting entries (.rewriteReason device reason))
            else seen.setPoint t (.observing entries)
    | _ => s

/-- `#unclaimedIn`. -/
def unclaimedIn (deviceId : String) (state : DeviceState) (claimed : Bool) : Bool :=
  (s.registry.device deviceId).any (fun d => d.state = state) && !claimed

/-- The call of a write that is still to be made. -/
def callOf (write : WatcherWrite) (claimed : Bool) : Option Call :=
  if s.disposed then none
  else
    match write with
    | .markAbsent device reason =>
      if s.unclaimedIn device.id .ready claimed then
        some (.transitionDevice device.id .absent (some ⟨.absenceDetected, device.id⟩)
          { absentReason := some reason })
      else none
    | .endLease _ leaseId reason =>
      if (s.registry.lease leaseId).isSome then some (.endLeaseAndMarkDeviceAbsent leaseId reason)
      else none
    | .rewriteReason device reason =>
      if s.unclaimedIn device.id .absent claimed then some (.rewriteAbsentReason device.id reason)
      else none
    | .reclaimReturned .. => none

/-- The device a call of the watcher makes absent. -/
def absentBy (call : Call) : Option String :=
  match call with
  | .transitionDevice deviceId .absent _ _ => some deviceId
  | .endLeaseAndMarkDeviceAbsent leaseId _ => (s.registry.lease leaseId).map (·.deviceId)
  | _ => none

/-- The section of a write; the tick goes on after it. -/
def write (now : Int) (claimed written : Bool) : PhysicalDeviceWatcher :=
  match s.tick with
  | none => s
  | some t =>
    match t.point with
    | .waiting entries pending =>
      let next := s.setPoint t (.observing entries)
      match s.callOf pending claimed with
      | none => next
      | some call =>
        match s.registry.apply o now call with
        | none => next
        | some r =>
          if written then
            { next with
              registry := r
              absences := match s.absentBy call with
                | none => s.absences
                | some deviceId => (deviceId, s.misses deviceId) :: s.absences }
          else next
    | _ => s

def reset (deviceId : String) : PhysicalDeviceWatcher :=
  { s with
    counts := Function.update s.counts deviceId 0
    generations := Function.update s.generations deviceId (s.generations deviceId + 1) }

/-- A physical device was committed ready: its reset is to come. -/
def committedReady (deviceId : String) : PhysicalDeviceWatcher :=
  { s with
    resets := s.resets ++ [deviceId]
    readied := Function.update s.readied deviceId (s.readied deviceId + 1)
    misses := Function.update s.misses deviceId 0 }

/-- Another module's commit. -/
def other (now : Int) (call : Call) : PhysicalDeviceWatcher :=
  match s.registry.apply o now call with
  | none => s
  | some r =>
    let s := { s with registry := r }
    match (readies call).bind r.device with
    | some (.physical d) => s.committedReady d.id
    | _ => s

def step : WatcherAct → PhysicalDeviceWatcher
  | .recordInterrupted => s.recordInterrupted
  | .tick => s.startTick
  | .answered entries => s.answered entries
  | .observe => s.observe stableObservations
  | .write now claimed written => s.write o now claimed written
  | .reset i =>
    match s.resets[i]? with
    | none => s
    | some deviceId => { s.reset deviceId with resets := s.resets.eraseIdx i }
  | .dispose => { s with disposed := true }
  | .other now call => s.other o now call

end PhysicalDeviceWatcher

end Simlock.Leasing
