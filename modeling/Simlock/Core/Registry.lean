import Simlock.Core.Domain
import Simlock.Lib.Keyed

/-! The registry: the committed records of a worker and every operation on them.

    An operation reads the committed lists, builds the next ones and hands them to `commit`, which
    also drops what has expired. Records are immutable, so an entry of a next list is the committed
    object itself or a new one (`Obj`), and the writer stores just the new ones.

    An operation answers an error and commits nothing, or finds nothing to commit (`none`), or
    commits its draft. -/

namespace Simlock.Core

open Simlock.Lib

/-- What the registry is built with. The config loader refuses a `deletedRetentionMs` below
    `requestRetentionMs`, and a retention that is not positive. -/
structure RegistryOptions where
  leaseIdentity : Platform → LeaseIdentity
  retentionMs : Int
  maxRecords : Nat
  deletedRetentionMs : Int
  retention_pos : 0 < retentionMs
  retention_le : retentionMs ≤ deletedRetentionMs

structure Registry where
  devices : List Device
  leases : List LeaseRecord
  leaseRequests : List LeaseRequestRecord
  components : List ComponentRecord

def Registry.empty : Registry := ⟨[], [], [], []⟩

inductive RegistryError where
  | unknownDevice (deviceId : String)
  | unknownLease (leaseId : String)
  | registryEvent (message : String)
  | illegalTransition (source target : DeviceState)
  deriving DecidableEq, Repr

/-- The lists an operation hands to `#commit`. -/
structure Draft where
  devices : List (Obj Device)
  leases : List (Obj LeaseRecord)
  leaseRequests : List (Obj LeaseRequestRecord)
  components : List (Obj ComponentRecord)

def Registry.draft (r : Registry) : Draft :=
  ⟨keep r.devices, keep r.leases, keep r.leaseRequests, keep r.components⟩

def Draft.setDevice (d : Draft) (device : Device) : Draft :=
  { d with devices := replaceFirst (fun x => x.id = device.id) device d.devices }

/-! ### Lease requests -/

/-- An open record is always retained; a settled one only until `retentionMs` after it settled. -/
def isRetained (now retentionMs : Int) (record : LeaseRequestRecord) : Bool :=
  !isSettled record || now < record.settledAt.getD now + retentionMs

def retainedLeaseRequests (records : List (Obj LeaseRequestRecord)) (now retentionMs : Int) :
    List (Obj LeaseRequestRecord) := records.filter (fun o => isRetained now retentionMs o.val)

/-- The `while` loop of `withNewLeaseRequest`; each turn takes one record out. -/
def evictSettled (maxRecords : Nat) :
    Nat → List (Obj LeaseRequestRecord) → List (Obj LeaseRequestRecord)
  | 0, kept => kept
  | fuel + 1, kept =>
    if kept.length < maxRecords then kept
    else
      match kept.findIdx? (fun o => isSettled o.val) with
      | none => kept
      | some i => evictSettled maxRecords fuel (kept.eraseIdx i)

def withNewLeaseRequest (records : List (Obj LeaseRequestRecord)) (record : LeaseRequestRecord)
    (now : Int) (o : RegistryOptions) : List (Obj LeaseRequestRecord) :=
  let kept := retainedLeaseRequests records now o.retentionMs
  evictSettled o.maxRecords kept.length kept ++ [⟨record, true⟩]

inductive LeaseRequestOutcome where
  | granted (grant : LeaseGrant)
  | failed (failure : LeaseRequestFailure)
  | cancelled
  deriving DecidableEq

/-- `{ ...open, ...outcome, settledAt: now }`. -/
def LeaseRequestOutcome.settle (record : LeaseRequestRecord) (now : Int) :
    LeaseRequestOutcome → LeaseRequestRecord
  | .granted grant => { record with state := .granted, grant := some grant, settledAt := some now }
  | .failed failure =>
    { record with state := .failed, failure := some failure, settledAt := some now }
  | .cancelled => { record with state := .cancelled, settledAt := some now }

/-- The records with the open one of this id settled; `none` when there is none. -/
def withSettledLeaseRequest (records : List (Obj LeaseRequestRecord)) (id : String)
    (outcome : LeaseRequestOutcome) (now : Int) : Option (List (Obj LeaseRequestRecord)) :=
  match records.find? (fun o => o.val.id = id) with
  | none => none
  | some o =>
    if isSettled o.val then none
    else some (replaceFirst (fun r => r.id = id) (outcome.settle o.val now) records)

/-- What a request is stored with; `id` is minted by the caller or by the store. -/
structure NewLeaseRequest where
  id : String
  requesterId : String
  ownerId : String
  idempotencyKey : Option String
  leaseId : Option String
  fleetRequestId : Option String
  request : DeviceRequest

def newLeaseRequestRecord (input : NewLeaseRequest) (now : Int) : LeaseRequestRecord where
  id := input.id
  requesterId := input.requesterId
  ownerId := input.ownerId
  idempotencyKey := input.idempotencyKey
  leaseId := input.leaseId
  fleetRequestId := input.fleetRequestId
  request := input.request
  createdAt := now
  state := .open_
  settledAt := none
  grant := none
  failure := none

/-! ### The commit -/

/-- A cause goes when its device leaves quarantine, however it left. -/
def withoutCauseUnlessQuarantined (o : Obj Device) : Obj Device :=
  if o.val.state = .quarantined || o.val.fields.quarantineCause.isNone then o
  else ⟨o.val.setFields { o.val.fields with quarantineCause := none }, true⟩

def stampDeleted (now : Int) (o : Obj Device) : Obj Device :=
  if o.val.state = .deleted && o.val.fields.deletedAt.isNone then
    ⟨o.val.setFields { o.val.fields with deletedAt := some now }, true⟩
  else o

def isExpired (now retentionMs : Int) (d : Device) : Bool :=
  match d.fields.deletedAt with
  | none => false
  | some deletedAt => retentionMs < now - deletedAt

/-- The lists `#commit` stores: stamped, without the deleted devices that expired, and then
    without the requests that did. -/
def Draft.settled (d : Draft) (o : RegistryOptions) (now : Int) : Draft :=
  let stamped := d.devices.map (fun x => stampDeleted now (withoutCauseUnlessQuarantined x))
  let committed := stamped.filter (fun x => !isExpired now o.deletedRetentionMs x.val)
  { d with
    devices := committed
    leaseRequests :=
      if committed.length < stamped.length then
        retainedLeaseRequests d.leaseRequests now o.retentionMs
      else d.leaseRequests }

def Draft.registry (d : Draft) : Registry :=
  ⟨vals d.devices, vals d.leases, vals d.leaseRequests, vals d.components⟩

namespace Registry

variable (r : Registry) (o : RegistryOptions) (now : Int)

/-- The state after `#commit`. -/
def commit (d : Draft) : Registry := (d.settled o now).registry

def device (deviceId : String) : Option Device := r.devices.find? (fun d => d.id = deviceId)

def lease (leaseId : String) : Option LeaseRecord := r.leases.find? (fun l => l.id = leaseId)

/-- Some active lease names the device. -/
def isLeased (deviceId : String) : Bool := r.leases.any (fun l => l.deviceId = deviceId)

def requireDeviceRecord (deviceId : String) : Except RegistryError Device :=
  match r.device deviceId with
  | none => .error (.unknownDevice deviceId)
  | some d => .ok d

def requireLease (leaseId : String) : Except RegistryError LeaseRecord :=
  match r.lease leaseId with
  | none => .error (.unknownLease leaseId)
  | some l => .ok l

/-! ### Devices -/

def transitioned (d : Device) (target : DeviceState) (update : DeviceTransitionUpdate) :
    Except RegistryError Device :=
  let update :=
    if target = .ready then { update with readyAt := some now }
    else if target = .shutdown then { update with shutdownAt := some now }
    else if target = .reclaiming && d.isPhysical then { update with reclaimingSince := some now }
    else update
  match transition d target update with
  | none => .error (.illegalTransition d.state target)
  | some d' => .ok d'

inductive DeviceEvent where
  | ready | reclaimed | shutdown | absenceDetected | returned | deleted
  deriving DecidableEq, Repr

def DeviceEvent.text : DeviceEvent → String
  | .ready => "device.ready"
  | .reclaimed => "device.reclaimed"
  | .shutdown => "device.shutdown"
  | .absenceDetected => "device.absence-detected"
  | .returned => "device.returned"
  | .deleted => "device.deleted"

/-- The event a caller passes with a transition, and the device its payload names. -/
structure RegistryDeviceEvent where
  event : DeviceEvent
  deviceId : String
  deriving DecidableEq, Repr

def eventForTransition (source target : DeviceState) : Option DeviceEvent :=
  if target = .absent then some .absenceDetected
  else if source = .absent && target = .reclaiming then some .returned
  else if source = .reclaiming then some .reclaimed
  else if target = .ready then some .ready
  else if target = .shutdown then some .shutdown
  else if target = .deleted then some .deleted
  else none

def assertTransitionEvent (d : Device) (target : DeviceState) (event : Option RegistryDeviceEvent) :
    Except RegistryError Unit :=
  let expected := eventForTransition d.state target
  if event.map RegistryDeviceEvent.event ≠ expected then
    let source := d.state.text
    let goal := target.text
    let needed := (expected.map DeviceEvent.text).getD "no"
    .error (.registryEvent s!"Transition from {source} to {goal} requires {needed} device event")
  else
    match event with
    | some e =>
      if e.deviceId ≠ d.id then
        let deviceId := d.id
        .error (.registryEvent s!"Device event payload does not match device: {deviceId}")
      else .ok ()
    | none => .ok ()

/-- `registerDevice`, with the id the generator gave. -/
def registerDevice (id driverDeviceId : String) (spec : VirtualSpec) (driverData : DriverData) :
    Except RegistryError (Option Draft) :=
  let record : VirtualDevice :=
    { id := id
      driverDeviceId := driverDeviceId
      createdAt := now
      lastLeaseEndedAt := none
      readyAt := none
      shutdownAt := none
      deletedAt := none
      foreignStateDetectedAt := none
      foreignProvenanceDetectedAt := none
      recoveringSince := none
      recoveryAttempts := none
      deferredReclaimLeaseId := none
      quarantinedAt := none
      quarantineAttempts := none
      quarantineNextRetryAt := none
      quarantineCause := none
      address := none
      spec := spec
      state := .provisioning
      mode := .full
      except_ := none
      leaseIdentity := some (o.leaseIdentity spec.platform)
      driverData := driverData }
  .ok (some { r.draft with devices := keep r.devices ++ [⟨.virtual record, true⟩] })

def transitionDevice (deviceId : String) (target : DeviceState)
    (event : Option RegistryDeviceEvent) (update : DeviceTransitionUpdate) :
    Except RegistryError (Option Draft) := do
  let d ← r.requireDeviceRecord deviceId
  if target = .deleted && r.isLeased deviceId then
    .error (.registryEvent s!"Cannot delete device with an active lease: {deviceId}")
  else
    assertTransitionEvent d target event
    let updated ← transitioned now d target update
    return some (r.draft.setDevice updated)

def recordRebootedDevice (deviceId address : String) (driverData : DriverData) (mode : DeviceMode) :
    Except RegistryError (Option Draft) := do
  match ← r.requireDeviceRecord deviceId with
  | .virtual d =>
    if d.state = .ready then
      return some (r.draft.setDevice
        (.virtual { d with address := some address, driverData := driverData, mode := mode }))
    else
      .error (.registryEvent s!"Only a ready virtual device can be rebooted: {deviceId}")
  | .physical _ =>
    .error (.registryEvent s!"Only a ready virtual device can be rebooted: {deviceId}")

def completeReclaimWithoutPurge (deviceId : String) : Except RegistryError (Option Draft) := do
  let d ← r.requireDeviceRecord deviceId
  if d.state ≠ .reclaiming then .error (.registryEvent s!"Device is not reclaiming: {deviceId}")
  else
    let updated ← transitioned now d .shutdown {}
    return some (r.draft.setDevice updated)

def enterQuarantine (deviceId : String) (nextRetryAt : Int) (cause : QuarantineCause) :
    Except RegistryError (Option Draft) := do
  let d ← r.requireDeviceRecord deviceId
  if d.state ≠ .reclaiming && d.state ≠ .provisioning && d.state ≠ .shutdown then
    .error (.registryEvent s!"Device is not reclaiming, provisioning, or shutdown: {deviceId}")
  else
    let moved ← transitioned now d .quarantined {}
    return some (r.draft.setDevice (moved.setFields { moved.fields with
      quarantineAttempts := some 0
      quarantineNextRetryAt := some nextRetryAt
      quarantinedAt := some now
      quarantineCause := some cause }))

def requireQuarantined (deviceId : String) : Except RegistryError Device := do
  let d ← r.requireDeviceRecord deviceId
  if d.state ≠ .quarantined then .error (.registryEvent s!"Device is not quarantined: {deviceId}")
  else return d

def recordQuarantineRetryFailure (deviceId : String) (attempts nextRetryAt : Int) :
    Except RegistryError (Option Draft) := do
  let d ← r.requireQuarantined deviceId
  return some (r.draft.setDevice (d.setFields { d.fields with
    quarantineAttempts := some attempts
    quarantineNextRetryAt := some nextRetryAt }))

/-- `recoverFromQuarantine`; its callers pass `ready` or `shutdown`. -/
def recoverFromQuarantine (deviceId : String) (target : DeviceState) :
    Except RegistryError (Option Draft) := do
  let d ← r.requireQuarantined deviceId
  let moved ← transitioned now d target {}
  return some (r.draft.setDevice (moved.setFields moved.fields.withoutQuarantine))

def strandQuarantine (deviceId : String) (attempts : Int) : Except RegistryError (Option Draft) := do
  let d ← r.requireQuarantined deviceId
  return some (r.draft.setDevice (d.setFields { d.fields with
    quarantineNextRetryAt := none
    quarantineAttempts := some attempts }))

def deleteQuarantined (deviceId : String) : Except RegistryError (Option Draft) := do
  let d ← r.requireQuarantined deviceId
  let moved ← transitioned now d .deleted {}
  return some (r.draft.setDevice (moved.setFields moved.fields.withoutQuarantine))

def markForeignStateDetected (deviceId : String) (at_ : Int) :
    Except RegistryError (Option Draft) := do
  let d ← r.requireDeviceRecord deviceId
  if d.fields.foreignStateDetectedAt.isSome then return none
  else
    return some (r.draft.setDevice (d.setFields { d.fields with
      foreignStateDetectedAt := some at_ }))

def markForeignProvenanceDetected (deviceId : String) (at_ : Int) :
    Except RegistryError (Option Draft) := do
  let d ← r.requireDeviceRecord deviceId
  if d.fields.foreignProvenanceDetectedAt.isSome then return none
  else
    return some (r.draft.setDevice (d.setFields { d.fields with
      foreignProvenanceDetectedAt := some at_ }))

def clearForeignStateDetected (deviceId : String) : Except RegistryError (Option Draft) := do
  let d ← r.requireDeviceRecord deviceId
  if d.fields.foreignStateDetectedAt.isNone then return none
  else return some (r.draft.setDevice (d.setFields { d.fields with foreignStateDetectedAt := none }))

def markRecoveryAttempt (deviceId : String) (at_ : Int) : Except RegistryError (Option Draft) := do
  let d ← r.requireDeviceRecord deviceId
  return some (r.draft.setDevice (d.setFields { d.fields with
    recoveringSince := some (d.fields.recoveringSince.getD at_)
    recoveryAttempts := some (d.fields.recoveryAttempts.getD 0 + 1) }))

def clearRecovery (deviceId : String) : Except RegistryError (Option Draft) := do
  let d ← r.requireDeviceRecord deviceId
  if d.fields.recoveringSince.isNone && d.fields.recoveryAttempts.isNone then return none
  else return some (r.draft.setDevice (d.setFields d.fields.withoutRecovery))

/-- The lists `#commitMissing` commits, with the leases that are left. -/
def missing (d : Device) (leases : List (Obj LeaseRecord)) : Except RegistryError Draft :=
  match d with
  | .physical d =>
    let deviceId := d.id
    .error (.registryEvent s!"Cannot mark a physical device missing: {deviceId}")
  | .virtual d =>
    let deleted : Device := .virtual { d with
      toDeviceRecordFields :=
        { d.toDeviceRecordFields.withoutRecovery with deferredReclaimLeaseId := none }
      state := .deleted }
    .ok { r.draft.setDevice deleted with leases := leases }

def markDeviceMissing (deviceId : String) : Except RegistryError (Option Draft) := do
  let d ← r.requireDeviceRecord deviceId
  if r.isLeased deviceId then
    .error (.registryEvent s!"Cannot mark leased device missing: {deviceId}")
  else if d.state = .deleted then return none
  else return some (← r.missing d (keep r.leases))

/-- The leases without the one that ends. -/
def leasesWithout (leaseId : String) : List (Obj LeaseRecord) :=
  (keep r.leases).filter (fun l => l.val.id ≠ leaseId)

def endLeaseAndMarkDeviceMissing (leaseId : String) : Except RegistryError (Option Draft) := do
  let lease ← r.requireLease leaseId
  let d ← r.requireDeviceRecord lease.deviceId
  return some (← r.missing d (r.leasesWithout leaseId))

def endLeaseAndMarkDeviceAbsent (leaseId : String) (absentReason : AbsentReason) :
    Except RegistryError (Option Draft) := do
  let lease ← r.requireLease leaseId
  let d ← r.requireDeviceRecord lease.deviceId
  let moved ← transitioned now d .absent { absentReason := some absentReason }
  return some { r.draft.setDevice (moved.setFields { moved.fields with
    lastLeaseEndedAt := some now }) with leases := r.leasesWithout leaseId }

def rewriteAbsentReason (deviceId : String) (absentReason : AbsentReason) :
    Except RegistryError (Option Draft) := do
  match ← r.requireDeviceRecord deviceId with
  | .physical d =>
    if d.state = .absent then
      return some (r.draft.setDevice (.physical { d with absentReason := some absentReason }))
    else .error (.registryEvent s!"Device is not absent: {deviceId}")
  | .virtual _ => .error (.registryEvent s!"Device is not absent: {deviceId}")

/-! ### Physical devices -/

structure PhysicalEnrollmentInput where
  platform : Platform
  driverDeviceId : String
  model : String
  osVersion : String
  class_ : PhysicalClass
  apps : List String

/-- `enrollPhysical`, with the id the generator gave. -/
def enrollPhysical (id : String) (input : PhysicalEnrollmentInput) :
    Except RegistryError (Option Draft) :=
  let record : PhysicalDevice :=
    { id := id
      driverDeviceId := input.driverDeviceId
      createdAt := now
      lastLeaseEndedAt := none
      readyAt := some now
      shutdownAt := none
      deletedAt := none
      foreignStateDetectedAt := none
      foreignProvenanceDetectedAt := none
      recoveringSince := none
      recoveryAttempts := none
      deferredReclaimLeaseId := none
      quarantinedAt := none
      quarantineAttempts := none
      quarantineNextRetryAt := none
      quarantineCause := none
      address := none
      spec := ⟨input.platform, input.model, input.osVersion, input.class_⟩
      state := .ready
      enrolledApps := input.apps
      reclaimingSince := none
      absentReason := none }
  .ok (some { r.draft with devices := keep r.devices ++ [⟨.physical record, true⟩] })

def reenrollPhysical (deviceId : String) (input : PhysicalEnrollmentInput) :
    Except RegistryError (Option Draft) := do
  match ← r.requireDeviceRecord deviceId with
  | .virtual _ => .error (.registryEvent s!"Cannot re-enrol device: {deviceId}")
  | .physical d =>
    let kept : PhysicalDevice := { d with
      toDeviceRecordFields :=
        { d.toDeviceRecordFields.withoutQuarantine with deferredReclaimLeaseId := none } }
    match (if d.state = .ready then some kept else transitionPhysical kept .ready {}) with
    | none => .error (.registryEvent s!"Cannot re-enrol device: {deviceId}")
    | some settled =>
      return some (r.draft.setDevice (.physical { settled with
        enrolledApps := input.apps
        readyAt := some now
        spec := ⟨d.spec.platform, input.model, input.osVersion, input.class_⟩ }))

def unenrollPhysical (deviceId : String) : Except RegistryError (Option Draft) := do
  match ← r.requireDeviceRecord deviceId with
  | .virtual _ => .error (.registryEvent s!"Cannot unenrol device: {deviceId}")
  | .physical d =>
    let kept : PhysicalDevice := { d with
      toDeviceRecordFields := d.toDeviceRecordFields.withoutQuarantine }
    match transitionPhysical kept .deleted {} with
    | none => .error (.registryEvent s!"Cannot unenrol device: {deviceId}")
    | some updated => return some (r.draft.setDevice (.physical updated))

/-! ### Leases -/

/-- The request a lease answers, settled in the commit that adds the lease. -/
structure GrantedRequest where
  id : String
  environment : Entries
  timing : LeaseTiming

structure CreateLeaseInput where
  deviceId : String
  requesterId : String
  ownerId : String
  ttlMs : Int
  ttlDeadline : Int
  leaseId : Option String
  except_ : Option ExceptList
  request : Option GrantedRequest

/-- What the grant writes on the device besides its state. -/
def withExcept (except_ : Option ExceptList) : Device → Device
  | .virtual d => .virtual { d with except_ := except_ <|> d.except_ }
  | .physical d => .physical d

/-- `createLease`; `generated` is the id the generator gives when the requester chose none. -/
def createLease (generated : String) (input : CreateLeaseInput) :
    Except RegistryError (Option Draft) := do
  let d ← r.requireDeviceRecord input.deviceId
  if r.isLeased input.deviceId then
    let deviceId := input.deviceId
    .error (.registryEvent s!"Device already has an active lease: {deviceId}")
  else
    let leased ← transitioned now d .leased {}
    let leasedDevice := withExcept input.except_ leased
    let lease : LeaseRecord :=
      { id := input.leaseId.getD generated
        deviceId := input.deviceId
        requesterId := input.requesterId
        ownerId := input.ownerId
        grantedAt := now
        ttlMs := input.ttlMs
        ttlDeadline := input.ttlDeadline
        lastRenewedAt := now
        idChosenByRequester := input.leaseId.isSome }
    let requests := keep r.leaseRequests
    let leaseRequests :=
      match input.request with
      | none => requests
      | some q =>
        (withSettledLeaseRequest requests q.id
          (.granted ⟨leasedDevice, q.environment, lease, q.timing⟩) now).getD requests
    return some { r.draft.setDevice leasedDevice with
      leases := keep r.leases ++ [⟨lease, true⟩]
      leaseRequests := leaseRequests }

def beginRelease (leaseId : String) (deferReclaim : Bool) : Except RegistryError (Option Draft) := do
  let lease ← r.requireLease leaseId
  let d ← r.requireDeviceRecord lease.deviceId
  let moved ← transitioned now (d.setFields d.fields.withoutRecovery) .reclaiming {}
  return some { r.draft.setDevice (moved.setFields { moved.fields with
    lastLeaseEndedAt := some now
    deferredReclaimLeaseId :=
      if deferReclaim then some leaseId else moved.fields.deferredReclaimLeaseId }) with
    leases := r.leasesWithout leaseId }

def renewLease (leaseId : String) (ttlDeadline ttlMs : Int) :
    Except RegistryError (Option Draft) := do
  let lease ← r.requireLease leaseId
  return some { r.draft with
    leases := replaceFirst (fun l => l.id = leaseId)
      { lease with lastRenewedAt := now, ttlDeadline := ttlDeadline, ttlMs := ttlMs }
      (keep r.leases) }

/-! ### Requests and components -/

/-- A granted request names its device by id; it is read with the device as it is now. -/
def withCurrentDevice (record : LeaseRequestRecord) : LeaseRequestRecord :=
  match record.grant with
  | none => record
  | some grant =>
    match r.device grant.device.id with
    | none => record
    | some d => { record with grant := some { grant with device := d } }

/-- `leaseRequests()`. -/
def leaseRequestsAt : List LeaseRequestRecord :=
  (r.leaseRequests.filter (isRetained now o.retentionMs)).map r.withCurrentDevice

def createLeaseRequest (input : NewLeaseRequest) : Except RegistryError (Option Draft) :=
  .ok (some { r.draft with
    leaseRequests :=
      withNewLeaseRequest (keep r.leaseRequests) (newLeaseRequestRecord input now) now o })

def settleLeaseRequest (id : String) (outcome : LeaseRequestOutcome) :
    Except RegistryError (Option Draft) :=
  .ok ((withSettledLeaseRequest (keep r.leaseRequests) id outcome now).map
    fun leaseRequests => { r.draft with leaseRequests := leaseRequests })

/-- The loop of `failOpenLeaseRequests` over the ids of the open requests. -/
def failOpen (failure : LeaseRequestFailure) :
    List String → List (Obj LeaseRequestRecord) → List (Obj LeaseRequestRecord)
  | [], records => records
  | id :: ids, records =>
    failOpen failure ids
      ((withSettledLeaseRequest records id (.failed failure) now).getD records)

def failOpenLeaseRequests (failure : LeaseRequestFailure) : Except RegistryError (Option Draft) :=
  let open_ := (r.leaseRequests.filter (fun q => !isSettled q)).map LeaseRequestRecord.id
  if open_.isEmpty then .ok none
  else .ok (some { r.draft with
    leaseRequests := failOpen now failure open_ (keep r.leaseRequests) })

/-- The components without the one of this platform and version. -/
def componentsWithout (platform : Platform) (version : String) : List (Obj ComponentRecord) :=
  (keep r.components).filter (fun c => c.val.platform ≠ platform || c.val.version ≠ version)

def recordComponent (record : ComponentRecord) : Except RegistryError (Option Draft) :=
  .ok (some { r.draft with
    components := r.componentsWithout record.platform record.version ++ [⟨record, true⟩] })

def deleteComponent (platform : Platform) (version : String) :
    Except RegistryError (Option Draft) :=
  let components := r.componentsWithout platform version
  if components.length = r.components.length then .ok none
  else .ok (some { r.draft with components := components })

end Registry

end Simlock.Core
