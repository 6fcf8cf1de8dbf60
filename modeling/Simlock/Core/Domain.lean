import Mathlib.Data.List.Basic

/-! The records of a worker: devices, leases, lease requests and components.

    A device is virtual (a simulator or emulator the worker made) or physical (one an admin
    enrolled). Each kind has its own states and its own table of legal moves; a virtual device never
    is `absent`, a physical one never `provisioning` or `shutdown`.

        virtual    provisioning → ready → leased → reclaiming → shutdown → deleted
        physical   ready → leased → reclaiming → ready,  any time out of use → absent

    Times are milliseconds of the worker's clock. -/

namespace Simlock.Core

inductive Platform where
  | ios | android
  deriving DecidableEq, Repr

inductive DeviceClass where
  | phone | tablet | watch | tv | vision | auto | desktop
  deriving DecidableEq, Repr

inductive DeviceMode where
  | slim | full
  deriving DecidableEq, Repr

inductive PhysicalClass where
  | phone | tablet
  deriving DecidableEq, Repr

inductive LeaseIdentity where
  | reusable | fresh
  deriving DecidableEq, Repr

inductive AbsentReason where
  | locked | untrusted | notPresent
  deriving DecidableEq, Repr

structure BaselineRef where
  name : String
  version : Int
  deriving DecidableEq, Repr

/-- A virtual device's spec; `slim` is its optional mode, which is only ever `"slim"`. -/
structure VirtualSpec where
  platform : Platform
  model : String
  osVersion : String
  slim : Bool
  imageTag : Option String
  baseline : Option BaselineRef
  deriving DecidableEq, Repr

structure PhysicalSpec where
  platform : Platform
  model : String
  osVersion : String
  class_ : PhysicalClass
  deriving DecidableEq, Repr

/-- The mode a spec plans. -/
def VirtualSpec.mode (s : VirtualSpec) : DeviceMode := if s.slim then .slim else .full

/-- The categories a lease keeps running: one or more names, as the request boundary admits them,
    so none has a comma. -/
structure ExceptList where
  names : List String
  nonempty : names ≠ []
  plain : ∀ n ∈ names, ',' ∉ n.toList
  deriving DecidableEq

inductive VirtualState where
  | provisioning | ready | leased | reclaiming | quarantined | shutdown | deleted
  deriving DecidableEq, Repr

inductive PhysicalState where
  | ready | absent | leased | reclaiming | quarantined | deleted
  deriving DecidableEq, Repr

inductive DeviceState where
  | provisioning | ready | leased | reclaiming | quarantined | shutdown | deleted | absent
  deriving DecidableEq, Repr

def DeviceState.text : DeviceState → String
  | .provisioning => "provisioning"
  | .ready => "ready"
  | .leased => "leased"
  | .reclaiming => "reclaiming"
  | .quarantined => "quarantined"
  | .shutdown => "shutdown"
  | .deleted => "deleted"
  | .absent => "absent"

def VirtualState.toState : VirtualState → DeviceState
  | .provisioning => .provisioning
  | .ready => .ready
  | .leased => .leased
  | .reclaiming => .reclaiming
  | .quarantined => .quarantined
  | .shutdown => .shutdown
  | .deleted => .deleted

def PhysicalState.toState : PhysicalState → DeviceState
  | .ready => .ready
  | .absent => .absent
  | .leased => .leased
  | .reclaiming => .reclaiming
  | .quarantined => .quarantined
  | .deleted => .deleted

/-- `isVirtualState`, with the state it found. -/
def DeviceState.asVirtual : DeviceState → Option VirtualState
  | .provisioning => some .provisioning
  | .ready => some .ready
  | .leased => some .leased
  | .reclaiming => some .reclaiming
  | .quarantined => some .quarantined
  | .shutdown => some .shutdown
  | .deleted => some .deleted
  | .absent => none

/-- `isPhysicalState`, with the state it found. -/
def DeviceState.asPhysical : DeviceState → Option PhysicalState
  | .ready => some .ready
  | .absent => some .absent
  | .leased => some .leased
  | .reclaiming => some .reclaiming
  | .quarantined => some .quarantined
  | .deleted => some .deleted
  | _ => none

inductive QuarantineKind where
  | purgeFailed | shutdownFailed | deleteFailed | stalled
  deriving DecidableEq, Repr

inductive StalledState where
  | provisioning | reclaiming
  deriving DecidableEq, Repr

structure QuarantineCause where
  kind : QuarantineKind
  stalledState : Option StalledState
  message : Option String
  deriving DecidableEq, Repr

structure IosDriverData where
  deviceTypeId : String
  name : String
  runtimeId : String
  slimMarkToken : Option String
  slimSignature : Option String
  udid : String
  deriving DecidableEq, Repr

structure AndroidDriverData where
  avdHome : Option String
  avdName : String
  configHash : String
  imageIdentity : Option String
  port : Int
  serial : String
  deriving DecidableEq, Repr

/-- What a driver keeps with a virtual device. The core passes it on unread. -/
inductive DriverData where
  | ios (data : IosDriverData)
  | android (data : AndroidDriverData)
  deriving DecidableEq, Repr

/-- The fields both kinds of device have. -/
structure DeviceRecordFields where
  id : String
  driverDeviceId : String
  createdAt : Int
  lastLeaseEndedAt : Option Int
  readyAt : Option Int
  shutdownAt : Option Int
  deletedAt : Option Int
  foreignStateDetectedAt : Option Int
  foreignProvenanceDetectedAt : Option Int
  recoveringSince : Option Int
  recoveryAttempts : Option Int
  deferredReclaimLeaseId : Option String
  quarantinedAt : Option Int
  quarantineAttempts : Option Int
  quarantineNextRetryAt : Option Int
  quarantineCause : Option QuarantineCause
  address : Option String
  deriving DecidableEq, Repr

/-- The fields without the marks quarantine keeps for its retries. -/
def DeviceRecordFields.withoutQuarantine (fs : DeviceRecordFields) : DeviceRecordFields :=
  { fs with quarantineAttempts := none, quarantineNextRetryAt := none, quarantinedAt := none }

/-- The fields without the marks of a recovery boot. -/
def DeviceRecordFields.withoutRecovery (fs : DeviceRecordFields) : DeviceRecordFields :=
  { fs with recoveringSince := none, recoveryAttempts := none }

structure VirtualDevice extends DeviceRecordFields where
  spec : VirtualSpec
  state : VirtualState
  mode : DeviceMode
  except_ : Option ExceptList
  leaseIdentity : Option LeaseIdentity
  driverData : DriverData
  deriving DecidableEq

structure PhysicalDevice extends DeviceRecordFields where
  spec : PhysicalSpec
  state : PhysicalState
  enrolledApps : List String
  reclaimingSince : Option Int
  absentReason : Option AbsentReason
  deriving DecidableEq

inductive Device where
  | virtual (d : VirtualDevice)
  | physical (d : PhysicalDevice)
  deriving DecidableEq

namespace Device

/-- The fields both kinds share. -/
def fields : Device → DeviceRecordFields
  | .virtual d => d.toDeviceRecordFields
  | .physical d => d.toDeviceRecordFields

def setFields (fs : DeviceRecordFields) : Device → Device
  | .virtual d => .virtual { d with toDeviceRecordFields := fs }
  | .physical d => .physical { d with toDeviceRecordFields := fs }

def id (d : Device) : String := d.fields.id

def isPhysical : Device → Bool
  | .virtual _ => false
  | .physical _ => true

def state : Device → DeviceState
  | .virtual d => d.state.toState
  | .physical d => d.state.toState

def platform : Device → Platform
  | .virtual d => d.spec.platform
  | .physical d => d.spec.platform

@[simp] theorem fields_setFields (fs : DeviceRecordFields) (d : Device) :
    (d.setFields fs).fields = fs := by cases d <;> rfl

@[simp] theorem state_setFields (fs : DeviceRecordFields) (d : Device) :
    (d.setFields fs).state = d.state := by cases d <;> rfl

@[simp] theorem isPhysical_setFields (fs : DeviceRecordFields) (d : Device) :
    (d.setFields fs).isPhysical = d.isPhysical := by cases d <;> rfl

@[simp] theorem platform_setFields (fs : DeviceRecordFields) (d : Device) :
    (d.setFields fs).platform = d.platform := by cases d <;> rfl

end Device

def DriverData.platform : DriverData → Platform
  | .ios _ => .ios
  | .android _ => .android

/-- A virtual device whose driver data is not its platform's. -/
def ForeignData : Device → Prop
  | .virtual v => v.driverData.platform ≠ v.spec.platform
  | .physical _ => False

/-- May this device be handed to a new lease? A virtual device serves one lease. -/
def mayBeGranted (d : Device) : Bool := d.isPhysical || d.fields.lastLeaseEndedAt.isNone

/-! ### Transitions -/

def legalTransitions : VirtualState → List VirtualState
  | .provisioning => [.ready, .deleted, .quarantined]
  | .ready => [.leased, .shutdown]
  | .leased => [.reclaiming]
  | .reclaiming => [.ready, .shutdown, .quarantined]
  | .quarantined => [.ready, .shutdown, .deleted]
  | .shutdown => [.ready, .deleted, .quarantined]
  | .deleted => []

def legalPhysicalTransitions : PhysicalState → List PhysicalState
  | .ready => [.leased, .absent, .deleted]
  | .leased => [.reclaiming, .absent]
  | .reclaiming => [.ready, .quarantined, .absent]
  | .quarantined => [.ready, .deleted]
  | .absent => [.reclaiming, .ready, .deleted]
  | .deleted => []

/-- What a caller hands over with a transition. `address`, `driverData` and `mode` come with a
    virtual device's boot; `osVersion` and `absentReason` with a physical device's presence. -/
structure DeviceTransitionUpdate where
  address : Option String := none
  readyAt : Option Int := none
  shutdownAt : Option Int := none
  reclaimingSince : Option Int := none
  driverData : Option DriverData := none
  mode : Option DeviceMode := none
  osVersion : Option String := none
  absentReason : Option AbsentReason := none

/-- The shared fields after a transition: a deferred reclaim ends with it. -/
def DeviceRecordFields.moved (fs : DeviceRecordFields) (update : DeviceTransitionUpdate) :
    DeviceRecordFields :=
  { fs with
    deferredReclaimLeaseId := none
    address := update.address <|> fs.address
    readyAt := update.readyAt <|> fs.readyAt
    shutdownAt := update.shutdownAt <|> fs.shutdownAt }

def transitionVirtual (current : VirtualDevice) (target : VirtualState)
    (update : DeviceTransitionUpdate) : Option VirtualDevice :=
  if target ∉ legalTransitions current.state then none
  else
    -- nothing listens at the old address of a device that stops
    let fs := if target = .shutdown then { current.toDeviceRecordFields with address := none }
      else current.toDeviceRecordFields
    some { current with
      toDeviceRecordFields := fs.moved update
      driverData := update.driverData.getD current.driverData
      mode := update.mode.getD current.mode
      state := target }

def transitionPhysical (current : PhysicalDevice) (target : PhysicalState)
    (update : DeviceTransitionUpdate) : Option PhysicalDevice :=
  if target ∉ legalPhysicalTransitions current.state then none
  else
    some { current with
      toDeviceRecordFields := current.toDeviceRecordFields.moved update
      spec := { current.spec with osVersion := update.osVersion.getD current.spec.osVersion }
      reclaimingSince := update.reclaimingSince <|> current.reclaimingSince
      absentReason := if target = .absent then update.absentReason else none
      state := target }

/-- `transition`; `none` is the `IllegalTransition`. -/
def transition (current : Device) (target : DeviceState) (update : DeviceTransitionUpdate) :
    Option Device :=
  match current with
  | .virtual d => (target.asVirtual.bind (transitionVirtual d · update)).map .virtual
  | .physical d => (target.asPhysical.bind (transitionPhysical d · update)).map .physical

/-! ### Leases and lease requests -/

structure LeaseRecord where
  id : String
  deviceId : String
  requesterId : String
  ownerId : String
  grantedAt : Int
  ttlMs : Int
  ttlDeadline : Int
  lastRenewedAt : Int
  idChosenByRequester : Bool
  deriving DecidableEq, Repr

structure LeaseTiming where
  estimatedProvisionMs : Int
  estimatedBootMs : Int
  estimatedReclaimMs : Int
  estimatedReadyMs : Int
  deriving DecidableEq, Repr

/-- A record of texts by text: its entries in insertion order, each key once. -/
structure Entries where
  pairs : List (String × String)
  nodup : (pairs.map Prod.fst).Nodup
  deriving DecidableEq

structure LeaseGrant where
  device : Device
  environment : Entries
  lease : LeaseRecord
  timing : LeaseTiming
  deriving DecidableEq

inductive LeaseRequestState where
  | open_ | granted | failed | cancelled
  deriving DecidableEq, Repr

structure LeaseRequestFailure where
  code : String
  message : String
  deriving DecidableEq, Repr

structure DeviceRequest where
  platform : Platform
  model : Option String
  osVersion : Option String
  mode : Option DeviceMode
  imageTag : Option String
  baseline : Option String
  except_ : Option ExceptList
  class_ : Option DeviceClass
  physical : Option Bool
  deriving DecidableEq

structure LeaseRequestRecord where
  id : String
  requesterId : String
  ownerId : String
  idempotencyKey : Option String
  leaseId : Option String
  fleetRequestId : Option String
  request : DeviceRequest
  createdAt : Int
  state : LeaseRequestState
  settledAt : Option Int
  grant : Option LeaseGrant
  failure : Option LeaseRequestFailure
  deriving DecidableEq

def isSettled (record : LeaseRequestRecord) : Bool := record.state ≠ .open_

/-- A component the worker installed. A version is a line of a tool's output: it has no NUL. -/
structure ComponentRecord where
  platform : Platform
  version : String
  installedAt : Int
  receipt : Entries
  plain : '\x00' ∉ version.toList
  deriving DecidableEq

end Simlock.Core
