import Simlock.Core.OperationClaims
import Simlock.WarmPool.Policy

/-! The acquisition planner: which device a request gets, or what must happen before it gets one.

    A plan is chosen down a cascade, and takes the claims and the reservations its operation needs:

        ready ──▶ on its way ──▶ shut down ──────▶ new
        grant       wait         boot, or evict    provision, or evict

    A refusal for a running slot picks a victim that runs idle; one for a device slot picks any idle
    device of the platform. Every other refusal waits. -/

namespace Simlock.Leasing
open Core WarmPool

/-! ### What a request asks -/

def exactRequirement (spec : VirtualSpec) : DeviceRequirement where
  platform := spec.platform
  target := .model spec.model
  osVersion := .requested (.exact spec.osVersion)
  imageTag := spec.imageTag
  baseline := spec.baseline

structure PlannerSnapshot where
  devices : List Device
  leases : List LeaseRecord

def virtualOf : Device → Option VirtualDevice
  | .virtual device => some device
  | .physical _ => none

/-- As the registry derives them. -/
def PlannerSnapshot.virtualDevices (snapshot : PlannerSnapshot) : List VirtualDevice :=
  snapshot.devices.filterMap virtualOf

/-- `specMode`: a physical device has no mode, which reads as full. -/
def specMode : Device → DeviceMode
  | .virtual device => device.spec.mode
  | .physical _ => .full

/-- `fits`, for a device of either kind. -/
def fitsDevice (requirement : DeviceRequirement) (classOf : String → Option DeviceClass) :
    Device → Bool
  | .virtual device => fits requirement device.spec classOf
  | .physical _ => false

structure PlannerInput where
  noWait : Bool
  owner : Option String
  snapshot : PlannerSnapshot
  spec : VirtualSpec
  requirement : Option DeviceRequirement
  /-- A slim request with an except list: a ready device is rebooted with the list first. -/
  rebootReady : Bool
  classOf : String → Option DeviceClass

structure PhysicalPlanInput where
  request : DeviceRequest
  noWait : Bool
  owner : String
  snapshot : PlannerSnapshot
  absent : List String
  heldByOlder : PhysicalDevice → Bool

inductive WaitingReason where
  | capacity (reason : CapacityRefusalReason)
  | behindEarlierRequest | waitingForDevice | noFreePhysical
  deriving DecidableEq, Repr

/-- A reservation a plan carries is named by its token. -/
inductive AcquisitionPlan where
  | grantReady (device : Device)
  | rebootReady (claim : DeviceOperationClaim) (device : VirtualDevice)
  | grantPhysical (claim : DeviceOperationClaim) (device : PhysicalDevice)
  | bootShutdown (capacityReservation : Nat) (claim : DeviceOperationClaim) (device : VirtualDevice)
  | provision (reservation : Nat)
  | evictRunning (claim : DeviceOperationClaim) (device : VirtualDevice) (reason : WaitingReason)
  | evictManaged (claim : DeviceOperationClaim) (device : VirtualDevice) (reason : WaitingReason)
  | wait (reason : WaitingReason)
  | noCapacity (reason : WaitingReason)
  deriving DecidableEq

def blocked (noWait : Bool) (reason : WaitingReason) : AcquisitionPlan :=
  if noWait then .noCapacity reason else .wait reason

namespace PlannerInput

variable (input : PlannerInput)

def required : DeviceRequirement := input.requirement.getD (exactRequirement input.spec)

/-- An idle device that fits, and is in the mode the new device would have. -/
def serves (device : Device) : Bool :=
  mayBeGranted device && specMode device = input.spec.mode &&
    fitsDevice input.required input.classOf device

def capacityDevices : List CapacityDevice := input.snapshot.virtualDevices.map capacityDevice

end PlannerInput

/-! ### Victims -/

inductive IdleVictimScope where
  | global
  | platform (platform : Platform)

/-- `compareLeastRecentlyUsed(left, right) <= 0`; `localeLe` is `left.localeCompare(right) <= 0`. -/
def compareLeastRecentlyUsed (localeLe : String → String → Bool) (left right : VirtualDevice) :
    Bool :=
  lastUsed left < lastUsed right || (lastUsed left = lastUsed right && localeLe left.id right.id)

/-- The first device in the order of use. -/
def leastRecent (localeLe : String → String → Bool) (devices : List VirtualDevice) :
    Option VirtualDevice :=
  (devices.insertionSort fun left right => compareLeastRecentlyUsed localeLe left right).head?

def IdleVictimScope.takes (scope : IdleVictimScope) (device : VirtualDevice) : Bool :=
  match scope with
  | .global => true
  | .platform asked => device.spec.platform = asked

def selectIdleRunningVictim (localeLe : String → String → Bool) (devices : List VirtualDevice)
    (scope : IdleVictimScope) : Option VirtualDevice :=
  leastRecent localeLe (devices.filter fun device => device.state = .ready && scope.takes device)

def selectManagedVictim (localeLe : String → String → Bool) (devices : List VirtualDevice)
    (platform : Platform) : Option VirtualDevice :=
  leastRecent localeLe (devices.filter fun device =>
    device.spec.platform = platform && (device.state = .ready || device.state = .shutdown))

/-! ### The planner -/

/-- What a worker's planner reads besides its own state. -/
structure PlannerHost where
  strategy : CapacityStrategy
  newDevicesPaused : Bool
  localeLe : String → String → Bool

structure AcquisitionPlanner where
  capacity : CapacityCoordinator
  claims : DeviceOperationClaims

namespace AcquisitionPlanner

variable (host : PlannerHost) (p : AcquisitionPlanner) (input : PlannerInput) (token : Nat)

def servesRequest (device : Device) : Bool :=
  !p.claims.isClaimed device.id && input.serves device

def isOnItsWay (device : VirtualDevice) : Bool :=
  (device.state = .provisioning || device.state = .shutdown) &&
    p.claims.claim device.id = some (.boot, none) && input.serves (.virtual device)

/-- No lease and no operation claim. -/
def eligibleEvictionDevices : List VirtualDevice :=
  let leased := input.snapshot.leases.map (·.deviceId)
  input.snapshot.virtualDevices.filter fun device =>
    !leased.contains device.id && !p.claims.isClaimed device.id

def runningCapacity (platform : Option Platform) : RunningCapacityEntry :=
  Core.runningCapacity input.capacityDevices p.capacity.allRunningReservations
    host.strategy.limits platform

/-- The request's platform has no running slot left. -/
def platformBlocked : Bool :=
  let entry := p.runningCapacity host input (some input.spec.platform)
  entry.maxRunning ≤ entry.running + entry.reserved

def runningVictim (reason : CapacityRefusalReason) : Option VirtualDevice :=
  if reason ≠ .globalRunningLimit ∧ reason ≠ .platformRunningLimit then none
  else
    selectIdleRunningVictim host.localeLe (p.eligibleEvictionDevices input)
      (if p.platformBlocked host input then .platform input.spec.platform else .global)

/-- The end of `#claimEviction` and of `#claimManagedEviction`, with the plan each makes. -/
def claimVictim (plan : DeviceOperationClaim → VirtualDevice → WaitingReason → AcquisitionPlan)
    (device : VirtualDevice) (reason : WaitingReason) : AcquisitionPlan × AcquisitionPlanner :=
  let claim : DeviceOperationClaim := ⟨device.id, .eviction, none, token⟩
  match p.claims.tryClaim claim with
  | none => (blocked input.noWait reason, p)
  | some claims => (plan claim device reason, { p with claims := claims })

def claimEviction := p.claimVictim input token .evictRunning

def claimManagedEviction := p.claimVictim input token .evictManaged

/-- A refusal's victim is evicted; without one the request is blocked. -/
def evictOrBlock (reason : CapacityRefusalReason) : AcquisitionPlan × AcquisitionPlanner :=
  match p.runningVictim host input reason with
  | none => (blocked input.noWait (.capacity reason), p)
  | some victim => p.claimEviction input token victim (.capacity reason)

def planReady (ready : Device) : AcquisitionPlan × AcquisitionPlanner :=
  match ready with
  | .physical _ => (.grantReady ready, p)
  | .virtual device =>
    if !input.rebootReady then (.grantReady ready, p)
    else if host.newDevicesPaused then (blocked input.noWait (.capacity .memoryPressure), p)
    else
      let claim : DeviceOperationClaim := ⟨device.id, .boot, input.owner, token⟩
      match p.claims.tryClaim claim with
      | none => (blocked input.noWait .waitingForDevice, p)
      | some claims => (.rebootReady claim device, { p with claims := claims })

def planShutdownBoot (device : VirtualDevice) : AcquisitionPlan × AcquisitionPlanner :=
  match p.capacity.tryReserveBoot host.strategy host.newDevicesPaused token device.id
      (capacityDevice device) input.capacityDevices with
  | .error reason => p.evictOrBlock host input token reason
  | .ok capacity =>
    let claim : DeviceOperationClaim := ⟨device.id, .boot, input.owner, token⟩
    match p.claims.tryClaim claim with
    | none =>
      (blocked input.noWait .waitingForDevice, { p with capacity := capacity.release token })
    | some claims => (.bootShutdown token claim device, ⟨capacity, claims⟩)

def planProvision : AcquisitionPlan × AcquisitionPlanner :=
  match p.capacity.tryReserveProvisioning host.strategy host.newDevicesPaused token
      (plannedCapacityDevice input.spec) input.capacityDevices with
  | .ok capacity => (.provision token, { p with capacity := capacity })
  | .error .deviceLimit =>
    match selectManagedVictim host.localeLe (p.eligibleEvictionDevices input)
        input.spec.platform with
    | some victim => p.claimManagedEviction input token victim (.capacity .deviceLimit)
    | none => p.evictOrBlock host input token .deviceLimit
  | .error reason => p.evictOrBlock host input token reason

/-- The first ready device that serves. -/
def readyDevice : Option Device :=
  input.snapshot.devices.find? fun device =>
    device.state = .ready && p.servesRequest input device

/-- The first device that is shut down and serves. -/
def shutdownDevice : Option VirtualDevice :=
  input.snapshot.virtualDevices.find? fun device =>
    device.state = .shutdown && p.servesRequest input (.virtual device)

/-- `token` names what the plan takes. -/
def plan : AcquisitionPlan × AcquisitionPlanner :=
  match p.readyDevice input with
  | some ready => p.planReady host input token ready
  | none =>
    if !input.noWait && input.snapshot.virtualDevices.any (p.isOnItsWay input) then
      (.wait .waitingForDevice, p)
    else
      match p.shutdownDevice input with
      | some device => p.planShutdownBoot host input token device
      | none => p.planProvision host input token

end AcquisitionPlanner

/-- The loop of `planPhysical`, with whether a device is held for an older request. -/
def AcquisitionPlanner.planPhysicalFrom (p : AcquisitionPlanner) (input : PhysicalPlanInput)
    (token : Nat) : List Device → Bool → AcquisitionPlan × AcquisitionPlanner
  | [], heldForOlder =>
    (blocked input.noWait (if heldForOlder then .behindEarlierRequest else .noFreePhysical), p)
  | .virtual _ :: devices, heldForOlder => p.planPhysicalFrom input token devices heldForOlder
  | .physical device :: devices, heldForOlder =>
    if device.state ≠ .ready ∨ device.id ∈ input.absent ∨
        fitsPhysical device input.request = false then
      p.planPhysicalFrom input token devices heldForOlder
    else if input.heldByOlder device then p.planPhysicalFrom input token devices true
    else
      let claim : DeviceOperationClaim := ⟨device.id, .grant, some input.owner, token⟩
      match p.claims.tryClaim claim with
      | none => p.planPhysicalFrom input token devices heldForOlder
      | some claims => (.grantPhysical claim device, { p with claims := claims })

def AcquisitionPlanner.planPhysical (p : AcquisitionPlanner) (input : PhysicalPlanInput)
    (token : Nat) : AcquisitionPlan × AcquisitionPlanner :=
  p.planPhysicalFrom input token input.snapshot.devices false

end Simlock.Leasing
