import Mathlib.Algebra.Ring.Nat
import Simlock.Core.Domain

/-! How many virtual devices a worker may have and run at once.

    A strategy is pure: it looks at the devices and the reservations it is handed. The coordinator
    keeps the reservations. A reservation is an object of its own, told apart from its equals by its
    token, and is given back at most once; until then it counts in every decision.

        provisioning   a device slot and a running slot, before the device exists and until it is up
        running, boot  a running slot, and the full size of the device that boots -/

namespace Simlock.Core

structure PlatformLimits where
  maxDevices : Nat
  maxRunning : Nat
  deriving DecidableEq, Repr

structure CapacityLimits where
  maxRunning : Nat
  ios : PlatformLimits
  android : PlatformLimits
  deriving DecidableEq, Repr

def CapacityLimits.platform (limits : CapacityLimits) : Platform → PlatformLimits
  | .ios => limits.ios
  | .android => limits.android

/-- The state a device counts in: that of its record, or `booting`. -/
inductive CapacityState where
  | registered (state : VirtualState)
  | booting
  deriving DecidableEq, Repr

/-- A device a strategy has yet to admit. -/
structure PlannedCapacityDevice where
  platform : Platform
  mode : DeviceMode
  deriving DecidableEq, Repr

structure CapacityDevice extends PlannedCapacityDevice where
  id : Option String
  state : CapacityState
  deriving DecidableEq, Repr

/-- A device that has not booted yet counts at its full size, whatever its spec plans. -/
def capacityDevice (record : VirtualDevice) : CapacityDevice where
  platform := record.spec.platform
  mode := if record.state = .provisioning then .full else record.mode
  id := some record.id
  state := .registered record.state

def plannedCapacityDevice (spec : VirtualSpec) : PlannedCapacityDevice := ⟨spec.platform, .full⟩

inductive CapacityRefusalReason where
  | deviceLimit | ramBudget | memoryPressure | globalRunningLimit | platformRunningLimit
  deriving DecidableEq, Repr

/-! ### The limits -/

def isRunning : CapacityState → Bool
  | .registered .ready | .registered .leased | .registered .reclaiming
  | .registered .quarantined => true
  | _ => false

/-- The devices that run, and the slots that are reserved. -/
structure RunningCapacityEntry where
  running : Nat
  reserved : Nat
  maxRunning : Nat

/-- One entry of `runningCapacity`: of a platform, or of all. -/
def runningCapacity (devices : List CapacityDevice) (reservations : List Platform)
    (limits : CapacityLimits) (platform : Option Platform) : RunningCapacityEntry where
  running := devices.countP fun d => isRunning d.state && platform.all (d.platform = ·)
  reserved := reservations.countP fun r => platform.all (r = ·)
  maxRunning := (platform.map fun p => (limits.platform p).maxRunning).getD limits.maxRunning

/-- `none` is the decision that it may. -/
def canReserveRunning (platform : Platform) (devices : List CapacityDevice)
    (reservations : List Platform) (limits : CapacityLimits) : Option CapacityRefusalReason :=
  let global := runningCapacity devices reservations limits none
  let entry := runningCapacity devices reservations limits (some platform)
  if global.maxRunning ≤ global.running + global.reserved then some .globalRunningLimit
  else if entry.maxRunning ≤ entry.running + entry.reserved then some .platformRunningLimit
  else none

def activeDevices (devices : List CapacityDevice) : List CapacityDevice :=
  devices.filter fun d => d.state ≠ .registered .deleted

def withinDeviceLimit (platform : Platform) (devices : List CapacityDevice)
    (limits : CapacityLimits) : Bool :=
  ((activeDevices devices).filter fun d => d.platform = platform).length <
    (limits.platform platform).maxDevices

/-! ### The strategies -/

structure PlatformOptions where
  maxDevices : Option Nat
  maxRunning : Option Nat

/-- A pinned number of devices; what a platform leaves out falls back to the global number. -/
structure FixedStrategyOptions where
  maxRunning : Nat
  ios : Option PlatformOptions
  android : Option PlatformOptions

def FixedStrategyOptions.resolveLimits (options : FixedStrategyOptions) : CapacityLimits :=
  let platform (overrides : Option PlatformOptions) : PlatformLimits :=
    let maxRunning := (overrides.bind PlatformOptions.maxRunning).getD options.maxRunning
    ⟨(overrides.bind PlatformOptions.maxDevices).getD maxRunning, maxRunning⟩
  ⟨options.maxRunning, platform options.ios, platform options.android⟩

structure RamBudgetOptions where
  iosBytesPerDevice : Nat
  iosSlimBytesPerDevice : Option Nat
  androidBytesPerDevice : Nat
  androidSlimBytesPerDevice : Option Nat

structure ResourceStrategyOptions where
  limits : CapacityLimits
  ramBudget : RamBudgetOptions

namespace ResourceStrategyOptions

variable (options : ResourceStrategyOptions)

/-- The full size of a platform's devices. -/
def fullBytes : Platform → Nat
  | .ios => options.ramBudget.iosBytesPerDevice
  | .android => options.ramBudget.androidBytesPerDevice

/-- A slim size left unset means the full size. -/
def bytesPerDevice (device : PlannedCapacityDevice) : Nat :=
  match device.mode with
  | .full => options.fullBytes device.platform
  | .slim =>
    (match device.platform with
      | .ios => options.ramBudget.iosSlimBytesPerDevice
      | .android => options.ramBudget.androidSlimBytesPerDevice).getD
        (options.fullBytes device.platform)

/-- A shut-down device holds no RAM. -/
def usedBytes (devices : List CapacityDevice) : Nat :=
  (((activeDevices devices).filter fun d => d.state ≠ .registered .shutdown).map
    fun d => options.bytesPerDevice d.toPlannedCapacityDevice).sum

end ResourceStrategyOptions

/-- 4 GiB are left to the OS. -/
def osRamReserveBytes : Nat := 4 * 1024 ^ 3

def limitBytes (totalRamBytes : Nat) : Int := totalRamBytes - osRamReserveBytes

inductive CapacityStrategy where
  | fixed (options : FixedStrategyOptions)
  | resource (options : ResourceStrategyOptions) (totalRamBytes : Nat)

namespace CapacityStrategy

def limits : CapacityStrategy → CapacityLimits
  | .fixed options => options.resolveLimits
  | .resource options _ => options.limits

def canProvision (device : PlannedCapacityDevice) (devices : List CapacityDevice) :
    CapacityStrategy → Option CapacityRefusalReason
  | .fixed options =>
    if withinDeviceLimit device.platform devices options.resolveLimits then none
    else some .deviceLimit
  | .resource options totalRamBytes =>
    if !withinDeviceLimit device.platform devices options.limits then some .deviceLimit
    else if limitBytes totalRamBytes < options.usedBytes devices + options.bytesPerDevice device then
      some .ramBudget
    else none

def canBoot (device : CapacityDevice) (devices : List CapacityDevice) :
    CapacityStrategy → Option CapacityRefusalReason
  | .fixed _ => none
  | .resource options totalRamBytes =>
    let fullBytes : Int := options.bytesPerDevice ⟨device.platform, .full⟩
    let extraBytes := if device.state = .registered .shutdown then fullBytes
      else fullBytes - options.bytesPerDevice device.toPlannedCapacityDevice
    if extraBytes ≤ 0 then none
    else if limitBytes totalRamBytes < options.usedBytes devices + extraBytes then some .ramBudget
    else none

end CapacityStrategy

/-! ### The coordinator -/

/-- An entry of a list of reservations, with the token that tells it apart. -/
structure Reserved (α : Type) where
  token : Nat
  entry : α
  deriving DecidableEq, Repr

structure CapacityCoordinator where
  provisioningReservations : List (Reserved PlannedCapacityDevice)
  runningReservations : List (Reserved Platform)
  bootReservations : List (Reserved String)
  deriving DecidableEq, Repr

namespace CapacityCoordinator

variable (c : CapacityCoordinator)

def empty : CapacityCoordinator := ⟨[], [], []⟩

def booting (deviceId : String) : Bool := c.bootReservations.any fun r => r.entry = deviceId

/-- A device as every RAM decision sees it: at its full size while it boots. -/
def withBoot (d : CapacityDevice) : CapacityDevice :=
  if d.id.any c.booting then
    { d with
      mode := .full
      state := if d.state = .registered .shutdown then .booting else d.state }
  else d

def asProvisioningDevice (reservation : PlannedCapacityDevice) : CapacityDevice :=
  { reservation with id := none, state := .registered .provisioning }

def withReservations (devices : List CapacityDevice) : List CapacityDevice :=
  devices.map c.withBoot ++
    c.provisioningReservations.map fun r => asProvisioningDevice r.entry

def allRunningReservations : List Platform :=
  c.provisioningReservations.map (fun r => r.entry.platform) ++
    c.runningReservations.map Reserved.entry

def canReserveRunning (strategy : CapacityStrategy) (platform : Platform)
    (devices : List CapacityDevice) : Option CapacityRefusalReason :=
  Core.canReserveRunning platform devices c.allRunningReservations strategy.limits

/-- `paused` is what memory pressure says of new devices; `token` names the new entry. -/
def tryReserveProvisioning (strategy : CapacityStrategy) (paused : Bool) (token : Nat)
    (device : PlannedCapacityDevice) (devices : List CapacityDevice) :
    Except CapacityRefusalReason CapacityCoordinator :=
  if paused then .error .memoryPressure
  else
    match strategy.canProvision device (c.withReservations devices) with
    | some reason => .error reason
    | none =>
      match c.canReserveRunning strategy device.platform devices with
      | some reason => .error reason
      | none => .ok { c with
          provisioningReservations := c.provisioningReservations ++ [⟨token, device⟩] }

/-- The RAM is checked first. -/
def tryReserveBoot (strategy : CapacityStrategy) (paused : Bool) (token : Nat) (id : String)
    (device : CapacityDevice) (devices : List CapacityDevice) :
    Except CapacityRefusalReason CapacityCoordinator :=
  if paused then .error .memoryPressure
  else
    match strategy.canBoot device (c.withReservations devices) with
    | some reason => .error reason
    | none =>
      match c.canReserveRunning strategy device.platform devices with
      | some reason => .error reason
      | none => .ok { c with
          runningReservations := c.runningReservations ++ [⟨token, device.platform⟩]
          bootReservations := c.bootReservations ++ [⟨token, id⟩] }

/-- `release`: the entries of the token, if they are still there. -/
def release (token : Nat) : CapacityCoordinator where
  provisioningReservations := c.provisioningReservations.filter fun r => r.token ≠ token
  runningReservations := c.runningReservations.filter fun r => r.token ≠ token
  bootReservations := c.bootReservations.filter fun r => r.token ≠ token

end CapacityCoordinator

/-! ### What an admission has checked -/

section Admission

variable {c c' : CapacityCoordinator} {strategy : CapacityStrategy} {paused : Bool} {token : Nat}
  {devices : List CapacityDevice}

/-- A slot is free, of the platform and of all. -/
theorem canReserveRunning_none {platform : Platform}
    (h : c.canReserveRunning strategy platform devices = none) :
    (devices.countP fun d => isRunning d.state && d.platform = platform) +
        c.allRunningReservations.countP (fun r => r = platform) <
      (strategy.limits.platform platform).maxRunning ∧
    (devices.countP fun d => isRunning d.state) + c.allRunningReservations.length <
      strategy.limits.maxRunning := by
  simp only [CapacityCoordinator.canReserveRunning, canReserveRunning] at h
  split at h
  · cases h
  · rename_i hglobal
    split at h
    · cases h
    · rename_i hplatform
      simp only [runningCapacity, Option.all_none, Option.all_some, Bool.and_true, Option.map_none,
        Option.map_some, Option.getD_none, Option.getD_some, List.countP_true] at hglobal hplatform
      omega

theorem tryReserveProvisioning_ok {device : PlannedCapacityDevice}
    (h : c.tryReserveProvisioning strategy paused token device devices = .ok c') :
    c' = { c with
      provisioningReservations := c.provisioningReservations ++ [⟨token, device⟩] } ∧
    strategy.canProvision device (c.withReservations devices) = none ∧
    c.canReserveRunning strategy device.platform devices = none := by
  rw [CapacityCoordinator.tryReserveProvisioning] at h
  split at h
  · cases h
  · split at h
    · cases h
    · rename_i hprovision
      split at h
      · cases h
      · rename_i hrunning
        cases h
        exact ⟨rfl, hprovision, hrunning⟩

theorem tryReserveBoot_ok {id : String} {device : CapacityDevice}
    (h : c.tryReserveBoot strategy paused token id device devices = .ok c') :
    c' = { c with
      runningReservations := c.runningReservations ++ [⟨token, device.platform⟩]
      bootReservations := c.bootReservations ++ [⟨token, id⟩] } ∧
    strategy.canBoot device (c.withReservations devices) = none ∧
    c.canReserveRunning strategy device.platform devices = none := by
  rw [CapacityCoordinator.tryReserveBoot] at h
  split at h
  · cases h
  · split at h
    · cases h
    · rename_i hboot
      split at h
      · cases h
      · rename_i hrunning
        cases h
        exact ⟨rfl, hboot, hrunning⟩

theorem canProvision_within {device : PlannedCapacityDevice}
    (h : strategy.canProvision device devices = none) :
    ((activeDevices devices).filter fun d => d.platform = device.platform).length <
      (strategy.limits.platform device.platform).maxDevices := by
  cases strategy with
  | fixed options =>
    simp only [CapacityStrategy.canProvision] at h
    split at h
    · rename_i hwithin
      exact of_decide_eq_true hwithin
    · cases h
  | resource options totalRamBytes =>
    simp only [CapacityStrategy.canProvision] at h
    split at h
    · cases h
    · rename_i hwithin
      rw [Bool.not_eq_true, Bool.not_eq_false'] at hwithin
      exact of_decide_eq_true hwithin

/-- With a budget, the new device still fits in. -/
theorem canProvision_bytes {options : ResourceStrategyOptions} {totalRamBytes : Nat}
    {device : PlannedCapacityDevice}
    (h : (CapacityStrategy.resource options totalRamBytes).canProvision device devices = none) :
    options.usedBytes devices + options.bytesPerDevice device ≤ limitBytes totalRamBytes := by
  simp only [CapacityStrategy.canProvision] at h
  split at h
  · cases h
  · split at h
    · cases h
    · exact Int.not_lt.mp ‹_›

/-- A shut-down device boots only if its full size still fits in, or takes nothing. -/
theorem canBoot_bytes {options : ResourceStrategyOptions} {totalRamBytes : Nat}
    {device : CapacityDevice} (hshutdown : device.state = .registered .shutdown)
    (h : (CapacityStrategy.resource options totalRamBytes).canBoot device devices = none) :
    options.fullBytes device.platform = 0 ∨
      options.usedBytes devices + options.fullBytes device.platform ≤ limitBytes totalRamBytes := by
  simp only [CapacityStrategy.canBoot, hshutdown, if_true,
    ResourceStrategyOptions.bytesPerDevice] at h
  split at h
  · left
    omega
  · split at h
    · cases h
    · exact .inr (Int.not_lt.mp ‹_›)

end Admission

end Simlock.Core
