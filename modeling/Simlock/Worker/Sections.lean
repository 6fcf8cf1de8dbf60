import Simlock.Core.Atomicity

/-! The sections in which the workflows of a worker write its registry.

    A workflow awaits the driver outside the gate and commits inside it: it enters a serialized
    section, looks at the registry again, and makes one call. `Section` lists these sections, module
    by module, with what each passes on; `checks` is what the section tests before it calls, and a
    section whose test fails writes nothing. Sections of any workflows follow each other in any
    order, so a worker's registry is what some list of sections makes of it, with restarts between.

        workflow A   ── section ──────── await ──────── section ──
        workflow B   ─────────── section ─── await ── section ────  -/

namespace Simlock.Worker

open Simlock.Lib Simlock.Core

/-- What `makeReady` gives back of a device. -/
structure ReadyDevice where
  address : String
  driverData : DriverData
  mode : DeviceMode

inductive Section where
  /-- `DeviceProvisioner#register`. -/
  | register (id driverDeviceId : String) (spec : VirtualSpec) (driverData : DriverData)
  /-- `ManagedDeviceLifecycle`: a boot that is through, of a new device or of one that was shut
      down. -/
  | commitReady (deviceId driverDeviceId : String) (expected : VirtualState) (ready : ReadyDevice)
  /-- A shutdown that is through, or a reboot that failed. -/
  | commitShutdown (deviceId driverDeviceId : String)
  | commitReboot (deviceId driverDeviceId : String) (ready : ReadyDevice)
  | commitDeleted (deviceId driverDeviceId : String)
  /-- `ReclaimCoordinator`: a purge that is through. -/
  | purged (deviceId : String) (target : DeviceState)
  | recoverInterrupted (deviceId : String)
  | retireSpent (deviceId : String)
  | deleteSpent (deviceId : String)
  | beginReturned (deviceId osVersion : String)
  | absentAfterFailure (deviceId : String) (absentReason : AbsentReason)
  /-- `QuarantineCoordinator`. -/
  | enterQuarantine (deviceId : String) (nextRetryAt : Int) (cause : QuarantineCause)
  | enterFromStalledTransition (deviceId : String) (findingState : DeviceState) (nextRetryAt : Int)
    (cause : QuarantineCause)
  | retryFailed (deviceId : String) (attempts nextRetryAt : Int)
  | recovered (deviceId : String) (target : DeviceState)
  | stranded (deviceId : String) (attempts : Int)
  | deleteQuarantined (deviceId : String)
  /-- `Doctor`. -/
  | fixMissingDevice (deviceId : String)
  | fixStopped (deviceId : String)
  | fixRunning (deviceId : String)
  | clearForeignState (deviceId : String)
  | markForeignState (deviceId : String) (at_ : Int)
  | markForeignProvenance (deviceId : String) (at_ : Int)
  /-- `LeaseHealthMonitor`. -/
  | markRecoveryAttempt (deviceId : String) (at_ : Int)
  | clearRecovery (deviceId : String)
  /-- `PhysicalDeviceWatcher`. -/
  | markAbsent (deviceId : String) (absentReason : AbsentReason)
  | rewriteReason (deviceId : String) (absentReason : AbsentReason)
  | endForAbsentDevice (leaseId : String) (absentReason : AbsentReason)
  /-- `PhysicalEnrollment`. -/
  | enroll (id : String) (input : Registry.PhysicalEnrollmentInput)
  | reenroll (deviceId : String) (input : Registry.PhysicalEnrollmentInput)
  | unenroll (deviceId : String)
  /-- `LeaseLifecycle`. -/
  | grant (generated : String) (input : Registry.CreateLeaseInput)
  | renew (leaseId : String) (ttlDeadline ttlMs : Int)
  | beginRelease (leaseId : String) (deferReclaim : Bool)
  | endForMissingDevice (leaseId : String)
  /-- `LeaseRequestBook` and `LeaseStartup`. -/
  | createLeaseRequest (input : NewLeaseRequest)
  | settleLeaseRequest (id : String) (outcome : LeaseRequestOutcome)
  | failOpenLeaseRequests (failure : LeaseRequestFailure)
  /-- `ComponentInstaller`. -/
  | recordComponent (record : ComponentRecord)
  | deleteComponent (platform : Platform) (version : String)

/-- `#registeredTarget`: the virtual device the workflow began with, in one of the states it expects
    and without a lease. -/
def registeredTarget (r : Registry) (deviceId driverDeviceId : String)
    (expectedStates : List VirtualState) : Bool :=
  match r.device deviceId with
  | some (.virtual v) =>
    v.driverDeviceId = driverDeviceId && expectedStates.contains v.state && !r.isLeased deviceId
  | _ => false

/-- `#unleasedDevice`. -/
def unleasedDevice (r : Registry) (deviceId : String) (state : VirtualState) : Bool :=
  match r.device deviceId with
  | some (.virtual v) => v.state = state && !r.isLeased deviceId
  | _ => false

/-- The device is there and in this state. -/
def isIn (r : Registry) (deviceId : String) (state : DeviceState) : Bool :=
  (r.device deviceId).any fun d => d.state = state

/-- `#requireFree`, but for the claims. -/
def isFree (r : Registry) (deviceId : String) : Bool :=
  isIn r deviceId .ready || isIn r deviceId .quarantined || isIn r deviceId .absent

/-- What a section tests in the registry before it calls. -/
def Section.checks (r : Registry) : Section → Bool
  | .commitReady deviceId driverDeviceId expected _ =>
    registeredTarget r deviceId driverDeviceId [expected]
  | .commitShutdown deviceId driverDeviceId => registeredTarget r deviceId driverDeviceId [.ready]
  | .commitReboot deviceId driverDeviceId _ => registeredTarget r deviceId driverDeviceId [.ready]
  | .commitDeleted deviceId driverDeviceId =>
    registeredTarget r deviceId driverDeviceId [.provisioning, .shutdown]
  | .recoverInterrupted deviceId => unleasedDevice r deviceId .reclaiming
  | .deleteSpent deviceId => unleasedDevice r deviceId .shutdown
  | .beginReturned deviceId _ => isIn r deviceId .absent
  | .enterFromStalledTransition deviceId findingState _ _ => isIn r deviceId findingState
  | .fixMissingDevice deviceId => !r.isLeased deviceId
  | .fixStopped deviceId => unleasedDevice r deviceId .ready
  | .fixRunning deviceId =>
    unleasedDevice r deviceId .shutdown && (r.device deviceId).any mayBeGranted
  | .markAbsent deviceId _ => isIn r deviceId .ready
  | .rewriteReason deviceId _ => isIn r deviceId .absent
  | .endForAbsentDevice leaseId _ => (r.lease leaseId).isSome
  | .unenroll deviceId => isFree r deviceId
  | _ => true

/-- The call of a section. Every transition is called with the event it needs. -/
def Section.call : Section → Call
  | .register id driverDeviceId spec driverData => .registerDevice id driverDeviceId spec driverData
  | .commitReady deviceId _ _ ready =>
    .transitionDevice deviceId .ready (some ⟨.ready, deviceId⟩)
      { address := some ready.address, driverData := some ready.driverData, mode := some ready.mode }
  | .commitShutdown deviceId _ =>
    .transitionDevice deviceId .shutdown (some ⟨.shutdown, deviceId⟩) {}
  | .commitReboot deviceId _ ready =>
    .recordRebootedDevice deviceId ready.address ready.driverData ready.mode
  | .commitDeleted deviceId _ => .transitionDevice deviceId .deleted (some ⟨.deleted, deviceId⟩) {}
  | .purged deviceId target => .transitionDevice deviceId target (some ⟨.reclaimed, deviceId⟩) {}
  | .recoverInterrupted deviceId => .completeReclaimWithoutPurge deviceId
  | .retireSpent deviceId => .completeReclaimWithoutPurge deviceId
  | .deleteSpent deviceId => .transitionDevice deviceId .deleted (some ⟨.deleted, deviceId⟩) {}
  | .beginReturned deviceId osVersion =>
    .transitionDevice deviceId .reclaiming (some ⟨.returned, deviceId⟩)
      { osVersion := some osVersion }
  | .absentAfterFailure deviceId absentReason | .markAbsent deviceId absentReason =>
    .transitionDevice deviceId .absent (some ⟨.absenceDetected, deviceId⟩)
      { absentReason := some absentReason }
  | .enterQuarantine deviceId nextRetryAt cause => .enterQuarantine deviceId nextRetryAt cause
  | .enterFromStalledTransition deviceId _ nextRetryAt cause =>
    .enterQuarantine deviceId nextRetryAt cause
  | .retryFailed deviceId attempts nextRetryAt =>
    .recordQuarantineRetryFailure deviceId attempts nextRetryAt
  | .recovered deviceId target => .recoverFromQuarantine deviceId target
  | .stranded deviceId attempts => .strandQuarantine deviceId attempts
  | .deleteQuarantined deviceId => .deleteQuarantined deviceId
  | .fixMissingDevice deviceId => .markDeviceMissing deviceId
  | .fixStopped deviceId => .transitionDevice deviceId .shutdown (some ⟨.shutdown, deviceId⟩) {}
  | .fixRunning deviceId => .transitionDevice deviceId .ready (some ⟨.ready, deviceId⟩) {}
  | .clearForeignState deviceId => .clearForeignStateDetected deviceId
  | .markForeignState deviceId at_ => .markForeignStateDetected deviceId at_
  | .markForeignProvenance deviceId at_ => .markForeignProvenanceDetected deviceId at_
  | .markRecoveryAttempt deviceId at_ => .markRecoveryAttempt deviceId at_
  | .clearRecovery deviceId => .clearRecovery deviceId
  | .rewriteReason deviceId absentReason => .rewriteAbsentReason deviceId absentReason
  | .endForAbsentDevice leaseId absentReason => .endLeaseAndMarkDeviceAbsent leaseId absentReason
  | .enroll id input => .enrollPhysical id input
  | .reenroll deviceId input => .reenrollPhysical deviceId input
  | .unenroll deviceId => .unenrollPhysical deviceId
  | .grant generated input => .createLease generated input
  | .renew leaseId ttlDeadline ttlMs => .renewLease leaseId ttlDeadline ttlMs
  | .beginRelease leaseId deferReclaim => .beginRelease leaseId deferReclaim
  | .endForMissingDevice leaseId => .endLeaseAndMarkDeviceMissing leaseId
  | .createLeaseRequest input => .createLeaseRequest input
  | .settleLeaseRequest id outcome => .settleLeaseRequest id outcome
  | .failOpenLeaseRequests failure => .failOpenLeaseRequests failure
  | .recordComponent record => .recordComponent record
  | .deleteComponent platform version => .deleteComponent platform version

/-! ### Runs -/

inductive Action where
  | section_ (w : Section) (now : Int)
  | reopen (now : Int)

/-- A section that passes its test makes its call; a restart opens the registry on its tables. -/
def step (o : RegistryOptions) (s : Store) : Action → Store
  | .section_ w now =>
    if w.checks s.registry then s.step o (.call w.call now) else { s with clock := now }
  | .reopen now => s.step o (.reopen now)

/-- The states a driver's reclaim ends in, and the kinds of device a workflow is given: recovery is of
    virtual devices, absence of physical ones. -/
def Section.Typed (r : Registry) : Section → Prop
  | .purged _ target | .recovered _ target => target = .ready ∨ target = .shutdown
  | .markRecoveryAttempt deviceId _ => ∀ d, r.device deviceId = some d → d.isPhysical = false
  | .commitReady _ _ expected _ => expected = .provisioning ∨ expected = .shutdown
  | _ => True

/-- The clock does not go back, and a section passes on what its call relies on. -/
def Admits (s : Store) : Action → Prop
  | .section_ w now => s.clock ≤ now ∧ w.call.Fits s.registry ∧ w.Typed s.registry
  | .reopen now => s.clock ≤ now

section Steps

variable {o : RegistryOptions} {s : Store} {r : Registry}

theorem isIn_eq_true {deviceId : String} {state : DeviceState} :
    isIn r deviceId state = true ↔ ∃ d, r.device deviceId = some d ∧ d.state = state := by
  rw [isIn]
  cases r.device deviceId <;> simp

theorem step_ok {a : Action} (h : StoreOk s) (hadmits : Admits s a) : StoreOk (step o s a) := by
  cases a with
  | section_ w now =>
    simp only [step]
    split
    · exact h.step ⟨hadmits.1, hadmits.2.1⟩
    · exact ⟨h.ok.later hadmits.1, h.stored⟩
  | reopen now =>
    have hstore : s.Admits (.reopen now) := hadmits
    exact h.step hstore

/-- A step leaves the registry, or makes the call of a section that passed its test, or opens it. -/
theorem step_cases {a : Action} (h : StoreOk s) (hadmits : Admits s a) :
    (step o s a).registry = s.registry ∨
      (∃ w now, a = .section_ w now ∧ w.checks s.registry = true ∧
        s.registry.apply o now w.call = some (step o s a).registry) ∨
      ∃ now, a = .reopen now ∧
        Opened o now s.registry (step o s a).registry (step o s a).database := by
  cases a with
  | section_ w now =>
    simp only [step]
    split
    · rename_i hchecks
      simp only [Store.step]
      cases hcall : s.registry.call o now w.call with
      | error e => exact .inl rfl
      | ok od =>
        cases od with
        | none => exact .inl rfl
        | some draft =>
          simp only
          split
          · exact .inl rfl
          · refine .inr (.inl ⟨w, now, rfl, hchecks, ?_⟩)
            simp only [Registry.apply, hcall]
    · exact .inl rfl
  | reopen now =>
    obtain ⟨r', db', hload, hopened⟩ := load_opens (o := o) h.ok h.stored hadmits
    refine .inr (.inr ⟨now, rfl, ?_⟩)
    simp only [step, Store.step, hload]
    exact hopened

/-- What is opened shows the devices as they were: it drops only deleted ones. -/
theorem Opened.shown {β : Type} {f : Device → Option β} (hf : Shows f) {t clock : Int}
    {r r' : Registry} {db : Database} (h : RegistryOk r clock) (hopened : Opened o t r r' db) :
    r'.shown f = r.shown f := by
  funext deviceId
  have hids : ∀ d ∈ r'.devices, d ∈ r.devices := by
    rw [hopened.devices]
    exact fun d hd => (List.mem_filter.mp hd).1
  rw [Registry.shown, Registry.shown]
  cases hfound : r'.device deviceId with
  | some d =>
    obtain ⟨hd, hid⟩ := Registry.device_mem hfound
    rw [← hid, Registry.device_of_mem h.keys.devices (hids d hd)]
  | none =>
    cases hold : r.device deviceId with
    | none => rfl
    | some d =>
      obtain ⟨hd, hid⟩ := Registry.device_mem hold
      have hgone : d ∉ r'.devices := fun hmem =>
        Registry.device_none.mp hfound (List.mem_map.mpr ⟨d, hmem, hid⟩)
      have hexpired : isExpired t o.deletedRetentionMs d = true := by
        by_contra hlive
        rw [hopened.devices] at hgone
        exact hgone (List.mem_filter.mpr ⟨hd, by simpa using hlive⟩)
      have hdeleted : d.state = .deleted := by
        refine (h.devices d hd).stamped.mp ?_
        rw [isExpired] at hexpired
        cases hat : d.fields.deletedAt with
        | none => simp [hat] at hexpired
        | some at_ => rfl
      exact (hf.deleted d hdeleted).symm

theorem Opened.view {t clock : Int} {r r' : Registry} {db : Database} (h : RegistryOk r clock)
    (hopened : Opened o t r r' db) : r'.view = r.view := Opened.shown shows_view h hopened

end Steps

/-- A full simulator, as the runs below make it. -/
def iphoneSpec : VirtualSpec := ⟨.ios, "iPhone 15", "17.0", false, none, none⟩

def iphoneData : DriverData := .ios ⟨"iPhone-15", "simlock-1", "iOS-17-0", none, none, "udid_1"⟩

end Simlock.Worker
