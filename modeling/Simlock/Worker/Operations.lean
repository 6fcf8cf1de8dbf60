import Simlock.Core.Capacity
import Simlock.Worker.Totals

/-! Device operations in flight: what they hold, and how each goes on after every await.

    A plan takes a reservation or a claim on a device, or both, in one section; the operation it
    stands for then goes through sections and driver calls until it ends. `Flow` is such an operation
    at the point where it waits, with what it holds there; `Flow.next` is what it does next. The other
    workflows of the worker are sections and claims of their own, between any two steps.

        provision   creating → planned → working → made → handoff
        boot        planned → working → handoff                       (a lease, or the warm pool)
        reboot      planned → working → handoff
        evict       planned → working → leaving
        after a boot that failed   releasing → failed → destroying → undestroyed → leaving -/

namespace Simlock.Worker

open Simlock.Lib Simlock.Core

inductive DeviceOperation where
  | boot | eviction | cleanup | nuke | recovery | reclaim | enrollment | grant
  deriving DecidableEq, Repr

/-- A claim on a device; the token tells it apart from another claim on the same device. -/
structure Claim where
  token : Nat
  deviceId : String
  operation : DeviceOperation
  owner : Option String
  deriving DecidableEq, Repr

/-- The device an operation began with. -/
structure Target where
  deviceId : String
  driverDeviceId : String
  deriving DecidableEq, Repr

inductive Job where
  | provision (spec : VirtualSpec)
  | boot | reboot | evictRunning | evictManaged | grantPhysical
  deriving DecidableEq, Repr

inductive Point where
  /-- The driver creates the device, or is about to. -/
  | creating
  /-- `#claim` is to look at the target again. -/
  | planned
  /-- The driver works on the device under the operation's claim. -/
  | working
  /-- A reboot failed half way, and the device is to be recorded as shut down. -/
  | stopping
  /-- The claim is to be given back after a failure. -/
  | releasing
  /-- What did not boot is to be destroyed. -/
  | failed
  /-- The driver destroys the device under a claim of its own. -/
  | destroying
  /-- The destroy failed. -/
  | undestroyed
  /-- The new device is ready and the provisioner is to give its reservation back. -/
  | made
  /-- The device is to be granted. -/
  | handoff
  /-- The device copies a baseline that was replaced, and is to be disposed of. -/
  | superseded
  | disposing
  /-- What is left is to be given back. -/
  | leaving
  deriving DecidableEq, Repr

/-- An operation in flight. -/
structure Flow where
  job : Job
  /-- The waiter it runs for; the warm pool's operations have none. -/
  owner : Option String
  platform : Platform
  target : Option Target
  reservation : Option Nat
  claim : Option Nat
  /-- The claim of a destroy or a dispose the operation runs itself. -/
  own : Option Nat
  point : Point
  deriving DecidableEq

/-- A worker: its registry, the two tables of what is held, and the operations in flight. -/
structure Host where
  registry : Registry
  claims : List Claim
  capacity : CapacityCoordinator
  flows : List Flow
  /-- Names the next reservation and the next claim. -/
  next : Nat

/-- A worker that has just opened its registry: no operation in flight and nothing held. -/
def Host.start (r : Registry) : Host := ⟨r, [], .empty, [], 0⟩

def capacityDevices (r : Registry) : List CapacityDevice := (virtualDevices r).map capacityDevice

namespace Host

variable (s : Host)

def isClaimed (deviceId : String) : Bool := s.claims.any fun c => c.deviceId = deviceId

/-- `isActive`. -/
def isActive (token : Nat) : Bool := s.claims.any fun c => c.token = token

/-- `#registeredTarget` of the flow's target. -/
def finds (target : Option Target) (expected : List VirtualState) : Bool :=
  target.any fun t => registeredTarget s.registry t.deviceId t.driverDeviceId expected

end Host

/-- How a section ended: it made its call, its test failed, or it threw. -/
inductive Ran where
  | done | skipped | threw
  deriving DecidableEq, Repr

/-- `writable` is whether the tables take the transaction. -/
def Section.ran (o : RegistryOptions) (r : Registry) (w : Section) (now : Int) (writable : Bool) :
    Ran :=
  if !w.checks r then .skipped
  else
    match r.call o now w.call with
    | .error _ => .threw
    | .ok none => .done
    | .ok (some _) => if writable then .done else .threw

/-- The registry after the section. -/
def Section.after (o : RegistryOptions) (r : Registry) (w : Section) (now : Int) (writable : Bool) :
    Registry := if w.checks r && writable then (r.apply o now w.call).getD r else r

/-- The answer to what a flow awaits. -/
inductive Move where
  /-- The driver call, or the section, failed. -/
  | fail
  /-- The driver created the device; `version` is the current one of the baseline it copies. -/
  | register (id driverDeviceId : String) (version : Int) (driverData : DriverData)
  | ready (ready : ReadyDevice)
  /-- The driver shut down a device that is disposed of. -/
  | stopped
  | done
  /-- The next section is reached. -/
  | go
  | quarantine (nextRetryAt : Int) (cause : QuarantineCause)
  | grant (generated : String) (input : Registry.CreateLeaseInput)
  | supersede

/-- What a flow does in one step. -/
structure Next where
  section_ : Option Section := none
  /-- The claim it takes: device, operation and owner. -/
  takes : Option (String × DeviceOperation × Option String) := none
  /-- The claims it gives back. -/
  frees : List Nat := []
  /-- The reservation it gives back. -/
  returns : Option Nat := none
  /-- The flow where it waits next; `none` when it ended. -/
  flow : Option Flow

namespace Flow

variable (f : Flow)

/-- The states the operation expects its target in. -/
def expected : List VirtualState :=
  match f.job with
  | .provision _ => [.provisioning]
  | .boot => [.shutdown]
  | .reboot | .evictRunning => [.ready]
  | .evictManaged => [.ready, .shutdown]
  | .grantPhysical => []

/-- The caller of the operation gives the claim back itself when the operation does not start. -/
def callerReleases : Bool :=
  match f.job with
  | .evictRunning | .evictManaged => true
  | .boot => f.owner.isNone
  | _ => false

def waits (point : Point) : Next := { flow := some { f with point := point } }

/-- The section in which a boot that is through is recorded. -/
def commitReady (t : Target) (ready : ReadyDevice) : Section :=
  match f.job with
  | .provision _ => .commitReady t.deviceId t.driverDeviceId .provisioning ready
  | .boot => .commitReady t.deviceId t.driverDeviceId .shutdown ready
  | _ => .commitReboot t.deviceId t.driverDeviceId ready

/-- Where a boot that was recorded goes on. -/
def afterReady : Point :=
  match f.job with
  | .provision _ => .made
  | .boot => if f.owner.isNone then .releasing else .handoff
  | _ => .handoff

end Flow

/-- The spec a device is made with: a copy of a baseline is of its current version. -/
def madeSpec (spec : VirtualSpec) (version : Int) : VirtualSpec :=
  { spec with baseline := spec.baseline.map fun b => ⟨b.name, version⟩ }

section Steps

variable (o : RegistryOptions) (s : Host) (f : Flow) (now : Int) (writable : Bool)

/-- `DeviceProvisioner`: the driver's device is registered, and claimed in the same section. -/
def Flow.fromCreating : Move → Next
  | .register id driverDeviceId version driverData =>
    match f.job with
    | .provision spec =>
      let w := Section.register id driverDeviceId (madeSpec spec version) driverData
      if w.ran o s.registry now writable = .done then
        let registered := { f with target := some ⟨id, driverDeviceId⟩, point := .planned }
        if s.isClaimed id then { section_ := some w, flow := some registered }
        else
          { section_ := some w
            takes := some (id, .boot, f.owner)
            flow := some { registered with claim := some s.next } }
      else { section_ := some w, returns := f.reservation, flow := none }
    | _ => f.waits f.point
  | .fail => { returns := f.reservation, flow := none }
  | _ => f.waits f.point

/-- `#claim`: the operation starts if its target is still as expected and its claim stands. -/
def Flow.fromPlanned : Move → Next
  | .go =>
    match f.claim with
    | some token =>
      if s.finds f.target f.expected && s.isActive token then f.waits .working
      else if f.callerReleases then f.waits .leaving
      -- nobody gives the claim back from here on
      else { flow := some { f with claim := none, point := .failed } }
    | none =>
      match f.target with
      | some t =>
        if s.finds f.target f.expected && !s.isClaimed t.deviceId then
          { takes := some (t.deviceId, .boot, none)
            flow := some { f with claim := some s.next, point := .working } }
        else f.waits .failed
      | none => f.waits .failed
  | _ => f.waits f.point

/-- The driver's answer while it works under the operation's claim. -/
def Flow.fromWorking : Move → Next
  | .fail => f.waits (if f.job = .reboot then .stopping else .releasing)
  | .ready ready =>
    match f.job, f.target with
    | .provision _, some t | .boot, some t | .reboot, some t =>
      let w := f.commitReady t ready
      { section_ := some w
        flow := some { f with
          point := if w.ran o s.registry now writable = .done then f.afterReady else .releasing } }
    | _, _ => f.waits f.point
  | .stopped =>
    match f.job, f.target with
    | .evictManaged, some t =>
      let w := Section.commitShutdown t.deviceId t.driverDeviceId
      { section_ := some w
        flow := some { f with
          point := if w.ran o s.registry now writable = .done then .working else .releasing } }
    | _, _ => f.waits f.point
  | .done =>
    match f.job, f.target with
    | .evictRunning, some t =>
      { section_ := some (.commitShutdown t.deviceId t.driverDeviceId)
        frees := f.claim.toList
        flow := some { f with claim := none, point := .leaving } }
    | .evictManaged, some t =>
      { section_ := some (.commitDeleted t.deviceId t.driverDeviceId)
        frees := f.claim.toList
        flow := some { f with claim := none, point := .leaving } }
    | _, _ => f.waits f.point
  | _ => f.waits f.point

/-- A boot that failed: its claim is given back, and the device is destroyed or quarantined. -/
def Flow.fromFailure : Move → Next
  | .go =>
    match f.point with
    | .stopping =>
      { section_ := f.target.map fun t => .commitShutdown t.deviceId t.driverDeviceId
        flow := some { f with point := .releasing } }
    | .releasing =>
      { frees := f.claim.toList
        flow := some { f with
          claim := none
          point := if f.callerReleases then .leaving else .failed } }
    | .failed =>
      match f.target with
      | some t =>
        if s.finds f.target [.provisioning, .shutdown] && !s.isClaimed t.deviceId then
          { takes := some (t.deviceId, .cleanup, none)
            flow := some { f with own := some s.next, point := .destroying } }
        else f.waits .leaving
      | none => f.waits .leaving
    | _ => f.waits f.point
  | .fail =>
    match f.point with
    | .destroying =>
      { frees := f.own.toList, flow := some { f with own := none, point := .undestroyed } }
    | _ => f.waits f.point
  | .done =>
    match f.point, f.target with
    | .destroying, some t =>
      let w := Section.commitDeleted t.deviceId t.driverDeviceId
      { section_ := some w
        frees := f.own.toList
        flow := some { f with
          own := none
          point := if w.ran o s.registry now writable = .threw then .undestroyed else .leaving } }
    | _, _ => f.waits f.point
  | .quarantine nextRetryAt cause =>
    match f.point, f.target with
    | .undestroyed, some t =>
      match f.job with
      -- the registered record remains for reconcile
      | .provision _ => f.waits .leaving
      | _ =>
        if s.isClaimed t.deviceId then f.waits .leaving
        else
          { section_ := some (.enterFromStalledTransition t.deviceId .shutdown nextRetryAt cause)
            flow := some { f with point := .leaving } }
    | _, _ => f.waits f.point
  | _ => f.waits f.point

/-- `#grantHandoff`: whatever becomes of the grant, the claim and the reservation end with it. -/
def Flow.fromHandoff : Move → Next
  | .grant generated input =>
    { section_ := f.target.map fun t => .grant generated { input with deviceId := t.deviceId }
      frees := f.claim.toList
      returns := f.reservation
      flow := none }
  | .go => { frees := f.claim.toList, returns := f.reservation, flow := none }
  | .supersede =>
    { frees := f.claim.toList
      returns := f.reservation
      flow := some { f with claim := none, reservation := none, point := .superseded } }
  | _ => f.waits f.point

/-- `#discardSuperseded`: a device of a replaced baseline is disposed of under a claim of its own. -/
def Flow.fromSuperseded : Move → Next
  | .go =>
    match f.point, f.target with
    | .superseded, some t =>
      if s.finds f.target [.ready, .shutdown] && !s.isClaimed t.deviceId then
        { takes := some (t.deviceId, .cleanup, none)
          flow := some { f with own := some s.next, point := .disposing } }
      else f.waits .leaving
    | _, _ => f.waits f.point
  | .stopped =>
    match f.point, f.target with
    | .disposing, some t =>
      let w := Section.commitShutdown t.deviceId t.driverDeviceId
      if w.ran o s.registry now writable = .done then { section_ := some w, flow := some f }
      else
        { section_ := some w
          frees := f.own.toList
          flow := some { f with own := none, point := .leaving } }
    | _, _ => f.waits f.point
  | .done =>
    match f.point, f.target with
    | .disposing, some t =>
      { section_ := some (.commitDeleted t.deviceId t.driverDeviceId)
        frees := f.own.toList
        flow := some { f with own := none, point := .leaving } }
    | _, _ => f.waits f.point
  | .fail =>
    match f.point with
    | .disposing => { frees := f.own.toList, flow := some { f with own := none, point := .leaving } }
    | _ => f.waits f.point
  | _ => f.waits f.point

/-- What a flow does next, where it waits. -/
def Flow.next (m : Move) : Next :=
  match f.point with
  | .creating => f.fromCreating o s now writable m
  | .planned => f.fromPlanned s m
  | .working => f.fromWorking o s now writable m
  | .stopping | .releasing | .failed | .destroying | .undestroyed =>
    f.fromFailure o s now writable m
  | .made =>
    match m with
    | .go => { returns := f.reservation, flow := some { f with reservation := none, point := .handoff } }
    | _ => f.waits f.point
  | .handoff => f.fromHandoff m
  | .superseded | .disposing => f.fromSuperseded o s now writable m
  | .leaving =>
    match m with
    | .go => { frees := f.claim.toList, returns := f.reservation, flow := none }
    | _ => f.waits f.point

end Steps

/-! ### Runs -/

/-- The operations only a plan or the warm pool claims a device for. -/
def DeviceOperation.isPlanned : DeviceOperation → Bool
  | .boot | .eviction | .grant => true
  | _ => false

/-- The sections that only a flow runs. -/
def Section.isFlows : Section → Bool
  | .register .. | .commitReady .. | .commitReboot .. => true
  | _ => false

/-- A plan is dropped with what it took in the section that took it, when the queue refuses it
    (`accepted`). `paused` is what memory pressure says of new devices. -/
inductive HostAction where
  | planProvision (spec : VirtualSpec) (owner : Option String) (paused accepted : Bool)
  | planBoot (deviceId : String) (owner : Option String) (paused accepted : Bool)
  | planReboot (deviceId owner : String) (paused accepted : Bool)
  | planEviction (deviceId owner : String) (managed accepted : Bool)
  | planPhysical (deviceId owner : String) (accepted : Bool)
  | advance (f : Flow) (m : Move) (now : Int) (writable : Bool)
  /-- A section of another workflow, and the claims those workflows take and give back. -/
  | other (w : Section) (now : Int) (writable : Bool)
  | claim (deviceId : String) (operation : DeviceOperation)
  | release (token : Nat)

/-- A flow of a device in the registry. -/
def flowOf (job : Job) (owner : Option String) (d : Device) (reservation claim : Option Nat) :
    Flow where
  job := job
  owner := owner
  platform := d.platform
  target := some ⟨d.id, d.fields.driverDeviceId⟩
  reservation := reservation
  claim := claim
  own := none
  point := if job = .grantPhysical then .handoff else .planned

namespace Host

/-- A plan that claims an unclaimed device. -/
def claimFor (s : Host) (operation : DeviceOperation) (claimOwner : Option String) (f : Flow)
    (deviceId : String) : Host :=
  { s with
    claims := s.claims ++ [⟨s.next, deviceId, operation, claimOwner⟩]
    flows := f :: s.flows
    next := s.next + 1 }

/-- The step a flow takes. -/
def take (o : RegistryOptions) (s : Host) (f : Flow) (n : Next) (now : Int) (writable : Bool) :
    Host where
  registry := (n.section_.map fun w => w.after o s.registry now writable).getD s.registry
  claims := s.claims.filter (fun c => c.token ∉ n.frees) ++
    (n.takes.map fun (deviceId, operation, owner) => ⟨s.next, deviceId, operation, owner⟩).toList
  capacity := (n.returns.map s.capacity.release).getD s.capacity
  flows := n.flow.toList ++ s.flows.erase f
  next := s.next + 1

def step (o : RegistryOptions) (strategy : CapacityStrategy) (s : Host) : HostAction → Host
  | .planProvision spec owner paused accepted =>
    match s.capacity.tryReserveProvisioning strategy paused s.next (plannedCapacityDevice spec)
      (capacityDevices s.registry) with
    | .error _ => s
    | .ok capacity =>
      if accepted then
        { s with
          capacity := capacity
          flows := ⟨.provision spec, owner, spec.platform, none, some s.next, none, none, .creating⟩ ::
            s.flows
          next := s.next + 1 }
      else s
  | .planBoot deviceId owner paused accepted =>
    match s.registry.device deviceId with
    | some (.virtual v) =>
      match s.capacity.tryReserveBoot strategy paused s.next v.id (capacityDevice v)
        (capacityDevices s.registry) with
      | .error _ => s
      | .ok capacity =>
        if v.state = .shutdown && !s.isClaimed deviceId && accepted then
          { s.claimFor .boot owner (flowOf .boot owner (.virtual v) (some s.next) (some s.next))
              deviceId with
            capacity := capacity }
        else s
    | _ => s
  | .planReboot deviceId owner paused accepted =>
    match s.registry.device deviceId with
    | some (.virtual v) =>
      if v.state = .ready && !paused && !s.isClaimed deviceId && accepted then
        s.claimFor .boot (some owner)
          (flowOf .reboot (some owner) (.virtual v) none (some s.next)) deviceId
      else s
    | _ => s
  | .planEviction deviceId owner managed accepted =>
    match s.registry.device deviceId with
    | some (.virtual v) =>
      if (v.state = .ready || managed && v.state = .shutdown) &&
          !s.registry.isLeased deviceId && !s.isClaimed deviceId && accepted then
        s.claimFor .eviction none (flowOf (if managed then .evictManaged else .evictRunning)
          (some owner) (.virtual v) none (some s.next)) deviceId
      else s
    | _ => s
  | .planPhysical deviceId owner accepted =>
    match s.registry.device deviceId with
    | some (.physical p) =>
      if p.state = .ready && !s.isClaimed deviceId && accepted then
        s.claimFor .grant (some owner)
          (flowOf .grantPhysical (some owner) (.physical p) none (some s.next)) deviceId
      else s
    | _ => s
  | .advance f m now writable =>
    if f ∈ s.flows then s.take o f (f.next o s now writable m) now writable else s
  | .other w now writable =>
    if w.isFlows then s else { s with registry := w.after o s.registry now writable }
  | .claim deviceId operation =>
    if operation.isPlanned || s.isClaimed deviceId then s
    else
      { s with
        claims := s.claims ++ [⟨s.next, deviceId, operation, none⟩]
        next := s.next + 1 }
  | .release token =>
    -- a workflow gives back its own claims
    if s.flows.any fun f => f.claim = some token || f.own = some token then s
    else { s with claims := s.claims.filter fun c => c.token ≠ token || c.operation.isPlanned }

/-- The device the section adds gets an id no device has or had. -/
def NewIds (s : Host) (w : Section) : Prop :=
  ∀ id physical, w.call.adds = some (id, physical) →
    id ∉ s.registry.devices.map Device.id ∧ ∀ f ∈ s.flows, ∀ t, f.target = some t → t.deviceId ≠ id

/-- The generator gives new ids, and a section is handed what its workflow has. -/
def Admits (o : RegistryOptions) (s : Host) : HostAction → Prop
  | .advance f m now writable => ∀ w, (f.next o s now writable m).section_ = some w →
    s.NewIds w ∧ w.Typed s.registry
  | .other w _ _ => s.NewIds w ∧ w.Typed s.registry
  | _ => True

end Host

section Sections

variable {o : RegistryOptions} {r : Registry} {now : Int} {writable : Bool} {w : Section}

/-- A section leaves the registry, or makes the call it has tested for. -/
theorem Section.after_cases (o : RegistryOptions) (r : Registry) (w : Section) (now : Int)
    (writable : Bool) : w.after o r now writable = r ∨
      (w.checks r = true ∧ r.apply o now w.call = some (w.after o r now writable)) := by
  rw [Section.after]
  split
  · rename_i hchecks
    rw [Bool.and_eq_true] at hchecks
    cases happly : r.apply o now w.call with
    | none => exact .inl rfl
    | some r' => exact .inr ⟨hchecks.1, rfl⟩
  · exact .inl rfl

/-- What a section makes of a sum over the devices. -/
theorem Section.after_total (h : DevicesOk r) (w : Section) {weight : Device → Nat}
    (hweight : Weighs weight) :
    total weight (w.after o r now writable) = total weight r ∨
      (w.checks r = true ∧ ∃ d d', r.device d.id = some d ∧ DeviceStep d d' ∧
        (∀ id, w.call.device = some id → d.id = id) ∧ ModeFrom (newMode w.call) d d' ∧
        Turns r d d'.state w.call ∧
        total weight (w.after o r now writable) + weight d = total weight r + weight d') ∨
      ∃ d, Adds o now d w.call ∧
        total weight (w.after o r now writable) = total weight r + weight d := by
  rcases Section.after_cases o r w now writable with hsame | ⟨hchecks, happly⟩
  · rw [hsame]
    exact .inl rfl
  · rcases apply_total h happly hweight with hsame | ⟨d, d', hd, hstep, hdevice, hmode, hturns, htotal⟩ | hadds
    · exact .inl hsame
    · exact .inr (.inl ⟨hchecks, d, d', hd, hstep, hdevice, hmode, hturns, htotal⟩)
    · exact .inr (.inr hadds)

theorem Section.after_ok (h : DevicesOk r)
    (hnew : ∀ id physical, w.call.adds = some (id, physical) → id ∉ r.devices.map Device.id) :
    DevicesOk (w.after o r now writable) := by
  rcases Section.after_cases o r w now writable with hsame | ⟨-, happly⟩
  · rw [hsame]
    exact h
  · exact (apply_effect h hnew happly).2

end Sections

end Simlock.Worker
