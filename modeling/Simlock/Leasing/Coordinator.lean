import Simlock.Core.OsRange
import Simlock.Leasing.QueueInvariants
import Simlock.Lib.Indexed

/-! The acquisition coordinator: what drives a waiter to its lease.

    A drive decides in a serialized section, does the device work of its plan outside of it, and
    grants in a section again. `#driving` keeps a second drive of the waiter out; a wake drives the
    head of the virtual line, and every pending physical waiter.

        request ─▶ resolve ─▶ drive ─section: decide─▶ work ─▶ section: grant ─▶ resolve the promise
                      wake ─▶ drive      │      │        ├─▶ evicted: decide again
                                         ▼      ▼        └─▶ failed once: drive again
                                       defer  grant

    A grant holds its section from the commit of the lease until its waiter's promise is resolved;
    timers, drivers and the continuations of other drives run between any two steps. -/

namespace Simlock.Leasing

open Simlock.Lib Simlock.Core

/-! ### Drives -/

/-- The device work of a plan; an eviction is a shutdown or a delete. -/
inductive DeviceWork where
  | provision
  | boot (deviceId : String)
  | reboot (deviceId : String)
  | evict (deviceId : String)
  deriving DecidableEq, Repr

/-- What a drive waits for next. -/
inductive DrivePoint where
  /-- `#resolveAndDrive`, before its drive. -/
  | resolving
  | unresolved (error : WaiterError)
  /-- The section of `#decide`. -/
  | deciding
  | working (work : DeviceWork)
  /-- The section that rejects a waiter whose device will not come. -/
  | refusing (error : WaiterError)
  /-- The section that queues a waiter again; `again` is set after a superseded copy. -/
  | deferring (again : Bool)
  /-- The section that decides again after an eviction. -/
  | evicted
  /-- The section of `#countFailure`. -/
  | failed (message : String)
  /-- `#countFailure` deletes the guard and drives again. -/
  | retrying
  /-- The drive it called runs. -/
  | awaiting (child : Nat)
  /-- The section of `#grantHandoff`. -/
  | handoff (deviceId : String)
  | discarding (deviceId : String)
  /-- The lease is committed; the section is held. -/
  | granting (grant : LeaseGrant)
  /-- The section of `#decidePhysical`. -/
  | choosing (absent : List String)
  | reading (deviceId : String) (absent : List String)
  /-- The section after a presence read. -/
  | read (deviceId : String) (present : Bool) (absent : List String)
  /-- The `finally` of `#drive`. -/
  | ending
  | over
  deriving DecidableEq

/-- It passed the guard, its `finally` is still to come, and it waits for no other drive. -/
def DrivePoint.isAtWork : DrivePoint → Bool
  | .resolving | .unresolved _ | .awaiting _ | .ending | .over => false
  | _ => true

structure Drive where
  waiter : String
  point : DrivePoint
  deriving DecidableEq

/-- A committed lease: its grant, whether the waiter was open, and the request's record after the
    commit. -/
structure Granted where
  request : String
  grant : LeaseGrant
  wasOpen : Bool
  record : Option LeaseRequestRecord
  deriving DecidableEq

structure CoordinatorOptions where
  registry : RegistryOptions
  maxPerRequester : Option MaxPerRequester

structure Coordinator where
  store : Store
  serving : Bool
  queue : WaitQueue LeaseGrant
  driving : List String
  planAgain : List String
  failures : String → Nat
  drives : List Drive
  /-- The drive whose grant holds the section. -/
  holder : Option Nat
  maintenanceDepth : Nat
  updateHold : Bool
  stopPlanning : Bool
  /-- The request ids that were given, in any process. -/
  minted : List String
  grants : List Granted

/-! ### Refusals -/

def nukeCancelled : WaiterError := .coded "INTERNAL" "Request cancelled by nuke"

def daemonUpdating : WaiterError :=
  .coded "DAEMON_UPDATING" "this daemon is updating and takes no new leases"

def noCapacity : WaiterError :=
  .coded "NO_CAPACITY" "No device capacity is currently available"

/-- What the book stores for a settled waiter. -/
def WaiterError.outcome : WaiterError → LeaseRequestOutcome
  | .queueTimeout id => .failed ⟨"QUEUE_TIMEOUT", s!"Timed out waiting for a device: {id}"⟩
  | .cancelled _ => .cancelled
  | .coded code message => .failed ⟨code, message⟩

def WaiterState.outcome : WaiterState LeaseGrant → Option LeaseRequestOutcome
  | .granted grant => some (.granted grant)
  | .rejected error => some error.outcome
  | .new | .queued | .processing => none

def WaiterState.isQueued {γ : Type} : WaiterState γ → Bool
  | .queued => true
  | _ => false

def WaiterState.isProcessing {γ : Type} : WaiterState γ → Bool
  | .processing => true
  | _ => false

/-- `#defer`: a request that does not wait is refused. -/
def WaitQueue.defer {γ : Type} (q : WaitQueue γ) (id : String) (now : Int) : WaitQueue γ :=
  match q.owned id with
  | none => q
  | some w => if w.options.noWait then (q.reject id noCapacity).2 else (q.enqueue id now).2

/-- `holdForUpdate`: the waiters that are not yet taken up are refused. -/
def WaitQueue.refuseWaiting {γ : Type} (q : WaitQueue γ) (error : WaiterError) : WaitQueue γ :=
  q.pendingWaiters.foldl (fun q id =>
    match q.stateOf id with
    | some .queued | some .new => (q.reject id error).2
    | _ => q) q

/-- The waiter as the request book names it in a grant. -/
def Waiter.wait {γ : Type} (w : Waiter γ) : Wait := ⟨w.options.toLeaseRequestOptions, none, 0⟩

namespace Coordinator

variable (o : CoordinatorOptions) (s : Coordinator)

def setPoint (i : Nat) (x : DrivePoint) : Coordinator :=
  { s with drives := s.drives.modify i fun d => { d with point := x } }

/-- A section that reads the clock. -/
def «at» (now : Int) : Coordinator := { s with store := { s.store with clock := now } }

def isPhysical (id : String) : Bool :=
  (s.queue.owned id).any fun w => lineOf w.request = .physical

def isWaiting (id : String) : Bool := (s.queue.owned id).any fun w => w.state.isQueued

def isSettled (id : String) : Bool := (s.queue.owned id).any fun w => w.state.isTerminal

/-! ### Wakes -/

/-- `#drive`, up to its first wait; the guard keeps a second one out. -/
def drive (id : String) : Coordinator :=
  if id ∈ s.driving then s
  else
    { s with
      driving := id :: s.driving
      drives := s.drives ++ [⟨id, if s.isPhysical id then .choosing [] else .deciding⟩] }

/-- Whom the section of `#wakeQueue` drives. -/
def woken : List String :=
  s.queue.head.toList.filter s.isWaiting ++ s.queue.pendingWaiters.filter s.isPhysical

def wake : Coordinator := s.woken.foldl drive s

/-! ### Admission -/

/-- The leases a requester holds. -/
def heldLeases (requesterId : String) : List HeldLease :=
  (s.store.registry.leases.filter fun l => l.requesterId = requesterId).map fun l =>
    ⟨l.id, l.grantedAt, (s.store.registry.device l.deviceId).map Device.platform⟩

/-- `#refuseIfRequesterAtLimit`. -/
def atLimit (request : DeviceRequest) (options : WaiterOptions) : Bool :=
  (requesterLimitDecision
    { requesterId := options.requesterId
      platform := request.platform
      maxPerRequester := o.maxPerRequester
      held := s.heldLeases options.requesterId
      waiting := s.queue.pendingPlatforms options.requesterId
      probe := options.fleetRequestId.isSome }).isSome

/-- `#refuseIfLeaseIdTaken`. -/
def leaseIdTaken (options : WaiterOptions) (now : Int) : Bool :=
  ((⟨s.store, 0, true, fun _ => none, fun _ => none⟩ : RequestHost).takenLeaseId o.registry
    options.toLeaseRequestOptions now).isSome

/-- The section of `request`, whose id is a new one; `answered` is that the book answers a repeat. -/
def request (request : DeviceRequest) (options : WaiterOptions) (id : String) (answered : Bool)
    (now : Int) (writable : Bool) : Coordinator :=
  if answered || s.updateHold || 0 < s.maintenanceDepth || s.atLimit o request options ||
      s.leaseIdTaken o options now then s.at now
  else
    let c := Call.createLeaseRequest
      (RequestHost.newRequest request options.toLeaseRequestOptions id)
    let s' := { s with store := s.store.attempted o.registry c now writable }
    if s.store.returns o.registry c now writable then
      { s' with
        queue := s.queue.create request options id
        drives := s.drives ++ [⟨id, .resolving⟩]
        minted := s.minted ++ [id] }
    else s'

/-- The spec is resolved, or not; a physical request has none to resolve. -/
def resolved (i : Nat) (error : Option WaiterError) : Coordinator :=
  match s.drives[i]? with
  | some ⟨id, .resolving⟩ =>
    match error with
    | some error => s.setPoint i (.unresolved error)
    | none =>
      if id ∈ s.driving then s.setPoint i .over
      else
        { s with driving := id :: s.driving }.setPoint i
          (if s.isPhysical id then .choosing [] else .deciding)
  | _ => s

/-! ### Settling and queueing -/

def reject (id : String) (error : WaiterError) : Coordinator :=
  { s with queue := (s.queue.reject id error).2 }

def defer (id : String) (now : Int) : Coordinator :=
  { s with queue := s.queue.defer id now }

/-- `#grant` up to its commit, which holds the section; a refused or failed one queues the waiter. -/
def grant (i : Nat) (id : String) (g : RequestHost.GrantInput) (now : Int) (writable : Bool) :
    Coordinator :=
  match s.queue.owned id with
  | none => s
  | some w =>
    let c := RequestHost.grantCall id w.wait g now
    let s' := { s with store := s.store.attempted o.registry c now writable }
    match s.store.returns o.registry c now writable, s'.store.registry.device g.deviceId with
    | true, some device =>
      let grant : LeaseGrant := ⟨device, g.environment,
        grantedLease now g.generated (RequestHost.leaseInput id w.wait g now), g.timing⟩
      { s' with
        holder := some i
        grants := s.grants ++ [(⟨id, grant, !w.state.isTerminal,
          s'.store.registry.leaseRequests.find? fun q => q.id = id⟩ : Granted)] }.setPoint i
            (.granting grant)
    | _, _ => (s'.defer id now).setPoint i .ending

/-- The grant's promise is resolved, and its section ends. -/
def resolve (i : Nat) : Coordinator :=
  match s.drives[i]? with
  | some ⟨id, .granting grant⟩ =>
    { s with queue := (s.queue.resolve id grant).2, holder := none }.setPoint i .ending
  | _ => s

/-! ### Decisions -/

/-- What the planner answers, with the device of its pick. -/
inductive Plan where
  | wait
  | grantReady (g : RequestHost.GrantInput)
  | work (work : DeviceWork)

/-- A virtual device the planner can pick for a waiter. -/
def offers (id deviceId : String) (state : DeviceState) : Bool :=
  (s.store.registry.device deviceId).any fun d =>
    !d.isPhysical && d.state = state && mayBeGranted d &&
      (s.queue.owned id).any fun w => d.platform = w.request.platform

/-- The record of a pick is as the planner requires. -/
def admits (id : String) : Plan → Bool
  | .wait | .work .provision | .work (.evict _) => true
  | .grantReady g => s.offers id g.deviceId .ready
  | .work (.boot deviceId) => s.offers id deviceId .shutdown
  | .work (.reboot deviceId) => s.offers id deviceId .ready

/-- The waiter is taken up for what `next` does, unless it is past its deadline. -/
def takeUp (i : Nat) (id : String) (now : Int) (next : Coordinator → Coordinator) : Coordinator :=
  let (taken, queue) := s.queue.markProcessing id now
  let s' := { s with queue := queue }
  if taken then next s' else s'.setPoint i .ending

/-- `#decide`, with the planner's answer for a waiter at the head. -/
def decideWaiter (i : Nat) (id : String) (plan : Plan) (now : Int) (writable : Bool) :
    Coordinator :=
  if 0 < s.maintenanceDepth then (s.reject id nukeCancelled).setPoint i .ending
  else if s.stopPlanning then s.setPoint i .ending
  else if s.isSettled id then s.setPoint i .ending
  else if s.updateHold then (s.reject id daemonUpdating).setPoint i .ending
  else if s.queue.head.any fun h => h ≠ id then (s.defer id now).setPoint i .ending
  else
    match plan with
    | .wait => (s.defer id now).setPoint i .ending
    | .grantReady g => s.takeUp i id now fun s => s.grant o i id g now writable
    | .work work => s.takeUp i id now fun s => s.setPoint i (.working work)

/-- The section of `#decide`, or of `#continueAfterEviction`. -/
def decide (i : Nat) (plan : Plan) (now : Int) (writable : Bool) : Coordinator :=
  match s.drives[i]? with
  | some ⟨id, point⟩ =>
    if s.admits id plan then
      match point with
      | .deciding => (s.at now).decideWaiter o i id plan now writable
      | .evicted =>
        ({ s with queue := (s.queue.markNew id).2 }.at now).decideWaiter o i id plan now writable
      | _ => s
    else s
  | none => s

/-! ### Device work -/

/-- How device work ends. -/
inductive WorkEnd where
  | ready (deviceId : String)
  /-- A boot that timed out, or a component or baseline that is gone. -/
  | refused (error : WaiterError)
  | failed (message : String)
  | evicted
  | notEvicted
  /-- Something before or after the work throws. -/
  | throws

/-- The work of a drive ends; a device that is made is of the request's platform. -/
def worked (i : Nat) (e : WorkEnd) : Coordinator :=
  match s.drives[i]? with
  | some ⟨id, .working work⟩ =>
    match work, e with
    | _, .throws => s.setPoint i .ending
    | .provision, .ready deviceId =>
      match s.queue.owned id, s.store.registry.device deviceId with
      | some w, some (.virtual v) =>
        if v.spec.platform = w.request.platform then s.setPoint i (.handoff deviceId) else s
      | _, _ => s
    | .boot deviceId, .ready _ | .reboot deviceId, .ready _ => s.setPoint i (.handoff deviceId)
    | .provision, .refused error | .boot _, .refused error => s.setPoint i (.refusing error)
    | .provision, .failed message | .boot _, .failed message | .reboot _, .failed message =>
      s.setPoint i (.failed message)
    | .evict _, .evicted => s.setPoint i .evicted
    | .evict _, .notEvicted => s.setPoint i (.deferring false)
    | _, _ => s
  | _ => s

/-- The section that rejects. -/
def refuse (i : Nat) : Coordinator :=
  match s.drives[i]? with
  | some ⟨id, .unresolved error⟩ => (s.reject id error).setPoint i .over
  | some ⟨id, .refusing error⟩ => (s.reject id error).setPoint i .ending
  | _ => s

/-- The section of `#defer` after device work; a wake finds the waiter still driving. -/
def deferAgain (i : Nat) (now : Int) : Coordinator :=
  match s.drives[i]? with
  | some ⟨id, .deferring again⟩ =>
    let s' := ((s.at now).defer id now).setPoint i .ending
    if again then { s' with planAgain := id :: s.planAgain } else s'
  | _ => s

/-- The section of `#countFailure`: the first failure drives the waiter again. -/
def countFailure (i : Nat) : Coordinator :=
  match s.drives[i]? with
  | some ⟨id, .failed message⟩ =>
    match s.queue.stateOf id with
    | some (.rejected _) => s.setPoint i .ending
    | _ =>
      let count := s.failures id + 1
      let s' := { s with failures := Function.update s.failures id count }
      if count = 1 then
        { s' with queue := (s.queue.markNew id).2 }.setPoint i .retrying
      else (s'.reject id (.coded "PROVISION_FAILED" message)).setPoint i .ending
  | _ => s

/-- `#countFailure` goes on: the guard is deleted, and the waiter driven by a drive of its own. -/
def retry (i : Nat) : Coordinator :=
  match s.drives[i]? with
  | some ⟨id, .retrying⟩ =>
    { s with driving := s.driving.filter fun x => x ≠ id }.setPoint i (.awaiting s.drives.length)
      |>.drive id
  | _ => s

/-- The drive it waited for is over. -/
def resumed (i : Nat) : Coordinator :=
  match s.drives[i]? with
  | some ⟨_, .awaiting child⟩ =>
    if s.drives[child]?.any fun d => d.point = .over then s.setPoint i .ending else s
  | _ => s

/-- The section of `#grantHandoff`; `superseded` is what `#isSuperseded` says of the device. -/
def grantHandoff (i : Nat) (superseded : Bool) (g : RequestHost.GrantInput) (now : Int)
    (writable : Bool) : Coordinator :=
  match s.drives[i]? with
  | some ⟨id, .handoff deviceId⟩ =>
    match s.queue.stateOf id with
    | some (.rejected _) => s.setPoint i .ending
    | _ =>
      if superseded then s.setPoint i (.discarding deviceId)
      else (s.at now).grant o i id { g with deviceId := deviceId } now writable
  | _ => s

/-- The superseded copy was disposed of, or not. -/
def disposed (i : Nat) : Coordinator :=
  match s.drives[i]? with
  | some ⟨_, .discarding _⟩ => s.setPoint i (.deferring true)
  | _ => s

/-- The `finally` of `#drive`. -/
def finish (i : Nat) : Coordinator :=
  match s.drives[i]? with
  | some ⟨id, .ending⟩ =>
    { s with
      driving := s.driving.filter fun x => x ≠ id
      planAgain := s.planAgain.filter fun x => x ≠ id }.setPoint i .over
  | _ => s

/-! ### Physical devices -/

/-- `#heldByOlder`: some older physical request that is queued fits the device. -/
def heldByOlder (id : String) (d : PhysicalDevice) : Bool :=
  (s.queue.pendingWaiters.takeWhile fun other => other ≠ id).any fun other =>
    (s.queue.owned other).any fun w =>
      lineOf w.request = .physical && w.state.isQueued && fitsPhysical d w.request

/-- `planPhysical`: the first device that is free. -/
def planPhysical (id : String) (w : Waiter LeaseGrant) (absent claimed : List String) :
    Option PhysicalDevice :=
  s.store.registry.devices.findSome? fun
    | .physical d =>
      if d.state = .ready ∧ d.id ∉ absent ∧ fitsPhysical d w.request = true ∧
        s.heldByOlder id d = false ∧ d.id ∉ claimed then some d else none
    | .virtual _ => none

/-- The request fits a phone or tablet that is enrolled. -/
def isKnown (w : Waiter LeaseGrant) : Bool :=
  s.store.registry.devices.any fun
    | .physical d => d.state ≠ .deleted && fitsPhysical d w.request
    | .virtual _ => false

/-- The section of `#decidePhysical`. -/
def choose (i : Nat) (claimed : List String) (now : Int) : Coordinator :=
  match s.drives[i]? with
  | some ⟨id, .choosing absent⟩ =>
    match s.queue.owned id with
    | none => s
    | some w =>
      let s := s.at now
      if !s.isKnown w then
        (s.reject id (.coded "UNKNOWN_MODEL" (noPhysicalMatch w.request))).setPoint i .ending
      else
        match s.planPhysical id w absent claimed with
        | none => (s.defer id now).setPoint i .ending
        | some d => s.takeUp i id now fun s => s.setPoint i (.reading d.id absent)
  | _ => s

/-- The presence read answers; one that throws answers absent. -/
def presence (i : Nat) (present : Bool) : Coordinator :=
  match s.drives[i]? with
  | some ⟨_, .reading deviceId absent⟩ => s.setPoint i (.read deviceId present absent)
  | _ => s

/-- The section of `#grantPhysical`; `active` is that its claim still is. -/
def grantPhysical (i : Nat) (active : Bool) (g : RequestHost.GrantInput) (now : Int)
    (writable : Bool) : Coordinator :=
  match s.drives[i]? with
  | some ⟨id, .read deviceId present absent⟩ =>
    (s.at now).takeUp i id now fun s =>
      let ready := (s.store.registry.device deviceId).any fun d => d.state = .ready
      if present && active && ready then s.grant o i id { g with deviceId := deviceId } now writable
      else s.setPoint i (.choosing (deviceId :: absent))
  | _ => s

/-! ### Sections of the daemon -/

def cancelPending (requesterId : String) (platform : Option Platform) : Coordinator :=
  match s.queue.findPendingWaiter requesterId platform with
  | none => s
  | some id =>
    if s.isWaiting id || s.isPhysical id then s.reject id (.cancelled id) else s

def beginMaintenance : Coordinator :=
  { s with
    maintenanceDepth := s.maintenanceDepth + 1
    queue := s.queue.cancelAll fun _ => nukeCancelled }

def endMaintenance : Coordinator := { s with maintenanceDepth := s.maintenanceDepth - 1 }

def holdForUpdate : Coordinator :=
  { s with
    updateHold := true
    queue := s.queue.refuseWaiting daemonUpdating }

/-- The book writes the result of a settled waiter. -/
def settleRequest (id : String) (now : Int) (writable : Bool) : Coordinator :=
  match (s.queue.stateOf id).bind WaiterState.outcome with
  | some x => { s with
      store := s.store.attempted o.registry (.settleLeaseRequest id x) now writable }
  | none => s

/-! ### Steps -/

inductive Action where
  | request (request : DeviceRequest) (options : WaiterOptions) (id : String) (answered : Bool)
    (now : Int) (writable : Bool)
  | resolved (i : Nat) (error : Option WaiterError)
  | wake
  | decide (i : Nat) (plan : Plan) (now : Int) (writable : Bool)
  | worked (i : Nat) (e : WorkEnd)
  | refuse (i : Nat)
  | deferAgain (i : Nat) (now : Int)
  | countFailure (i : Nat)
  | retry (i : Nat)
  | resumed (i : Nat)
  | grantHandoff (i : Nat) (superseded : Bool) (g : RequestHost.GrantInput) (now : Int)
    (writable : Bool)
  | disposed (i : Nat)
  | resolve (i : Nat)
  | finish (i : Nat)
  | choose (i : Nat) (claimed : List String) (now : Int)
  | presence (i : Nat) (present : Bool)
  | grantPhysical (i : Nat) (active : Bool) (g : RequestHost.GrantInput) (now : Int)
    (writable : Bool)
  | cancelPending (requesterId : String) (platform : Option Platform)
  | beginMaintenance
  | endMaintenance
  | holdForUpdate
  | releaseUpdateHold
  | settleAcquisitions
  | settleRequest (id : String) (now : Int) (writable : Bool)
  /-- The timer of a waiter fires. -/
  | timeout (id : String)
  /-- A commit of another workflow. -/
  | other (c : Call) (now : Int) (writable : Bool)
  | restart (now : Int)
  /-- The start fails what the process before left open, and then serves. -/
  | serve (now : Int) (writable : Bool)

/-- What runs in a serialized section. -/
def Action.inSection : Action → Bool
  | .resolved .. | .worked .. | .retry _ | .resumed _ | .disposed _ | .resolve _ | .finish _
  | .presence .. | .settleAcquisitions | .timeout _ | .other .. | .restart _ => false
  | _ => true

/-- A step whose section is free. -/
def next (s : Coordinator) : Action → Coordinator
  | .request request options id answered now writable =>
    if s.serving && id ∉ s.minted then s.request o request options id answered now writable else s
  | .resolved i error => s.resolved i error
  | .wake => s.wake
  | .decide i plan now writable => s.decide o i plan now writable
  | .worked i e => s.worked i e
  | .refuse i => s.refuse i
  | .deferAgain i now => s.deferAgain i now
  | .countFailure i => s.countFailure i
  | .retry i => s.retry i
  | .resumed i => s.resumed i
  | .grantHandoff i superseded g now writable => s.grantHandoff o i superseded g now writable
  | .disposed i => s.disposed i
  | .resolve i => s.resolve i
  | .finish i => s.finish i
  | .choose i claimed now => s.choose i claimed now
  | .presence i present => s.presence i present
  | .grantPhysical i active g now writable => s.grantPhysical o i active g now writable
  | .cancelPending requesterId platform => s.cancelPending requesterId platform
  | .beginMaintenance => s.beginMaintenance
  | .endMaintenance => s.endMaintenance
  | .holdForUpdate => s.holdForUpdate
  | .releaseUpdateHold => { s with updateHold := false }
  | .settleAcquisitions => { s with stopPlanning := true }
  | .settleRequest id now writable => s.settleRequest o id now writable
  | .timeout id => { s with queue := s.queue.timeout id }
  | .other c now writable =>
    if c.writesRequests then s
    else { s with store := s.store.attempted o.registry c now writable }
  | .restart now =>
    { s with
      store := s.store.step o.registry (.reopen now)
      serving := false
      queue := .empty
      driving := []
      planAgain := []
      failures := fun _ => 0
      drives := []
      holder := none
      maintenanceDepth := 0
      updateHold := false
      stopPlanning := false }
  | .serve now writable =>
    if s.serving then s
    else
      let c := Call.failOpenLeaseRequests daemonRestarted
      { s with
        store := s.store.attempted o.registry c now writable
        serving := s.store.returns o.registry c now writable }

/-- A section waits for the one a grant holds. -/
def step (s : Coordinator) (a : Action) : Coordinator :=
  if a.inSection && s.holder.isSome then s else s.next o a

/-- A daemon on empty tables, about to serve. -/
def create (now : Int) : Coordinator :=
  ⟨Store.create now, false, .empty, [], [], fun _ => 0, [], none, 0, false, false, [], []⟩

end Coordinator

end Simlock.Leasing
