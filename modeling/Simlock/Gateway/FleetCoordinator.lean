import Simlock.Lib.Run
import Simlock.Gateway.LeaseIndex

/-! The gateway's lease requests, from admission to a worker's grant.

    A waiter is offered to the workers in one ordered walk, run on its admission, on every change of
    the workers' views and after every attempt that ended. The walk takes a waiter out of the queue
    before it forwards the request, so no later walk sees it until the attempt is over.

        queued ──walk──▶ processing ──grant──▶ granted, or rejected on an id that is taken
                              ├──full, updating, unreachable, another id──▶ queued
                              ├──cannot serve, no wait, failed provision──▶ one more walk
                              └──any other failure, timeout──▶ rejected

    What a worker decides and what reaches the gateway are apart: an answer can be late, or lost
    with the link. Routing is a parameter. -/

namespace Simlock.Gateway

open Simlock.Lib Simlock.Core Simlock.Leasing

/-- An error as the gateway reports it. -/
structure DispatchError where
  code : String
  message : String
  deriving DecidableEq, Repr

def DispatchError.toWaiterError (e : DispatchError) : WaiterError := .coded e.code e.message

/-! ### Workers as the gateway sees them -/

/-- A worker's view. `detail` is what only a routing policy reads. -/
structure WorkerView (ν : Type) where
  id : String
  disconnected : Bool
  /-- `viewLoadKey`. -/
  loadKey : String
  /-- The leases of the last read that listed them, and which read that was. -/
  leases : Option (Nat × List WorkerReportedLease)
  devices : List ReportedDevice
  detail : ν

inductive WorkerReasonCode where
  | disconnected | incompatible | notReady | unhealthy | drained | updating | busy | noDriver
  | unknownModel | runtimeMissing | noBaseline | baselineMismatch | baselineStale
  | capabilityMissing | cannotKeepExcept | full | noFreePhysical | notChosen
  deriving DecidableEq, Repr

/-- `COULD_TAKE_LATER`. -/
def WorkerReasonCode.couldTakeLater : WorkerReasonCode → Bool
  | .busy | .full | .notReady | .unhealthy | .updating => true
  | _ => false

structure WorkerExplanation where
  workerId : String
  filter : Option WorkerReasonCode
  deriving DecidableEq, Repr

structure RoutableRequest extends DeviceRequest where
  requires : Option (List String)
  deriving DecidableEq

structure RoutingDecision where
  workerId : String
  deriving DecidableEq, Repr

/-- `assess` gives the rejection of a request no worker can serve. -/
structure RoutingPolicy (ν : Type) where
  assess : RoutableRequest → List (WorkerView ν) → Option DispatchError
  select : RoutableRequest → List (WorkerView ν) → Option RoutingDecision
  explain : RoutableRequest → List (WorkerView ν) → List WorkerExplanation

structure FleetOptions (ν : Type) where
  routing : RoutingPolicy ν
  maxPerRequester : Option MaxPerRequester

/-! ### Forwarded requests -/

/-- What a worker answers a forwarded request. -/
inductive WorkerAnswer where
  | granted (grant : LeaseGrant)
  | malformed
  | refused (error : DispatchError)

/-- The release of a lease the gateway will not route. -/
inductive Release where
  | none | asked | done | failed
  deriving DecidableEq, Repr

/-- A forwarded `lease.request`, at the gateway and at its worker. -/
structure Forwarded where
  waiter : String
  workerId : String
  /-- The worker has pushed progress, or its grant was taken. -/
  announced : Bool
  /-- The attempt waits for it. -/
  awaited : Bool
  /-- Its answer, or the loss of its link, has reached the gateway. -/
  arrived : Bool
  answer : Option WorkerAnswer
  release : Release

/-- Why a forwarded request failed. -/
inductive CallFailure where
  | refused (error : DispatchError)
  | lost (message : String)
  | timedOut
  | malformed
  | unexpected

/-- `#classifyLeaseRequestError`. -/
def CallFailure.classify (workerId : String) : CallFailure → DispatchError
  | .refused error => error
  | .lost message => ⟨"WORKER_UNREACHABLE", message⟩
  | .timedOut => ⟨"WORKER_UNREACHABLE",
      "Worker " ++ workerId ++ " did not answer lease.request within gateway.leaseRequestTimeoutMs"⟩
  | .malformed => ⟨"INTERNAL",
      "Worker " ++ workerId ++ " answered lease.request with a malformed grant"⟩
  | .unexpected => ⟨"INTERNAL",
      "Unexpected error forwarding lease.request to worker " ++ workerId⟩

def staleViewCodes : List String := ["NO_CAPACITY", "DAEMON_UPDATING"]

def cannotServeCodes : List String :=
  ["UNKNOWN_MODEL", "RUNTIME_MISSING", "NO_DRIVER", "CAPABILITY_MISSING", "UNKNOWN_BASELINE",
    "BASELINE_MISMATCH", "BASELINE_STALE"]

/-- A worker's refusal of a waiter, at the load its view showed. -/
structure Refusal where
  key : String
  provisionFailure : Option DispatchError
  deriving DecidableEq, Repr

/-- A lease under the gateway's id, with the worker that holds it. -/
structure FleetLeaseRecord extends LeaseRecord where
  worker : String
  deriving DecidableEq, Repr

structure FleetLeaseGrant where
  device : Device
  environment : Entries
  lease : FleetLeaseRecord
  timing : LeaseTiming
  deriving DecidableEq

/-- A gateway as its coordinator sees it. -/
structure FleetHost (ν : Type) where
  queue : WaitQueue FleetLeaseGrant
  /-- Waiters created by `request`, before their first walk. -/
  admitting : List String
  views : List (WorkerView ν)
  routingViews : List (WorkerView ν)
  /-- `liveClient` of each worker. -/
  live : String → Bool
  index : FleetLeaseIndex
  refusals : String → List (String × Refusal)
  cannotServe : String → List (String × DispatchError)
  lastReconciled : String → Option Nat
  knownWorkerIds : List String
  /-- The forwarded requests, by number. -/
  calls : Nat → Option Forwarded
  sent : Nat
  disposed : Bool

/-! ### One walk -/

/-- The workers claimed in a walk: one request each, or one for the same physical match. -/
structure Claims where
  physical : List String
  virtual : List String

def platformText : Platform → String
  | .ios => "ios"
  | .android => "android"

def classText : DeviceClass → String
  | .phone => "phone"
  | .tablet => "tablet"
  | .watch => "watch"
  | .tv => "tv"
  | .vision => "vision"
  | .auto => "auto"
  | .desktop => "desktop"

def physicalMatchKey (request : DeviceRequest) : String :=
  let target := match request.model with
    | none => "class:" ++ classText (request.class_.getD .phone)
    | some model => "model:" ++ model.toLower
  platformText request.platform ++ "\x00" ++ target ++ "\x00" ++ request.osVersion.getD ""

def Claims.keys (claims : Claims) (request : DeviceRequest) : List String :=
  match lineOf request with
  | .physical => claims.physical
  | .virtual => claims.virtual

def claimKey (request : DeviceRequest) (workerId : String) : String :=
  match lineOf request with
  | .physical => workerId ++ "\x00" ++ physicalMatchKey request
  | .virtual => workerId

def Claims.add (claims : Claims) (request : DeviceRequest) (workerId : String) : Claims :=
  match lineOf request with
  | .physical => { claims with physical := claims.physical ++ [claimKey request workerId] }
  | .virtual => { claims with virtual := claims.virtual ++ [claimKey request workerId] }

def routable (w : Waiter FleetLeaseGrant) : RoutableRequest where
  toDeviceRequest := { w.request with
    physical := if lineOf w.request = .physical then some true else none }
  requires := w.options.requires

namespace FleetHost

variable {ν : Type} (o : FleetOptions ν) (h : FleetHost ν)

def setCall (n : Nat) (c : Forwarded) : FleetHost ν :=
  { h with calls := Function.update h.calls n (some c) }

def reject (id : String) (error : DispatchError) : FleetHost ν :=
  { h with queue := (h.queue.reject id error.toWaiterError).2 }

def enqueue (id : String) (now : Int) : FleetHost ν :=
  { h with queue := (h.queue.enqueue id now).2 }

def setRefusals (id : String) (memo : List (String × Refusal)) : FleetHost ν :=
  { h with refusals := Function.update h.refusals id memo }

/-- A refusal of a worker that is looked at, and whose load has changed, ends. -/
def endChanged (asked : List (WorkerView ν)) (memo : List (String × Refusal)) :
    List (String × Refusal) :=
  memo.filter fun m => asked.all fun v => v.id ≠ m.1 || v.loadKey = m.2.key

/-- `reasonsFor`, as far as it ends refusals. -/
def noteReasons (id : String) (request : RoutableRequest) (unreachable : Option String) :
    FleetHost ν :=
  let filtered := ((o.routing.explain request h.routingViews).filter fun e => e.filter.isSome).map
    WorkerExplanation.workerId
  let asked := h.routingViews.filter fun v =>
    v.id ∉ filtered && unreachable ≠ some v.id && v.id ∉ (h.cannotServe id).map Prod.fst
  h.setRefusals id (endChanged asked (h.refusals id))

def rememberRefusal (id workerId : String) (provisionFailure : Option DispatchError) :
    FleetHost ν :=
  match h.views.find? fun v => v.id = workerId with
  | none => h
  | some view => h.setRefusals id
      (reinsert Prod.fst (workerId, ⟨view.loadKey, provisionFailure⟩) (h.refusals id))

def rememberCannotServe (id workerId : String) (error : DispatchError) : FleetHost ν :=
  { h with cannotServe :=
      Function.update h.cannotServe id (upsert Prod.fst (workerId, error) (h.cannotServe id)) }

/-- `#staleView`, up to the refresh it asks for. -/
def staleView (id : String) (unreachable : Option String) (now : Int) : FleetHost ν :=
  match h.queue.owned id with
  | none => h
  | some w => (h.noteReasons o id (routable w) unreachable).enqueue id now

/-- `#attempt` up to its await: the request is forwarded, if the worker can be reached. -/
def attempt (id workerId : String) (now : Int) : FleetHost ν :=
  if h.live workerId then
    { h.setCall h.sent ⟨id, workerId, false, true, false, none, .none⟩ with sent := h.sent + 1 }
  else h.staleView o id (some workerId) now

/-- `#beginAttempt`. -/
def beginAttempt (id workerId : String) (now : Int) : FleetHost ν :=
  match h.queue.markProcessing id now with
  | (false, queue) => { h with queue := queue }
  | (true, queue) => { h with queue := queue }.attempt o id workerId now

def rejectIfEveryWorkerFailedProvisioning (id : String) (request : RoutableRequest)
    (views : List (WorkerView ν)) : FleetHost ν :=
  let open_ := ((o.routing.explain request views).filter
    fun e => e.filter.all WorkerReasonCode.couldTakeLater).map WorkerExplanation.workerId
  let failed := ((h.refusals id).filter fun m => m.1 ∈ open_).filterMap
    fun m => m.2.provisionFailure
  match failed.getLast? with
  | none => h
  | some last => if failed.length < open_.length then h else h.reject id last

/-- Ends with the last worker's own refusal, if there is one. -/
def rejectUnservable (id : String) (verdict : DispatchError) : FleetHost ν :=
  h.reject id (((h.cannotServe id).getLast?.map Prod.snd).getD verdict)

/-- `#walkWaiter`: whether the waiter was attempted, and what is claimed then. -/
def walkWaiter (claims : Claims) (id : String) (w : Waiter FleetLeaseGrant) (now : Int) :
    Bool × Claims × FleetHost ν :=
  let request := routable w
  let views := h.routingViews.filter fun v => v.id ∉ (h.cannotServe id).map Prod.fst
  match o.routing.assess request views with
  | some verdict => (false, claims, h.rejectUnservable id verdict)
  | none =>
    let h := h.noteReasons o id request none
    let unclaimed := views.filter fun v => claimKey w.request v.id ∉ claims.keys w.request
    let h := h.setRefusals id (endChanged unclaimed (h.refusals id))
    let eligible := unclaimed.filter fun v => v.id ∉ (h.refusals id).map Prod.fst
    match o.routing.select request eligible with
    | none => (false, claims, h.rejectIfEveryWorkerFailedProvisioning o id request views)
    | some decision =>
      (true, claims.add w.request decision.workerId, h.beginAttempt o id decision.workerId now)

/-- One waiter of a pass; `attempted` is the candidate's. -/
def passWaiter (candidate : Option String) (now : Int) (s : Bool × Claims × FleetHost ν)
    (id : String) : Bool × Claims × FleetHost ν :=
  match s.2.2.queue.owned id with
  | none => s
  | some w =>
    match w.state, decide (candidate = some id) with
    | .queued, false => (s.1, (s.2.2.walkWaiter o s.2.1 id w now).2)
    | _, true =>
      ((s.2.2.walkWaiter o s.2.1 id w now).1 || s.1, (s.2.2.walkWaiter o s.2.1 id w now).2)
    | _, false => s

/-- `#dispatchPass`: the candidate walks last, unless it holds a position. -/
def dispatchPass (candidate : Option String) (now : Int) : Bool × FleetHost ν :=
  let waiters := match candidate with
    | none => h.queue.waiters
    | some id => if h.queue.isQueued id then h.queue.waiters else h.queue.waiters ++ [id]
  let s := waiters.foldl (passWaiter o candidate now) (false, ⟨[], []⟩, h)
  (s.1, s.2.2)

/-- `#dispatch`. A pass starts no other, so the request for one more is never pending here. -/
def dispatch (now : Int) : FleetHost ν := (h.dispatchPass o none now).2

def noWait (id : String) : Bool := (h.queue.optionsOf id).any WaiterOptions.noWait

def noWorkerCanServe : DispatchError :=
  ⟨"NO_CAPACITY", "No worker in the fleet can currently serve this request"⟩

/-- `#admit`. -/
def admitWaiter (id : String) (now : Int) : FleetHost ν :=
  match h.dispatchPass o (some id) now with
  | (true, h') => h'
  | (false, h') => if h'.noWait id then h'.reject id noWorkerCanServe else h'.enqueue id now

/-! ### How an attempt ends -/

/-- The rest of `#attempt` after its call failed. -/
def attemptFailed (c : Forwarded) (failure : CallFailure) (now : Int) : FleetHost ν :=
  match failure, c.announced with
  | .refused error, false =>
    if error.code ∈ staleViewCodes then
      let h := h.rememberRefusal c.waiter c.workerId none
      if h.noWait c.waiter then h.admitWaiter o c.waiter now else h.staleView o c.waiter none now
    else if error.code = "PROVISION_FAILED" then
      (h.rememberRefusal c.waiter c.workerId (some error)).admitWaiter o c.waiter now
    else if error.code ∈ cannotServeCodes then
      (h.rememberCannotServe c.waiter c.workerId error).admitWaiter o c.waiter now
    else (h.reject c.waiter error).dispatch o now
  | _, _ => (h.reject c.waiter (failure.classify c.workerId)).dispatch o now

/-- `releaseOnWorker`, once: the call fails at once when its worker cannot be reached. -/
def releaseOnWorker (n : Nat) (c : Forwarded) : FleetHost ν :=
  h.setCall n { c with release := if h.live c.workerId then .asked else .failed }

def leaseIdTaken (leaseId : String) : DispatchError :=
  ⟨"LEASE_ID_TAKEN", "lease ID " ++ leaseId ++ " is already in use"⟩

/-- The index's entry of a grant. -/
def entryOf (options : WaiterOptions) (workerId : String) (lease : LeaseRecord) :
    FleetLeaseEntry where
  gatewayLeaseId := options.leaseId.getD (workerId ++ "." ++ lease.id)
  workerId := workerId
  workerLeaseId := lease.id
  requesterId := options.requesterId
  ownerId := options.ownerId
  grantedAt := lease.grantedAt

/-- The grant as the fleet's client sees it. -/
def projectGrant (grant : LeaseGrant) (entry : FleetLeaseEntry) : FleetLeaseGrant where
  device := grant.device
  environment := grant.environment
  timing := grant.timing
  lease :=
    { grant.lease with
      id := entry.gatewayLeaseId
      ownerId := entry.ownerId
      requesterId := entry.requesterId
      worker := entry.workerId }

/-- The worker granted an id the gateway did not forward. -/
def isOtherId (options : WaiterOptions) (grant : LeaseGrant) : Bool :=
  options.leaseId.any fun leaseId => grant.lease.id ≠ leaseId

/-- The index routes the id of the grant to another worker. -/
def isRoutedElsewhere (options : WaiterOptions) (workerId : String) (grant : LeaseGrant) : Bool :=
  (h.index.resolve (entryOf options workerId grant.lease).gatewayLeaseId).any
    fun e => e.workerId ≠ workerId

/-- `#settleGrant`, when the id is the one asked for. -/
def settleGrant (n : Nat) (c : Forwarded) (w : Waiter FleetLeaseGrant) (grant : LeaseGrant) :
    FleetHost ν :=
  let entry := entryOf w.options c.workerId grant.lease
  match h.index.add entry (some w.request.platform) with
  | (false, _) => (h.releaseOnWorker n c).reject c.waiter (leaseIdTaken entry.gatewayLeaseId)
  | (true, index) =>
    { h with
      index := index
      queue := (h.queue.resolve c.waiter (projectGrant grant entry)).2 }

/-- The rest of `#attempt` after its call was granted. -/
def attemptGranted (n : Nat) (c : Forwarded) (grant : LeaseGrant) (now : Int) : FleetHost ν :=
  match h.queue.owned c.waiter with
  | none => h
  | some w =>
    if isOtherId w.options grant then
      ((h.releaseOnWorker n c).rememberRefusal c.waiter c.workerId none).staleView o c.waiter
        none now
    else (h.settleGrant n c w grant).dispatch o now

/-- The worker's answer comes in; nothing waits for it once the attempt gave up. -/
def answered (n : Nat) (now : Int) : FleetHost ν :=
  match h.calls n with
  | none => h
  | some c =>
    match c.answer, c.arrived, c.awaited with
    | none, _, _ | _, true, _ => h
    | some _, false, false => h.setCall n { c with arrived := true }
    | some answer, false, true =>
      let c := { c with arrived := true, awaited := false }
      match answer with
      | .granted grant =>
        let c := { c with announced := true }
        (h.setCall n c).attemptGranted o n c grant now
      | .malformed => (h.setCall n c).attemptFailed o c .malformed now
      | .refused error => (h.setCall n c).attemptFailed o c (.refused error) now

/-- The call fails at the gateway: with the link, or by an error of the gateway's own. -/
def callFails (n : Nat) (failure : CallFailure) (now : Int) : FleetHost ν :=
  match h.calls n with
  | none => h
  | some c =>
    match c.arrived, c.awaited with
    | true, _ => h
    | false, false => h.setCall n { c with arrived := true }
    | false, true =>
      let c := { c with arrived := true, awaited := false }
      (h.setCall n c).attemptFailed o c failure now

/-- `withLeaseRequestTimeout` fires: the attempt waits no more, the call runs on. -/
def requestTimeout (n : Nat) (now : Int) : FleetHost ν :=
  match h.calls n with
  | none => h
  | some c =>
    if c.awaited then
      let c := { c with awaited := false }
      (h.setCall n c).attemptFailed o c .timedOut now
    else h

/-- The worker pushes progress; a detached call relays none. -/
def progress (n : Nat) : FleetHost ν :=
  match h.calls n with
  | none => h
  | some c => if c.awaited then h.setCall n { c with announced := true } else h

/-- The worker decides. -/
def decides (n : Nat) (answer : WorkerAnswer) : FleetHost ν :=
  match h.calls n with
  | none => h
  | some c => if c.answer.isSome then h else h.setCall n { c with answer := some answer }

/-- A release that was asked for ends on its worker, or fails. -/
def releaseEnds (n : Nat) (ok : Bool) : FleetHost ν :=
  match h.calls n with
  | none => h
  | some c =>
    if c.release = .asked then
      h.setCall n { c with release := if ok then .done else .failed }
    else h

/-! ### Admission, cancels and views -/

/-- `#isPastDeadlineOnDisconnectedWorker`. -/
def isPastDeadlineOnDisconnectedWorker (gatewayLeaseId : String) (now : Int) : Bool :=
  (h.index.resolve gatewayLeaseId).any fun entry =>
    (h.views.find? fun v => v.id = entry.workerId).any fun view =>
      view.disconnected && view.leases.any fun leases =>
        (leases.2.find? fun l => l.id = entry.workerLeaseId).any fun l => l.ttlDeadline ≤ now

/-- `#refuseIfAlreadyLeased`. -/
def refuseIfAlreadyLeased (request : DeviceRequest) (requesterId : String) (now : Int) :
    Option RequesterAlreadyLeased :=
  requesterLimitDecision
    { requesterId := requesterId
      platform := request.platform
      maxPerRequester := o.maxPerRequester
      held := (h.index.held requesterId).filter
        fun lease => !h.isPastDeadlineOnDisconnectedWorker lease.id now
      waiting := h.queue.pendingPlatforms requesterId
      probe := false }

/-- The admission section of `request`. `replayed` and `holdsLeaseId` are the request book's
    answers: the request is a repeat, and one of its open requests holds the lease id. -/
def request (request : DeviceRequest) (options : WaiterOptions) (id : String)
    (replayed holdsLeaseId : Bool) (now : Int) : FleetHost ν :=
  if replayed then h
  else if (h.refuseIfAlreadyLeased o request options.requesterId now).isSome then h
  else if options.leaseId.any fun l => (h.index.resolve l).isSome || holdsLeaseId then h
  else { h with queue := h.queue.create request options id, admitting := h.admitting ++ [id] }

/-- The rest of `request`, after its section. -/
def admitNew (id : String) (now : Int) : FleetHost ν :=
  if id ∈ h.admitting then
    { h with admitting := h.admitting.filter fun i => i ≠ id }.admitWaiter o id now
  else h

/-- `cancelPending`: only a waiter in the queue is cancelled. -/
def cancelPending (requesterId : String) (platform : Option Platform) : FleetHost ν :=
  match h.queue.findPendingWaiter requesterId platform with
  | none => h
  | some id =>
    match h.queue.stateOf id with
    | some .queued => { h with queue := (h.queue.reject id (.cancelled id)).2 }
    | _ => h

def reconcile (h : FleetHost ν) (view : WorkerView ν) : FleetHost ν :=
  match view.leases with
  | none => h
  | some (read, leases) =>
    if h.lastReconciled view.id = some read then h
    else
      { h with
        index := h.index.rebuildFromWorker view.id leases view.devices
        lastReconciled := Function.update h.lastReconciled view.id (some read) }

def forgetWorker (h : FleetHost ν) (workerId : String) : FleetHost ν :=
  { h with
    index := h.index.forgetWorker workerId
    lastReconciled := Function.update h.lastReconciled workerId none }

/-- `#onViewsChanged`, unless the coordinator is disposed of. -/
def viewsChanged (views routingViews : List (WorkerView ν)) (now : Int) : FleetHost ν :=
  let h := { h with views := views, routingViews := routingViews }
  if h.disposed then h
  else
    let h := views.foldl reconcile h
    let gone := h.knownWorkerIds.filter fun id => id ∉ views.map WorkerView.id
    let h := gone.foldl forgetWorker h
    { h with knownWorkerIds := views.map WorkerView.id }.dispatch o now

def dispose : FleetHost ν :=
  { h with
    disposed := true
    queue := h.queue.cancelAll fun _ => .coded "DAEMON_STOPPING" "Gateway is stopping" }

end FleetHost

/-! ### Runs -/

inductive FleetAction (ν : Type) where
  | request (request : DeviceRequest) (options : WaiterOptions) (id : String)
    (replayed holdsLeaseId : Bool) (now : Int)
  | admitted (id : String) (now : Int)
  | viewsChanged (views routingViews : List (WorkerView ν)) (now : Int)
  | linksChanged (live : String → Bool)
  | cancelPending (requesterId : String) (platform : Option Platform)
  | timeout (id : String)
  | progress (n : Nat)
  | decides (n : Nat) (answer : WorkerAnswer)
  | answered (n : Nat) (now : Int)
  | linkLost (n : Nat) (message : String) (now : Int)
  | callThrows (n : Nat) (now : Int)
  | requestTimeout (n : Nat) (now : Int)
  | releaseEnds (n : Nat) (ok : Bool)
  /-- A release, a save or a failed call through the gateway ended the lease. -/
  | leaseRemoved (gatewayLeaseId : String)
  /-- The worker told of the lease's end. -/
  | leaseEnded (workerId workerLeaseId : String)
  | dispose

namespace FleetHost

variable {ν : Type}

def create (gatewayRequesterPrefix : String) : FleetHost ν where
  queue := .empty
  admitting := []
  views := []
  routingViews := []
  live := fun _ => false
  index := .create gatewayRequesterPrefix
  refusals := fun _ => []
  cannotServe := fun _ => []
  lastReconciled := fun _ => none
  knownWorkerIds := []
  calls := fun _ => none
  sent := 0
  disposed := false

def step (o : FleetOptions ν) (h : FleetHost ν) : FleetAction ν → FleetHost ν
  | .request request options id replayed holdsLeaseId now =>
    h.request o request options id replayed holdsLeaseId now
  | .admitted id now => h.admitNew o id now
  | .viewsChanged views routingViews now => h.viewsChanged o views routingViews now
  | .linksChanged live => { h with live := live }
  | .cancelPending requesterId platform => h.cancelPending requesterId platform
  | .timeout id => { h with queue := h.queue.timeout id }
  | .progress n => h.progress n
  | .decides n answer => h.decides n answer
  | .answered n now => h.answered o n now
  | .linkLost n message now => h.callFails o n (.lost message) now
  | .callThrows n now => h.callFails o n .unexpected now
  | .requestTimeout n now => h.requestTimeout o n now
  | .releaseEnds n ok => h.releaseEnds n ok
  | .leaseRemoved gatewayLeaseId => { h with index := h.index.remove gatewayLeaseId }
  | .leaseEnded workerId workerLeaseId =>
    { h with index := h.index.removeByWorkerLease workerId workerLeaseId }
  | .dispose => h.dispose

/-- A request is given an id no request had. -/
def Admits (h : FleetHost ν) : FleetAction ν → Prop
  | .request _ _ id _ _ _ => h.queue.owned id = none
  | _ => True

/-- The gateway is reached from its start, in any order of these steps. -/
def Reached (o : FleetOptions ν) (h : FleetHost ν) : Prop :=
  ∃ gatewayRequesterPrefix acts,
    AllSteps (step o) Admits (create gatewayRequesterPrefix) acts ∧
      run (step o) (create gatewayRequesterPrefix) acts = h

end FleetHost

end Simlock.Gateway
