import Mathlib.Logic.Function.Basic
import Simlock.Core.Requests

/-! Requests for leases, and their repeats.

    A request is stored before anything queues it, and an entry of `#open` holds its wait until the
    result is written. A repeat under the same requester and key finds the record and is answered
    from the wait, or from the record once the wait is forgotten. Admissions, grants and writes run
    in serialized sections; a wait settles, and an entry is forgotten, between any two of them.

        request ──replay──▶ attached to the wait, stored result, or refused
           └─────admit────▶ record, entry and wait
        wait settles ──▶ settling ──write──▶ forgotten, or kept if the write failed

    A restart loses the entries and the waits, and fails what is still open before it serves. -/

namespace Simlock.Leasing

open Simlock.Lib Simlock.Core

/-- How a request asks, besides for its device. -/
structure LeaseRequestOptions where
  requesterId : String
  ownerId : String
  idempotencyKey : Option String
  leaseId : Option String
  fleetRequestId : Option String
  deriving DecidableEq, Repr

/-- An omitted field equals only an omitted one. -/
def sameDeviceRequest (left right : DeviceRequest) : Bool :=
  left.platform = right.platform && left.model = right.model && left.class_ = right.class_ &&
    left.osVersion = right.osVersion && left.mode = right.mode &&
    left.imageTag = right.imageTag && left.baseline = right.baseline &&
    (left.except_.map ExceptList.join).getD "" = (right.except_.map ExceptList.join).getD "" &&
    (left.physical = some true) = (right.physical = some true)

inductive BookPhase where
  | open_ | settling | settled
  deriving DecidableEq, Repr

/-- An entry of `#open`; its promise is that of the wait of the same id. -/
structure OpenRequest where
  phase : BookPhase
  outcome : Option LeaseRequestOutcome
  /-- How the write of the outcome went, once it ran. -/
  written : Option Bool
  deriving DecidableEq

/-- The waiter of a request, with what its promise settled with. -/
structure Wait where
  options : LeaseRequestOptions
  outcome : Option LeaseRequestOutcome
  /-- The process it waits in. -/
  process : Nat

/-- Why a request that is no repeat is not admitted, besides for its lease id. -/
inductive Refusal where
  | updating | killed | alreadyLeased
  deriving DecidableEq, Repr

/-- What a request is told by its section: a failure, a stored result, or whose wait it shares. -/
inductive Answer where
  | admitted (id : String)
  | attached (id : String)
  | stored (id : String) (result : LeaseRequestOutcome)
  | forbidden (id : String)
  | conflict (requesterId idempotencyKey : String)
  | undriven (id : String)
  | refused (reason : Refusal)
  | leaseIdTaken (leaseId : String)
  | failed
  deriving DecidableEq

/-- A daemon as its request book sees it. -/
structure RequestHost where
  store : Store
  /-- Counts the processes; `waits` keeps those of the earlier ones. -/
  process : Nat
  /-- The start has settled what the process before left open, and admission opened. -/
  serving : Bool
  open_ : String → Option OpenRequest
  waits : String → Option Wait

/-- What a request that is open at a restart is settled with. -/
def daemonRestarted : LeaseRequestFailure :=
  ⟨"INTERNAL",
    "The daemon restarted before this lease request settled; send it again with a new key"⟩

/-- `storedResult`. -/
def storedResult (record : LeaseRequestRecord) : LeaseRequestOutcome :=
  match record.state, record.grant with
  | .granted, some grant => .granted grant
  | .cancelled, _ => .cancelled
  | _, _ => .failed (record.failure.getD ⟨"INTERNAL", "Lease request failed"⟩)

/-- A waiter that has settled stays as it is. -/
def Wait.settleWith (w : Wait) (x : LeaseRequestOutcome) : Wait :=
  if w.outcome.isSome then w else { w with outcome := some x }

namespace RequestHost

variable (o : RegistryOptions) (h : RequestHost)

/-- The wait of this id, if it runs in this process. -/
def live (id : String) : Option Wait := (h.waits id).filter fun w => w.process = h.process

def setWait (id : String) (w : Wait) : RequestHost :=
  { h with waits := Function.update h.waits id (some w) }

def setOpen (id : String) (e : Option OpenRequest) : RequestHost :=
  { h with open_ := Function.update h.open_ id e }

/-! ### The book -/

/-- `#stored`: the record under the request's key, once the repeat is proven to be the same. -/
def stored (request : DeviceRequest) (options : LeaseRequestOptions) (now : Int) :
    Except Answer (Option LeaseRequestRecord) :=
  match options.idempotencyKey with
  | none => .ok none
  | some key =>
    match (h.store.registry.leaseRequestsAt o now).find? fun q =>
      q.requesterId = options.requesterId && q.idempotencyKey = some key with
    | none => .ok none
    | some record =>
      if record.ownerId ≠ options.ownerId then .error (.forbidden record.id)
      else if !sameDeviceRequest record.request request || record.leaseId ≠ options.leaseId then
        .error (.conflict options.requesterId key)
      else .ok (some record)

/-- The answer to a repeat; `none` when no request is stored under the key. -/
def replay (request : DeviceRequest) (options : LeaseRequestOptions) (now : Int) : Option Answer :=
  match h.stored o request options now with
  | .error answer => some answer
  | .ok none => none
  | .ok (some record) =>
    if (h.open_ record.id).isSome then some (.attached record.id)
    else if !isSettled record then some (.undriven record.id)
    else some (.stored record.id (storedResult record))

def holdsLeaseId (leaseId : String) (now : Int) : Bool :=
  (h.store.registry.leaseRequestsAt o now).any fun q => q.leaseId = some leaseId && !isSettled q

/-- `#refuseIfLeaseIdTaken`. -/
def takenLeaseId (options : LeaseRequestOptions) (now : Int) : Option String :=
  options.leaseId.filter fun leaseId =>
    h.store.registry.leases.any (fun l => l.id = leaseId) || h.holdsLeaseId o leaseId now

/-- What `admit` stores. -/
def newRequest (request : DeviceRequest) (options : LeaseRequestOptions) (id : String) :
    NewLeaseRequest where
  id := id
  requesterId := options.requesterId
  ownerId := options.ownerId
  idempotencyKey := options.idempotencyKey
  leaseId := options.leaseId
  fleetRequestId := options.fleetRequestId
  request := request

/-- `admit`; `thrown` is what `start` throws, when it does. -/
def admitRequest (request : DeviceRequest) (options : LeaseRequestOptions) (id : String)
    (thrown : Option LeaseRequestFailure) (now : Int) (writable : Bool) : Answer × RequestHost :=
  let c := Call.createLeaseRequest (newRequest request options id)
  let h' := { h with store := h.store.attempted o c now writable }
  if h.store.returns o c now writable then
    (if thrown.isSome then .failed else .admitted id,
      (h'.setOpen id (some ⟨.open_, none, none⟩)).setWait id
        ⟨options, thrown.map .failed, h.process⟩)
  else (.failed, h')

/-- The section of a request. `id` is the one minted for it, `refusal` what the owner's other checks
    say. -/
def request (request : DeviceRequest) (options : LeaseRequestOptions) (id : String)
    (refusal : Option Refusal) (thrown : Option LeaseRequestFailure) (now : Int) (writable : Bool) :
    Answer × RequestHost :=
  let same := { h with store := { h.store with clock := now } }
  match h.replay o request options now with
  | some answer => (answer, same)
  | none =>
    match refusal, h.takenLeaseId o options now with
    | some reason, _ => (.refused reason, same)
    | none, some leaseId => (.leaseIdTaken leaseId, same)
    | none, none => h.admitRequest o request options id thrown now writable

/-! ### The queue and the leases -/

/-- What a grant names besides its request. -/
structure GrantInput where
  generated : String
  deviceId : String
  ttlMs : Int
  except_ : Option ExceptList
  environment : Entries
  timing : LeaseTiming

/-- What `LeaseLifecycle.grant` asks for the waiter of this id. -/
def leaseInput (id : String) (w : Wait) (g : GrantInput) (now : Int) : Registry.CreateLeaseInput where
  deviceId := g.deviceId
  requesterId := w.options.requesterId
  ownerId := w.options.ownerId
  ttlMs := g.ttlMs
  ttlDeadline := now + g.ttlMs
  leaseId := w.options.leaseId
  except_ := g.except_
  request := some ⟨id, g.environment, g.timing⟩

def grantCall (id : String) (w : Wait) (g : GrantInput) (now : Int) : Call :=
  .createLease g.generated (leaseInput id w g now)

/-- `#grant`, unless the waiter was rejected: the lease, and the waiter's promise. -/
def grant (id : String) (g : GrantInput) (now : Int) (writable : Bool) : RequestHost :=
  match h.live id with
  | none => h
  | some w =>
    match w.outcome with
    | some (.failed _) | some .cancelled => { h with store := { h.store with clock := now } }
    | _ =>
      let c := grantCall id w g now
      let h' := { h with store := h.store.attempted o c now writable }
      match h.store.returns o c now writable, h'.store.registry.device g.deviceId with
      | true, some device =>
        h'.setWait id (w.settleWith (.granted ⟨device, g.environment,
          grantedLease now g.generated (leaseInput id w g now), g.timing⟩))
      | _, _ => h'

/-- Why a waiter is rejected, as the book stores it. -/
inductive Rejection where
  | cancelled
  | failed (failure : LeaseRequestFailure)
  deriving DecidableEq, Repr

def Rejection.outcome : Rejection → LeaseRequestOutcome
  | .cancelled => .cancelled
  | .failed failure => .failed failure

/-- `WaitQueue.reject`. -/
def reject (id : String) (why : Rejection) : RequestHost :=
  match h.live id with
  | none => h
  | some w => h.setWait id (w.settleWith why.outcome)

/-! ### The settlement -/

/-- `#settle` up to its write: the promise has settled. -/
def beginSettle (id : String) : RequestHost :=
  match h.open_ id, (h.waits id).bind Wait.outcome with
  | some e, some x =>
    if e.phase = .open_ then h.setOpen id (some { e with phase := .settling, outcome := some x })
    else h
  | _, _ => h

/-- The section in which `#settle` writes the result. -/
def writeResult (id : String) (now : Int) (writable : Bool) : RequestHost :=
  match h.open_ id with
  | none => h
  | some e =>
    match e.phase, e.written, e.outcome with
    | .settling, none, some x =>
      let c := Call.settleLeaseRequest id x
      { h with store := h.store.attempted o c now writable }.setOpen id
        (some { e with written := some (h.store.returns o c now writable) })
    | _, _, _ => h

/-- The end of `#settle`: an entry whose write failed stays. -/
def endSettle (id : String) : RequestHost :=
  match h.open_ id with
  | none => h
  | some e =>
    match e.phase, e.written with
    | .settling, some true => h.setOpen id none
    | .settling, some false => h.setOpen id (some { e with phase := .settled })
    | _, _ => h

/-! ### Runs -/

/-- A new process: the registry is opened on its tables. -/
def restart (now : Int) : RequestHost where
  store := h.store.step o (.reopen now)
  process := h.process + 1
  serving := false
  open_ := fun _ => none
  waits := h.waits

/-- `LeaseStartup.settleRequests`; a start whose write fails does not serve. -/
def settleRequests (now : Int) (writable : Bool) : RequestHost :=
  if h.serving then h
  else
    let c := Call.failOpenLeaseRequests daemonRestarted
    { h with
      store := h.store.attempted o c now writable
      serving := h.store.returns o c now writable }

end RequestHost

inductive RequestAction where
  | request (request : DeviceRequest) (options : LeaseRequestOptions) (id : String)
    (refusal : Option Refusal) (thrown : Option LeaseRequestFailure) (now : Int) (writable : Bool)
  | grant (id : String) (g : RequestHost.GrantInput) (now : Int) (writable : Bool)
  | reject (id : String) (why : RequestHost.Rejection)
  | beginSettle (id : String)
  | writeResult (id : String) (now : Int) (writable : Bool)
  | endSettle (id : String)
  /-- A commit of another workflow. -/
  | other (c : Call) (now : Int) (writable : Bool)
  | restart (now : Int)
  | settleRequests (now : Int) (writable : Bool)

namespace RequestHost

/-- A daemon on empty tables, about to serve. -/
def create (now : Int) : RequestHost := ⟨Store.create now, 0, false, fun _ => none, fun _ => none⟩

/-- Requests are parked until the daemon serves. -/
def step (o : RegistryOptions) (h : RequestHost) : RequestAction → RequestHost
  | .request request options id refusal thrown now writable =>
    if h.serving then (h.request o request options id refusal thrown now writable).2 else h
  | .grant id g now writable => h.grant o id g now writable
  | .reject id why => h.reject id why
  | .beginSettle id => h.beginSettle id
  | .writeResult id now writable => h.writeResult o id now writable
  | .endSettle id => h.endSettle id
  | .other c now writable =>
    if c.writesRequests then h else { h with store := h.store.attempted o c now writable }
  | .restart now => h.restart o now
  | .settleRequests now writable => h.settleRequests o now writable

/-- The clock does not go back, and the ids a call is handed are not in use. -/
def Admits (h : RequestHost) : RequestAction → Prop
  | .request _ _ id _ _ now _ => h.store.clock ≤ now ∧ h.waits id = none
  | .grant id g now _ => h.store.clock ≤ now ∧
      ∀ w, h.live id = some w → (grantCall id w g now).Fits h.store.registry
  | .other c now _ => h.store.clock ≤ now ∧ c.Fits h.store.registry
  | .writeResult _ now _ | .restart now | .settleRequests now _ => h.store.clock ≤ now
  | .reject .. | .beginSettle _ | .endSettle _ => True

/-- The daemon is reached from empty tables, in any order of these steps. -/
def Reached (o : RegistryOptions) (h : RequestHost) : Prop :=
  ∃ start acts, AllSteps (step o) Admits (create start) acts ∧ run (step o) (create start) acts = h

end RequestHost

end Simlock.Leasing
