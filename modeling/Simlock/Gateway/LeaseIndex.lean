import Mathlib.Logic.Function.Basic
import Simlock.Lib.Keyed
import Simlock.Leasing.WaitQueue

/-! The gateway's record of the leases it issued.

    A lease is routed under the id its requester chose, or under `<worker>.<id>`. Entries come from
    grants and from what a worker reports of itself. An entry its worker stops to report goes once
    two reads of that worker in a row miss it: `generation` counts the reads, `missingSince` is the
    first that missed the entry.

    An id belongs to the worker that held it first. -/

namespace Simlock.Gateway

open Simlock.Lib Simlock.Core Simlock.Leasing

structure FleetLeaseEntry where
  gatewayLeaseId : String
  workerId : String
  workerLeaseId : String
  requesterId : String
  ownerId : String
  grantedAt : Int
  deriving DecidableEq, Repr

/-- A lease as a worker reports it. -/
structure WorkerReportedLease where
  id : String
  deviceId : Option String
  requesterId : String
  ownerId : String
  grantedAt : Int
  idChosenByRequester : Bool
  ttlDeadline : Int
  deriving DecidableEq, Repr

structure ReportedDevice where
  id : String
  platform : Platform
  deriving DecidableEq, Repr

structure FleetLeaseIndex where
  gatewayRequesterPrefix : String
  byGatewayId : List FleetLeaseEntry
  /-- The ids of a requester's leases, in the order they came. -/
  byRequester : String → Option (List String)
  byWorkerLease : String → Option String
  platforms : String → Option Platform
  generation : String → Option Nat
  missingSince : String → Option Nat
  removedByEvent : List String
  endedByWorkerAnswer : List String

def removedIdsCapacity : Nat := 200

/-- `remember`: the oldest id goes when there are too many. -/
def remember (ids : List String) (gatewayLeaseId : String) : List String :=
  let ids := if gatewayLeaseId ∈ ids then ids else ids ++ [gatewayLeaseId]
  if ids.length ≤ removedIdsCapacity then ids else ids.tail

def workerKey (workerId workerLeaseId : String) : String := workerId ++ " " ++ workerLeaseId

def isAlphanumeric (c : Char) : Bool :=
  ('A' ≤ c && c ≤ 'Z') || ('a' ≤ c && c ≤ 'z') || ('0' ≤ c && c ≤ '9')

/-- `LEASE_ID_PATTERN.test`. -/
def isLeaseId (id : String) : Bool :=
  match id.toList with
  | [] => false
  | c :: cs =>
    isAlphanumeric c && cs.length ≤ 63 && cs.all fun c => isAlphanumeric c || c = '_' || c = '-'

namespace FleetLeaseIndex

variable (x : FleetLeaseIndex)

def create (gatewayRequesterPrefix : String) : FleetLeaseIndex where
  gatewayRequesterPrefix := gatewayRequesterPrefix
  byGatewayId := []
  byRequester := fun _ => none
  byWorkerLease := fun _ => none
  platforms := fun _ => none
  generation := fun _ => none
  missingSince := fun _ => none
  removedByEvent := []
  endedByWorkerAnswer := []

def isGatewayRequester (requesterId : String) : Bool :=
  x.gatewayRequesterPrefix.toList.isPrefixOf requesterId.toList

def resolve (gatewayLeaseId : String) : Option FleetLeaseEntry :=
  x.byGatewayId.find? fun e => e.gatewayLeaseId = gatewayLeaseId

def findByWorkerLease (workerId workerLeaseId : String) : Option FleetLeaseEntry :=
  (x.byWorkerLease (workerKey workerId workerLeaseId)).bind x.resolve

/-- The leases of a requester, as the limit counts them. -/
def held (requesterId : String) : List HeldLease :=
  ((x.byRequester requesterId).getD []).filterMap fun id =>
    (x.resolve id).map fun e => ⟨e.gatewayLeaseId, e.grantedAt, x.platforms id⟩

def leaseCount (requesterId : String) : Nat := ((x.byRequester requesterId).map List.length).getD 0

/-- `add`; `false` when another worker has the id. -/
def add (entry : FleetLeaseEntry) (platform : Option Platform) : Bool × FleetLeaseIndex :=
  if (x.resolve entry.gatewayLeaseId).any fun e => e.workerId ≠ entry.workerId then (false, x)
  else
    let ids := (x.byRequester entry.requesterId).getD []
    (true, { x with
      endedByWorkerAnswer := x.endedByWorkerAnswer.erase entry.gatewayLeaseId
      byGatewayId := upsert FleetLeaseEntry.gatewayLeaseId entry x.byGatewayId
      platforms := match platform with
        | none => x.platforms
        | some p => Function.update x.platforms entry.gatewayLeaseId (some p)
      byRequester := Function.update x.byRequester entry.requesterId
        (some (if entry.gatewayLeaseId ∈ ids then ids else ids ++ [entry.gatewayLeaseId]))
      byWorkerLease := Function.update x.byWorkerLease
        (workerKey entry.workerId entry.workerLeaseId) (some entry.gatewayLeaseId) })

/-- `#dropRequesterLink`: a requester without a lease has no set. -/
def dropRequesterLink (entry : FleetLeaseEntry) : FleetLeaseIndex :=
  match x.byRequester entry.requesterId with
  | none => x
  | some ids =>
    let ids := ids.erase entry.gatewayLeaseId
    { x with
      byRequester := Function.update x.byRequester entry.requesterId
        (if ids.isEmpty then none else some ids) }

/-- `#forget`. -/
def forget (entry : FleetLeaseEntry) : FleetLeaseIndex :=
  let x := x.dropRequesterLink entry
  { x with
    byGatewayId := deleteKeys FleetLeaseEntry.gatewayLeaseId [entry.gatewayLeaseId] x.byGatewayId
    platforms := Function.update x.platforms entry.gatewayLeaseId none
    byWorkerLease := Function.update x.byWorkerLease
      (workerKey entry.workerId entry.workerLeaseId) none
    missingSince := Function.update x.missingSince entry.gatewayLeaseId none }

/-- The worker's answer ends the lease, also when its event already did. -/
def remove (gatewayLeaseId : String) : FleetLeaseIndex :=
  let x' := { x with endedByWorkerAnswer := remember x.endedByWorkerAnswer gatewayLeaseId }
  match x.resolve gatewayLeaseId with
  | none => x'
  | some entry => x'.forget entry

def removeByWorkerLease (workerId workerLeaseId : String) : FleetLeaseIndex :=
  match x.findByWorkerLease workerId workerLeaseId with
  | none => x
  | some entry =>
    let x' := x.forget entry
    { x' with removedByEvent := remember x'.removedByEvent entry.gatewayLeaseId }

/-- `#gatewayLeaseId`: a chosen id is routed bare, if it could have been chosen. -/
def gatewayLeaseId (workerId : String) (lease : WorkerReportedLease) : String :=
  if lease.idChosenByRequester && isLeaseId lease.id then lease.id
  else workerId ++ "." ++ lease.id

/-- One round of `#addReported`, with the ids seen so far. -/
def addReportedLease (workerId : String) (devices : List ReportedDevice)
    (s : List String × FleetLeaseIndex) (lease : WorkerReportedLease) :
    List String × FleetLeaseIndex :=
  let (reported, x) := s
  if !x.isGatewayRequester lease.requesterId then s
  else
    let id := gatewayLeaseId workerId lease
    let existing := x.resolve id
    if existing.any fun e => e.workerId ≠ workerId then s
    else
      let reported := if id ∈ reported then reported else reported ++ [id]
      let x := { x with missingSince := Function.update x.missingSince id none }
      if existing.isSome || id ∈ x.endedByWorkerAnswer then (reported, x)
      else
        let x := { x with removedByEvent := x.removedByEvent.erase id }
        let platform := (devices.find? fun d => lease.deviceId = some d.id).map ReportedDevice.platform
        (reported, (x.add
          { gatewayLeaseId := id
            workerId := workerId
            workerLeaseId := lease.id
            requesterId := String.ofList
              (lease.requesterId.toList.drop x.gatewayRequesterPrefix.length)
            ownerId := lease.ownerId
            grantedAt := lease.grantedAt } platform).2)

/-- One round of `#reconcileMissing`. -/
def reconcileEntry (workerId : String) (generation : Nat) (reported : List String)
    (x : FleetLeaseIndex) (entry : FleetLeaseEntry) : FleetLeaseIndex :=
  if entry.workerId ≠ workerId || entry.gatewayLeaseId ∈ reported then x
  else
    match x.missingSince entry.gatewayLeaseId with
    | none => { x with
        missingSince := Function.update x.missingSince entry.gatewayLeaseId (some generation) }
    | some firstMissedAt => if firstMissedAt < generation then x.forget entry else x

def rebuildFromWorker (workerId : String) (leases : List WorkerReportedLease)
    (devices : List ReportedDevice) : FleetLeaseIndex :=
  let generation := (x.generation workerId).getD 0 + 1
  let x := { x with generation := Function.update x.generation workerId (some generation) }
  let (reported, x) := leases.foldl (addReportedLease workerId devices) ([], x)
  x.byGatewayId.foldl (reconcileEntry workerId generation reported) x

def forgetWorker (workerId : String) : FleetLeaseIndex :=
  let x := (x.byGatewayId.filter fun e => e.workerId = workerId).foldl forget x
  { x with generation := Function.update x.generation workerId none }

end FleetLeaseIndex

/-! ### Runs -/

inductive IndexAction where
  | add (entry : FleetLeaseEntry) (platform : Option Platform)
  | remove (gatewayLeaseId : String)
  | removeByWorkerLease (workerId workerLeaseId : String)
  | rebuildFromWorker (workerId : String) (leases : List WorkerReportedLease)
    (devices : List ReportedDevice)
  | forgetWorker (workerId : String)

def FleetLeaseIndex.step (x : FleetLeaseIndex) : IndexAction → FleetLeaseIndex
  | .add entry platform => (x.add entry platform).2
  | .remove gatewayLeaseId => x.remove gatewayLeaseId
  | .removeByWorkerLease workerId workerLeaseId => x.removeByWorkerLease workerId workerLeaseId
  | .rebuildFromWorker workerId leases devices => x.rebuildFromWorker workerId leases devices
  | .forgetWorker workerId => x.forgetWorker workerId

end Simlock.Gateway
