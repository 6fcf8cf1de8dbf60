import Simlock.History.Wire
import Simlock.Lib.Tally

/-! The tables of requests and held leases.

    A request row opens when the request comes and is closed once, by a grant or a rejection; a
    lease row stands while the lease is held. The statements are functions on the lists of rows, and
    answer what their caller reads of the result. -/

namespace Simlock.History

open Core (Platform)
open Lib (Tally)

structure RequestRow where
  requestId : String
  requester : String
  platform : Option Platform
  model : Option String
  workerId : Option String
  requestedAt : ℚ
  grantedAt : Option ℚ
  rejectedAt : Option ℚ
  reason : Option String
  source : Option LeaseSource
  leaseId : Option String
  workerLeaseId : Option String
  heldMs : Option ℚ
  endedAt : Option ℚ
  endReason : Option EndReason
  probe : Bool
  declined : Bool
  refusedAtAdmission : Bool
  deriving DecidableEq

structure HeldLease where
  workerId : String
  leaseId : String
  platform : Option Platform
  source : Option LeaseSource
  heldAt : ℚ
  deriving DecidableEq

namespace RequestRow

/-- The `OPEN` condition. -/
def isOpen (r : RequestRow) : Bool := r.grantedAt.isNone && r.rejectedAt.isNone

/-- An open row that counts as a waiting request. -/
def isWaiting (r : RequestRow) : Bool := r.isOpen && !r.probe

end RequestRow

/-! ### `request_rows` -/

def newRequest (requestId requester : String) (platform : Option Platform) (model : Option String)
    (atMs : ℚ) (probe : Bool) : RequestRow where
  requestId := requestId
  requester := requester
  platform := platform
  model := model
  workerId := none
  requestedAt := atMs
  grantedAt := none
  rejectedAt := none
  reason := none
  source := none
  leaseId := none
  workerLeaseId := none
  heldMs := none
  endedAt := none
  endReason := none
  probe := probe
  declined := false
  refusedAtAdmission := false

def requestExists (rows : List RequestRow) (requestId : String) : Bool :=
  rows.any (fun r => r.requestId = requestId)

/-- `INSERT OR IGNORE`, of a request or of a refusal. -/
def insertRow (rows : List RequestRow) (row : RequestRow) : List RequestRow :=
  if requestExists rows row.requestId then rows else rows ++ [row]

def findOpen (rows : List RequestRow) (requestId : String) : Option RequestRow :=
  rows.find? (fun r => decide (r.requestId = requestId) && r.isOpen)

def requestPlatform (rows : List RequestRow) (requestId : String) : Option (Option Platform) :=
  (rows.find? (fun r => r.requestId = requestId)).map RequestRow.platform

/-- The rows with the open row of the request replaced. -/
def updateOpen (rows : List RequestRow) (requestId : String) (f : RequestRow → RequestRow) :
    List RequestRow :=
  rows.map (fun r => if r.requestId = requestId ∧ r.isOpen then f r else r)

def RequestRow.reject (atMs : ℚ) (declined : Bool) (reason workerId : Option String)
    (r : RequestRow) : RequestRow :=
  { r with
    rejectedAt := some atMs
    reason := reason
    workerId := r.workerId.or workerId
    declined := declined }

def RequestRow.grant (atMs : ℚ) (leaseId : String) (source : Option LeaseSource) (r : RequestRow) :
    RequestRow :=
  { r with grantedAt := some atMs, source := source, leaseId := some leaseId }

/-- The source of a held lease; a `NULL` finds no row. -/
def heldSource (held : List HeldLease) (workerId leaseId : Option String) : Option LeaseSource :=
  (held.find? (fun l => some l.workerId = workerId ∧ some l.leaseId = leaseId)).bind
    HeldLease.source

def RequestRow.grantDispatched (held : List HeldLease) (atMs : ℚ)
    (workerId workerLeaseId leaseId : Option String) (r : RequestRow) : RequestRow :=
  { r with
    grantedAt := some atMs
    workerId := workerId
    workerLeaseId := workerLeaseId
    leaseId := leaseId
    source := heldSource held workerId workerLeaseId }

def rejectAllOpen (rows : List RequestRow) (atMs : ℚ) (reason : String) : List RequestRow :=
  rows.map (fun r =>
    if r.isOpen then { r with rejectedAt := some atMs, reason := some reason } else r)

def endByLease (rows : List RequestRow) (leaseId : String) (atMs : ℚ)
    (endReason : Option EndReason) : List RequestRow :=
  rows.map (fun r =>
    match r.grantedAt with
    | some grantedAt =>
      if r.leaseId = some leaseId ∧ r.endedAt = none then
        { r with
          endedAt := some atMs
          endReason := endReason
          heldMs := some (max 0 (atMs - grantedAt)) }
      else r
    | none => r)

def endByWorkerLease (rows : List RequestRow) (workerId leaseId : String) (atMs : ℚ)
    (endReason : Option EndReason) (heldFrom : Option ℚ) : List RequestRow :=
  rows.map (fun r =>
    if r.workerId = some workerId ∧ r.workerLeaseId = some leaseId ∧ r.endedAt = none then
      { r with
        endedAt := some atMs
        endReason := endReason
        heldMs := heldFrom.map (fun since => max 0 (atMs - since)) }
    else r)

def attachSource (rows : List RequestRow) (workerId leaseId : String) (source : LeaseSource) :
    List RequestRow :=
  rows.map (fun r =>
    if r.workerId = some workerId ∧ r.workerLeaseId = some leaseId ∧ r.source = none ∧
        r.grantedAt ≠ none then
      { r with source := some source }
    else r)

/-! ### `held_leases` -/

def findHeld (held : List HeldLease) (workerId leaseId : String) : Option HeldLease :=
  held.find? (fun l => l.workerId = workerId ∧ l.leaseId = leaseId)

/-- `INSERT OR IGNORE`. -/
def holdLease (held : List HeldLease) (lease : HeldLease) : List HeldLease :=
  if (findHeld held lease.workerId lease.leaseId).isSome then held else held ++ [lease]

def releaseLease (held : List HeldLease) (workerId leaseId : String) : List HeldLease :=
  held.filter (fun l => ¬ (l.workerId = workerId ∧ l.leaseId = leaseId))

/-! ### The counts read back -/

/-- The platforms of the waiting requests, one for each. -/
def waitingPlatforms (rows : List RequestRow) : List (Option Platform) :=
  (rows.filter RequestRow.isWaiting).map RequestRow.platform

/-- The platforms of the leases a worker holds, one for each. -/
def heldPlatforms (held : List HeldLease) (worker : String) : List (Option Platform) :=
  (held.filter (fun l => l.workerId = worker)).map HeldLease.platform

/-- The order of the groups is SQLite's. -/
def waitingByPlatform (rows : List RequestRow) : Tally (Option Platform) :=
  .of (waitingPlatforms rows)

def heldByWorker (held : List HeldLease) (worker : String) : Tally (Option Platform) :=
  .of (heldPlatforms held worker)

end Simlock.History
