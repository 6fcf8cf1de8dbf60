import Simlock.History.Ledger
import Simlock.History.Minutes

/-! The usage projector.

    The projector turns the events of a daemon into five tables: requests, held leases, minute rows,
    gaps and device facts. Beside the tables it keeps, in memory, what the current run knows: the
    levels it recorded and the counts of waiting requests and held leases, read from the tables when
    first needed.

        event ─▶ apply ─▶ request_rows, held_leases ─▶ counts ─▶ level ─▶ minute_rows

    `Board` is what `level` writes to. A fresh process holds nothing in memory; a replay crosses
    the runs of the history in one projector and starts a new run where `seq` does not rise. -/

namespace Simlock.History

open Core (Platform Json Payload payloadOf)
open Lib (Tally)

structure Origin where
  relayed : Bool
  worker : String
  deriving DecidableEq, Repr

/-- The `OWN` origin. -/
def Origin.own : Origin := ⟨false, ""⟩

structure Gap where
  gapAt : ℚ
  workerId : Option String
  deriving DecidableEq

structure DeviceFact where
  id : Nat
  factAt : ℚ
  kind : EventName
  durationMs : Option ℚ
  platform : Option Platform
  workerId : Option String
  deviceId : Option String
  deriving DecidableEq

/-- A queue's two lines. -/
structure Lines where
  plain : ℚ
  physical : ℚ
  deriving DecidableEq

/-- The minute rows, and what this run knows of the levels. `levelPlatforms` holds the keys of a
    worker's map in `#levels`, in the order they came. -/
structure Board where
  minutes : String → RowPlatform → KeyMinutes
  levels : String → RowPlatform → List (UsageValue × ℚ)
  levelPlatforms : String → List RowPlatform
  connected : List String

structure HistoryProjectionOptions where
  fleet : Bool
  metricsRetentionMs : ℚ
  deriving DecidableEq

structure Projector where
  options : HistoryProjectionOptions
  requests : List RequestRow
  heldLeases : List HeldLease
  gaps : List Gap
  facts : List DeviceFact
  board : Board
  waiting : Tally (Option Platform)
  held : String → Tally (Option Platform)
  loaded : Bool
  queues : String → Lines
  lastSeq : Option Nat

namespace Board

variable (b : Board)

/-- One key of the minute rows changes. -/
def atKey (worker : String) (platform : RowPlatform) (f : KeyMinutes → KeyMinutes) : Board :=
  { b with
    minutes := fun w p => if w = worker ∧ p = platform then f (b.minutes w p) else b.minutes w p }

def step (worker : String) (platform : RowPlatform) (value : UsageValue) (level : ℚ) (atMs : ℚ) :
    Board := b.atKey worker platform (fun m => m.step value level atMs)

def levelOf (worker : String) (platform : RowPlatform) (value : UsageValue) : ℚ :=
  (((b.levels worker platform).find? (fun e => e.1 = value)).map Prod.snd).getD 0

def fleetTotal (platform : RowPlatform) (value : UsageValue) (atMs : ℚ) : Board :=
  b.step "*" platform value ((b.connected.map (fun w => b.levelOf w platform value)).sum) atMs

/-- `byValue.set(value, level)`, in the worker's map of the platform. -/
def setLevel (worker : String) (platform : RowPlatform) (value : UsageValue) (level : ℚ) : Board :=
  { b with
    levels := fun w p =>
      if w = worker ∧ p = platform then Lib.upsert Prod.fst (value, level) (b.levels w p)
      else b.levels w p
    levelPlatforms := fun w =>
      if w = worker ∧ platform ∉ b.levelPlatforms w then b.levelPlatforms w ++ [platform]
      else b.levelPlatforms w }

/-- `#level`. -/
def level (fleet : Bool) (origin : Origin) (platform : RowPlatform) (value : UsageValue)
    (level : ℚ) (atMs : ℚ) : Board :=
  let b := b.step origin.worker platform value level atMs
  if !fleet then b
  else if !origin.relayed then
    if value = .queueDepth ∨ value = .waiting then b.step "*" platform value level atMs else b
  else if value = .queueDepth then b
  else (b.setLevel origin.worker platform value level).fleetTotal platform value atMs

/-- The level of one platform of `#publishCounts`; requests and leases of no platform have none. -/
def publishOne (fleet : Bool) (counts : Tally (Option Platform)) (value : UsageValue)
    (origin : Origin) (atMs : ℚ) (platform : Option Platform) : Board :=
  match platform with
  | none => b
  | some p => b.level fleet origin (.on p) value (counts.get platform) atMs

def publishCounts (fleet : Bool) (counts : Tally (Option Platform)) (value : UsageValue)
    (origin : Origin) (atMs : ℚ) (platforms : List (Option Platform)) : Board :=
  (platforms.foldl (fun b p => b.publishOne fleet counts value origin atMs p) b).level fleet origin
    .all value counts.total atMs

/-- `#minutes.cut`. -/
def cut (worker : Option String) (atMs : ℚ) : Board :=
  { b with
    minutes := fun w p =>
      if worker = none ∨ worker = some w then (b.minutes w p).cut atMs else b.minutes w p }

def closeOpenRows : Board := { b with minutes := fun w p => (b.minutes w p).closeOpenRows }

/-- What a fresh process knows. -/
def newRun : Board where
  minutes := fun w p => (b.minutes w p).forget
  levels := fun _ _ => []
  levelPlatforms := fun _ => []
  connected := []

/-- The fleet's totals of every value a worker had on the platform. -/
def dropPlatform (gone : RowPlatform → List (UsageValue × ℚ)) (atMs : ℚ) (platform : RowPlatform) :
    Board := (gone platform).foldl (fun b e => b.fleetTotal platform e.1 atMs) b

/-- A worker's levels leave the fleet's totals. -/
def drop (worker : String) (atMs : ℚ) : Board :=
  (b.levelPlatforms worker).foldl (fun b' platform => b'.dropPlatform (b.levels worker) atMs platform)
    { b with
      connected := b.connected.filter (fun w => w ≠ worker)
      levels := fun w p => if w = worker then [] else b.levels w p
      levelPlatforms := fun w => if w = worker then [] else b.levelPlatforms w }

end Board

namespace Projector

/-- A new projector on empty tables. -/
def create (options : HistoryProjectionOptions) : Projector where
  options := options
  requests := []
  heldLeases := []
  gaps := []
  facts := []
  board := ⟨fun _ _ => ⟨[], none⟩, fun _ _ => [], fun _ => [], []⟩
  waiting := .empty
  held := fun _ => .empty
  loaded := false
  queues := fun _ => ⟨0, 0⟩
  lastSeq := none

variable (p : Projector)

abbrev fleet : Bool := p.options.fleet

def newRun : Projector := { p with board := p.board.newRun, queues := fun _ => ⟨0, 0⟩ }

def load : Projector :=
  if p.loaded then p
  else
    { p with
      waiting := waitingByPlatform p.requests
      held := fun w => heldByWorker p.heldLeases w
      loaded := true }

def originOf (payload : Payload) : Option Origin :=
  if !p.fleet || (payload.field "workerId").isNone then some .own
  else (text (payload.field "workerId")).map (fun worker => ⟨true, worker⟩)

/-- `#gap`: a gap of the daemon itself stands over a worker's at the same moment. -/
def gap (atMs : ℚ) (workerId : Option String) : Projector :=
  { p with
    gaps :=
      if p.gaps.any (fun g => g.gapAt = atMs) then
        p.gaps.map (fun g => if g.gapAt = atMs ∧ workerId = none then { g with workerId := none } else g)
      else p.gaps ++ [⟨atMs, workerId⟩] }

def fact (atMs : ℚ) (kind : EventName) (durationMs : Option ℚ) (platform : Option Platform)
    (workerId deviceId : Option String) : Projector :=
  { p with
    facts := p.facts ++
      [⟨(p.facts.getLast?.map DeviceFact.id).getD 0 + 1, atMs, kind, durationMs, platform, workerId,
        deviceId⟩] }

/-! ### Counts -/

/-- `#bump` of the waiting requests, by `next` for the platform. -/
def bumpWaiting (platform : Option Platform) (next : Nat) (atMs : ℚ) : Projector :=
  let counts := p.waiting.set platform next
  { p with
    waiting := counts
    board := p.board.publishCounts p.fleet counts .waiting .own atMs [platform] }

/-- `#bump` of the leases the origin's worker holds. -/
def bumpHeld (platform : Option Platform) (next : Nat) (origin : Origin) (atMs : ℚ) : Projector :=
  let counts := (p.held origin.worker).set platform next
  { p with
    held := Function.update p.held origin.worker counts
    board := p.board.publishCounts p.fleet counts .leasesHeld origin atMs [platform] }

/-- `#settle`: the open row of the request is closed by `outcome`. -/
def settle (requestId : String) (outcome : RequestRow → RequestRow) (atMs : ℚ) : Projector :=
  match findOpen p.requests requestId with
  | none => p
  | some row =>
    let p := { p with requests := updateOpen p.requests requestId outcome }
    if row.probe then p else p.bumpWaiting row.platform (p.waiting.get row.platform - 1) atMs

def touch (origin : Origin) (atMs : ℚ) : Projector :=
  if !origin.relayed || decide (origin.worker ∈ p.board.connected) then p
  else
    let board := { p.board with connected := p.board.connected ++ [origin.worker] }
    let held := p.held origin.worker
    { p with
      board :=
        if held.keys.isEmpty then board
        else board.publishCounts p.fleet held .leasesHeld origin atMs held.keys }

/-! ### The routes -/

def requested (payload : Payload) (atMs : ℚ) : Projector :=
  match text (payload.field "requestId") with
  | none => p
  | some requestId =>
    let spec := specOf (payload.field "requestSpec")
    let probe := (text (payload.field "fleetRequestId")).isSome
    let inserted := !requestExists p.requests requestId
    let p := { p with
      requests := insertRow p.requests (newRequest requestId
        ((text (payload.field "requester")).getD "") spec.platform spec.model atMs probe) }
    if inserted && !probe then p.bumpWaiting spec.platform (p.waiting.get spec.platform + 1) atMs
    else p

def rejected (payload : Payload) (atMs : ℚ) : Projector :=
  match text (payload.field "requestId") with
  | none => p
  | some requestId =>
    let reason := text (payload.field "reason")
    let workerId := if reason = some "worker-failed" then text (payload.field "worker") else none
    if !requestExists p.requests requestId then
      let spec := specOf (payload.field "requestSpec")
      { p with
        requests := insertRow p.requests
          { newRequest requestId ((text (payload.field "requester")).getD "") spec.platform
              spec.model atMs false with
            rejectedAt := some atMs
            reason := reason
            workerId := workerId
            refusedAtAdmission := true } }
    else p.settle requestId (RequestRow.reject atMs false reason workerId) atMs

def declined (payload : Payload) (origin : Origin) (atMs : ℚ) : Projector :=
  match text (payload.field "requestId") with
  | none => p
  | some requestId =>
    let p :=
      if origin.relayed then p
      else p.settle requestId (RequestRow.reject atMs true (text (payload.field "reason")) none) atMs
    p.fact atMs .leaseDeclined none (specOf (payload.field "requestSpec")).platform
      (if origin.relayed then some origin.worker else none) none

/-- `#dispatched`. -/
def dispatched (payload : Payload) (atMs : ℚ) : Projector :=
  match text (payload.field "requestId") with
  | none => p
  | some requestId =>
    p.settle requestId (RequestRow.grantDispatched p.heldLeases atMs (text (payload.field "worker"))
      (text (payload.field "workerLeaseId")) (text (payload.field "leaseId"))) atMs

def grantedPlatform (payload : Payload) (requestId : Option String) (origin : Origin) :
    Option Platform :=
  match oneOf (payload.field "platform") platforms with
  | some named => some named
  | none =>
    match requestId with
    | none => none
    | some id => if origin.relayed then none else (requestPlatform p.requests id).getD none

/-- The lease row of a grant, and the count of the worker's leases. -/
def hold (lease : HeldLease) (origin : Origin) (atMs : ℚ) : Projector :=
  let inserted := (findHeld p.heldLeases lease.workerId lease.leaseId).isNone
  let p := { p with heldLeases := holdLease p.heldLeases lease }
  if inserted then
    p.bumpHeld lease.platform ((p.held origin.worker).get lease.platform + 1) origin atMs
  else p

def granted (payload : Payload) (origin : Origin) (atMs : ℚ) : Projector :=
  match text (payload.field "leaseId") with
  | none => p
  | some leaseId =>
    let requestId := text (payload.field "requestId")
    let source := oneOf (payload.field "source") sources
    let platform := p.grantedPlatform payload requestId origin
    let p := (p.touch origin atMs).hold ⟨origin.worker, leaseId, platform, source, atMs⟩ origin atMs
    if origin.relayed then
      match source with
      | some source => { p with requests := attachSource p.requests origin.worker leaseId source }
      | none => p
    else
      match requestId with
      | some requestId => p.settle requestId (RequestRow.grant atMs leaseId source) atMs
      | none => p

/-- The lease row of an end, and the count of the worker's leases. -/
def unhold (leaseId : String) (origin : Origin) (atMs : ℚ) : Projector :=
  match findHeld p.heldLeases origin.worker leaseId with
  | none => p
  | some lease =>
    { p with heldLeases := releaseLease p.heldLeases origin.worker leaseId }.bumpHeld lease.platform
      ((p.held origin.worker).get lease.platform - 1) origin atMs

/-- `#ended`, of a lease that was released or expired. -/
def ended (expired : Bool) (payload : Payload) (origin : Origin) (atMs : ℚ) : Projector :=
  match text (payload.field "leaseId") with
  | none => p
  | some leaseId =>
    let endReason := if expired then some .expired else oneOf (payload.field "reason") endReasons
    let p := p.touch origin atMs
    let lease := findHeld p.heldLeases origin.worker leaseId
    let p := p.unhold leaseId origin atMs
    if origin.relayed then
      { p with
        requests := endByWorkerLease p.requests origin.worker leaseId atMs endReason
          (lease.map HeldLease.heldAt) }
    else { p with requests := endByLease p.requests leaseId atMs endReason }

/-- A level on the board. -/
def level (origin : Origin) (platform : RowPlatform) (value : UsageValue) (level : Option ℚ)
    (atMs : ℚ) : Projector :=
  match level with
  | some level => { p with board := p.board.level p.fleet origin platform value level atMs }
  | none => p

def ram (found : Payload) (origin : Origin) (atMs : ℚ) : Projector :=
  (p.level origin .all .ramUsedBytes (amount (found.field "usedBytes")) atMs).level origin .all
    .ramLimitBytes (amount (found.field "limitBytes")) atMs

def slots (key : String) (found : Payload) (origin : Origin) (atMs : ℚ) : Projector :=
  let platform :=
    if key = "global" then some RowPlatform.all
    else (oneOf (some (.string key)) platforms).map RowPlatform.on
  match platform with
  | none => p
  | some platform =>
    let used :=
      match amount (found.field "running"), amount (found.field "reserved") with
      | some running, some reserved => some (running + reserved)
      | _, _ => none
    (p.level origin platform .slotsUsed used atMs).level origin platform .slotsMax
      (amount (found.field "maxRunning")) atMs

def capacity (payload : Payload) (origin : Origin) (atMs : ℚ) : Projector :=
  payload.foldl
    (fun p entry =>
      let found := payloadOf (some entry.2)
      if entry.1 = "ramBudget" then p.ram found origin atMs else p.slots entry.1 found origin atMs)
    (p.touch origin atMs)

def queue (payload : Payload) (origin : Origin) (atMs : ℚ) : Projector :=
  match amount (payload.field "depth") with
  | none => p
  | some depth =>
    let p := p.touch origin atMs
    let lines :=
      match payload.field "physical" with
      | some (.bool true) => { p.queues origin.worker with physical := depth }
      | _ => { p.queues origin.worker with plain := depth }
    { p with queues := Function.update p.queues origin.worker lines }.level origin .all .queueDepth
      (some (lines.plain + lines.physical)) atMs

def stopping (atMs : ℚ) : Projector :=
  let p := p.gap atMs none
  { p with board := p.board.cut none atMs }

/-- The counts of the daemon itself are published for every platform they hold. -/
def publishOwn (counts : Tally (Option Platform)) (value : UsageValue) (atMs : ℚ) : Projector :=
  if counts.keys.isEmpty then p
  else { p with board := p.board.publishCounts p.fleet counts value .own atMs counts.keys }

/-- A gateway rejects every request an earlier run left open, and reads its counts again. -/
def restart (atMs : ℚ) : Projector :=
  { p with
    requests := rejectAllOpen p.requests atMs "daemon-restarted"
    loaded := false }.load

def publishBoth (atMs : ℚ) : Projector :=
  (p.publishOwn p.waiting .waiting atMs).publishOwn (p.held "") .leasesHeld atMs

def started (atMs : ℚ) : Projector :=
  let p := { p with board := p.board.closeOpenRows }.gap atMs none
  (if p.fleet then p.restart atMs else p).publishBoth atMs

def disconnected (payload : Payload) (atMs : ℚ) : Projector :=
  match text (payload.field "workerId") with
  | none => p
  | some worker =>
    { p with board := (p.board.drop worker atMs).cut (some worker) atMs }.gap atMs (some worker)

/-- `DEVICE_FACTS`: the events that are device facts, with the field of their duration. -/
def deviceFacts : EventName → Option (Option String)
  | .deviceProvisioned => some (some "duration")
  | .deviceQuarantineAbandoned => some none
  | .deviceQuarantineRecovered => some none
  | .deviceQuarantineStranded => some none
  | .deviceQuarantined => some none
  | .deviceReady => some (some "bootDuration")
  | .deviceRecovered => some (some "duration")
  | .deviceRecoveryFailed => some none
  | _ => none

/-- `duration === 0`. -/
def isZero : Option Json → Bool
  | some (.number n) => decide (n = 0)
  | _ => false

/-- A device the doctor marks ready with a boot of 0 booted nothing, so it is no boot fact. -/
def deviceFact (event : EventName) (durationField : Option String) (payload : Payload)
    (origin : Origin) (atMs : ℚ) : Projector :=
  match text (payload.field "deviceId") with
  | none => p
  | some deviceId =>
    let duration := durationField.bind payload.field
    if event = .deviceReady ∧ isZero duration then p
    else
      p.fact atMs event (amount duration)
        (if event = .deviceProvisioned then (specOf (payload.field "spec")).platform
          else oneOf (payload.field "platform") platforms)
        (if origin.relayed then some origin.worker else none) (some deviceId)

/-- `OWN_ONLY`: a worker's copy of one of these changes no row on the gateway. -/
def ownOnly : EventName → Bool
  | .leaseRequested | .leaseRejected | .requestGranted | .daemonStopping | .daemonStarted => true
  | _ => false

/-- `JOINED`: a gateway builds a lease's rows from the workers' copy, not from its own. -/
def joined : EventName → Bool
  | .leaseExpired | .leaseGranted | .leaseReleased => true
  | _ => false

/-- `#route` lets the event through. -/
def routed (event : EventName) (origin : Origin) : Bool :=
  !(origin.relayed && ownOnly event) && !(joined event && p.fleet && !origin.relayed)

def route (event : EventName) (payload : Payload) (origin : Origin) (atMs : ℚ) : Projector :=
  if !p.routed event origin then p
  else
    match event with
    | .leaseRequested => p.requested payload atMs
    | .leaseRejected => p.rejected payload atMs
    | .leaseDeclined => p.declined payload origin atMs
    | .requestGranted => p.dispatched payload atMs
    | .leaseGranted => p.granted payload origin atMs
    | .leaseReleased => p.ended false payload origin atMs
    | .leaseExpired => p.ended true payload origin atMs
    | .capacityChanged => p.capacity payload origin atMs
    | .queueChanged => p.queue payload origin atMs
    | .daemonStopping => p.stopping atMs
    | .daemonStarted => p.started atMs
    | _ => p

/-- The part of `apply` after the run is settled. -/
def project (e : EventEnvelope) : Projector :=
  match amountOf e.timestamp with
  | none => p
  | some atMs =>
    let payload := payloadOf e.payload
    if e.event = .workerDisconnected then if p.fleet then p.disconnected payload atMs else p
    else
      match p.originOf payload with
      | none => p
      | some origin =>
        match deviceFacts e.event with
        | some durationField => p.load.deviceFact e.event durationField payload origin atMs
        | none => p.load.route e.event payload origin atMs

/-- A `seq` that does not rise is a new run. -/
def beginsRun (e : EventEnvelope) : Bool := p.lastSeq.any (fun last => e.seq ≤ last)

def enter (e : EventEnvelope) : Projector :=
  { (if p.beginsRun e then p.newRun else p) with lastSeq := some e.seq }

def apply (e : EventEnvelope) : Projector := (p.enter e).project e

/-! ### Beside the events -/

/-- `prune`. -/
def prune (now : ℚ) : Projector :=
  let cutoff := now - p.options.metricsRetentionMs
  { p with
    requests := p.requests.filter (fun r => cutoff ≤ r.requestedAt)
    board := { p.board with minutes := fun w pl => (p.board.minutes w pl).deleteBefore cutoff }
    gaps := p.gaps.filter (fun g => cutoff ≤ g.gapAt)
    facts := p.facts.filter (fun f => cutoff ≤ f.factAt)
    heldLeases := p.heldLeases.filter (fun l => cutoff ≤ l.heldAt)
    loaded := false }

/-- The rows since the oldest event are deleted. -/
def deleteSince (oldestEventAt : ℚ) : Projector :=
  let minute := minuteOf oldestEventAt
  { p with
    requests := p.requests.filter (fun r => r.requestedAt < oldestEventAt)
    board := { p.board with minutes := fun w pl => (p.board.minutes w pl).deleteFrom minute }
    gaps := p.gaps.filter (fun g => g.gapAt < minute)
    facts := p.facts.filter (fun f => f.factAt < oldestEventAt)
    heldLeases := p.heldLeases.filter (fun l => l.heldAt < oldestEventAt) }

/-- `rebuild`; `oldestEventAt` is `undefined` for an empty history. -/
def rebuild (oldestEventAt : Option ℚ) : Projector :=
  let p := oldestEventAt.elim p p.deleteSince
  { p with
    board := p.board.closeOpenRows.newRun
    queues := fun _ => ⟨0, 0⟩
    loaded := false
    lastSeq := none }

/-- A new process opens the tables with a projector of its own. -/
def boot : Projector :=
  { p with
    board := p.board.newRun
    queues := fun _ => ⟨0, 0⟩
    waiting := .empty
    held := fun _ => .empty
    loaded := false
    lastSeq := none }

end Projector

end Simlock.History
