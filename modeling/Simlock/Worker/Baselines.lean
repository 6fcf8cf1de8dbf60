import Simlock.Worker.ComponentRemoval

/-! Baselines: the versions of a name, the copies that are made of them, and what drops them.

    One save, remove or drop runs at a time. A provision takes its baseline's current version in one
    section and registers the copy in a later one; a hold keeps the version in between.

        save ─▶ release ─▶ driver ─section: retire─▶ insert (version MAX + 1) ─▶ clean ─▶ drop
        drop: read the replaced rows and the devices ─▶ in use? ─▶ destroy the source, then the row
        request ─▶ follow the current version ─▶ plan ─▶ make (claim, driver, register) ─▶ boot
                                                  └▶ grant ◀─ superseded? ◀────────────────┘

    The registry's other commits come between at any time. -/

namespace Simlock.Worker

open Simlock.Lib Simlock.Core

/-! ### Versions -/

/-- A row of the `baselines` table, as a copy reads it. -/
structure BaselineRow where
  name : String
  version : Int
  platform : Platform
  model : String
  osVersion : String
  mode : DeviceMode
  imageTag : Option String
  sourceId : String
  deriving DecidableEq, Repr

/-- The key of a row. -/
def BaselineRow.ref (row : BaselineRow) : BaselineRef := ⟨row.name, row.version⟩

/-- The newest version of a name. -/
def currentBaseline (rows : List BaselineRow) (name : String) : Option BaselineRow :=
  rows.find? fun row => row.name = name && rows.all fun x => x.name ≠ name || x.version ≤ row.version

/-- The exact spec of a baseline's current version. -/
def baselineSpec (current : BaselineRow) : VirtualSpec where
  platform := current.platform
  model := current.model
  osVersion := current.osVersion
  slim := current.mode = .slim
  imageTag := current.imageTag
  baseline := some current.ref

/-- The version a save gives: one more than the newest, or the first. -/
def nextVersion (rows : List BaselineRow) (name : String) : Int :=
  ((currentBaseline rows name).map BaselineRow.version).getD 0 + 1

/-- The row of a saved device. -/
def savedRow (rows : List BaselineRow) (name : String) (device : VirtualDevice) (sourceId : String)
    (imageTag : Option String) : BaselineRow where
  name := name
  version := nextVersion rows name
  platform := device.spec.platform
  model := device.spec.model
  osVersion := device.spec.osVersion
  mode := device.mode
  imageTag := imageTag <|> device.spec.imageTag
  sourceId := sourceId

/-- The rows with a newer version of their name. -/
def replacedRows (rows : List BaselineRow) : List BaselineRow :=
  rows.filter fun row => (currentBaseline rows row.name).any fun c => row.version < c.version

def deleteRow (rows : List BaselineRow) (ref : BaselineRef) : List BaselineRow :=
  rows.filter fun row => row.ref ≠ ref

/-- `#followBaseline`: the spec a decision plans with. -/
def followBaseline (rows : List BaselineRow) (spec : VirtualSpec) : VirtualSpec :=
  match spec.baseline with
  | none => spec
  | some named =>
    match currentBaseline rows named.name with
    | none => spec
    | some current => if current.version = named.version then spec else baselineSpec current

/-- `#isSuperseded`: a save replaced the version while the copy was being made. -/
def isSuperseded (rows : List BaselineRow) (spec : VirtualSpec) : Bool :=
  match spec.baseline with
  | none => false
  | some made => (currentBaseline rows made.name).map BaselineRow.version ≠ some made.version

/-- The spec a device is made with: the number is that of the version its claim found. -/
def madeOf (requested : VirtualSpec) (row : Option BaselineRow) : VirtualSpec :=
  { requested with baseline := row.map BaselineRow.ref }

/-! ### Copies, requests and jobs -/

/-- A device that is being made. -/
structure Making where
  requested : VirtualSpec
  /-- The version its claim found current, whose source it is copied from and which it holds. -/
  row : Option BaselineRow
  /-- The request it is made for. -/
  owner : Option Nat
  point : ProvisionPoint
  deriving DecidableEq, Repr

def Making.spec (x : Making) : VirtualSpec := madeOf x.requested x.row

/-- A device that was registered, and what it was copied from. -/
structure Made where
  id : String
  spec : VirtualSpec
  row : Option BaselineRow
  deriving DecidableEq, Repr

/-- Where a request that names a baseline is. -/
inductive RequestPoint where
  | waiting
  | planned
  | making
  | booting (id : String) (spec : VirtualSpec)
  | handoff (id : String) (spec : VirtualSpec)
  | over
  deriving DecidableEq, Repr

structure BaselineRequest where
  name : String
  spec : VirtualSpec
  point : RequestPoint
  deriving DecidableEq, Repr

/-- A lease that names a baseline: the device's spec, and the version current at the grant. -/
structure BaselineGrant where
  name : String
  spec : Option VirtualSpec
  current : Option BaselineRow
  deriving DecidableEq, Repr

/-- Where a save, a remove or a drop is. One that destroys a source waits for the driver. -/
inductive BaselineJob where
  | saving (name : String) (device : VirtualDevice)
  | retiring (name : String) (device : VirtualDevice) (sourceId : String) (imageTag : Option String)
  | inserting (name : String) (device : VirtualDevice) (sourceId : String) (imageTag : Option String)
  | cleaning
  | claiming (name : String) (rows : List BaselineRow)
  | disposing (rows : List BaselineRow)
  | deleting (row : BaselineRow) (rest : List BaselineRow)
  | dropping (row : BaselineRow) (rest : List BaselineRow) (listed : List VirtualDevice)

structure Baselines where
  registry : Registry
  rows : List BaselineRow
  holds : String → Int → Nat
  makings : List Making
  requests : List BaselineRequest
  job : Option BaselineJob
  made : List Made
  grants : List BaselineGrant

namespace Baselines

variable (o : RegistryOptions) (s : Baselines)

def start : Baselines := ⟨.empty, [], fun _ _ => 0, [], [], none, [], []⟩

/-- A commit that is not refused, and can be written. -/
def commits (now : Int) (c : Call) (writable : Bool) : Option Registry :=
  if writable then s.registry.apply o now c else none

/-! ### Saves, removes and drops -/

/-- A provision holds the version, or a listed device is a copy of it. -/
def inUse (listed : List VirtualDevice) (row : BaselineRow) : Bool :=
  s.holds row.name row.version ≠ 0 ||
    listed.any fun v => v.state ≠ .deleted && v.spec.baseline = some row.ref

/-- The drop's walk, to the next source it destroys. -/
def walk (listed : List VirtualDevice) : List BaselineRow → Option BaselineJob
  | [] => none
  | row :: rest => if s.inUse listed row then walk listed rest else some (.dropping row rest listed)

/-- `#dropReplaced`: the replaced rows and the devices are read once. -/
def dropReplaced : Baselines :=
  { s with job := s.walk (virtualDevices s.registry) (replacedRows s.rows) }

/-- The leased device of a save; its lease ends. -/
def save (leaseId name : String) (deferReclaim : Bool) (now : Int) (writable : Bool) : Baselines :=
  let device := (s.registry.lease leaseId).bind fun l => s.registry.device l.deviceId
  match s.job, device, s.commits o now (.beginRelease leaseId deferReclaim) writable with
  | none, some (.virtual v), some r => { s with registry := r, job := some (.saving name v) }
  | none, some (.physical _), some r => { s with registry := r }
  | _, _, _ => s

/-- What a driver, or a step of another module, answers. -/
inductive Answer (α : Type) where
  | ok (value : α)
  | throws

/-- The driver saved the source, or not. -/
def saved (answer : Answer (String × Option String)) : Baselines :=
  match s.job, answer with
  | some (.saving name v), .ok (sourceId, imageTag) =>
    { s with job := some (.retiring name v sourceId imageTag) }
  | some (.saving ..), .throws => { s with job := none }
  | _, _ => s

def retired (now : Int) (writable : Bool) : Baselines :=
  match s.job with
  | some (.retiring name v sourceId imageTag) =>
    match s.commits o now (.completeReclaimWithoutPurge v.id) writable with
    | some r => { s with registry := r, job := some (.inserting name v sourceId imageTag) }
    | none => { s with job := none }
  | _ => s

/-- `#insert`. -/
def inserted : Baselines :=
  match s.job with
  | some (.inserting name v sourceId imageTag) =>
    { s with rows := s.rows ++ [savedRow s.rows name v sourceId imageTag], job := some .cleaning }
  | _ => s

/-- The saved device and the idle copies of older versions are disposed of; then the drop. -/
def cleaned (ok : Bool) : Baselines :=
  match s.job with
  | some .cleaning => if ok then s.dropReplaced else { s with job := none }
  | _ => s

def drop : Baselines :=
  match s.job with
  | none => s.dropReplaced
  | some _ => s

def remove (name : String) : Baselines :=
  match s.job, s.rows.filter fun row => row.name = name with
  | none, row :: rest => { s with job := some (.claiming name (row :: rest)) }
  | _, _ => s

/-- The section that claims the copies, which refuses for a leased or a busy one. -/
def claimedIdle (busy : Bool) : Baselines :=
  match s.job with
  | some (.claiming name rows) =>
    let leased := (virtualDevices s.registry).any fun v =>
      v.state ≠ .deleted && (v.spec.baseline.any fun b => b.name = name) && s.registry.isLeased v.id
    { s with job := if leased || busy then none else some (.disposing rows) }
  | _ => s

/-- Every copy was disposed of, or refused; a failure ends the remove. -/
def disposed (ok : Bool) : Baselines :=
  match s.job with
  | some (.disposing (row :: rest)) => { s with job := if ok then some (.deleting row rest) else none }
  | _ => s

/-- The driver destroyed a source: its row goes, and the loop goes on. -/
def destroyed (ok : Bool) : Baselines :=
  match s.job with
  | some (.deleting row rest) =>
    if ok then
      { s with
        rows := deleteRow s.rows row.ref
        job := match rest with
          | [] => none
          | next :: rest => some (.deleting next rest) }
    else { s with job := none }
  | some (.dropping row rest listed) =>
    if ok then { s with rows := deleteRow s.rows row.ref, job := s.walk listed rest }
    else { s with job := none }
  | _ => s

/-! ### Copies -/

def setMaking (j : Nat) (x : Making) : Baselines := { s with makings := s.makings.set j x }

def setRequest (k : Nat) (x : BaselineRequest) : Baselines :=
  { s with requests := s.requests.set k x }

/-- The request a device was made for goes on, unless it is over. -/
def tellOwner (x : Making) (point : RequestPoint) : Baselines :=
  match x.owner with
  | none => s
  | some k => { s with
      requests := s.requests.modify k fun q =>
        if q.point = .making then { q with point := point } else q }

/-- Adds to the holds of the version a device is copied from, or takes one away. -/
def hold (x : Making) (add : Nat → Nat) : Baselines :=
  match x.row with
  | none => s
  | some row => { s with
      holds := Function.update s.holds row.name
        (Function.update (s.holds row.name) row.version (add (s.holds row.name row.version))) }

/-- `#claim`: the version and the source are those current now; a component that is being removed
    refuses it, and so does a baseline that is gone. -/
def claim (j : Nat) (refused : Bool) : Baselines :=
  match s.makings[j]? with
  | some x =>
    if x.point = .claiming then
      let failed := (s.setMaking j { x with point := .over }).tellOwner x .over
      if refused then failed
      else
        match x.requested.baseline with
        | none => s.setMaking j { x with row := none, point := .provisioning }
        | some b =>
          match currentBaseline s.rows b.name with
          | none => failed
          | some current =>
            let x := { x with row := some current, point := .provisioning }
            (s.setMaking j x).hold x (· + 1)
    else s
  | none => s

/-- The end of a provision with its hold. -/
def release (j : Nat) (x : Making) (point : RequestPoint) : Baselines :=
  ((s.setMaking j { x with point := .over }).hold x (· - 1)).tellOwner x point

/-- The driver made the device, or not. -/
def drove (j : Nat) (ok : Bool) : Baselines :=
  match s.makings[j]? with
  | some x =>
    if x.point = .provisioning then
      if ok then s.setMaking j { x with point := .registering } else s.release j x .waiting
    else s
  | none => s

/-- An id that was never given. -/
def isFresh (id : String) : Bool :=
  (s.registry.device id).isNone && s.made.all fun m => m.id ≠ id

/-- The section that registers the device and ends its hold. -/
def register (j : Nat) (id driverDeviceId : String) (data : DriverData) (now : Int)
    (writable : Bool) : Baselines :=
  match s.makings[j]? with
  | some x =>
    if x.point = .registering ∧ s.isFresh id = true then
      match s.commits o now (.registerDevice id driverDeviceId x.spec data) writable with
      | some r =>
        { s with
          registry := r
          made := s.made ++ [(⟨id, x.spec, x.row⟩ : Made)] }.release j x (.booting id x.spec)
      | none => s.release j x .waiting
    else s
  | none => s

/-! ### Requests -/

/-- A request that names a baseline, with the spec of the version current now. -/
def request (name : String) : Baselines :=
  match currentBaseline s.rows name with
  | some current =>
    { s with requests := s.requests ++ [⟨name, baselineSpec current, .waiting⟩] }
  | none => s

/-- The virtual device the planner picks for a spec: it fits exactly, and had no lease yet. -/
def serves (deviceId : String) (spec : VirtualSpec) : Option VirtualDevice :=
  match s.registry.device deviceId with
  | some (.virtual v) => if v.spec = spec ∧ mayBeGranted (.virtual v) then some v else none
  | _ => none

/-- A lease is written for the request, on the device of the input. -/
def grant (k : Nat) (q : BaselineRequest) (generated : String) (input : Registry.CreateLeaseInput)
    (now : Int) (writable : Bool) : Baselines :=
  match s.commits o now (.createLease generated input) writable with
  | some r =>
    { s with
      registry := r
      grants := s.grants ++ [(⟨q.name, (s.registry.device input.deviceId).bind virtualSpec,
        currentBaseline s.rows q.name⟩ : BaselineGrant)] }.setRequest k { q with point := .over }
  | none => s.setRequest k { q with point := .waiting }

/-- What the planner answers. -/
inductive PlanOutcome where
  | wait
  | grantReady (generated : String) (input : Registry.CreateLeaseInput)
  /-- A device that is shut down is booted, or one that is ready is booted again. -/
  | boot (deviceId : String)
  | provision

/-- `#nextPlan` and what its section does with the plan. -/
def plan (k : Nat) (outcome : PlanOutcome) (now : Int) (writable : Bool) : Baselines :=
  match s.requests[k]? with
  | some q =>
    if q.point = .waiting then
      let q := { q with spec := followBaseline s.rows q.spec }
      match outcome with
      | .wait => s.setRequest k q
      | .provision => s.setRequest k { q with point := .planned }
      | .boot deviceId =>
        match s.serves deviceId q.spec with
        | some v => s.setRequest k { q with point := .booting deviceId v.spec }
        | none => s.setRequest k q
      | .grantReady generated input =>
        match s.serves input.deviceId q.spec with
        | some v => if v.state = .ready then s.grant o k q generated input now writable else
            s.setRequest k q
        | none => s.setRequest k q
    else s
  | none => s

/-- The provision of a plan starts. -/
def perform (k : Nat) : Baselines :=
  match s.requests[k]? with
  | some q =>
    if q.point = .planned then
      { s.setRequest k { q with point := .making } with
        makings := s.makings ++ [⟨q.spec, none, some k, .claiming⟩] }
    else s
  | none => s

/-- The device came up, or not. -/
def booted (k : Nat) (ok : Bool) : Baselines :=
  match s.requests[k]? with
  | some q =>
    match q.point with
    | .booting id spec => s.setRequest k { q with point := if ok then .handoff id spec else .waiting }
    | _ => s
  | none => s

/-- `#grantHandoff`. -/
def grantHandoff (k : Nat) (generated : String) (input : Registry.CreateLeaseInput) (now : Int)
    (writable : Bool) : Baselines :=
  match s.requests[k]? with
  | some q =>
    match q.point with
    | .handoff id spec =>
      if isSuperseded s.rows spec then s.setRequest k { q with point := .waiting }
      else if input.deviceId = id then s.grant o k q generated input now writable
      else s
    | _ => s
  | none => s

/-! ### Steps -/

inductive Action where
  | save (leaseId name : String) (deferReclaim : Bool) (now : Int) (writable : Bool)
  | saved (answer : Answer (String × Option String))
  | retired (now : Int) (writable : Bool)
  | inserted
  | cleaned (ok : Bool)
  | drop
  | remove (name : String)
  | claimedIdle (busy : Bool)
  | disposed (ok : Bool)
  | destroyed (ok : Bool)
  /-- Nuke's removal of every row. -/
  | removeAll
  | request (name : String)
  | plan (k : Nat) (outcome : PlanOutcome) (now : Int) (writable : Bool)
  | perform (k : Nat)
  | booted (k : Nat) (ok : Bool)
  | grantHandoff (k : Nat) (generated : String) (input : Registry.CreateLeaseInput) (now : Int)
    (writable : Bool)
  /-- The request is refused, cancelled or times out. -/
  | reject (k : Nat)
  /-- A device that no request asked for, as the warm pool makes them. -/
  | provision (spec : VirtualSpec)
  | claim (j : Nat) (refused : Bool)
  | drove (j : Nat) (ok : Bool)
  | register (j : Nat) (id driverDeviceId : String) (data : DriverData) (now : Int)
    (writable : Bool)
  /-- Any other commit of the daemon, with the ids of new devices never given before. -/
  | other (c : Call) (now : Int)
  /-- The daemon ends and starts again: the tables stay, the memory does not. -/
  | restart

def step (s : Baselines) : Action → Baselines
  | .save leaseId name deferReclaim now writable => s.save o leaseId name deferReclaim now writable
  | .saved answer => s.saved answer
  | .retired now writable => s.retired o now writable
  | .inserted => s.inserted
  | .cleaned ok => s.cleaned ok
  | .drop => s.drop
  | .remove name => s.remove name
  | .claimedIdle busy => s.claimedIdle busy
  | .disposed ok => s.disposed ok
  | .destroyed ok => s.destroyed ok
  | .removeAll => { s with rows := [] }
  | .request name => s.request name
  | .plan k outcome now writable => s.plan o k outcome now writable
  | .perform k => s.perform k
  | .booted k ok => s.booted k ok
  | .grantHandoff k generated input now writable => s.grantHandoff o k generated input now writable
  | .reject k => { s with requests := s.requests.modify k fun q => { q with point := .over } }
  | .provision spec => { s with makings := s.makings ++ [⟨spec, none, none, .claiming⟩] }
  | .claim j refused => s.claim j refused
  | .drove j ok => s.drove j ok
  | .register j id driverDeviceId data now writable =>
    s.register o j id driverDeviceId data now writable
  | .other (.registerDevice ..) _ => s
  | .other (.enrollPhysical id input) now =>
    if s.isFresh id then
      { s with registry := (s.registry.apply o now (.enrollPhysical id input)).getD s.registry }
    else s
  | .other c now => { s with registry := (s.registry.apply o now c).getD s.registry }
  | .restart => { s with holds := fun _ _ => 0, makings := [], requests := [], job := none }

end Baselines

end Simlock.Worker
