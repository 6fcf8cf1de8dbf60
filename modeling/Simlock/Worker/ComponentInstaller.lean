import Simlock.Worker.Totals

/-! The component installer: the downloads of runtimes, their removals, and the provisions they mind.

    One queue of installs for each platform, first come first served. A call for a component that
    waits or runs joins that install; a removal takes the platform's turn, and from its mark on no
    provision claims the component.

        call ─▶ queue: head ─front─▶ checks ─▶ find ─▶ reserve ─▶ driver ─▶ record ─▶ ended
                 tail: waiting                   (a run settles its calls and leaves the queue)
        remove ─▶ list ─▶ turn ─section: count, mark─▶ driver ─section: record─▶ turn back
        provision ─section: claim─▶ driver ─section: register, release─▶

    Every `await` is a point where another step can come between. -/

namespace Simlock.Worker

open Simlock.Lib Simlock.Core

/-! ### Installs and their calls -/

/-- Where an install is. -/
inductive InstallState where
  | waiting | front | running | recording | ended
  deriving DecidableEq, Repr

/-- What the run of an install waits for. -/
inductive RunPoint where
  | unstarted
  | checking (call : Nat)
  | checked
  | finding
  | reserving
  | driving
  | recording (version : String)
  | settled
  | over
  deriving DecidableEq, Repr

structure Install where
  platform : Platform
  component : String
  requesterId : Option String
  /-- The calls still open on it. -/
  calls : List Nat
  since : Int
  state : InstallState
  point : RunPoint
  deriving DecidableEq, Repr

structure InstallRequest where
  platform : Platform
  component : String
  requesterId : Option String
  /-- Whether it has a `stillNeeded` to run. -/
  stillNeeded : Bool
  deriving DecidableEq, Repr

structure InstallCall where
  request : InstallRequest
  /-- The install it started or joined; none when it was refused at the door. -/
  install : Option Nat
  /-- When its armed timer fires. -/
  timer : Option Int
  checked : Bool
  deriving DecidableEq, Repr

/-- What a call settles with. -/
inductive InstallEnd where
  | installed (version : String)
  | alreadyInstalled (version : String)
  | notNeeded
  | failed (error : String)
  | timedOut
  | closed
  deriving DecidableEq, Repr

/-- Who settles a call: the door, its own `stillNeeded`, its install, its own deadline, `close`. -/
inductive SettledBy where
  | door | stillNeeded | install (n : Nat) | deadline | close
  deriving DecidableEq, Repr

structure Settlement where
  call : Nat
  result : InstallEnd
  settledBy : SettledBy
  deriving DecidableEq, Repr

/-! ### Removals and provisions -/

inductive RemovalEnd where
  | removed | wouldRemove | notOwned | busy | closed
  | inUse (devices foreignDevices : Nat)
  | failed (error : String)
  deriving DecidableEq, Repr

inductive RemovalPoint where
  | listing
  | listed
  | counting
  | removing
  | deleting
  | ending (how : RemovalEnd)
  | finished (how : RemovalEnd)
  deriving DecidableEq, Repr

structure Removal where
  platform : Platform
  version : String
  dryRun : Bool
  receipt : Entries
  marked : Bool
  point : RemovalPoint

/-- A component as a driver lists it. -/
structure DriverComponent where
  version : String
  receipt : Entries
  foreignDevices : Nat

inductive ProvisionPoint where
  | claiming | provisioning | registering | over
  deriving DecidableEq, Repr

structure Provision where
  spec : VirtualSpec
  point : ProvisionPoint
  deriving DecidableEq, Repr

structure InstallerOptions where
  hasDriver : Platform → Bool
  timeoutMs : Int

structure ComponentInstaller where
  registry : Registry
  closed : Bool
  queues : Platform → List Nat
  installs : List Install
  calls : List InstallCall
  settlements : List Settlement
  removals : List Removal
  /-- The removal that holds a platform's turn. -/
  turns : Platform → Option Nat
  provisions : List Provision
  /-- The provisions that claimed a component and have not registered a device. -/
  provisioning : Platform → String → Nat

namespace ComponentInstaller

variable (s : ComponentInstaller)

def start (r : Registry) : ComponentInstaller :=
  ⟨r, false, fun _ => [], [], [], [], [], fun _ => none, [], fun _ _ => 0⟩

/-! ### Settling calls -/

def setInstall (n : Nat) (i : Install) : ComponentInstaller :=
  { s with installs := s.installs.set n i }

/-- The one exit of a call: it leaves its install, its timer stops, its promise settles. -/
def settle (n c : Nat) (result : InstallEnd) (settledBy : SettledBy) : ComponentInstaller :=
  match s.installs[n]? with
  | some i =>
    if c ∈ i.calls then
      { s.setInstall n { i with calls := i.calls.erase c } with
        calls := s.calls.modify c fun call => { call with timer := none }
        settlements := s.settlements ++ [⟨c, result, settledBy⟩] }
    else s
  | none => s

def settleAll (n : Nat) (result : InstallEnd) (settledBy : SettledBy) : ComponentInstaller :=
  match s.installs[n]? with
  | some i => i.calls.foldl (fun s c => s.settle n c result settledBy) s
  | none => s

/-! ### The run of an install -/

/-- The next call to check, with the calls on the way to it checked. -/
def checkNext : List InstallCall → List Nat → Option Nat × List InstallCall
  | calls, [] => (none, calls)
  | calls, c :: rest =>
    match calls[c]? with
    | some call =>
      if call.checked then checkNext calls rest
      else
        let calls := calls.set c { call with checked := true }
        if call.request.stillNeeded then (some c, calls) else checkNext calls rest
    | none => checkNext calls rest

/-- `#checkStillNeeded`, up to the next answer it waits for. -/
def checkStillNeeded (n : Nat) : ComponentInstaller :=
  match s.installs[n]? with
  | some i =>
    let (next, calls) := checkNext s.calls i.calls
    { s.setInstall n { i with point := (next.map RunPoint.checking).getD .checked } with
      calls := calls }
  | none => s

/-- Starts the head of a platform's queue when nothing is running there. -/
def pump (platform : Platform) : ComponentInstaller :=
  match (s.queues platform).head? with
  | some n =>
    match s.installs[n]? with
    | some i =>
      if i.state = .waiting ∧ s.turns platform = none then
        (s.setInstall n { i with state := .front }).checkStillNeeded n
      else s
    | none => s
  | none => s

/-- The end of `#run`: the install leaves its queue, and the queue moves on. -/
def finish (n : Nat) : ComponentInstaller :=
  match s.installs[n]? with
  | some i =>
    ({ s.setInstall n { i with state := .ended, point := .over } with
      queues := Function.update s.queues i.platform ((s.queues i.platform).erase n) }).pump i.platform
  | none => s

/-- The run waits for something else. -/
def waitAt (n : Nat) (point : RunPoint) (state : InstallState → InstallState) :
    ComponentInstaller :=
  match s.installs[n]? with
  | some i => s.setInstall n { i with point := point, state := state i.state }
  | none => s

/-- A run that goes on if a call is still open. -/
def goOn (n : Nat) (point : RunPoint) (state : InstallState → InstallState) : ComponentInstaller :=
  if s.installs[n]?.any fun i => i.calls.isEmpty then s.finish n else s.waitAt n point state

/-- Where the run of an install is. -/
def pointOf (n : Nat) : Option RunPoint := s.installs[n]?.map Install.point

/-- What a driver, a check, the disk or a write answers. -/
inductive Answer (α : Type) where
  | ok (value : α)
  | throws (error : String)

/-- One call's `stillNeeded` answers. -/
def answered (n : Nat) (answer : Answer Bool) : ComponentInstaller :=
  match s.pointOf n with
  | some (.checking c) =>
    match answer with
    | .ok true => s.checkStillNeeded n
    | .ok false => (s.settle n c .notNeeded .stillNeeded).checkStillNeeded n
    | .throws error => (s.settle n c (.failed error) .stillNeeded).checkStillNeeded n
  | _ => s

/-- The checks are done. -/
def checksDone (n : Nat) : ComponentInstaller :=
  if s.pointOf n = some .checked then s.goOn n .finding id else s

/-- The run throws, or the component is there: every open call hears it, and the run ends. -/
def endRun (n : Nat) (result : InstallEnd) : ComponentInstaller :=
  (s.settleAll n result (.install n)).finish n

/-- The driver looked for the component. -/
def found (n : Nat) (answer : Answer (Option String)) : ComponentInstaller :=
  if s.pointOf n = some .finding then
    match answer with
    | .ok none => s.goOn n .reserving id
    | .ok (some version) => s.endRun n (.alreadyInstalled version)
    | .throws error => s.endRun n (.failed error)
  else s

/-- The disk has room for it, or not. -/
def reserved (n : Nat) (answer : Answer Unit) : ComponentInstaller :=
  if s.pointOf n = some .reserving then
    match answer with
    | .ok () => s.goOn n .driving fun _ => .running
    | .throws error => s.endRun n (.failed error)
  else s

/-- The driver's installer returns: with an install, or with one that was there already. -/
def drove (n : Nat) (answer : Answer (Bool × String)) : ComponentInstaller :=
  if s.pointOf n = some .driving then
    match answer with
    | .ok (true, version) =>
      s.waitAt n (.recording version) fun x => if x = .running then .recording else x
    | .ok (false, version) =>
      (s.settleAll n (.alreadyInstalled version) (.install n)).waitAt n .settled id
    | .throws error => s.endRun n (.failed error)
  else s

/-- The section that writes the record, and the end of the driver's part. -/
def recorded (o : RegistryOptions) (n : Nat) (now : Int) (receipt : Entries) (writable : Bool) :
    ComponentInstaller :=
  match s.installs[n]? with
  | some i =>
    match i.point with
    | .recording version =>
      if h : '\x00' ∉ version.toList then
        match s.registry.apply o now (.recordComponent ⟨i.platform, version, now, receipt, h⟩) with
        | some r =>
          if writable then
            ({ s with registry := r }.settleAll n (.installed version) (.install n)).waitAt n
              .settled id
          else s.endRun n (.failed "storage")
        | none => s.endRun n (.failed "registry")
      else s.endRun n (.failed "version")
    | _ => s
  | none => s

/-- The run takes notice, a microtask after its calls were settled. -/
def driverDone (n : Nat) : ComponentInstaller :=
  if s.pointOf n = some .settled then s.finish n else s

/-! ### Calls from outside -/

def joinable (request : InstallRequest) : Option Nat :=
  (s.queues request.platform).find? fun n =>
    s.installs[n]?.any fun i => i.component = request.component && i.state ≠ .ended

/-- The call, on the install it joins or starts, with its timer armed. -/
def admitRequest (p : InstallerOptions) (request : InstallRequest) (now : Int) (n : Nat) :
    ComponentInstaller :=
  { s with
    installs := s.installs.modify n fun i => { i with calls := i.calls ++ [s.calls.length] }
    calls := s.calls ++ [⟨request, some n, some (now + p.timeoutMs), false⟩] }

def enqueue (request : InstallRequest) (now : Int) : ComponentInstaller :=
  { s with
    installs := s.installs ++
      [⟨request.platform, request.component, request.requesterId, [], now, .waiting, .unstarted⟩]
    queues := Function.update s.queues request.platform
      (s.queues request.platform ++ [s.installs.length]) }

/-- A call refused at the door. -/
def refuse (request : InstallRequest) (result : InstallEnd) : ComponentInstaller :=
  { s with
    calls := s.calls ++ [⟨request, none, none, false⟩]
    settlements := s.settlements ++ [⟨s.calls.length, result, .door⟩] }

def install (p : InstallerOptions) (request : InstallRequest) (now : Int) : ComponentInstaller :=
  if s.closed then s.refuse request .closed
  else if p.hasDriver request.platform then
    match s.joinable request with
    | some n => (s.admitRequest p request now n).pump request.platform
    | none => ((s.enqueue request now).admitRequest p request now s.installs.length).pump request.platform
  else s.refuse request (.failed "driver")

/-- A call's budget runs out. A running install ends with it, for every call on it. -/
def expire (c : Nat) (now : Int) : ComponentInstaller :=
  match s.calls[c]? with
  | some call =>
    if call.timer.any fun due => due ≤ now then
      match call.install with
      | some n =>
        match s.installs[n]? with
        | some i =>
          if i.state = .running then
            (s.setInstall n { i with state := .ended }).settleAll n .timedOut (.install n)
          else s.settle n c .timedOut .deadline
        | none => s
      | none => s
    else s
  | none => s

/-- `close`: what runs is told to end, and every open call in a queue is rejected. -/
def close : ComponentInstaller :=
  (s.queues .ios ++ s.queues .android).foldl (fun s n => s.settleAll n .closed .close)
    { s with closed := true }

/-! ### Removals -/

/-- Simlock's own devices of a version: the registered ones, and those that are being made. -/
def simlockDevices (platform : Platform) (version : String) : Nat :=
  (virtualDevices s.registry).countP (fun v =>
    v.state ≠ .deleted && v.spec.platform = platform && v.spec.osVersion = version) +
    s.provisioning platform version

def setRemoval (m : Nat) (x : Removal) : ComponentInstaller :=
  { s with removals := s.removals.set m x }

/-- A removal is called; it has a record, or it is over. -/
def remove (p : InstallerOptions) (platform : Platform) (version : String) (dryRun : Bool) :
    ComponentInstaller :=
  let record := s.registry.components.find? fun c => c.platform = platform && c.version = version
  let ended := fun how => { s with
    removals := s.removals ++ [⟨platform, version, dryRun, ⟨[], .nil⟩, false, .finished how⟩] }
  if s.closed then ended .closed
  else if p.hasDriver platform then
    match record with
    | none => ended .notOwned
    | some record => { s with
        removals := s.removals ++ [⟨platform, version, dryRun, record.receipt, false, .listing⟩] }
  else ended (.failed "driver")

/-- The keys and values of two receipts. -/
def sameReceipt (left right : Entries) : Bool :=
  left.pairs.length = right.pairs.length && left.pairs.all fun pair => right.pairs.contains pair

/-- The end of a removal that holds its turn: the mark goes with it, and the queue moves on. -/
def endRemoval (m : Nat) (x : Removal) (how : RemovalEnd) : ComponentInstaller :=
  ({ s.setRemoval m { x with point := .finished how } with
    turns := Function.update s.turns x.platform none }).pump x.platform

/-- The listing is in: the version Simlock installed, with no device on it. -/
def listed (m : Nat) (x : Removal) (answer : Answer (List DriverComponent)) : ComponentInstaller :=
  let ended := fun how => s.setRemoval m { x with point := .finished how }
  match answer with
  | .throws error => ended (.failed error)
  | .ok components =>
    match components.find? fun c => sameReceipt c.receipt x.receipt with
    | none => ended .notOwned
    | some c =>
      let devices := s.simlockDevices x.platform c.version
      if 0 < devices ∨ 0 < c.foreignDevices then ended (.inUse devices c.foreignDevices)
      else s.setRemoval m { x with point := .listed }

/-- The platform's turn, checked and taken with no wait between. -/
def takeTurn (m : Nat) (x : Removal) : ComponentInstaller :=
  let ended := fun how => s.setRemoval m { x with point := .finished how }
  if s.closed then ended .closed
  else if s.queues x.platform ≠ [] ∨ s.turns x.platform ≠ none then ended .busy
  else if x.dryRun then ended .wouldRemove
  else { s.setRemoval m { x with point := .counting } with
    turns := Function.update s.turns x.platform (some m) }

/-- The section that counts again and marks. -/
def counted (m : Nat) (x : Removal) : ComponentInstaller :=
  let devices := s.simlockDevices x.platform x.version
  if 0 < devices then s.setRemoval m { x with point := .ending (.inUse devices 0) }
  else s.setRemoval m { x with marked := true, point := .removing }

/-- A removal goes on: its listing, its turn, its section, the driver, the section that drops the
    record, and its end. -/
def removes (o : RegistryOptions) (m : Nat) (listing : Answer (List DriverComponent))
    (driver : Answer Unit) (now : Int) (writable : Bool) : ComponentInstaller :=
  match s.removals[m]? with
  | some x =>
    let failed := fun error => s.setRemoval m
      { x with point := .ending (if s.closed then .closed else .failed error) }
    match x.point with
    | .listing => s.listed m x listing
    | .listed => s.takeTurn m x
    | .counting => s.counted m x
    | .removing =>
      match driver with
      | .ok () => s.setRemoval m { x with point := .deleting }
      | .throws error => failed error
    | .deleting =>
      match s.registry.apply o now (.deleteComponent x.platform x.version), writable with
      | some r, true => { s with registry := r }.setRemoval m { x with point := .ending .removed }
      | _, _ => failed "storage"
    | .ending how => s.endRemoval m x how
    | .finished _ => s
  | none => s

/-! ### Provisions -/

def setProvision (k : Nat) (x : Provision) : ComponentInstaller :=
  { s with provisions := s.provisions.set k x }

/-- A component that a removal marked and has not let go of. -/
def beingRemoved (platform : Platform) (version : String) : Bool :=
  (s.turns platform).any fun m => s.removals[m]?.any fun x => x.marked && x.version = version

def claim (spec : VirtualSpec) (add : Nat → Nat) : ComponentInstaller :=
  { s with
    provisioning := Function.update s.provisioning spec.platform
      (Function.update (s.provisioning spec.platform) spec.osVersion
        (add (s.provisioning spec.platform spec.osVersion))) }

/-- The end of a provision's claim. -/
def release (k : Nat) (x : Provision) : ComponentInstaller :=
  (s.setProvision k { x with point := .over }).claim x.spec (· - 1)

/-- A provision goes on: its claim's section (which can miss its baseline), the driver, and the
    section that registers the device. -/
def provisions_ (o : RegistryOptions) (k : Nat) (baselineKnown : Bool) (driver : Answer DriverData)
    (id driverDeviceId : String) (now : Int) (writable : Bool) : ComponentInstaller :=
  match s.provisions[k]? with
  | some x =>
    match x.point with
    | .claiming =>
      if s.beingRemoved x.spec.platform x.spec.osVersion || !baselineKnown then
        s.setProvision k { x with point := .over }
      else (s.setProvision k { x with point := .provisioning }).claim x.spec (· + 1)
    | .provisioning =>
      match driver with
      | .ok _ => s.setProvision k { x with point := .registering }
      | .throws _ => s.release k x
    | .registering =>
      match driver, writable with
      | .ok data, true =>
        match s.registry.apply o now (.registerDevice id driverDeviceId x.spec data) with
        | some r => { s with registry := r }.release k x
        | none => s.release k x
      | _, _ => s.release k x
    | .over => s
  | none => s

/-! ### Steps -/

/-- What can happen next: a call, a timer, an answer to a run, or a section. -/
inductive Action where
  | install (request : InstallRequest) (now : Int)
  | answered (n : Nat) (answer : Answer Bool)
  | checksDone (n : Nat)
  | found (n : Nat) (answer : Answer (Option String))
  | reserved (n : Nat) (answer : Answer Unit)
  | drove (n : Nat) (answer : Answer (Bool × String))
  | recorded (n : Nat) (now : Int) (receipt : Entries) (writable : Bool)
  | driverDone (n : Nat)
  | expire (c : Nat) (now : Int)
  | close
  | remove (platform : Platform) (version : String) (dryRun : Bool)
  | removes (m : Nat) (listing : Answer (List DriverComponent)) (driver : Answer Unit) (now : Int)
    (writable : Bool)
  | provision (spec : VirtualSpec)
  | provisions (k : Nat) (baselineKnown : Bool) (driver : Answer DriverData)
    (id driverDeviceId : String) (now : Int) (writable : Bool)
  /-- A commit of the rest of the daemon, which registers no device. -/
  | other (c : Call) (now : Int)

def step (o : RegistryOptions) (p : InstallerOptions) (s : ComponentInstaller) :
    Action → ComponentInstaller
  | .install request now => s.install p request now
  | .answered n answer => s.answered n answer
  | .checksDone n => s.checksDone n
  | .found n answer => s.found n answer
  | .reserved n answer => s.reserved n answer
  | .drove n answer => s.drove n answer
  | .recorded n now receipt writable => s.recorded o n now receipt writable
  | .driverDone n => s.driverDone n
  | .expire c now => s.expire c now
  | .close => s.close
  | .remove platform version dryRun => s.remove p platform version dryRun
  | .removes m listing driver now writable => s.removes o m listing driver now writable
  | .provision spec => { s with provisions := s.provisions ++ [⟨spec, .claiming⟩] }
  | .provisions k baselineKnown driver id driverDeviceId now writable =>
    s.provisions_ o k baselineKnown driver id driverDeviceId now writable
  | .other (.registerDevice ..) _ => s
  | .other c now => { s with registry := (s.registry.apply o now c).getD s.registry }

end ComponentInstaller

end Simlock.Worker
