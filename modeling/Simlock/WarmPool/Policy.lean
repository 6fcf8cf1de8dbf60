import Simlock.Core.Capacity
import Simlock.Core.OsRange
import Mathlib.Data.List.Sort

/-! The warm pool's policy: what one pass shuts down, boots back and creates.

    `evaluate` reads a view and answers with proposals in the order they are to run. One record of
    free slots, `room`, goes through every rule in turn:

        over budget ──▶ queue ──▶ never leased ──▶ memory pressure ──▶ targets
           frees        takes       frees            (not counted)     take, displace

    A target is filled in two passes: every configured count first, then the learned counts. What
    the source keeps in one object is split here in the part that stays (`Planning`) and the part a
    pass changes (`TargetPlan`). -/

namespace Simlock.WarmPool
open Core

/-! ### What fits -/

inductive OsRequirement where
  | requested (constraint : OsConstraint)
  | installed (versions : List String)
  deriving DecidableEq

inductive RequiredTarget where
  | model (model : String)
  | class_ (class_ : DeviceClass)
  deriving DecidableEq

structure DeviceRequirement where
  platform : Platform
  target : RequiredTarget
  osVersion : OsRequirement
  imageTag : Option String
  baseline : Option BaselineRef
  deriving DecidableEq

def fitsTarget (target : RequiredTarget) (model : String) (classOf : String → Option DeviceClass) :
    Bool :=
  match target with
  | .model asked => asked = model
  | .class_ asked => classOf model = some asked

def satisfiesOs (constraint : OsRequirement) (osVersion : String) : Bool :=
  match constraint with
  | .installed versions => versions.contains osVersion
  | .requested constraint => satisfies osVersion constraint

/-- `fits`, for a virtual device's spec. -/
def fits (requirement : DeviceRequirement) (spec : VirtualSpec)
    (classOf : String → Option DeviceClass) : Bool :=
  requirement.platform = spec.platform && requirement.imageTag = spec.imageTag &&
    requirement.baseline = spec.baseline && fitsTarget requirement.target spec.model classOf &&
    satisfiesOs requirement.osVersion spec.osVersion

/-- `sameSpec`, for two virtual specs. -/
def sameSpec (left right : VirtualSpec) : Bool := left = right

@[simp] theorem sameSpec_iff {left right : VirtualSpec} :
    sameSpec left right = true ↔ left = right := by simp [sameSpec]

/-! ### The view -/

structure ResolvedTarget where
  spec : VirtualSpec
  count : Nat
  deriving DecidableEq

structure LearnedKind where
  spec : VirtualSpec
  count : Nat
  deriving DecidableEq

/-- A request with no device yet. Its platform and mode are those of the spec it resolved to. -/
structure WaitingDemand where
  inFlight : Bool
  platform : Platform
  requirement : DeviceRequirement
  mode : DeviceMode
  spec : VirtualSpec
  classOf : String → Option DeviceClass
  platform_spec : platform = spec.platform
  mode_spec : mode = spec.mode

structure RunningCapacity where
  global : RunningCapacityEntry
  ios : RunningCapacityEntry
  android : RunningCapacityEntry

structure ReserveRunning where
  ios : Nat
  android : Nat

structure WarmPoolConfig where
  enabled : Bool
  reserveRunning : ReserveRunning
  shutdownAfterMs : Int
  maxConcurrentBoots : Nat

structure OnItsWay where
  spec : VirtualSpec
  deviceId : Option String

inductive PressureStep where
  | none | warmingPaused | newDevicesPaused
  deriving DecidableEq

structure Pressure where
  step : PressureStep
  mayShed : Bool
  shedFailed : List String

/-- What the capacity strategy refuses besides running slots; `down` names the devices the plan has
    shut down already. -/
structure Admit where
  create : VirtualSpec → Option (List String) → Option CapacityRefusalReason
  boot : VirtualDevice → Option (List String) → Option CapacityRefusalReason

/-- What a pass sees. The devices are the registry's, so no two have one id. -/
structure WarmPolicyView where
  devices : List VirtualDevice
  leases : List LeaseRecord
  waiting : List WaitingDemand
  capacity : RunningCapacity
  isClaimed : String → Bool
  config : WarmPoolConfig
  now : Int
  targets : List ResolvedTarget
  spared : List ResolvedTarget
  learned : List LearnedKind
  unplanned : List VirtualSpec
  inFlight : List VirtualSpec
  onItsWay : List OnItsWay
  mayAttempt : VirtualSpec → Int → Bool
  admission : Admit
  handoffInFlight : Bool
  resetDevices : List String
  pressure : Pressure
  /-- `left.localeCompare(right) <= 0`. -/
  localeLe : String → String → Bool
  nodup : (devices.map (·.id)).Nodup

/-! ### Proposals -/

inductive WarmReason where
  | overBudget | disabled | waitingRequest | displaced | target | neverLeasedIdle | memoryPressure
  deriving DecidableEq, Repr

inductive WarmProposal where
  | shutdown (deviceId : String) (reason : WarmReason)
  | boot (deviceId : String) (reason : WarmReason) (target : Option VirtualSpec)
  | provision (spec : VirtualSpec) (reason : WarmReason) (target : VirtualSpec)
  deriving DecidableEq, Repr

/-! ### Running slots -/

structure Slots where
  global : Int
  ios : Int
  android : Int
  deriving DecidableEq, Repr

def Slots.platform (room : Slots) : Platform → Int
  | .ios => room.ios
  | .android => room.android

/-- `n` more slots of a platform, and of the machine. -/
def Slots.add (room : Slots) (platform : Platform) (n : Int) : Slots :=
  match platform with
  | .ios => { room with global := room.global + n, ios := room.ios + n }
  | .android => { room with global := room.global + n, android := room.android + n }

def roomOf (capacity : RunningCapacity) : Slots :=
  let room (entry : RunningCapacityEntry) : Int :=
    entry.maxRunning - entry.running - entry.reserved
  { global := room capacity.global, ios := room capacity.ios, android := room capacity.android }

/-- The reserve of each platform, never more than its own limit. -/
def reservedRunning (config : WarmPoolConfig) (capacity : RunningCapacity) : ReserveRunning where
  ios := min config.reserveRunning.ios capacity.ios.maxRunning
  android := min config.reserveRunning.android capacity.android.maxRunning

/-- The running slots idle warm devices may not fill. -/
def reservedOf (view : WarmPolicyView) : Slots :=
  let reserve := reservedRunning view.config view.capacity
  { global := reserve.ios + reserve.android, ios := reserve.ios, android := reserve.android }

def release (room : Slots) (device : VirtualDevice) : Slots := room.add device.spec.platform 1

def claim (room : Slots) (device : VirtualDevice) : Slots := room.add device.spec.platform (-1)

def holdSlot (room : Slots) (platform : Platform) : Slots := room.add platform (-1)

def hasRoom (room : Slots) (device : VirtualDevice) : Bool :=
  1 ≤ room.global && 1 ≤ room.platform device.spec.platform

/-! ### Devices -/

def grantable (device : VirtualDevice) : Bool := mayBeGranted (.virtual device)

def servesSpec (spec : VirtualSpec) (demand : WaitingDemand) : Bool :=
  spec.mode = demand.mode && fits demand.requirement spec demand.classOf

/-- Would a waiting request be granted this device? -/
def serves (device : VirtualDevice) (demand : WaitingDemand) : Bool :=
  grantable device && servesSpec device.spec demand

/-- A waiting request, not in flight, that the device serves. -/
def awaited (waiting : List WaitingDemand) (device : VirtualDevice) : Bool :=
  waiting.any fun demand => !demand.inFlight && serves device demand

/-- No lease and no operation claim on it. -/
def idle (view : WarmPolicyView) (device : VirtualDevice) : Bool :=
  !(view.leases.map (·.deviceId)).contains device.id && !view.isClaimed device.id

def lastUsed (device : VirtualDevice) : Int := device.lastLeaseEndedAt.getD device.createdAt

/-- `compareLeastRecentlyUsed(left, right) <= 0`. -/
def leastRecentlyUsed (view : WarmPolicyView) (left right : VirtualDevice) : Bool :=
  lastUsed left < lastUsed right ||
    (lastUsed left = lastUsed right && view.localeLe left.id right.id)

def readySince (device : VirtualDevice) : Int := device.readyAt.getD device.createdAt

/-- The ready idle devices, least recently used first. -/
def running (view : WarmPolicyView) : List VirtualDevice :=
  (view.devices.filter fun device => device.state = .ready && idle view device).insertionSort
    fun left right => leastRecentlyUsed view left right

/-- The idle devices a boot may take. -/
def bootable (view : WarmPolicyView) : List VirtualDevice :=
  view.devices.filter fun device =>
    device.state = .shutdown && grantable device && idle view device

/-- A kind's ready devices by an idle test of the caller's, oldest first. -/
def readyOfKind (devices : List VirtualDevice) (isIdle : VirtualDevice → Bool)
    (spec : VirtualSpec) : List VirtualDevice :=
  (devices.filter fun device => device.state = .ready && isIdle device && grantable device &&
    sameSpec device.spec spec).insertionSort fun left right => left.createdAt ≤ right.createdAt

/-! ### Over budget -/

def nextVictim (held room : Slots) (candidates : List VirtualDevice) : Option VirtualDevice :=
  match candidates.find? fun device =>
      room.platform device.spec.platform - held.platform device.spec.platform < 0 with
  | some device => some device
  | none => if room.global - held.global < 0 then candidates.head? else none

/-- The devices shut down and the room after, from the candidates left; each round takes one of
    them, so their number bounds the rounds. -/
def overBudgetLoop (held : Slots) : Nat → Slots → List VirtualDevice → List VirtualDevice × Slots
  | 0, room, _ => ([], room)
  | rounds + 1, room, candidates =>
    match nextVictim held room candidates with
    | none => ([], room)
    | some victim =>
      let rest := overBudgetLoop held rounds (release room victim)
        (candidates.eraseP fun device => device.id = victim.id)
      (victim :: rest.1, rest.2)

/-- Never a device that a waiting request is about to be granted. -/
def overBudget (view : WarmPolicyView) (held room : Slots) : List VirtualDevice × Slots :=
  let candidates := (running view).filter fun device => !awaited view.waiting device
  overBudgetLoop held candidates.length room candidates

/-! ### The queue -/

/-- What the queue pass changes; ready devices are matched by id, those on their way by index. -/
structure QueueState where
  room : Slots
  proposals : List WarmProposal
  taken : List String
  stuck : List Platform
  started : Nat
  matched : List String
  matchedComing : List Nat
  atHead : Bool

def bootsOpen (view : WarmPolicyView) (state : QueueState) : Bool :=
  state.started < view.config.maxConcurrentBoots

def onItsWayFor (view : WarmPolicyView) (state : QueueState) (demand : WaitingDemand) :
    Option (OnItsWay × Nat) :=
  view.onItsWay.zipIdx.find? fun entry =>
    !state.matchedComing.contains entry.2 && servesSpec entry.1.spec demand

def readyFor (view : WarmPolicyView) (state : QueueState) (demand : WaitingDemand) :
    Option VirtualDevice :=
  (running view).find? fun device => !state.matched.contains device.id && serves device demand

/-- `bootForWaiter`; `none` is that there is no device to boot. -/
def bootForWaiter (view : WarmPolicyView) (state : QueueState) (demand : WaitingDemand) :
    Option QueueState :=
  if !bootsOpen view state then none
  else
    ((bootable view).find? fun device =>
        !state.taken.contains device.id && hasRoom state.room device && serves device demand &&
          view.mayAttempt device.spec view.now && (view.admission.boot device none).isNone).map
      fun device =>
        { state with
          taken := device.id :: state.taken
          room := claim state.room device
          started := state.started + 1
          proposals := state.proposals ++ [.boot device.id .waitingRequest none] }

def creatable (view : WarmPolicyView) (state : QueueState) (demand : WaitingDemand) : Bool :=
  (view.admission.create demand.spec none).isNone && 1 ≤ state.room.global &&
    1 ≤ state.room.platform demand.spec.platform

/-- The head's own creation is leasing's: it counts, and is not proposed. -/
def createForWaiter (view : WarmPolicyView) (state : QueueState) (demand : WaitingDemand)
    (head : Bool) : QueueState :=
  if head && creatable view state demand then { state with started := state.started + 1 }
  else if !head && creatable view state demand && bootsOpen view state &&
      view.mayAttempt demand.spec view.now then
    { state with
      started := state.started + 1
      proposals := state.proposals ++ [.provision demand.spec .waitingRequest demand.spec] }
  else { state with stuck := demand.platform :: state.stuck }

/-- One turn of the loop in `boots`. -/
def serveWaiter (view : WarmPolicyView) (state : QueueState) (demand : WaitingDemand) :
    QueueState :=
  let head := state.atHead
  let state := { state with atHead := false }
  if demand.inFlight then { state with room := holdSlot state.room demand.platform }
  else
    match readyFor view state demand with
    | some device => { state with matched := device.id :: state.matched, atHead := head }
    | none =>
      match onItsWayFor view state demand with
      | some entry => { state with matchedComing := entry.2 :: state.matchedComing }
      | none =>
        match bootForWaiter view state demand with
        | some booted => booted
        | none =>
          let created := createForWaiter view state demand head
          { created with room := holdSlot created.room demand.platform }

/-- The pool's boots in flight, and the waiters being processed. -/
def alreadyStarted (view : WarmPolicyView) : Nat :=
  view.inFlight.length + view.waiting.countP fun demand => demand.inFlight

/-- The state before the first waiter. -/
def queueStart (room : Slots) (started : Nat) : QueueState :=
  { room, proposals := [], taken := [], stuck := [], started, matched := [], matchedComing := []
    atHead := true }

def boots (view : WarmPolicyView) (room : Slots) : QueueState :=
  view.waiting.foldl (serveWaiter view) (queueStart room (alreadyStarted view))

/-- Nothing is started for a waiter while memory is short. -/
def queuePass (view : WarmPolicyView) (room : Slots) : QueueState :=
  if view.pressure.step = .none then boots view room else queueStart room 0

/-! ### Kinds -/

inductive Origin where
  | configured | learned
  deriving DecidableEq, Repr

structure PlannedKind where
  spec : VirtualSpec
  configuredCount : Nat
  learnedCount : Nat
  origin : Origin
  deriving DecidableEq

/-- The first entry that `same` accepts changed by `change`, or `fresh` added at the end. -/
def mergeInto {α : Type} (same : α → Bool) (change : α → α) (fresh : α) : List α → List α
  | [] => [fresh]
  | entry :: rest =>
    if same entry then change entry :: rest else entry :: mergeInto same change fresh rest

/-- The targets of one spec merged into one, counts summed. -/
def mergeTargets (targets : List ResolvedTarget) : List ResolvedTarget :=
  targets.foldl (fun merged target =>
    mergeInto (fun entry => sameSpec entry.spec target.spec)
      (fun entry => { entry with count := entry.count + target.count }) target merged) []

/-- Configured targets in config order, then the learned kinds newest first; a learned kind of a
    configured target's spec is that entry. -/
def plannedKinds (targets : List ResolvedTarget) (learned : List LearnedKind) : List PlannedKind :=
  learned.foldl (fun kinds kind =>
    mergeInto (fun entry => sameSpec entry.spec kind.spec)
      (fun entry => { entry with learnedCount := kind.count })
      ⟨kind.spec, 0, kind.count, .learned⟩ kinds)
    (targets.map fun target => ⟨target.spec, target.count, 0, .configured⟩)

/-- The kind's devices under an open lease; a baseline kind counts the copies of every version. -/
def leasedOfKind (view : WarmPolicyView) (spec : VirtualSpec) : Nat :=
  let ofKind (device : VirtualDevice) : Bool :=
    match spec.baseline with
    | some baseline => (device.spec.baseline.map (·.name)) = some baseline.name
    | none => sameSpec device.spec spec
  view.devices.countP fun device =>
    ofKind device && (view.leases.map (·.deviceId)).contains device.id

/-! ### Idle devices -/

/-- The ids of the ready devices that a target, a learned kind or a waiting request keeps. -/
def targetedDevices (view : WarmPolicyView) (targets : List ResolvedTarget)
    (learned : List LearnedKind) (waiting : List WaitingDemand) : List String :=
  ((plannedKinds (mergeTargets targets) learned).flatMap fun kind =>
      ((readyOfKind view.devices (idle view) kind.spec).take
        (max kind.configuredCount kind.learnedCount)).map (·.id)) ++
    (view.devices.filter fun device =>
      device.state = .ready && idle view device && awaited waiting device).map (·.id)

/-- The idle devices that never served a lease and that nothing keeps, once ready for too long. -/
def neverLeasedIdle (view : WarmPolicyView) (already : List String) : List VirtualDevice :=
  let kept := targetedDevices view (view.targets ++ view.spared) view.learned view.waiting
  (running view).filter fun device =>
    device.lastLeaseEndedAt.isNone && !kept.contains device.id && !already.contains device.id &&
      view.config.shutdownAfterMs < view.now - readySince device

/-- While memory is short, one idle device for each new reading. -/
def shedForPressure (view : WarmPolicyView) (proposed : List String) : Option VirtualDevice :=
  if view.pressure.step = .none || !view.pressure.mayShed then none
  else
    let kept := targetedDevices view (view.targets ++ view.spared) [] []
    let candidates := (running view).filter fun device =>
      !proposed.contains device.id && !view.pressure.shedFailed.contains device.id &&
        !awaited view.waiting device
    (candidates.find? fun device => !kept.contains device.id).or candidates.head?

/-! ### Targets -/

inductive TargetShort where
  | bootFailed | runningLimit | deviceLimit | ramBudget | reserve | memoryPressure
  deriving DecidableEq, Repr

/-- Why a slot is not free for an idle warm device. -/
def slotShort (room held : Slots) (platform : Platform) : Option TargetShort :=
  if room.global < 1 || room.platform platform < 1 then some .runningLimit
  else if room.global - held.global < 1 || room.platform platform - held.platform platform < 1 then
    some .reserve
  else none

/-- What the capacity strategy's refusal means for a target. -/
def shortOf : CapacityRefusalReason → TargetShort
  | .deviceLimit => .deviceLimit
  | .ramBudget => .ramBudget
  | .memoryPressure => .memoryPressure
  | .globalRunningLimit | .platformRunningLimit => .runningLimit

/-- What `planTargets` reads and does not change. -/
structure Planning where
  view : WarmPolicyView
  bootable : List VirtualDevice
  held : Slots
  stuck : List Platform
  kinds : List PlannedKind

/-- What `planTargets` changes; `displaced` has the latest first. -/
structure TargetPlan where
  room : Slots
  taken : List String
  proposals : List WarmProposal
  victims : List VirtualDevice
  displaced : List String
  started : Nat

/-- Idle, and not displaced this pass. -/
def TargetPlan.isIdle (p : Planning) (plan : TargetPlan) (device : VirtualDevice) : Bool :=
  idle p.view device && !plan.displaced.contains device.id

/-- The kind's ready devices that it still counts as its own. -/
def TargetPlan.ready (p : Planning) (plan : TargetPlan) (spec : VirtualSpec) : Nat :=
  (readyOfKind p.view.devices (plan.isIdle p) spec).length

def kindIndex (p : Planning) (spec : VirtualSpec) : Nat :=
  p.kinds.findIdx fun entry => sameSpec entry.spec spec

/-- `findIndex`, which answers −1 for a spec that no entry has. -/
def kindPlace (p : Planning) (spec : VirtualSpec) : Int :=
  if kindIndex p spec < p.kinds.length then kindIndex p spec else -1

def kindEntry (p : Planning) (spec : VirtualSpec) : Option PlannedKind :=
  p.kinds.find? fun entry => sameSpec entry.spec spec

/-- The least recently used idle ready device of a learned kind that comes after `spec`'s. -/
def learnedVictim (p : Planning) (plan : TargetPlan) (spec : VirtualSpec) :
    Option VirtualDevice :=
  if (kindEntry p spec).map (·.origin) ≠ some .learned then none
  else
    plan.victims.find? fun device =>
      kindPlace p spec < kindPlace p device.spec && device.spec.platform = spec.platform

/-- The least recently used idle ready device that no configured count keeps. -/
def configuredVictim (p : Planning) (plan : TargetPlan) (spec : VirtualSpec) :
    Option VirtualDevice :=
  plan.victims.find? fun device =>
    device.spec.platform = spec.platform && !sameSpec device.spec spec &&
      ((kindEntry p device.spec).map (·.configuredCount)).getD 0 < plan.ready p device.spec

/-- The shut-down device that a boot of the kind would use. -/
def bootCandidate (p : Planning) (plan : TargetPlan) (spec : VirtualSpec) :
    Option VirtualDevice :=
  p.bootable.find? fun device =>
    !plan.taken.contains device.id && !p.view.resetDevices.contains device.id &&
      sameSpec device.spec spec

/-- What the capacity strategy refuses for one more of the kind with the `down` devices down. -/
def admitted (p : Planning) (plan : TargetPlan) (spec : VirtualSpec) (down : List String) :
    Option TargetShort :=
  (match bootCandidate p plan spec with
    | none => p.view.admission.create spec (some down)
    | some shutDown => p.view.admission.boot shutDown (some down)).map shortOf

/-- Why `addOne` cannot add: the device limit, then the slots, then the rest. -/
def refusal (p : Planning) (plan : TargetPlan) (spec : VirtualSpec) : Option TargetShort :=
  let capacity := admitted p plan spec plan.displaced
  if capacity = some .deviceLimit then capacity
  else (slotShort plan.room p.held spec.platform).or capacity

/-- The plan with one boot of a shut-down device of the kind, else with one creation. -/
def addTo (p : Planning) (plan : TargetPlan) (spec : VirtualSpec) : TargetPlan :=
  let plan' := { plan with
    room := plan.room.add spec.platform (-1)
    started := plan.started + 1 }
  match bootCandidate p plan spec with
  | none => { plan' with proposals := plan.proposals ++ [.provision spec .target spec] }
  | some shutDown =>
    { plan' with
      taken := shutDown.id :: plan.taken
      proposals := plan.proposals ++ [.boot shutDown.id .target (some spec)] }

def addOne (p : Planning) (spec : VirtualSpec) (plan : TargetPlan) :
    Option TargetShort × TargetPlan :=
  match refusal p plan spec with
  | some refused => (some refused, plan)
  | none => (none, addTo p plan spec)

/-- Which of a kind's two counts a fill is for. -/
inductive FillCount where
  | configured | learned
  deriving DecidableEq, Repr

def victimFor (p : Planning) (plan : TargetPlan) (spec : VirtualSpec) :
    FillCount → Option VirtualDevice
  | .configured => configuredVictim p plan spec
  | .learned => learnedVictim p plan spec

/-- The victim to shut down for the kind's slot, unless it would still be refused with it down. -/
def displaceable (p : Planning) (plan : TargetPlan) (spec : VirtualSpec) (count : FillCount) :
    Option VirtualDevice :=
  (victimFor p plan spec count).filter fun victim =>
    (admitted p plan spec (victim.id :: plan.displaced)).isNone

def TargetPlan.displace (plan : TargetPlan) (victim : VirtualDevice) : TargetPlan :=
  { plan with
    victims := plan.victims.eraseP fun device => device.id = victim.id
    displaced := victim.id :: plan.displaced
    room := release plan.room victim
    proposals := plan.proposals ++ [.shutdown victim.id .displaced] }

/-- A refusal that a displacement may lift. -/
def slotLacks (count : FillCount) (refused : Option TargetShort) : Bool :=
  refused = some .runningLimit || (count = .configured && refused = some .reserve)

/-- Each round displaces one of the victims left, so their number bounds the rounds. -/
def displaceLoop (p : Planning) (spec : VirtualSpec) (count : FillCount) :
    Nat → Option TargetShort → TargetPlan → Option TargetShort × TargetPlan
  | 0, refused, plan => (refused, plan)
  | rounds + 1, refused, plan =>
    if slotLacks count refused then
      match displaceable p plan spec count with
      | none => (refused, plan)
      | some victim =>
        let added := addOne p spec (plan.displace victim)
        displaceLoop p spec count rounds added.1 added.2
    else (refused, plan)

def addDisplacing (p : Planning) (spec : VirtualSpec) (count : FillCount) (plan : TargetPlan) :
    Option TargetShort × TargetPlan :=
  let added := addOne p spec plan
  displaceLoop p spec count added.2.victims.length added.1 added.2

structure Filled where
  added : Nat
  short : Option TargetShort
  deriving DecidableEq, Repr

/-- What stops a target from adding anything this pass: pressure, a waiter it could not serve, a
    retry delay. -/
def holdFill (p : Planning) (spec : VirtualSpec) (filling : Bool) : Option Filled :=
  if p.view.pressure.step ≠ .none then
    some ⟨0, if filling then none else some .memoryPressure⟩
  else if p.stuck.contains spec.platform then some ⟨0, none⟩
  else if p.view.mayAttempt spec p.view.now then none
  else some ⟨0, if filling then none else some .bootFailed⟩

def fillLoop (p : Planning) (spec : VirtualSpec) (filling : Bool) (count : FillCount) :
    Nat → Nat → TargetPlan → Filled × TargetPlan
  | 0, added, plan => (⟨added, none⟩, plan)
  | left + 1, added, plan =>
    if plan.started < p.view.config.maxConcurrentBoots then
      match addDisplacing p spec count plan with
      | (some refused, plan') =>
        (⟨added, if 0 < added || filling then none else some refused⟩, plan')
      | (none, plan') => fillLoop p spec filling count left (added + 1) plan'
    else (⟨added, none⟩, plan)

def fillTarget (p : Planning) (spec : VirtualSpec) (missing : Int) (filling : Bool)
    (count : FillCount) (plan : TargetPlan) : Filled × TargetPlan :=
  match holdFill p spec filling with
  | some held => (held, plan)
  | none => fillLoop p spec filling count missing.toNat 0 plan

/-! ### Reports -/

def platformText : Platform → String
  | .ios => "ios"
  | .android => "android"

def modeText : DeviceMode → String
  | .slim => "slim"
  | .full => "full"

/-- A kind as reported. -/
structure TargetKind where
  platform : Platform
  model : String
  osVersion : Option String
  mode : DeviceMode
  deriving DecidableEq

def kindOf (spec : VirtualSpec) : TargetKind :=
  ⟨spec.platform, spec.model, some spec.osVersion, spec.mode⟩

/-- Platform, model, OS and mode as one line, the parts it names; a virtual spec has its mode only
    when it is slim. -/
def describeTarget (spec : VirtualSpec) : String :=
  " ".intercalate ([platformText spec.platform, spec.model, spec.osVersion] ++
    if spec.slim then [modeText .slim] else [])

structure TargetReport where
  target : String
  kind : TargetKind
  spec : VirtualSpec
  origin : Origin
  count : Nat
  configuredCount : Nat
  ready : Nat
  booting : Nat
  short : Option TargetShort
  deriving DecidableEq

/-! ### The two passes over the kinds -/

/-- Boots and creations of the kind that run or that the queue pass proposed. -/
def pending (view : WarmPolicyView) (queued : List WarmProposal) (spec : VirtualSpec) : Nat :=
  (view.inFlight.countP fun flying => sameSpec flying spec) +
    queued.countP fun proposal =>
      match proposal with
      | .provision created _ _ => sameSpec created spec
      | .boot deviceId _ _ =>
        view.devices.any fun device => device.id = deviceId && sameSpec device.spec spec
      | .shutdown _ _ => false

/-- A kind's configured count filled. -/
def fillConfigured (p : Planning) (queued : List WarmProposal) (kind : PlannedKind)
    (plan : TargetPlan) : Filled × TargetPlan :=
  let filling := pending p.view queued kind.spec
  let missing : Int := kind.configuredCount - plan.ready p kind.spec - filling
  if 0 < missing then fillTarget p kind.spec missing (0 < filling) .configured plan
  else (⟨0, none⟩, plan)

/-- A kind's learned count filled, after its configured count was, and its report. -/
def fillLearned (p : Planning) (queued : List WarmProposal) (kind : PlannedKind)
    (configured : Filled) (plan : TargetPlan) : TargetReport × TargetPlan :=
  let ready := plan.ready p kind.spec
  let filling := pending p.view queued kind.spec
  let peak : Int := max (kind.learnedCount - leasedOfKind p.view kind.spec) 1
  let missing : Int := max ((kind.configuredCount : Int) - ready) (peak - ready) - filling -
    configured.added
  let learned :=
    if configured.short.isNone && 0 < missing then
      fillTarget p kind.spec missing (0 < filling + configured.added) .learned plan
    else (⟨0, none⟩, plan)
  ({ target := describeTarget kind.spec
     kind := kindOf kind.spec
     spec := kind.spec
     origin := kind.origin
     count := max kind.configuredCount kind.learnedCount
     configuredCount := kind.configuredCount
     ready
     booting := filling + configured.added + learned.1.added
     short := configured.short.or learned.1.short }, learned.2)

def configuredPass (p : Planning) (queued : List WarmProposal) :
    List PlannedKind → TargetPlan → List Filled × TargetPlan
  | [], plan => ([], plan)
  | kind :: rest, plan =>
    let filled := fillConfigured p queued kind plan
    let after := configuredPass p queued rest filled.2
    (filled.1 :: after.1, after.2)

def learnedPass (p : Planning) (queued : List WarmProposal) :
    List (PlannedKind × Filled) → TargetPlan → List TargetReport × TargetPlan
  | [], plan => ([], plan)
  | (kind, configured) :: rest, plan =>
    let filled := fillLearned p queued kind configured plan
    let after := learnedPass p queued rest filled.2
    (filled.1 :: after.1, after.2)

/-- Every configured count before any learned one. -/
def planTargets (p : Planning) (queued : List WarmProposal) (plan : TargetPlan) :
    List TargetReport × TargetPlan :=
  let first := configuredPass p queued p.kinds plan
  learnedPass p queued (p.kinds.zip first.1) first.2

/-! ### One pass of the pool -/

structure WarmPlan where
  proposals : List WarmProposal
  targets : List TargetReport

/-- The shutdowns that bring the pool back under its budget, and the room after. While a device is
    on its way to a lease the budget reads one over, and nothing is shut down for it. -/
def budgeted (view : WarmPolicyView) : List VirtualDevice × Slots :=
  if view.handoffInFlight then ([], roomOf view.capacity)
  else overBudget view (reservedOf view) (roomOf view.capacity)

def queued (view : WarmPolicyView) : QueueState := queuePass view (budgeted view).2

def unneeded (view : WarmPolicyView) : List VirtualDevice :=
  neverLeasedIdle view ((budgeted view).1.map (·.id))

/-- What the budget and the never-leased rule shut down. -/
def idleShut (view : WarmPolicyView) : List String :=
  ((budgeted view).1 ++ unneeded view).map (·.id)

def shed (view : WarmPolicyView) : Option VirtualDevice := shedForPressure view (idleShut view)

/-- What the rules before the targets shut down. -/
def proposed (view : WarmPolicyView) : List String :=
  idleShut view ++ (shed view).toList.map (·.id)

/-- The devices kept for a waiting request or for a target that did not resolve. -/
def sparedDevices (view : WarmPolicyView) : List String :=
  targetedDevices view view.spared [] view.waiting

def planning (view : WarmPolicyView) : Planning where
  view
  bootable := bootable view
  held := reservedOf view
  stuck := (queued view).stuck
  kinds := plannedKinds (mergeTargets view.targets)
    (view.learned.filter fun kind => !view.unplanned.any fun spec => sameSpec spec kind.spec)

def bootedId : WarmProposal → Option String
  | .boot deviceId _ _ => some deviceId
  | _ => none

/-- The plan that the targets are filled from. -/
def planStart (view : WarmPolicyView) : TargetPlan where
  room := (unneeded view).foldl release (queued view).room
  taken := (queued view).proposals.filterMap bootedId
  proposals := []
  victims := if view.handoffInFlight then []
    else (running view).filter fun device =>
      !(proposed view).contains device.id && !(sparedDevices view).contains device.id
  displaced := []
  started := (queued view).started

def wanted (view : WarmPolicyView) : List TargetReport × TargetPlan :=
  planTargets (planning view) (queued view).proposals (planStart view)

def evaluate (view : WarmPolicyView) : WarmPlan :=
  if !view.config.enabled then
    { proposals := (running view).map fun device => .shutdown device.id .disabled, targets := [] }
  else
    { proposals := (budgeted view).1.map (fun device => .shutdown device.id .overBudget) ++
        (queued view).proposals ++
        (unneeded view).map (fun device => .shutdown device.id .neverLeasedIdle) ++
        (shed view).toList.map (fun device => .shutdown device.id .memoryPressure) ++
        (wanted view).2.proposals
      targets := (wanted view).1 }

end Simlock.WarmPool
