import Simlock.Core.Quarantine
import Simlock.Worker.Sections
import Simlock.Lib.Indexed

/-! The quarantine coordinator: every quarantined device is retried until it is clean or gone.

    A device that enters quarantine gets a timer. The timer starts a retry: it reads the device
    again, takes its operation claim, and then deletes a virtual device or reclaims a physical one. A
    retry that fails is counted and arms the next; the last one gives the device up. A retry that
    throws is only logged, with its timer gone.

        timer ─▶ reading ─▶ found ─▶ claimed: presence, driver, write ─▶ arming ─▶ ending
                    │ moved on  │ claimed elsewhere                        ▲
                    ▼           └──▶ timer again          a throw ─────────┘ without a timer

    Retries interleave with every other workflow of the worker, which takes claims and runs sections
    of its own. A section that ends first has its caller continue first (`turn`). -/

namespace Simlock.Worker

open Simlock.Lib Simlock.Core

/-- What the coordinator is built with. The config loader refuses a `maxRetries` below one. -/
structure QuarantineOptions where
  registry : RegistryOptions
  maxRetries : Int
  retryBackoffMs : Int
  probeIntervalMs : Option Int
  /-- `backoffDelay`, by the attempts so far. -/
  backoffDelay : Int → Int
  /-- The platforms `drivers.get` finds a driver for. -/
  drivers : List Platform
  maxRetries_pos : 0 < maxRetries

/-- A registry write of a retry. -/
inductive RetryWrite where
  | failure (attempts nextRetryAt : Int)
  | recovered (target : DeviceState)
  | deleted
  | stranded (attempts : Int)
  | abandoned (attempts : Int)
  deriving DecidableEq

def RetryWrite.call (deviceId : String) : RetryWrite → Call
  | .failure attempts nextRetryAt => .recordQuarantineRetryFailure deviceId attempts nextRetryAt
  | .recovered target => .recoverFromQuarantine deviceId target
  | .deleted | .abandoned _ => .deleteQuarantined deviceId
  | .stranded attempts => .strandQuarantine deviceId attempts

/-- What a retry that holds the claim awaits, or does next. -/
inductive RetryStage where
  | presence
  | reclaim (attempts : Int)
  | destroy (attempts : Int)
  /-- `#giveUp` of a virtual device. -/
  | lastDestroy (attempts : Int)
  | write (w : RetryWrite)
  | arm (nextRetryAt : Int)
  /-- Only the claim is still to be released. -/
  | end_
  deriving DecidableEq

inductive RetryPoint where
  | reading
  | found (device : Device)
  | claimed (device : Device) (stage : RetryStage)
  | over
  deriving DecidableEq

/-- A running `#retry`; `turn` is the section it continues from. -/
structure Retry where
  deviceId : String
  point : RetryPoint
  turn : Nat

def RetryPoint.isFound : RetryPoint → Bool
  | .found _ => true
  | _ => false

def RetryPoint.holdsClaim : RetryPoint → Bool
  | .claimed .. => true
  | _ => false

structure QuarantineHost where
  store : Store
  /-- The devices other workflows hold the claim of. -/
  claims : List String
  timers : String → Option Int
  retries : List Retry
  /-- Entries that are committed, with their timer still to be armed. -/
  entered : List (String × Int)
  /-- The platforms the startup read listed, once `restore` ran. -/
  readable : Option (List Platform)
  disposed : Bool
  /-- The sections run so far. -/
  turns : Nat

/-- What an await of a retry answers. -/
inductive RetryMove where
  | read
  | tryClaim
  /-- `readPhysicalPresence`; a read that throws is not presence. -/
  | presence (present : Bool)
  /-- The driver's call; `none` when it throws. -/
  | driver (answer : Option DeviceState)
  /-- The section that writes; `writable` is whether the disk takes it. -/
  | write (writable : Bool)
  | goOn
  deriving DecidableEq

inductive QuarantineAction where
  /-- A section of another module. -/
  | section_ (w : Section) (writable : Bool)
  | enter (deviceId : String) (cause : QuarantineCause) (calledAt : Int) (writable : Bool)
  | enterFromStalledTransition (deviceId : String) (findingState : DeviceState) (calledAt : Int)
    (writable : Bool)
  /-- The entry goes on after its section. -/
  | armEntered (i : Nat)
  | fire (deviceId : String)
  | retry (i : Nat) (m : RetryMove)
  | claim (deviceId : String)
  | release (deviceId : String)
  | restore (platforms : List Platform)
  | dispose
  | restart

namespace QuarantineHost

def start (store : Store) : QuarantineHost := ⟨store, [], fun _ => none, [], [], none, false, 0⟩

variable (c : QuarantineOptions) (s : QuarantineHost)

def at_ (now : Int) : QuarantineHost := { s with store := { s.store with clock := now } }

/-- `#arm`. -/
def arm (deviceId : String) (nextRetryAt now : Int) : QuarantineHost :=
  if s.disposed then s
  else { s with timers := Function.update s.timers deviceId (some (now + max 0 (nextRetryAt - now))) }

/-- The device's operation claim is held. -/
def isClaimed (deviceId : String) : Bool :=
  s.claims.contains deviceId ||
    s.retries.any fun r => r.deviceId = deviceId && r.point.holdsClaim

/-- One section, with the one call it makes. -/
def call (call : Call) (now : Int) (writable : Bool) : QuarantineHost :=
  { s with store := s.store.attempted c.registry call now writable, turns := s.turns + 1 }

def pass (now : Int) : QuarantineHost := { s.at_ now with turns := s.turns + 1 }

def setRetry (i : Nat) (r : Retry) : QuarantineHost := { s with retries := s.retries.set i r }

/-- A continuation waits for those of earlier sections. -/
def isDue (r : Retry) : Bool :=
  s.retries.all fun x => !x.point.isFound || r.turn ≤ x.turn

/-- The entry's section. -/
def enter (deviceId : String) (cause : QuarantineCause) (nextRetryAt now : Int) (writable : Bool) :
    QuarantineHost :=
  let c' := Call.enterQuarantine deviceId nextRetryAt cause
  let s' := s.call c c' now writable
  if s.store.returns c.registry c' now writable then
    { s' with entered := s.entered ++ [(deviceId, nextRetryAt)] }
  else s'

def stalledCause (findingState : DeviceState) : QuarantineCause :=
  match findingState with
  | .provisioning => ⟨.stalled, some .provisioning, none⟩
  | .reclaiming => ⟨.stalled, some .reclaiming, none⟩
  | _ => ⟨.deleteFailed, none, none⟩

def enterFromStalledTransition (deviceId : String) (findingState : DeviceState)
    (nextRetryAt now : Int) (writable : Bool) : QuarantineHost :=
  if isIn s.store.registry deviceId findingState && !s.isClaimed deviceId then
    s.enter c deviceId (stalledCause findingState) nextRetryAt now writable
  else s.pass now

/-- One turn of the loop of `restore`. -/
def restoreDevice (platforms : List Platform) (now : Int) (s : QuarantineHost) (d : Device) :
    QuarantineHost :=
  if d.state = .quarantined && platforms.contains d.platform then
    s.arm d.id (d.fields.quarantineNextRetryAt.getD now) now
  else s

def restore (platforms : List Platform) (now : Int) : QuarantineHost :=
  s.store.registry.devices.foldl (restoreDevice platforms now) { s with readable := some platforms }

def dispose : QuarantineHost := { s with disposed := true, timers := fun _ => none }

end QuarantineHost

namespace QuarantineOptions

variable (c : QuarantineOptions)

/-- The first steps of `#retryClaimed`. -/
def begin_ (d : Device) : RetryStage :=
  if d.isPhysical then .presence
  else if c.drivers.contains d.platform then .destroy (d.attempts + 1)
  else .end_

/-- `#waitForPresence`, and what follows a device that is there. -/
def afterPresence (d : Device) (present : Bool) (now : Int) : RetryStage :=
  if present && c.drivers.contains d.platform then .reclaim (d.attempts + 1)
  else .write (.failure d.attempts (now + c.probeIntervalMs.getD c.retryBackoffMs))

/-- `#giveUp`. -/
def giveUp (d : Device) (attempts : Int) : RetryStage :=
  if d.isPhysical then .write (.abandoned attempts)
  else if c.drivers.contains d.platform then .lastDestroy attempts
  else .end_

def retryFailed (d : Device) (attempts now : Int) : RetryStage :=
  if attempts ≥ c.maxRetries then c.giveUp d attempts
  else .write (.failure attempts (now + c.backoffDelay attempts))

/-- What follows the driver's answer, where one is awaited. -/
def afterDriver (d : Device) (answer : Option DeviceState) (now : Int) :
    RetryStage → Option RetryStage
  | .reclaim attempts =>
    match answer with
    | some target => some (.write (.recovered target))
    | none => some (c.retryFailed d attempts now)
  | .destroy attempts =>
    match answer with
    | some _ => some (.write .deleted)
    | none => some (c.retryFailed d attempts now)
  | .lastDestroy attempts =>
    match answer with
    | some _ => some (.write (.abandoned attempts))
    | none => some (.write (.stranded attempts))
  | _ => none

end QuarantineOptions

/-- What follows a write: a counted failure arms the next retry. -/
def RetryWrite.next : RetryWrite → RetryStage
  | .failure _ nextRetryAt => .arm nextRetryAt
  | _ => .end_

namespace QuarantineHost

variable (c : QuarantineOptions) (s : QuarantineHost)

/-- The retry `i` goes on with what it awaited. -/
def retry (i : Nat) (m : RetryMove) (now : Int) : QuarantineHost :=
  match s.retries[i]? with
  | none => s.at_ now
  | some r =>
    match r.point, m with
    | .reading, .read =>
      match s.store.registry.device r.deviceId with
      | some d =>
        if d.state = .quarantined then
          (s.pass now).setRetry i ⟨r.deviceId, .found d, s.turns⟩
        else (s.pass now).setRetry i { r with point := .over }
      | none => (s.pass now).setRetry i { r with point := .over }
    | .found d, .tryClaim =>
      if s.isClaimed r.deviceId then
        ((s.at_ now).arm r.deviceId (now + c.retryBackoffMs) now).setRetry i { r with point := .over }
      else (s.at_ now).setRetry i { r with point := .claimed d (c.begin_ d) }
    | .claimed d .presence, .presence present =>
      (s.at_ now).setRetry i { r with point := .claimed d (c.afterPresence d present now) }
    | .claimed d (.write w), .write writable =>
      let returns := s.store.returns c.registry (w.call r.deviceId) now writable
      (s.call c (w.call r.deviceId) now writable).setRetry i
        ⟨r.deviceId, .claimed d (if returns then w.next else .end_), s.turns⟩
    | .claimed d (.arm nextRetryAt), .goOn =>
      if s.isDue r then
        ((s.at_ now).arm r.deviceId nextRetryAt now).setRetry i { r with point := .claimed d .end_ }
      else s.at_ now
    | .claimed _ .end_, .goOn =>
      if s.isDue r then (s.at_ now).setRetry i { r with point := .over } else s.at_ now
    | .claimed d stage, .driver answer =>
      match c.afterDriver d answer now stage with
      | some stage' => (s.at_ now).setRetry i { r with point := .claimed d stage' }
      | none => s.at_ now
    | _, _ => s.at_ now

/-- A timer that is due starts its retry. -/
def fire (deviceId : String) (now : Int) : QuarantineHost :=
  match s.timers deviceId with
  | none => s.at_ now
  | some due =>
    if now < due || s.disposed then s.at_ now
    else { s.at_ now with
      timers := Function.update s.timers deviceId none
      retries := s.retries ++ [⟨deviceId, .reading, 0⟩] }

def armEntered (i : Nat) (now : Int) : QuarantineHost :=
  match s.entered[i]? with
  | none => s.at_ now
  | some (deviceId, nextRetryAt) =>
    { (s.at_ now).arm deviceId nextRetryAt now with entered := s.entered.eraseIdx i }

def step (s : QuarantineHost) : Int × QuarantineAction → QuarantineHost
  | (now, .section_ w writable) =>
    if w.checks s.store.registry then s.call c w.call now writable else s.pass now
  | (now, .enter deviceId cause calledAt writable) =>
    s.enter c deviceId cause (calledAt + c.retryBackoffMs) now writable
  | (now, .enterFromStalledTransition deviceId findingState calledAt writable) =>
    s.enterFromStalledTransition c deviceId findingState (calledAt + c.retryBackoffMs) now writable
  | (now, .armEntered i) => s.armEntered i now
  | (now, .fire deviceId) => s.fire deviceId now
  | (now, .retry i m) => s.retry c i m now
  | (now, .claim deviceId) =>
    if s.isClaimed deviceId then s.at_ now
    else { s.at_ now with claims := deviceId :: s.claims }
  | (now, .release deviceId) => { s.at_ now with claims := s.claims.filter (· ≠ deviceId) }
  | (now, .restore platforms) =>
    if s.readable.isSome then s.at_ now else (s.at_ now).restore platforms now
  | (now, .dispose) => (s.at_ now).dispose
  | (now, .restart) => start (s.store.step c.registry (.reopen now))

end QuarantineHost

/-! ### What a run relies on -/

/-- The sections of the coordinator itself. -/
def Section.isQuarantine : Section → Bool
  | .enterQuarantine .. | .enterFromStalledTransition .. | .retryFailed .. | .recovered ..
  | .stranded .. | .deleteQuarantined _ => true
  | _ => false

/-- The clock does not go back; another module runs its own sections, with what their calls rely on;
    the generator mints no id a retry still works on; and the startup read lists a platform through
    its driver. -/
def QuarantineOptions.Admits (c : QuarantineOptions) (s : QuarantineHost) :
    Int × QuarantineAction → Prop
  | (now, .section_ w _) => Worker.Admits s.store (.section_ w now) ∧ w.isQuarantine = false ∧
    ∀ id physical, w.call.adds = some (id, physical) → ∀ r ∈ s.retries, r.deviceId ≠ id
  | (now, .restore platforms) => s.store.clock ≤ now ∧ ∀ p ∈ platforms, p ∈ c.drivers
  | (now, _) => s.store.clock ≤ now

/-! ### What is to be kept -/

/-- The retry has not come to its end. -/
def RetryPoint.inFlight : RetryPoint → Bool
  | .claimed _ .end_ | .over => false
  | _ => true

/-- The device's next retry is on its way: a timer, a retry in flight, or an entry that goes on to
    arm one. -/
def QuarantineHost.Attended (s : QuarantineHost) (deviceId : String) : Prop :=
  (s.timers deviceId).isSome ∨
    (∃ r ∈ s.retries, r.deviceId = deviceId ∧ r.point.inFlight = true) ∨
    ∃ e ∈ s.entered, e.1 = deviceId

/-- The device is quarantined and its retries go on. -/
def QuarantineHost.Pending (s : QuarantineHost) (deviceId : String) : Prop :=
  ∃ x q, s.store.registry.standing deviceId = some x ∧ x.quarantine = some q ∧ q.nextRetryAt ≠ none

/-- While the daemon runs, every device of a readable platform that is quarantined and not stranded
    is attended. -/
def QuarantineHost.Watched (s : QuarantineHost) : Prop :=
  ∀ platforms, s.readable = some platforms → s.disposed = false →
    ∀ deviceId x, s.store.registry.standing deviceId = some x → x.platform ∈ platforms →
      s.Pending deviceId → s.Attended deviceId

/-- A retry of the device is at its last: it gives the device up. -/
def QuarantineHost.GivesUp (s : QuarantineHost) (deviceId : String) : Prop :=
  ∃ r ∈ s.retries, r.deviceId = deviceId ∧ ∃ d attempts, r.point = .claimed d (.lastDestroy attempts) ∨
    r.point = .claimed d (.write (.abandoned attempts)) ∨
    r.point = .claimed d (.write (.stranded attempts))

/-- The step is an attempt on the device that fails. -/
def QuarantineHost.failsAttempt (s : QuarantineHost) (deviceId : String) :
    Int × QuarantineAction → Bool
  | (_, .retry i (.driver none)) =>
    match s.retries[i]? with
    | some ⟨id, .claimed _ (.reclaim _), _⟩ => id = deviceId
    | some ⟨id, .claimed _ (.destroy _), _⟩ => id = deviceId
    | _ => false
  | _ => false

/-- The attempts on the device that fail in a run. -/
def failures (c : QuarantineOptions) (deviceId : String) :
    QuarantineHost → List (Int × QuarantineAction) → Nat
  | _, [] => 0
  | s, a :: acts => (if s.failsAttempt deviceId a then 1 else 0) + failures c deviceId (s.step c a) acts

/-- The device stays quarantined and unstranded over the run, which no restart cuts. -/
def StaysPending (c : QuarantineOptions) (deviceId : String) :
    QuarantineHost → List (Int × QuarantineAction) → Prop
  | s, [] => s.Pending deviceId
  | s, a :: acts => s.Pending deviceId ∧ a.2 ≠ .restart ∧ StaysPending c deviceId (s.step c a) acts

/-- The disk takes what a retry writes of a device that is still quarantined, and what a driver
    reclaimed is ready. -/
def QuarantineOptions.Takes (s : QuarantineHost) : Int × QuarantineAction → Prop
  | (_, .retry i (.write writable)) => ∀ r d w, s.retries[i]? = some r →
    r.point = .claimed d (.write w) →
    ∀ x, s.store.registry.standing r.deviceId = some x → x.quarantine ≠ none →
      writable = true ∧ ∀ target, w = .recovered target → target = .ready
  | _ => True

/-- What holds of a state and of every step from it. -/
structure NeverStalls (c : QuarantineOptions) (s : QuarantineHost) : Prop where
  watched : s.Watched
  /-- The attempts of a device that stays quarantined never decrease. -/
  climbs : ∀ a, c.Admits s a → ∀ deviceId x q x' q', s.store.registry.standing deviceId = some x →
    x.quarantine = some q → (s.step c a).store.registry.standing deviceId = some x' →
    x'.quarantine = some q' → q.attempts ≤ q'.attempts
  /-- At most `maxRetries` attempts fail before a retry gives the device up. -/
  spends : ∀ deviceId acts, AllSteps (QuarantineHost.step c)
      (fun s a => c.Admits s a ∧ QuarantineOptions.Takes s a) s acts →
    StaysPending c deviceId s acts → (failures c deviceId s acts : Int) ≤ c.maxRetries ∧
      ((failures c deviceId s acts : Int) = c.maxRetries →
        (run (QuarantineHost.step c) s acts).GivesUp deviceId)
  /-- What gives it up deletes a physical device, and deletes or strands a virtual one. -/
  givesUp : ∀ now i writable r d w, s.retries[i]? = some r → r.point = .claimed d (.write w) →
    (∃ attempts, w = .abandoned attempts ∨ w = .stranded attempts) →
    c.Admits s (now, .retry i (.write writable)) →
    QuarantineOptions.Takes s (now, .retry i (.write writable)) →
    ¬ (s.step c (now, .retry i (.write writable))).Pending r.deviceId ∧
      ∀ attempts, w = .stranded attempts → d.isPhysical = false

end Simlock.Worker
