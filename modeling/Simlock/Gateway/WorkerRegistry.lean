import Mathlib.Data.List.Sort
import Mathlib.Logic.Function.Basic
import Simlock.Gateway.WorkerLink
import Simlock.Lib.Keyed

/-! The registry of all workers: drains and retention.

    A drain is in three places, the view, the set of drained ids and the store; the set outlives the
    view, and the store the gateway. The leases last read from a worker are kept beside its view,
    for the reads in which the view lists none. The retention sweep lists the views to forget, and
    then forgets them one by one, with an await after each:

        pruneExpired   list . forget . forget . ..      (every `.` lets other calls in)

    What the operator last did with a worker, when it was disconnected and what was last read from
    it are observed from outside, beside the registry. -/

namespace Simlock.Uplink

open Lib

structure WorkerLease where
  ttlDeadline : Nat
  requesterId : String
  deriving DecidableEq, Repr

/-- `before` is the order of the views, `leases` what a value of that field lists. -/
structure RegistryOptions (ν : Type) where
  retentionMs : Nat
  gatewayRequesterPrefix : Option String
  before : String → String → Bool
  leases : ν → List WorkerLease

/-- `sweeps` has, for each sweep under way, the workers it still has to forget. -/
structure WorkerRegistry (ν : Type) where
  workers : List (String × WorkerView ν)
  lastLeases : String → Option ν
  drained : List String
  store : List String
  sweeps : List (List String)
  now : Nat

/-- `restart` ends the process: its views, its sets and its sweeps are gone, the store is loaded. -/
inductive RegistryAct (ν : Type) where
  | connected (workerId : String) (label version : Option String)
  | incompatible (workerId : String) (label : Option String) (protocol : Protocol)
      (version : Option String)
  | refresh (workerId : String) (r : WorkerRefresh ν)
  | disconnected (workerId : String)
  | setDrained (workerId : String) (drained : Bool)
  | remove (workerId : String)
  | pruneExpired
  | continueSweep (i : Nat)
  | restart
  | tick (elapsed : Nat)

variable {ν : Type}

/-- Some lease of this gateway's own has time left; without a prefix, any lease. -/
def RegistryOptions.holds (o : RegistryOptions ν) (now : Nat) (read : Option ν) : Bool :=
  ((read.map o.leases).getD []).any fun lease =>
    now < lease.ttlDeadline &&
      o.gatewayRequesterPrefix.all fun p => p.toList.isPrefixOf lease.requesterId.toList

namespace WorkerRegistry

variable (s : WorkerRegistry ν)

def new : WorkerRegistry ν :=
  { workers := [], lastLeases := fun _ => none, drained := [], store := [], sweeps := [], now := 0 }

def view (workerId : String) : Option (WorkerView ν) :=
  (s.workers.find? fun w => w.1 = workerId).map Prod.snd

def set (workerId : String) (v : WorkerView ν) : WorkerRegistry ν :=
  { s with workers := upsert Prod.fst (workerId, v) s.workers }

def isDrained (workerId : String) : Bool := decide (workerId ∈ s.drained)

/-- `drainStore.save` of the set as it is. -/
def save : WorkerRegistry ν := { s with store := s.drained }

def drain (workerId : String) : WorkerRegistry ν :=
  if s.isDrained workerId then s else { s with drained := s.drained ++ [workerId] }

def undrain (workerId : String) : WorkerRegistry ν :=
  { s with drained := s.drained.filter fun id => id ≠ workerId }

def connect (workerId : String) (label version : Option String) : WorkerRegistry ν :=
  s.set workerId
    (Uplink.connected (s.view workerId) (s.isDrained workerId) s.now label version)

def markIncompatible (workerId : String) (label : Option String) (protocol : Protocol)
    (version : Option String) : WorkerRegistry ν :=
  s.set workerId
    (Uplink.incompatible (s.view workerId) (s.isDrained workerId) s.now label protocol version)

/-- `#keepLastReads`, of the leases. -/
def keepLastReads (workerId : String) (r : WorkerRefresh ν) : WorkerRegistry ν :=
  match r.field .leases with
  | some (some leases) =>
    { s with lastLeases := Function.update s.lastLeases workerId (some leases) }
  | _ => s

def refresh (workerId : String) (r : WorkerRefresh ν) : WorkerRegistry ν :=
  match s.view workerId with
  | none => s
  | some v => (s.set workerId (v.refresh s.now r)).keepLastReads workerId r

def disconnect (workerId : String) : WorkerRegistry ν :=
  match s.view workerId with
  | none => s
  | some v => s.set workerId (v.disconnected s.now)

/-- An unknown worker is refused. -/
def setDrained (workerId : String) (drained : Bool) : WorkerRegistry ν :=
  match s.view workerId with
  | none => s
  | some v =>
    if v.drained = drained then s
    else
      let t := s.set workerId { v with drained := drained }
      (if drained then t.drain workerId else t.undrain workerId).save

/-- The parts of `#forget` that both its callers do. -/
def forgetView (workerId : String) : WorkerRegistry ν :=
  { s with
    workers := s.workers.filter fun w => w.1 ≠ workerId
    lastLeases := Function.update s.lastLeases workerId none }

/-- The drain is cleared, and saved where there was one. -/
def clearDrain (workerId : String) : WorkerRegistry ν :=
  if s.isDrained workerId then (s.undrain workerId).save else s

/-- A connected worker is refused. -/
def remove (workerId : String) : WorkerRegistry ν :=
  match s.view workerId with
  | none => s.clearDrain workerId
  | some v =>
    if v.connection ≠ .disconnected then s else (s.forgetView workerId).clearDrain workerId

/-- What the sweep tests of a view. -/
def expired (o : RegistryOptions ν) (w : String × WorkerView ν) : Bool :=
  w.2.connection = .disconnected && w.2.lastSeenAt + o.retentionMs ≤ s.now &&
    !o.holds s.now ((w.2.field .leases).or (s.lastLeases w.1))

def expiredViews (o : RegistryOptions ν) : List String :=
  ((s.workers.insertionSort fun w w' => o.before w.1 w'.1).filter (s.expired o)).map Prod.fst

/-- Up to the first await. -/
def pruneExpired (o : RegistryOptions ν) : WorkerRegistry ν :=
  match s.expiredViews o with
  | [] => s
  | workerId :: rest => { s.forgetView workerId with sweeps := s.sweeps ++ [rest] }

/-- From one await of a sweep to the next. -/
def continueSweep (i : Nat) : WorkerRegistry ν :=
  match s.sweeps[i]? with
  | some (workerId :: rest) => { s.forgetView workerId with sweeps := s.sweeps.set i rest }
  | _ => s

def restart : WorkerRegistry ν := { new with drained := s.store, store := s.store, now := s.now }

def step (o : RegistryOptions ν) : RegistryAct ν → WorkerRegistry ν
  | .connected workerId label version => s.connect workerId label version
  | .incompatible workerId label protocol version =>
    s.markIncompatible workerId label protocol version
  | .refresh workerId r => s.refresh workerId r
  | .disconnected workerId => s.disconnect workerId
  | .setDrained workerId drained => s.setDrained workerId drained
  | .remove workerId => s.remove workerId
  | .pruneExpired => s.pruneExpired o
  | .continueSweep i => s.continueSweep i
  | .restart => s.restart
  | .tick elapsed => { s with now := s.now + elapsed }

/-! ### What is observed -/

/-- `actions` are the operator's, the newest first; `since` is when a worker last disconnected;
    `read` has the leases last read from it since its view was made. -/
structure Observed (ν : Type) where
  actions : List (String × Bool)
  since : String → Nat
  read : String → Option ν

def Observed.new : Observed ν := ⟨[], fun _ => 0, fun _ => none⟩

/-- The last the operator did with the worker was a drain. -/
def Observed.drained (g : Observed ν) (workerId : String) : Bool :=
  (g.actions.find? fun a => a.1 = workerId).elim false Prod.snd

/-- A new view of a worker starts with nothing read. -/
def Observed.made (g : Observed ν) (workerId : String) (existing : Option (WorkerView ν)) :
    Observed ν :=
  if existing.isSome then g else { g with read := Function.update g.read workerId none }

def Observed.note (g : Observed ν) (s : WorkerRegistry ν) : RegistryAct ν → Observed ν
  | .connected workerId _ _ => g.made workerId (s.view workerId)
  | .incompatible workerId _ _ _ => g.made workerId (s.view workerId)
  | .refresh workerId r =>
    match s.view workerId, r.field .leases with
    | some _, some (some leases) =>
      { g with read := Function.update g.read workerId (some leases) }
    | _, _ => g
  | .disconnected workerId =>
    if ∃ v ∈ s.view workerId, v.connection ≠ .disconnected then
      { g with since := Function.update g.since workerId s.now }
    else g
  | .setDrained workerId drained =>
    if (s.view workerId).isSome then { g with actions := (workerId, drained) :: g.actions } else g
  | .remove workerId =>
    if ∃ v ∈ s.view workerId, v.connection ≠ .disconnected then g
    else { g with actions := (workerId, false) :: g.actions }
  | .pruneExpired | .continueSweep _ | .restart | .tick _ => g

/-- The registry and what is observed of it. -/
def observe (o : RegistryOptions ν) (x : WorkerRegistry ν × Observed ν) (a : RegistryAct ν) :
    WorkerRegistry ν × Observed ν := (x.1.step o a, x.2.note x.1 a)

end WorkerRegistry

end Simlock.Uplink
