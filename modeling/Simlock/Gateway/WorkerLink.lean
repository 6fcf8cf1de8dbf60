import Simlock.Lib.Indexed
import Simlock.Lib.Run

/-! One worker's uplinks, from the gateway's side.

    The registry holds the worker's view. A link drives one uplink: `start` makes the handshake, the
    first `status.get` and the subscription; `refresh` reads the worker again; `close` ends it:

        start    hello . status.get --unsupported--> incompatible
                                    \--admin-------> connected . events.subscribe . refresh
        refresh  status.get --starting--> refresh of the view
                            \-----------> list.get, catalog.get, .. --> refresh of the view
        close    closed . events.unsubscribe . client close     (the connection's close: any time)

    Every `.` is an await: the call settles at some moment, and its continuation runs at a later one.
    A continuation writes the view at most once, so it returns the link and what it says. -/

namespace Simlock.Uplink

/-- What a worker reports of itself. -/
inductive Field where
  | baselines | capabilities | capacity | catalog | devices | downloads | health | host | installs
  | lastUpdateFailure | latestVersion | lease | leases | load | physicalQueueDepth | queueDepth
  | update | waiting | warmPool
  deriving DecidableEq, Repr

inductive Connection where
  | connected
  | incompatible
  | disconnected
  deriving DecidableEq, Repr

/-- The two ranges of a failed version negotiation. -/
structure Protocol where
  gateway : Nat × Nat
  worker : Nat × Nat
  deriving DecidableEq, Repr

variable {ν : Type}

structure WorkerView (ν : Type) where
  connection : Connection
  drained : Bool
  label : Option String
  version : Option String
  protocol : Option Protocol
  lastSeenAt : Nat
  catalogReadAt : Option Nat
  field : Field → Option ν

/-- What a refresh brings: a key it does not have is left, one it has replaces. -/
structure WorkerRefresh (ν : Type) where
  starting : Bool
  version : Option (Option String)
  field : Field → Option (Option ν)

/-! ### The registry -/

def WorkerView.without (v : WorkerView ν) (dropped : List Field) : WorkerView ν :=
  { v with field := fun f => if f ∈ dropped then none else v.field f }

/-- What a read of a running worker fills in, which a starting one has not checked. -/
def readFields : List Field :=
  [.baselines, .capabilities, .capacity, .catalog, .devices, .installs, .leases,
    .physicalQueueDepth, .queueDepth, .waiting, .warmPool]

def withoutReadFields (v : WorkerView ν) : WorkerView ν :=
  { v.without readFields with catalogReadAt := none }

/-- A key of an earlier session, where there was one. -/
def held (existing : Option (WorkerView ν)) (f : Field) : Option ν :=
  existing.bind fun v => v.field f

/-- A value that is given, else the one an earlier session left. -/
def orHeld {α : Type} (given : Option α) (existing : Option (WorkerView ν))
    (read : WorkerView ν → Option α) : Option α :=
  match given with
  | some a => some a
  | none => existing.bind read

def connected (existing : Option (WorkerView ν)) (drained : Bool) (now : Nat)
    (label version : Option String) : WorkerView ν :=
  { connection := .connected, drained, lastSeenAt := now, protocol := none, catalogReadAt := none
    label := orHeld label existing (·.label)
    version := orHeld version existing (·.version)
    field := fun f => if f = .load then none else held existing f }

/-- What an incompatible worker is not asked, with the load. -/
def staleFields : List Field := [.load, .capabilities, .host, .installs, .waiting, .warmPool]

def incompatible (existing : Option (WorkerView ν)) (drained : Bool) (now : Nat)
    (label : Option String) (protocol : Protocol) (version : Option String) : WorkerView ν :=
  { connection := .incompatible, drained, lastSeenAt := now, protocol := some protocol
    catalogReadAt := existing.bind (·.catalogReadAt)
    label := orHeld label existing (·.label)
    version := orHeld version existing (·.version)
    field := fun f => if f ∈ staleFields then none else held existing f }

/-- The load never outlives the refresh that read it, nor shows on a link that is not connected. -/
def WorkerView.refresh (existing : WorkerView ν) (now : Nat) (r : WorkerRefresh ν) :
    WorkerView ν :=
  let kept := (if r.starting then withoutReadFields existing else existing).without [.load]
  let built : WorkerView ν :=
    { kept with
      lastSeenAt := now
      version := r.version.getD kept.version
      catalogReadAt :=
        match r.field .catalog with
        | some (some _) => some now
        | _ => kept.catalogReadAt
      field := fun f => (r.field f).getD (kept.field f) }
  if built.connection = .connected then built else built.without [.load]

def WorkerView.disconnected (existing : WorkerView ν) (now : Nat) : WorkerView ν :=
  if existing.connection = .disconnected then existing
  else
    { existing.without [.load, .installs, .waiting] with
      connection := .disconnected, lastSeenAt := now }

/-! ### The reads -/

/-- A `status.get` answer: the load it shows depends on when it is received. -/
structure Status (ν : Type) where
  starting : Bool
  field : Field → Option ν
  load : Nat → Option ν

def workerViewFields (receivedAt : Nat) (status : Status ν) (reads : Field → Option ν) :
    Field → Option (Option ν)
  | .health => some (status.field .health)
  | .host => some (status.field .host)
  | .load => (status.load receivedAt).map some
  | f =>
    if status.starting then none
    else if f ∈ [Field.installs, .lastUpdateFailure, .latestVersion, .update, .waiting] then
      some (status.field f)
    else if f ∈ [Field.devices, .catalog, .baselines, .downloads, .lease] then (reads f).map some
    else (status.field f).map some

/-- The calls of one refresh: the devices, and with the catalog its config and baselines. -/
def askedFor (includeCatalog : Bool) (answer : Field → Option ν) (f : Field) : Option ν :=
  if f = .devices ∨ includeCatalog then answer f else none

/-! ### The calls -/

inductive Outcome (α : Type) where
  | answered (a : α)
  | failed
  | timedOut
  deriving DecidableEq, Repr

/-- A call bounded by a timer: it waits, or it is settled and its continuation has not run. -/
inductive Call (α : Type) where
  | waiting
  | settled (o : Outcome α)
  deriving DecidableEq, Repr

def Call.settle {α : Type} (c : Call α) (o : Outcome α) : Call α :=
  match c with
  | .waiting => .settled o
  | .settled _ => c

/-- The session `hello` gives; a degraded one is told by its first call. -/
structure Client where
  version : Option String
  admin : Bool
  deriving DecidableEq, Repr

/-- The answer of the first `status.get`: its snapshot is not used. -/
inductive Probe where
  | compatible
  | unsupported (protocol : Protocol) (version : Option String)
  deriving DecidableEq, Repr

/-- Where `start` stands. -/
inductive Start where
  | hello (c : Call Client)
  | status (c : Call Probe)
  | subscribe (c : Call Unit)
  | done
  deriving DecidableEq, Repr

/-- Where the one refresh in flight stands. -/
inductive Refreshing (ν : Type) where
  | idle
  | status (includeCatalog : Bool) (c : Call (Status ν))
  | reads (includeCatalog : Bool) (status : Status ν) (receivedAt : Nat)
      (c : Call (Field → Option ν))

/-- `dead` once nothing more can arrive on the wire, `gone` once its close was reported; `queries`
    are the update queries of an incompatible worker. -/
structure WorkerLink (ν : Type) where
  label : Option String
  start : Start
  client : Option Client
  closed : Bool
  incompatible : Bool
  consecutiveRefreshTimeouts : Nat
  refreshing : Refreshing ν
  queuedRefresh : Option Bool
  queries : List (Call (Field → Option ν))
  subscribed : Bool
  lateSubscription : Bool
  unsubscribing : Bool
  dead : Bool
  gone : Bool

def maxConsecutiveRefreshTimeouts : Nat := 2

def WorkerLink.ofUplink (label : Option String) : WorkerLink ν :=
  { label, start := .hello .waiting, client := none, closed := false, incompatible := false
    consecutiveRefreshTimeouts := 0, refreshing := .idle, queuedRefresh := none, queries := []
    subscribed := false, lateSubscription := false, unsubscribing := false, dead := false
    gone := false }

/-- What a continuation writes to the registry. -/
inductive Write (ν : Type) where
  | connected (label version : Option String)
  | incompatible (label : Option String) (protocol : Protocol) (version : Option String)
  | refresh (r : WorkerRefresh ν)
  | disconnected

/-- `refreshUpdate`: the three fields of a `daemon.update` answer. -/
def updateRefresh (answer : Field → Option ν) : WorkerRefresh ν :=
  { starting := false, version := none
    field := fun f =>
      if f ∈ [Field.lastUpdateFailure, .latestVersion, .update] then some (answer f) else none }

/-! ### A link's own steps

`current` is whether the service still holds this link for its worker, read when it is asked. -/

def WorkerLink.close (x : WorkerLink ν) : WorkerLink ν :=
  if x.closed then x else { x with closed := true, subscribed := false, unsubscribing := true }

def WorkerLink.refresh (x : WorkerLink ν) (includeCatalog : Bool) : WorkerLink ν :=
  if x.client = none ∨ x.closed then x
  else if x.incompatible then { x with queries := x.queries ++ [.waiting] }
  else
    match x.refreshing with
    | .idle => { x with refreshing := .status includeCatalog .waiting }
    | .status .. | .reads .. =>
      { x with queuedRefresh := some (x.queuedRefresh.getD false || includeCatalog) }

def WorkerLink.superseded (x : WorkerLink ν) (current : Bool) : Bool := x.closed || !current

/-- The `finally` of a refresh: the queued one starts, unless the link is on its way out. -/
def WorkerLink.finishRefresh (x : WorkerLink ν) : WorkerLink ν :=
  let y := { x with refreshing := .idle, queuedRefresh := none }
  match x.queuedRefresh with
  | some includeCatalog => if x.closed then y else y.refresh includeCatalog
  | none => y

def WorkerLink.countTimeout (x : WorkerLink ν) : WorkerLink ν :=
  let y := { x with consecutiveRefreshTimeouts := x.consecutiveRefreshTimeouts + 1 }
  if y.consecutiveRefreshTimeouts ≥ maxConsecutiveRefreshTimeouts then y.close else y

/-- `start` goes on after the call it awaited. -/
def WorkerLink.continueStart (x : WorkerLink ν) : WorkerLink ν × Option (Write ν) :=
  match x.start with
  | .hello (.settled (.answered client)) =>
    ({ x with client := some client, start := .status .waiting }, none)
  | .hello (.settled _) => ({ x with start := .done }.close, none)
  | .status (.settled (.answered (.unsupported protocol version))) =>
    ({ x with start := .done, incompatible := true },
      some (.incompatible x.label protocol version))
  | .status (.settled (.answered .compatible)) =>
    match x.client with
    | some client =>
      if client.admin then
        ({ x with start := .subscribe .waiting }, some (.connected x.label client.version))
      else ({ x with start := .done }.close, none)
    | none => (x, none)
  | .status (.settled _) => ({ x with start := .done }.close, none)
  | .subscribe (.settled o) =>
    match o with
    | .answered () => ({ x with start := .done, subscribed := true }.refresh true, none)
    | .failed => ({ x with start := .done }.refresh true, none)
    | .timedOut => ({ x with start := .done, lateSubscription := true }.refresh true, none)
  | .hello .waiting | .status .waiting | .subscribe .waiting | .done => (x, none)

/-- The refresh in flight goes on. -/
def WorkerLink.continueRefresh (x : WorkerLink ν) (current : Bool) (now : Nat)
    (catalogKnown : Bool) : WorkerLink ν × Option (Write ν) :=
  match x.refreshing with
  | .status includeCatalog (.settled (.answered status)) =>
    let y := { x with consecutiveRefreshTimeouts := 0 }
    if status.starting then
      (y.finishRefresh,
        if x.superseded current then none
        else some (.refresh
          { starting := true, version := x.client.map (·.version)
            field := workerViewFields now status fun _ => none }))
    else ({ y with refreshing := .reads (includeCatalog || !catalogKnown) status now .waiting }, none)
  | .reads includeCatalog status receivedAt (.settled (.answered answer)) =>
    (x.finishRefresh,
      if x.superseded current then none
      else some (.refresh
        { starting := false, version := x.client.map (·.version)
          field := workerViewFields receivedAt status (askedFor includeCatalog answer) }))
  | .status _ (.settled .failed) | .reads _ _ _ (.settled .failed) => (x.finishRefresh, none)
  | .status _ (.settled .timedOut) | .reads _ _ _ (.settled .timedOut) =>
    (x.countTimeout.finishRefresh, none)
  | .status _ .waiting | .reads _ _ _ .waiting | .idle => (x, none)

/-- An incompatible worker's update query goes on. -/
def WorkerLink.continueQuery (x : WorkerLink ν) (current : Bool) (n : Nat) :
    WorkerLink ν × Option (Write ν) :=
  match x.queries[n]? with
  | some (.settled o) =>
    let y := { x with queries := x.queries.eraseIdx n }
    match o with
    | .answered answer =>
      (y, if x.superseded current then none else some (.refresh (updateRefresh answer)))
    | .failed | .timedOut => (y, none)
  | some .waiting | none => (x, none)

/-- The subscription that had timed out is answered after all. -/
def WorkerLink.subscribedLate (x : WorkerLink ν) : WorkerLink ν :=
  if x.lateSubscription ∧ ¬ x.dead then
    { x with lateSubscription := false, subscribed := true }.refresh false
  else x

/-- `close` goes on after its unsubscribe, however that ended. -/
def WorkerLink.continueClose (x : WorkerLink ν) : WorkerLink ν :=
  if x.unsubscribing then { x with unsubscribing := false, dead := true } else x

/-- The connection's close is reported once. -/
def WorkerLink.handleClosed (x : WorkerLink ν) (current : Bool) :
    WorkerLink ν × Option (Write ν) :=
  if x.gone then (x, none)
  else
    ({ x with closed := true, dead := true, gone := true },
      if current then some .disconnected else none)

/-! ### The answers of the wire -/

/-- A dead wire answers nothing; a degraded client's refusal needs no wire. -/
def WorkerLink.canAnswer {α : Type} (x : WorkerLink ν) : Outcome α → Bool
  | .answered _ => !x.dead
  | .failed | .timedOut => true

def WorkerLink.settleHello (x : WorkerLink ν) (o : Outcome Client) : WorkerLink ν :=
  match x.start with
  | .hello c => if x.canAnswer o then { x with start := .hello (c.settle o) } else x
  | .status _ | .subscribe _ | .done => x

def WorkerLink.settleStatus (x : WorkerLink ν) (o : Outcome Probe) : WorkerLink ν :=
  match x.start, o with
  | .status c, .answered (.unsupported ..) => { x with start := .status (c.settle o) }
  | .status c, _ => if x.canAnswer o then { x with start := .status (c.settle o) } else x
  | .hello _, _ | .subscribe _, _ | .done, _ => x

def WorkerLink.settleSubscribe (x : WorkerLink ν) (o : Outcome Unit) : WorkerLink ν :=
  match x.start with
  | .subscribe c => if x.canAnswer o then { x with start := .subscribe (c.settle o) } else x
  | .hello _ | .status _ | .done => x

def WorkerLink.settleRefreshStatus (x : WorkerLink ν) (o : Outcome (Status ν)) : WorkerLink ν :=
  match x.refreshing with
  | .status includeCatalog c =>
    if x.canAnswer o then { x with refreshing := .status includeCatalog (c.settle o) } else x
  | .reads .. | .idle => x

def WorkerLink.settleReads (x : WorkerLink ν) (o : Outcome (Field → Option ν)) : WorkerLink ν :=
  match x.refreshing with
  | .reads includeCatalog status receivedAt c =>
    if x.canAnswer o then
      { x with refreshing := .reads includeCatalog status receivedAt (c.settle o) }
    else x
  | .status .. | .idle => x

def WorkerLink.settleQuery (x : WorkerLink ν) (n : Nat) (o : Outcome (Field → Option ν)) :
    WorkerLink ν :=
  match x.queries[n]? with
  | some c => if x.canAnswer o then { x with queries := x.queries.set n (c.settle o) } else x
  | none => x

end Simlock.Uplink
