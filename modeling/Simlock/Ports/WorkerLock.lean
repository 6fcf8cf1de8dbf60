import Simlock.Lib.Indexed
import Simlock.Lib.Run

/-! The per-user worker lock.

    The lock is a directory that holds an owner file. A start takes it (`take`), the winner of the
    socket claim makes sure of it (`claimed`), and a stop gives it up (`release`):

        take      sweep asides . mkdir --made----------------------> write
                                   \--exists--> read --> stale? --> write
        claimed   read --> free or own? --> ( mkdirp . write . read back )  up to 5 times
        release   rename away . read --> own: remove
                                   \--> another's: rename back . remove

    A step is one filesystem call of one daemon, or its judgement of the owner it read; any other
    daemon may act in between. `claimed` and `release` of one handle may overlap too. -/

namespace Simlock.Ports

open Lib

structure WorkerLockOwner where
  pid : Nat
  folder : String
  startedAt : String
  deriving DecidableEq, Repr

/-- The directory: without an owner file, with one that is not an owner, or with one. -/
inductive Lock where
  | bare
  | unreadable
  | of (owner : WorkerLockOwner)
  deriving DecidableEq, Repr

/-- Where a `take` stands; `taken` once it returned its handle. -/
inductive Take where
  | sweep
  | mkdir
  | read
  | judge (holder : Option WorkerLockOwner)
  | write
  | taken
  | failed
  deriving DecidableEq, Repr

inductive Claim where
  | idle
  | read
  | judge (holder : Option WorkerLockOwner)
  | mkdirp (attempt : Nat)
  | write (attempt : Nat)
  | readBack (attempt : Nat)
  deriving DecidableEq, Repr

inductive Release where
  | idle
  | rename
  | read
  | putBack
  | remove
  deriving DecidableEq, Repr

/-- One process and its handle. `overtaken` and `holding` are recorded for the statements: another
    daemon completed `claimed` since this one last looked at the lock; this one completed it and has
    not released. -/
structure Daemon where
  owner : WorkerLockOwner
  live : Bool
  take : Take
  owns : Bool
  claim : Claim
  release : Release
  /-- The lock this daemon's release has renamed away. -/
  aside : Option Lock
  overtaken : Bool
  holding : Bool
  deriving DecidableEq, Repr

structure World where
  path : Option Lock
  daemons : List Daemon

def claimAttempts : Nat := 5

/-- The owner file's three fields, when they are there and the pid is one. -/
def readOwner : Option Lock → Option WorkerLockOwner
  | some (.of owner) => if owner.pid < 1 then none else some owner
  | _ => none

def Daemon.ofStart (owner : WorkerLockOwner) : Daemon :=
  { owner, live := true, take := .sweep, owns := false, claim := .idle, release := .idle,
    aside := none, overtaken := false, holding := false }

def World.isAlive (w : World) (pid : Nat) : Bool :=
  w.daemons.any fun x => x.live && x.owner.pid == pid

/-- The next call of `take`. A live holder in the same folder leaves the handle without the lock. -/
def Daemon.takes (path : Option Lock) (isAlive : Nat → Bool) (x : Daemon) : Option Lock × Daemon :=
  match x.take with
  | .sweep => (path, { x with take := .mkdir })
  | .mkdir =>
    match path with
    | none => (some .bare, { x with take := .write, overtaken := false })
    | some _ => (path, { x with take := .read })
  | .read => (path, { x with take := .judge (readOwner path), overtaken := false })
  | .judge holder =>
    match holder with
    | some owner =>
      if isAlive owner.pid then
        if owner.folder = x.owner.folder then (path, { x with take := .taken, owns := false })
        else (path, { x with take := .failed })
      else (path, { x with take := .write })
    | none => (path, { x with take := .write })
  | .write =>
    match path with
    | none => (path, { x with take := .failed })
    | some _ => (some (.of x.owner), { x with take := .taken, owns := true })
  | .taken | .failed => (path, x)

/-- A failed attempt is made again, until the last one throws. -/
def retry (attempt : Nat) : Claim := if attempt = claimAttempts then .idle else .mkdirp (attempt + 1)

/-- The read-back shows this daemon's own content. -/
def Daemon.completes (path : Option Lock) (x : Daemon) : Bool :=
  match x.claim with
  | .readBack _ => path == some (.of x.owner)
  | _ => false

/-- The next call of `claimed`. -/
def Daemon.claims (path : Option Lock) (isAlive : Nat → Bool) (x : Daemon) :
    Option Lock × Daemon :=
  match x.claim with
  | .idle => (path, x)
  | .read => (path, { x with claim := .judge (readOwner path), overtaken := false })
  | .judge holder =>
    match holder with
    | some owner =>
      if owner.folder ≠ x.owner.folder ∧ isAlive owner.pid then (path, { x with claim := .idle })
      else (path, { x with claim := .mkdirp 1 })
    | none => (path, { x with claim := .mkdirp 1 })
  | .mkdirp attempt => (some (path.getD .bare), { x with claim := .write attempt })
  | .write attempt =>
    match path with
    | none => (path, { x with claim := retry attempt })
    | some _ => (some (.of x.owner), { x with claim := .readBack attempt })
  | .readBack attempt =>
    if path = some (.of x.owner) then (path, { x with claim := .idle, owns := true, holding := true })
    else (path, { x with claim := retry attempt })

/-- The next call of `release`; a directory is renamed onto a path that is free or an empty one. -/
def Daemon.releases (path : Option Lock) (_ : Nat → Bool) (x : Daemon) : Option Lock × Daemon :=
  match x.release with
  | .idle => (path, x)
  | .rename =>
    match path with
    | none => (path, { x with release := .idle, holding := false })
    | some lock => (none, { x with release := .read, aside := some lock, holding := false })
  | .read =>
    if x.aside = some (.of x.owner) then (path, { x with release := .remove })
    else (path, { x with release := .putBack })
  | .putBack =>
    match x.aside, path with
    | some lock, none | some lock, some .bare =>
      (some lock, { x with release := .remove, aside := none })
    | _, _ => (path, { x with release := .remove })
  | .remove => (path, { x with release := .idle, aside := none })

def World.put (w : World) (path : Option Lock) (i : Nat) (x : Daemon) : World :=
  { path, daemons := w.daemons.set i x }

/-- A live daemon's next call. -/
def World.turn (w : World) (i : Nat)
    (call : Option Lock → (Nat → Bool) → Daemon → Option Lock × Daemon) : World :=
  match w.daemons[i]? with
  | none => w
  | some x =>
    if x.live then w.put (call w.path w.isAlive x).1 i (call w.path w.isAlive x).2 else w

/-- Every other daemon has been overtaken. -/
def World.overtake (w : World) (i : Nat) : World :=
  { w with daemons := w.daemons.mapIdx fun j y => if j = i then y else { y with overtaken := true } }

def World.claims (w : World) (i : Nat) : World :=
  match w.daemons[i]? with
  | none => w
  | some x =>
    if x.live && x.completes w.path then (w.turn i Daemon.claims).overtake i
    else w.turn i Daemon.claims

/-- `claimed()` is called on the handle. -/
def Daemon.callClaimed (path : Option Lock) (_ : Nat → Bool) (x : Daemon) : Option Lock × Daemon :=
  if x.take = .taken ∧ x.claim = .idle then (path, { x with claim := .read }) else (path, x)

/-- `release()` is called on the handle; one that does not own the lock returns at once. -/
def Daemon.callRelease (path : Option Lock) (_ : Nat → Bool) (x : Daemon) : Option Lock × Daemon :=
  if x.take = .taken ∧ x.release = .idle ∧ x.owns then
    (path, { x with owns := false, release := .rename })
  else (path, x)

inductive Action where
  /-- A process starts: its pid is its own, and no live daemon has its folder. -/
  | start (owner : WorkerLockOwner)
  | crash (i : Nat)
  /-- A `take` of daemon `i` finds what daemon `j` has renamed away, and removes it when `j`'s
      process is gone. -/
  | sweep (i j : Nat)
  | take (i : Nat)
  | callClaimed (i : Nat)
  | claim (i : Nat)
  | callRelease (i : Nat)
  | release (i : Nat)
  deriving DecidableEq, Repr

def World.start (w : World) (owner : WorkerLockOwner) : World :=
  if 1 ≤ owner.pid ∧ ∀ y ∈ w.daemons, y.live → y.owner.pid ≠ owner.pid ∧
      y.owner.folder ≠ owner.folder then
    { w with daemons := w.daemons ++ [Daemon.ofStart owner] }
  else w

def World.crash (w : World) (i : Nat) : World :=
  match w.daemons[i]? with
  | none => w
  | some x => w.put w.path i { x with live := false }

def World.sweep (w : World) (i j : Nat) : World :=
  match w.daemons[i]?, w.daemons[j]? with
  | some x, some y =>
    if x.live ∧ x.take = .sweep ∧ w.isAlive y.owner.pid = false then
      w.put w.path j { y with aside := none }
    else w
  | _, _ => w

def step (w : World) : Action → World
  | .start owner => w.start owner
  | .crash i => w.crash i
  | .sweep i j => w.sweep i j
  | .take i => w.turn i Daemon.takes
  | .callClaimed i => w.turn i Daemon.callClaimed
  | .claim i => w.claims i
  | .callRelease i => w.turn i Daemon.callRelease
  | .release i => w.turn i Daemon.releases

/-- No daemon yet, and whatever lock an earlier one left at the path. -/
def World.init (path : Option Lock) : World := { path, daemons := [] }

end Simlock.Ports
