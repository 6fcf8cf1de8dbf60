import Mathlib.Data.Rat.Floor
import Mathlib.Algebra.Order.Ring.Unbundled.Rat
import Mathlib.Logic.Function.Basic
import Simlock.Lib.Run

/-! The renewal loop of a lease holder.

    One shared timer variable serves two roles in turn:

        wait ──(fires)──▶ attempt, bound by a timer ──(answered or timed out)──▶ resume ──▶ wait
                                                                                   │
                                                                                   └──▶ lease gone

    An attempt whose bound fired is abandoned, but its request is not: the answer may still come, and
    the answer of the highest number wins. Callbacks may call `stop`; what they throw is caught. The
    request goes out in a later turn than the attempt starts in, and the loop resumes in a later turn
    than the race is decided in, so each is a step of its own here. -/

namespace Simlock.LeasePolicy

open Simlock.Lib

def renewDivisor : ℚ := 3

def minimumRenewDelayMs : ℚ := 250

def maximumRenewDelayMs : ℚ := 2147483647

/-- A third of the lease's width, or of what is left of it, within the bounds of a delay. -/
def renewDelayMs (remainingMs : ℚ) (ttlMs : Option ℚ) : ℚ :=
  let fromWidth := match ttlMs with
    | none => remainingMs
    | some ttlMs => min ttlMs remainingMs
  let delay := max minimumRenewDelayMs ⌊fromWidth / renewDivisor⌋
  min maximumRenewDelayMs delay

structure RenewedLease where
  ttlMs : Option ℚ
  ttlDeadline : ℚ
  deriving DecidableEq

inductive LeaseGoneReason
  | renewRejected
  | renewFailed
  deriving DecidableEq, Repr

/-- The codes a renewal is rejected with. -/
inductive RenewError
  | unknownLease
  | forbidden
  | other
  deriving DecidableEq, Repr

def isLeaseGone : RenewError → Bool
  | .unknownLease => true
  | .forbidden => true
  | .other => false

inductive Answer
  | renewed (lease : RenewedLease)
  | rejected (error : RenewError)
  deriving DecidableEq

/-- How the race of an attempt against its bound ended. -/
inductive Outcome
  | answered (answer : Answer)
  | timedOut
  deriving DecidableEq

/-- The attempt in progress; its outcome is there once the race is decided. -/
structure Race where
  attemptId : Nat
  outcome : Option Outcome
  deriving DecidableEq

inductive Stage
  | unsent
  | sent
  | settled
  deriving DecidableEq, Repr

inductive Role
  | wait
  | bound (attemptId : Nat)
  deriving DecidableEq, Repr

/-- A timer armed on the clock. -/
structure Timer where
  handle : Nat
  armedAt : ℚ
  due : ℚ
  role : Role
  deriving DecidableEq

/-- What the holder and the daemon see. -/
inductive Event
  | renew (attemptId : Nat)
  | answer (attemptId : Nat) (lease : RenewedLease)
  | onRenewed (attemptId : Nat) (lease : RenewedLease)
  | onError
  | onLeaseGone (reason : LeaseGoneReason)
  | stop
  deriving DecidableEq

/-- The loop, the clock with its armed timers, the requests, and what was seen, the last first. -/
structure Renewal where
  now : ℚ
  timers : List Timer
  handles : Nat
  deadline : ℚ
  ttlMs : Option ℚ
  timer : Option Nat
  stopped : Bool
  attempts : Nat
  newestAnswered : Nat
  race : Option Race
  stage : Nat → Stage
  seen : List Event

namespace Renewal

/-- `clock.setTimer`, its handle kept in the loop's variable. -/
def arm (role : Role) (s : Renewal) : Renewal :=
  let delay := renewDelayMs (s.deadline - s.now) s.ttlMs
  { s with
    timers := s.timers ++ [⟨s.handles, s.now, s.now + delay, role⟩]
    timer := some s.handles
    handles := s.handles + 1 }

def cancelTimer (s : Renewal) : Renewal :=
  match s.timer with
  | none => s
  | some handle =>
    { s with timers := s.timers.filter (·.handle ≠ handle), timer := none }

def log (event : Event) (s : Renewal) : Renewal := { s with seen := event :: s.seen }

def stop (s : Renewal) : Renewal := ({ s with stopped := true }.cancelTimer).log .stop

/-- A callback that may call `stop`. -/
def callback (event : Event) (stops : Bool) (s : Renewal) : Renewal :=
  if stops then (s.log event).stop else s.log event

def giveUp (reason : LeaseGoneReason) (stops : Bool) (s : Renewal) : Renewal :=
  if s.stopped then s
  else ({ s with stopped := true }.cancelTimer).callback (.onLeaseGone reason) stops

def adoptDeadline (attemptId : Nat) (lease : RenewedLease) (stops : Bool) (s : Renewal) :
    Renewal :=
  { s with deadline := lease.ttlDeadline, ttlMs := lease.ttlMs }.callback
    (.onRenewed attemptId lease) stops

/-- Newest answer wins, by attempt number. -/
def adoptNewest (attemptId : Nat) (lease : RenewedLease) (stops : Bool) (s : Renewal) : Renewal :=
  if s.newestAnswered < attemptId then
    { s with newestAnswered := attemptId }.adoptDeadline attemptId lease stops
  else s

def schedule (s : Renewal) : Renewal := if s.stopped then s else s.arm .wait

/-- The synchronous part of a tick: an attempt is numbered, and its bound armed. -/
def tick (s : Renewal) : Renewal :=
  if s.stopped then s
  else
    { s with attempts := s.attempts + 1, race := some ⟨s.attempts + 1, none⟩ }.arm
      (.bound (s.attempts + 1))

/-- The first outcome of the attempt in progress decides its race. -/
def decideRace (attemptId : Nat) (outcome : Outcome) (s : Renewal) : Renewal :=
  match s.race with
  | some ⟨current, none⟩ =>
    if current = attemptId then { s with race := some ⟨current, some outcome⟩ } else s
  | _ => s

/-- A timer's callback. -/
def fired (timer : Timer) (s : Renewal) : Renewal :=
  let s := { s with timers := s.timers.filter (·.handle ≠ timer.handle), timer := none }
  match timer.role with
  | .wait => s.tick
  | .bound attemptId => s.decideRace attemptId .timedOut

/-- The request goes out, unless `stop` came first. -/
def send (attemptId : Nat) (stops : Bool) (s : Renewal) : Renewal :=
  if s.stopped then
    { s with stage := Function.update s.stage attemptId .settled }.decideRace attemptId
      (.answered (.rejected .other))
  else
    { s with stage := Function.update s.stage attemptId .sent }.callback (.renew attemptId) stops

/-- The answer of a request: it is adopted first, then it decides the race it is still in. -/
def settle (attemptId : Nat) (answer : Answer) (stops : Bool) (s : Renewal) : Renewal :=
  let s := { s with stage := Function.update s.stage attemptId .settled }
  match answer with
  | .renewed lease =>
    let s := s.log (.answer attemptId lease)
    let s := if s.stopped then s else s.adoptNewest attemptId lease stops
    s.decideRace attemptId (.answered (.renewed lease))
  | .rejected error => s.decideRace attemptId (.answered (.rejected error))

/-- After a failed attempt: it is reported, and tried again while the lease can be saved. -/
def failed (errorStops goneStops : Bool) (s : Renewal) : Renewal :=
  let s := s.callback .onError errorStops
  if s.deadline ≤ s.now then s.giveUp .renewFailed goneStops else s.schedule

/-- The rest of a tick, once its race is decided. -/
def resume (errorStops goneStops renewedStops : Bool) (s : Renewal) : Renewal :=
  match s.race with
  | some ⟨attemptId, some outcome⟩ =>
    let s := { s with race := none }.cancelTimer
    if s.stopped then s
    else
      match outcome with
      | .answered (.rejected error) =>
        if isLeaseGone error then s.giveUp .renewRejected goneStops
        else s.failed errorStops goneStops
      | .timedOut => s.failed errorStops goneStops
      | .answered (.renewed lease) =>
        let s := s.adoptNewest attemptId lease renewedStops
        if lease.ttlDeadline ≤ s.now then s.giveUp .renewFailed goneStops else s.schedule
  | _ => s

end Renewal

/-- `startLeaseRenewal` with the grant's deadline and width. -/
def start (now : ℚ) (grant : RenewedLease) : Renewal :=
  Renewal.schedule
    { now, timers := [], handles := 0, deadline := grant.ttlDeadline, ttlMs := grant.ttlMs,
      timer := none, stopped := false, attempts := 0, newestAnswered := 0, race := none,
      stage := fun _ => .unsent, seen := [] }

inductive Action
  | wait (time : ℚ)
  | fire (handle : Nat)
  | send (attemptId : Nat) (stops : Bool)
  | settle (attemptId : Nat) (answer : Answer) (stops : Bool)
  | resume (errorStops goneStops renewedStops : Bool)
  | stop
  deriving DecidableEq

def step (s : Renewal) : Action → Renewal
  | .wait time => if s.now ≤ time then { s with now := time } else s
  | .fire handle =>
    match s.timers.find? (·.handle = handle) with
    | some timer => if timer.due ≤ s.now then s.fired timer else s
    | none => s
  | .send attemptId stops =>
    if 0 < attemptId ∧ attemptId ≤ s.attempts ∧ s.stage attemptId = .unsent then
      s.send attemptId stops
    else s
  | .settle attemptId answer stops =>
    if s.stage attemptId = .sent then s.settle attemptId answer stops else s
  | .resume errorStops goneStops renewedStops => s.resume errorStops goneStops renewedStops
  | .stop => s.stop

end Simlock.LeasePolicy
