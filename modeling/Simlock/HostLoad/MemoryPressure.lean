import Mathlib.Data.Rat.Floor
import Mathlib.Algebra.Order.Ring.Unbundled.Rat
import Simlock.Lib.Run

/-! The pressure step of a worker, worked out from its host-load readings.

    Each of two steps is held apart, with its own timer to lift it:

        not held ──(met)──▶ held ──(not met)──▶ held, clear timer ──(fires)──▶ not held
                              ▲                        │
                              └────────(met)───────────┘

    A reading without memory counters drops both, and so does the stale timer, which every reading
    arms again. The clock never passes an armed timer: what is due at a time fires before a reading
    of that time is taken. -/

namespace Simlock.HostLoad

open Simlock.Lib

/-! ### Readings and rules -/

inductive MemoryPressureLevel
  | normal
  | warn
  | critical
  deriving DecidableEq, Repr

def levelRank : MemoryPressureLevel → Nat
  | .normal => 0
  | .warn => 1
  | .critical => 2

inductive MemoryPressureStep
  | none
  | warmingPaused
  | newDevicesPaused
  deriving DecidableEq, Repr

/-- `level` is absent for `off`. -/
structure MemoryPressureRule where
  level : Option MemoryPressureLevel
  minAvailablePercent : ℚ

/-- The configuration's validator refuses a negative `clearAfterMs`. -/
structure MemoryPressureConfig where
  enabled : Bool
  pauseWarming : MemoryPressureRule
  pauseNewDevices : MemoryPressureRule
  clearAfterMs : ℚ
  clearAfter_nonneg : 0 ≤ clearAfterMs

structure MemoryCounters where
  totalBytes : ℚ
  availableBytes : ℚ
  pressure : Option MemoryPressureLevel
  deriving DecidableEq

inductive Trigger
  | level
  | floor
  deriving DecidableEq, Repr

structure MemoryPressureCause where
  trigger : Trigger
  availablePercent : Int
  level : Option MemoryPressureLevel
  floorPercent : Option ℚ
  deriving DecidableEq

inductive StepKey
  | warming
  | newDevices
  deriving DecidableEq, Repr

def MemoryPressureConfig.rule (config : MemoryPressureConfig) : StepKey → MemoryPressureRule
  | .warming => config.pauseWarming
  | .newDevices => config.pauseNewDevices

/-- The pressure the host reports is at the rule's level or above. -/
def atLevel (rule : MemoryPressureRule) (memory : MemoryCounters) : Bool :=
  match rule.level, memory.pressure with
  | some level, some pressure => decide (levelRank pressure ≥ levelRank level)
  | _, _ => false

/-- Why a reading meets a rule, if it does. -/
def meets (rule : MemoryPressureRule) (memory : MemoryCounters) : Option MemoryPressureCause :=
  let exactPercent := 100 * memory.availableBytes / memory.totalBytes
  let availablePercent := ⌊min 100 (max 0 exactPercent)⌋
  if atLevel rule memory then
    some ⟨.level, availablePercent, memory.pressure, none⟩
  -- a quotient by zero is below no bound
  else if memory.totalBytes ≠ 0 ∧ exactPercent < rule.minAvailablePercent then
    some ⟨.floor, availablePercent, memory.pressure, some rule.minAvailablePercent⟩
  else none

/-! ### The tracker -/

/-- A step that is on; `clearTimer` is the time its clear timer is armed for. -/
structure HeldStep where
  since : ℚ
  cause : MemoryPressureCause
  clearTimer : Option ℚ
  deriving DecidableEq

structure MemoryPressureState where
  step : MemoryPressureStep
  since : Option ℚ
  cause : Option MemoryPressureCause
  readingAt : ℚ

/-- A `memory.pressure-changed` event. -/
structure PressureChanged where
  source : MemoryPressureStep
  target : MemoryPressureStep
  cause : Option MemoryPressureCause

structure MemoryPressureTracker where
  held : StepKey → Option HeldStep
  readingAt : Option ℚ
  staleTimer : Option ℚ
  events : List PressureChanged

def staleAfterMs : ℚ := 60000

namespace MemoryPressureTracker

def current (tracker : MemoryPressureTracker) : Option MemoryPressureState :=
  tracker.readingAt.map fun readingAt =>
    match tracker.held .newDevices, tracker.held .warming with
    | some newDevices, _ =>
      ⟨.newDevicesPaused, some newDevices.since, some newDevices.cause, readingAt⟩
    | none, some warming => ⟨.warmingPaused, some warming.since, some warming.cause, readingAt⟩
    | none, none => ⟨.none, none, none, readingAt⟩

/-- The event follows the change it reports, and only a change of step is one. -/
def changing (mutate : (StepKey → Option HeldStep) → StepKey → Option HeldStep)
    (tracker : MemoryPressureTracker) : MemoryPressureTracker :=
  let after := { tracker with held := mutate tracker.held }
  match tracker.current, after.current with
  | some source, some target =>
    if source.step = target.step then after
    else { after with events := after.events ++ [⟨source.step, target.step, target.cause⟩] }
  | _, _ => after

def dropAll (_ : StepKey → Option HeldStep) : StepKey → Option HeldStep := fun _ => none

/-- One step at a reading with counters: it comes on, or its clear timer is cancelled or armed. -/
def hold (config : MemoryPressureConfig) (memory : MemoryCounters) (now : ℚ)
    (held : StepKey → Option HeldStep) (key : StepKey) : Option HeldStep :=
  match meets (config.rule key) memory, held key with
  | some _, some step => some { step with clearTimer := none }
  | some cause, none => some ⟨now, cause, none⟩
  | none, some step =>
    match step.clearTimer with
    | some _ => some step
    | none => some { step with clearTimer := some (now + config.clearAfterMs) }
  | none, none => none

def observe (config : MemoryPressureConfig) (memory : Option MemoryCounters) (now : ℚ)
    (tracker : MemoryPressureTracker) : MemoryPressureTracker :=
  let tracker :=
    { tracker with readingAt := some now, staleTimer := some (now + staleAfterMs) }
  match if config.enabled then memory else none with
  | none => tracker.changing dropAll
  | some memory => tracker.changing (hold config memory now)

/-- The timers the tracker may have armed. -/
inductive Timer
  | stale
  | clear (key : StepKey)
  deriving DecidableEq, Repr

def timers : List Timer := [.stale, .clear .warming, .clear .newDevices]

theorem mem_timers : ∀ timer, timer ∈ timers
  | .stale => by decide
  | .clear .warming => by decide
  | .clear .newDevices => by decide

/-- When an armed timer is due. -/
def due (tracker : MemoryPressureTracker) : Timer → Option ℚ
  | .stale => tracker.staleTimer
  | .clear key => (tracker.held key).bind (·.clearTimer)

def fired (tracker : MemoryPressureTracker) : Timer → MemoryPressureTracker
  | .stale => { tracker with staleTimer := none }.changing dropAll
  | .clear key => tracker.changing fun held => Function.update held key none

end MemoryPressureTracker

open MemoryPressureTracker (Timer timers)

/-! ### The tracker on a clock -/

/-- A reading as it was observed. -/
structure Reading where
  time : ℚ
  memory : Option MemoryCounters

/-- The tracker, the clock and the readings so far, the last one first. -/
structure World where
  now : ℚ
  tracker : MemoryPressureTracker
  readings : List Reading

def World.start (now : ℚ) : World := ⟨now, ⟨fun _ => none, none, none, []⟩, []⟩

/-- The step the tracker reports; before the first reading it reports none. -/
def World.reported (s : World) : MemoryPressureStep :=
  match s.tracker.current with
  | some state => state.step
  | none => .none

/-- Every armed timer is due no earlier than the time. -/
def World.notPast (s : World) (time : ℚ) : Bool :=
  timers.all fun timer => (s.tracker.due timer).all fun due => decide (time ≤ due)

/-- No armed timer is due. -/
def World.settled (s : World) : Bool :=
  timers.all fun timer => (s.tracker.due timer).all fun due => decide (s.now < due)

inductive Action
  | wait (time : ℚ)
  | observe (memory : Option MemoryCounters)
  | fire (timer : Timer)

def step (config : MemoryPressureConfig) (s : World) : Action → World
  | .wait time => if s.now ≤ time ∧ s.notPast time then { s with now := time } else s
  | .observe memory =>
    if s.settled then
      { s with
        tracker := s.tracker.observe config memory s.now
        readings := ⟨s.now, memory⟩ :: s.readings }
    else s
  | .fire timer =>
    match s.tracker.due timer with
    | some due => if due ≤ s.now then { s with tracker := s.tracker.fired timer } else s
    | none => s

end Simlock.HostLoad
