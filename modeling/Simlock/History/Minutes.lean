import Mathlib.Data.Rat.Floor
import Simlock.Core.Domain
import Simlock.Lib.Keyed

/-! The minute rows of one key, a worker and a platform.

    A row holds, for each value, its peak and its last level in the minute and the integral of the
    level over it, taken through the minute's end as if the last level held. A level carries over
    minutes without a row until the row's `carryUntil`, or on while that is open. What the recorder
    remembers of a key in this run is `KeyState`; the rows outlive the run. -/

namespace Simlock.History

open Core (Platform)

inductive UsageValue where
  | leasesHeld | slotsUsed | slotsMax | ramUsedBytes | ramLimitBytes | queueDepth | waiting
  deriving DecidableEq, Repr

/-- The platform of a key: one of the two, or all together. -/
inductive RowPlatform where
  | all
  | on (platform : Platform)
  deriving DecidableEq, Repr

def minuteMs : ℚ := 60000

def minuteOf (timestamp : ℚ) : ℚ := ⌊timestamp / minuteMs⌋ * minuteMs

structure Figure where
  peak : ℚ
  last : Option ℚ
  integral : ℚ
  deriving DecidableEq

structure MinuteRow where
  minute : ℚ
  knownMs : ℚ
  carryUntil : Option ℚ
  figures : UsageValue → Option Figure

/-- `settled` is `none` for negative infinity. -/
structure Held where
  level : ℚ
  since : ℚ
  settled : Option ℚ
  settledMinute : ℚ
  deriving DecidableEq

structure KeyState where
  known : Bool
  lastAt : ℚ
  lastRowMinute : ℚ
  values : UsageValue → Option Held

def KeyState.new : KeyState where
  known := false
  lastAt := 0
  lastRowMinute := 0
  values := fun _ => none

structure KeyMinutes where
  rows : List MinuteRow
  state : Option KeyState

/-- `Math.max(peak, level)`, with `none` for negative infinity. -/
def maxPeak (peak : Option ℚ) (level : ℚ) : ℚ := peak.elim level (fun p => max p level)

def foldFigure (row : MinuteRow) (value : UsageValue) (level : ℚ) (previous : Option ℚ) (rest : ℚ)
    (settled : Option ℚ) : MinuteRow :=
  let folded : Figure :=
    match row.figures value with
    | none => { integral := level * rest, last := some level, peak := level }
    | some figure =>
      { integral := figure.integral + (level - previous.getD 0) * rest
        peak := maxPeak settled level
        last := some level }
  { row with figures := Function.update row.figures value (some folded) }

def heldLevel (state : KeyState) (held : Option Held) (figure : Option Figure) : Option ℚ :=
  if state.known then held.map Held.level else figure.bind Figure.last

/-- A level replaced in the same millisecond it began held for no time, so it is no peak. -/
def settledPeak (figure : Option Figure) (held : Option Held) (minute : ℚ) (atMs : ℚ) : Option ℚ :=
  match held with
  | none => figure.map Figure.peak
  | some held =>
    let settled := if held.settledMinute = minute then held.settled else none
    if 0 < atMs - max held.since minute then some (maxPeak settled held.level) else settled

def carryInto (row : MinuteRow) (state : KeyState) : MinuteRow :=
  { row with
    figures := fun value =>
      match state.values value with
      | some held =>
        some { integral := held.level * minuteMs, last := some held.level, peak := held.level }
      | none => row.figures value }

namespace KeyMinutes

def load (rows : List MinuteRow) (minute : ℚ) : Option MinuteRow :=
  rows.find? (fun r => r.minute = minute)

/-- `INSERT OR REPLACE`. -/
def save (rows : List MinuteRow) (row : MinuteRow) : List MinuteRow :=
  Lib.upsert MinuteRow.minute row rows

/-- The last row of the key, if it is still open, ends with its minute. -/
def closeKey (rows : List MinuteRow) : List MinuteRow :=
  rows.map (fun r =>
    if r.carryUntil = none ∧ ∀ later ∈ rows, later.minute ≤ r.minute then
      { r with carryUntil := some (r.minute + minuteMs) }
    else r)

def rowFor (rows : List MinuteRow) (state : KeyState) (minute : ℚ) (atMs : ℚ) : MinuteRow :=
  let rest := minute + minuteMs - atMs
  match load rows minute with
  | none =>
    let row : MinuteRow :=
      { minute := minute
        carryUntil := none
        figures := fun _ => none
        knownMs := if state.known then minuteMs else rest }
    if state.known then carryInto row state else row
  | some stored =>
    if !state.known && stored.carryUntil.isSome then
      { stored with knownMs := min minuteMs (stored.knownMs + rest) }
    else stored

variable (m : KeyMinutes)

/-- `#state`: a key's first step in a run closes the row an earlier run left open. -/
def opened : List MinuteRow × KeyState :=
  match m.state with
  | some state => (m.rows, state)
  | none => (closeKey m.rows, .new)

def step (value : UsageValue) (level : ℚ) (timestamp : ℚ) : KeyMinutes :=
  let rows := m.opened.1
  let state := m.opened.2
  if state.known && decide ((state.values value).map Held.level = some level) then
    { rows := rows, state := some state }
  else
    let atMs := max timestamp state.lastAt
    let minute := minuteOf atMs
    let row := rowFor rows state minute atMs
    let held := if state.known then state.values value else none
    let figure := row.figures value
    let settled := settledPeak figure held minute atMs
    let folded := foldFigure row value level (heldLevel state held figure) (minute + minuteMs - atMs)
      settled
    { rows := save rows { folded with carryUntil := none }
      state := some
        { known := true
          values := Function.update state.values value
            (some { level := level, settled := settled, settledMinute := minute, since := atMs })
          lastAt := atMs
          lastRowMinute := minute } }

/-- The row `#end` saves: the rest of the minute is taken back off. -/
def cutRow (row : MinuteRow) (minute : ℚ) (atMs : ℚ) : MinuteRow :=
  let tail := minute + minuteMs - atMs
  { row with
    knownMs := max 0 (row.knownMs - tail)
    figures := fun value => (row.figures value).map (fun figure =>
      { figure with
        integral := figure.integral - figure.last.getD 0 * tail
        last := none })
    carryUntil := some atMs }

/-- `#end`. -/
def ended (state : KeyState) (timestamp : ℚ) : KeyMinutes :=
  let atMs := max timestamp state.lastAt
  let minute := minuteOf atMs
  let row :=
    match load m.rows minute with
    | some row => some row
    | none =>
      if minute < atMs then
        some (carryInto ⟨minute, minuteMs, none, fun _ => none⟩ state)
      else none
  let rows :=
    match row with
    | some row => save m.rows (cutRow row minute atMs)
    | none =>
      match load m.rows state.lastRowMinute with
      | some lastRow => save m.rows { lastRow with carryUntil := some atMs }
      | none => m.rows
  { rows := rows
    state := some { state with known := false, values := fun _ => none, lastAt := atMs } }

/-- `cut`, at this key. -/
def cut (timestamp : ℚ) : KeyMinutes :=
  match m.state with
  | some state => if state.known then m.ended state timestamp else m
  | none => m

/-- `closeOpenRows`, at this key. -/
def closeOpenRows : KeyMinutes := if m.state.isNone then { m with rows := closeKey m.rows } else m

def forget : KeyMinutes := { m with state := none }

/-- The rows of the minutes from `minute` on are deleted. -/
def deleteFrom (minute : ℚ) : KeyMinutes := { m with rows := m.rows.filter (fun r => r.minute < minute) }

/-- The rows of the minutes before `cutoff` are deleted. -/
def deleteBefore (cutoff : ℚ) : KeyMinutes :=
  { m with rows := m.rows.filter (fun r => cutoff ≤ r.minute) }

end KeyMinutes

end Simlock.History
