import Simlock.HostLoad.PressureHeld

/-! The tracker holds a step exactly when the readings do, and reports each change once.

    `Tracks` ties the tracker to the readings: the stale timer is due 60 s after the last one, a
    held step has the clear timer of its open run, and a step that is not held does not survive the
    readings. Every step of the world keeps it. Once no timer is due, what the tracker holds is what
    the readings mean, and the events of a run are the changes of the step it reports. -/

namespace Simlock.HostLoad

open Simlock.Lib
open MemoryPressureTracker (Timer timers mem_timers hold dropAll)

/-! ### What a change keeps -/

namespace MemoryPressureTracker

variable (mutate : (StepKey → Option HeldStep) → StepKey → Option HeldStep)
  (tracker : MemoryPressureTracker)

theorem changing_kept :
    (tracker.changing mutate).held = mutate tracker.held ∧
      (tracker.changing mutate).readingAt = tracker.readingAt ∧
        (tracker.changing mutate).staleTimer = tracker.staleTimer := by
  unfold changing
  dsimp only
  split
  · split <;> exact ⟨rfl, rfl, rfl⟩
  · exact ⟨rfl, rfl, rfl⟩

@[simp] theorem changing_held : (tracker.changing mutate).held = mutate tracker.held :=
  (changing_kept mutate tracker).1

@[simp] theorem changing_readingAt : (tracker.changing mutate).readingAt = tracker.readingAt :=
  (changing_kept mutate tracker).2.1

@[simp] theorem changing_staleTimer :
    (tracker.changing mutate).staleTimer = tracker.staleTimer :=
  (changing_kept mutate tracker).2.2

/-- The step that is reported of what is held. -/
def stepOf (held : StepKey → Option HeldStep) : MemoryPressureStep :=
  if (held .newDevices).isSome then .newDevicesPaused
  else if (held .warming).isSome then .warmingPaused
  else .none

theorem current_step {readingAt : ℚ} (h : tracker.readingAt = some readingAt) :
    ∃ state, tracker.current = some state ∧ state.step = stepOf tracker.held := by
  unfold current stepOf
  rw [h]
  cases tracker.held .newDevices <;> cases tracker.held .warming <;> exact ⟨_, rfl, rfl⟩

/-- A change of the step, as the event names it. -/
def PressureChanged.move (event : PressureChanged) : MemoryPressureStep × MemoryPressureStep :=
  (event.source, event.target)

/-- The one event of a change of step. -/
def moved (source target : MemoryPressureStep) : List (MemoryPressureStep × MemoryPressureStep) :=
  if source = target then [] else [(source, target)]

theorem changing_events {readingAt : ℚ} (h : tracker.readingAt = some readingAt) :
    (tracker.changing mutate).events.map PressureChanged.move =
      tracker.events.map PressureChanged.move ++
        moved (stepOf tracker.held) (stepOf (mutate tracker.held)) := by
  obtain ⟨source, hsource, hfrom⟩ := current_step tracker h
  obtain ⟨target, htarget, hto⟩ := current_step { tracker with held := mutate tracker.held } h
  unfold changing moved
  dsimp only
  rw [hsource, htarget, ← hfrom, ← hto]
  dsimp only
  split
  · simp
  · simp [PressureChanged.move]

end MemoryPressureTracker

open MemoryPressureTracker (stepOf moved PressureChanged.move)

/-! ### The tracker follows the readings -/

section Steps

variable (config : MemoryPressureConfig)

/-- What is kept of one step: its clear timer is due when its open run has lasted, or the step does
    not survive the readings. -/
def Keeps (s : World) (key : StepKey) : Prop :=
  match s.tracker.held key with
  | some held =>
    config.enabled = true ∧ s.tracker.staleTimer ≠ none ∧
      ∃ run, openRun config (config.rule key) s.readings = some run ∧
        held.clearTimer = run.map (· + config.clearAfterMs) ∧
          ∀ since ∈ run, s.now ≤ since + config.clearAfterMs
  | none =>
    config.enabled = true → ∀ run, openRun config (config.rule key) s.readings = some run →
      ¬ Survives config s.readings run s.now s.now

structure Tracks (s : World) : Prop where
  sorted : s.readings.Pairwise fun x y => y.time ≤ x.time
  past : ∀ x ∈ s.readings, x.time ≤ s.now
  readingAt : s.tracker.readingAt = s.readings.head?.map (·.time)
  stale : ∀ due, s.tracker.staleTimer = some due →
    s.now ≤ due ∧ ∃ x, s.readings.head? = some x ∧ due = x.time + staleAfterMs
  keeps : ∀ key, Keeps config s key

variable {config}

theorem Tracks.start (now : ℚ) : Tracks config (World.start now) := by
  refine ⟨List.Pairwise.nil, by simp [World.start], rfl, ?_, fun key => ?_⟩
  · intro due hdue
    cases hdue
  · intro _ run hrun
    cases hrun

theorem settled_iff (s : World) :
    s.settled = true ↔ ∀ timer due, s.tracker.due timer = some due → s.now < due := by
  unfold World.settled
  rw [List.all_eq_true]
  constructor
  · intro h timer due hdue
    have hall := h timer (mem_timers timer)
    rw [hdue] at hall
    simpa using hall
  · intro h timer _
    cases hdue : s.tracker.due timer with
    | none => rfl
    | some due => simpa using h timer due hdue

theorem notPast_iff (s : World) (time : ℚ) :
    s.notPast time = true ↔ ∀ timer due, s.tracker.due timer = some due → time ≤ due := by
  unfold World.notPast
  rw [List.all_eq_true]
  constructor
  · intro h timer due hdue
    have hall := h timer (mem_timers timer)
    rw [hdue] at hall
    simpa using hall
  · intro h timer _
    cases hdue : s.tracker.due timer with
    | none => rfl
    | some due => simpa using h timer due hdue

/-- A held step whose timers are not due survives. -/
theorem Tracks.survives {s : World} (h : Tracks config s) (hsettled : s.settled = true)
    {key : StepKey} {held : HeldStep} (hheld : s.tracker.held key = some held) :
    config.enabled = true ∧ ∃ run, openRun config (config.rule key) s.readings = some run ∧
      held.clearTimer = run.map (· + config.clearAfterMs) ∧
        Survives config s.readings run s.now s.now := by
  have hkeeps := h.keeps key
  unfold Keeps at hkeeps
  rw [hheld] at hkeeps
  obtain ⟨henabled, hstale, run, hrun, htimer, -⟩ := hkeeps
  obtain ⟨due, hdue⟩ := Option.ne_none_iff_exists'.1 hstale
  have htimers := (settled_iff s).1 hsettled
  refine ⟨henabled, run, hrun, htimer, ?_, ?_⟩
  · intro x hx
    obtain ⟨y, hy, hdueAt⟩ := (h.stale due hdue).2
    obtain rfl : y = x := by simpa [hy] using hx
    have hnow : s.now < due := htimers .stale due hdue
    rw [hdueAt] at hnow
    linarith
  · intro since hsince
    obtain rfl : run = some since := by simpa using hsince
    have hclear : s.tracker.due (.clear key) = some (since + config.clearAfterMs) := by
      simp [MemoryPressureTracker.due, hheld, htimer]
    linarith [htimers _ _ hclear]

/-- Once no timer is due, a step is held exactly when the readings hold it. -/
theorem Tracks.held_iff {s : World} (h : Tracks config s) (hsettled : s.settled = true)
    (key : StepKey) :
    (s.tracker.held key).isSome = true ↔
      HeldBy config (config.rule key) s.readings s.now := by
  have hpast : ∀ x ∈ s.readings.head?, x.time ≤ s.now :=
    fun x hx => h.past x (List.mem_of_mem_head? hx)
  unfold HeldBy
  rw [heldSince_iff h.sorted hpast]
  cases hheld : s.tracker.held key with
  | some held =>
    obtain ⟨henabled, run, hrun, -, hsurvives⟩ := h.survives hsettled hheld
    exact iff_of_true rfl ⟨henabled, run, hrun, hsurvives⟩
  | none =>
    have hkeeps := h.keeps key
    unfold Keeps at hkeeps
    rw [hheld] at hkeeps
    refine iff_of_false (by simp) ?_
    rintro ⟨henabled, run, hrun, hsurvives⟩
    exact hkeeps henabled run hrun hsurvives

/-! ### One step keeps it -/

theorem Survives.earlier {readings : List Reading} {run : Option ℚ} {time later : ℚ}
    (hle : time ≤ later) (h : Survives config readings run later later) :
    Survives config readings run time time :=
  ⟨fun x hx => by linarith [h.1 x hx], fun since hsince => by linarith [h.2 since hsince]⟩

theorem Tracks.wait {s : World} (h : Tracks config s) {time : ℚ} (hle : s.now ≤ time)
    (hpast : s.notPast time = true) : Tracks config { s with now := time } := by
  have htimers := (notPast_iff s time).1 hpast
  refine ⟨h.sorted, fun x hx => (h.past x hx).trans hle, h.readingAt, ?_, fun key => ?_⟩
  · intro due hdue
    exact ⟨htimers .stale due hdue, (h.stale due hdue).2⟩
  · have hkeeps := h.keeps key
    unfold Keeps at hkeeps ⊢
    dsimp only
    cases hheld : s.tracker.held key with
    | some held =>
      rw [hheld] at hkeeps
      obtain ⟨henabled, hstale, run, hrun, htimer, -⟩ := hkeeps
      refine ⟨henabled, hstale, run, hrun, htimer, fun since hsince => ?_⟩
      obtain rfl : run = some since := by simpa using hsince
      refine htimers (.clear key) _ ?_
      simp [MemoryPressureTracker.due, hheld, htimer]
    | none =>
      rw [hheld] at hkeeps
      exact fun henabled run hrun hsurvives =>
        hkeeps henabled run hrun (hsurvives.earlier hle)

/-- The world after a reading. -/
theorem step_observe {s : World} (hsettled : s.settled = true) (memory : Option MemoryCounters) :
    step config s (.observe memory) =
      { s with
        tracker := s.tracker.observe config memory s.now
        readings := ⟨s.now, memory⟩ :: s.readings } := if_pos hsettled

/-- What is held after a reading. -/
theorem observe_held (memory : Option MemoryCounters) (now : ℚ)
    (tracker : MemoryPressureTracker) :
    (tracker.observe config memory now).held =
      match if config.enabled then memory else none with
      | none => fun _ => none
      | some memory => hold config memory now tracker.held := by
  unfold MemoryPressureTracker.observe
  dsimp only
  cases if config.enabled then memory else none with
  | none => exact MemoryPressureTracker.changing_held _ _
  | some memory => exact MemoryPressureTracker.changing_held _ _

variable (config) in
theorem observe_timers (memory : Option MemoryCounters) (now : ℚ)
    (tracker : MemoryPressureTracker) :
    (tracker.observe config memory now).readingAt = some now ∧
      (tracker.observe config memory now).staleTimer = some (now + staleAfterMs) := by
  unfold MemoryPressureTracker.observe
  dsimp only
  split <;> simp

/-- One step after a reading with counters. -/
theorem Tracks.hold {s : World} (h : Tracks config s) (hsettled : s.settled = true)
    (henabled : config.enabled = true) (memory : MemoryCounters) (key : StepKey) :
    match hold config memory s.now s.tracker.held key with
    | some held =>
      ∃ run, openRun config (config.rule key) (⟨s.now, some memory⟩ :: s.readings) = some run ∧
        held.clearTimer = run.map (· + config.clearAfterMs) ∧
          ∀ since ∈ run, s.now ≤ since + config.clearAfterMs
    | none => openRun config (config.rule key) (⟨s.now, some memory⟩ :: s.readings) = none := by
  rw [openRun, if_neg (by simp)]
  unfold MemoryPressureTracker.hold Reading.meets
  cases hmeets : meets (config.rule key) memory with
  | some cause => cases hheld : s.tracker.held key <;> exact ⟨none, by simp [hmeets], rfl, by simp⟩
  | none =>
    cases hheld : s.tracker.held key with
    | some held =>
      obtain ⟨-, run, hrun, htimer, hsurvives⟩ := h.survives hsettled hheld
      cases run with
      | none =>
        have hclear : held.clearTimer = none := htimer
        simp only [hclear]
        refine ⟨some s.now, by simp [hmeets, hrun, hsurvives], rfl, fun since hsince => ?_⟩
        obtain rfl : s.now = since := by simpa using hsince
        linarith [config.clearAfter_nonneg]
      | some since =>
        have hclear : held.clearTimer = some (since + config.clearAfterMs) := htimer
        simp only [hclear]
        refine ⟨some since, by simp [hmeets, hrun, hsurvives], rfl, fun since' hsince => ?_⟩
        obtain rfl : since = since' := by simpa using hsince
        linarith [hsurvives.2 since rfl]
    | none =>
      have hkeeps := h.keeps key
      unfold Keeps at hkeeps
      rw [hheld] at hkeeps
      cases hrun : openRun config (config.rule key) s.readings with
      | none => simp [hmeets]
      | some run => simp [hmeets, hkeeps henabled run hrun]

theorem Tracks.observe {s : World} (h : Tracks config s) (memory : Option MemoryCounters) :
    Tracks config (step config s (.observe memory)) := by
  by_cases hsettled : s.settled = true
  · rw [step_observe hsettled]
    have htimers := observe_timers config memory s.now s.tracker
    refine ⟨List.pairwise_cons.2 ⟨h.past, h.sorted⟩, ?_, htimers.1, ?_, fun key => ?_⟩
    · intro x hx
      rcases List.mem_cons.1 hx with rfl | hx
      · exact le_refl _
      · exact h.past x hx
    · intro due hdue
      obtain rfl : s.now + staleAfterMs = due := by simpa [htimers.2] using hdue
      exact ⟨by unfold staleAfterMs; linarith, _, rfl, rfl⟩
    · unfold Keeps
      dsimp only
      rw [observe_held, htimers.2]
      by_cases henabled : config.enabled = true
      · rw [if_pos henabled]
        cases memory with
        | none =>
          intro _ run hrun
          simp [openRun] at hrun
        | some memory =>
          have hhold := h.hold hsettled henabled memory key
          dsimp only
          cases hheld : MemoryPressureTracker.hold config memory s.now s.tracker.held key with
          | some held =>
            rw [hheld] at hhold
            exact ⟨henabled, by simp, hhold⟩
          | none =>
            rw [hheld] at hhold
            intro _ run hrun
            rw [hhold] at hrun
            cases hrun
      · rw [if_neg henabled]
        exact fun henabled' => absurd henabled' henabled
  · rw [step, if_neg hsettled]
    exact h

theorem Tracks.fired {s : World} (h : Tracks config s) {timer : Timer} {due : ℚ}
    (hdue : s.tracker.due timer = some due) (hnow : due ≤ s.now) :
    Tracks config { s with tracker := s.tracker.fired timer } := by
  cases timer with
  | stale =>
    refine ⟨h.sorted, h.past, ?_, ?_, fun key => ?_⟩
    · simpa [MemoryPressureTracker.fired] using h.readingAt
    · intro due' hdue'
      simp [MemoryPressureTracker.fired] at hdue'
    · simp only [Keeps, MemoryPressureTracker.fired, MemoryPressureTracker.changing_held, dropAll]
      intro _ run hrun hsurvives
      obtain ⟨x, hx, hlast⟩ := (h.stale due hdue).2
      linarith [hsurvives.1 x hx]
  | clear key =>
    refine ⟨h.sorted, h.past, ?_, ?_, fun other => ?_⟩
    · simpa [MemoryPressureTracker.fired] using h.readingAt
    · intro due' hdue'
      exact h.stale due' (by simpa [MemoryPressureTracker.fired] using hdue')
    · have hkeeps := h.keeps other
      unfold Keeps at hkeeps ⊢
      simp only [MemoryPressureTracker.fired, MemoryPressureTracker.changing_held,
        MemoryPressureTracker.changing_staleTimer]
      by_cases hother : other = key
      · subst hother
        cases hheld : s.tracker.held other with
        | none => simp [MemoryPressureTracker.due, hheld] at hdue
        | some held =>
          rw [hheld] at hkeeps
          obtain ⟨-, -, run, hrun, htimer, -⟩ := hkeeps
          rw [Function.update_self]
          intro _ run' hrun' hsurvives
          obtain rfl : run = run' := by simpa [hrun] using hrun'
          have hclear : run.map (· + config.clearAfterMs) = some due := by
            rw [← htimer]
            simpa [MemoryPressureTracker.due, hheld] using hdue
          obtain ⟨since, rfl, rfl⟩ := Option.map_eq_some_iff.1 hclear
          linarith [hsurvives.2 since rfl]
      · rw [Function.update_of_ne hother]
        exact hkeeps

theorem Tracks.step {s : World} (h : Tracks config s) (a : Action) :
    Tracks config (HostLoad.step config s a) := by
  cases a with
  | wait time =>
    rw [HostLoad.step]
    split
    · rename_i hwait
      exact h.wait hwait.1 hwait.2
    · exact h
  | observe memory => exact h.observe memory
  | fire timer =>
    rw [HostLoad.step]
    split
    · rename_i due hdue
      split
      · rename_i hnow
        exact h.fired hdue hnow
      · exact h
    · exact h

theorem tracks_run (now : ℚ) (acts : List Action) :
    Tracks config (run (HostLoad.step config) (World.start now) acts) :=
  run_invariant (fun _ a h => h.step a) acts _ (Tracks.start now)

/-! ### The events of a run -/

/-- A timer is armed, or a step held, only after a reading. -/
theorem Tracks.read {s : World} (h : Tracks config s)
    (hsome : s.tracker.staleTimer ≠ none ∨ ∃ key, s.tracker.held key ≠ none) :
    ∃ readingAt, s.tracker.readingAt = some readingAt := by
  have hstale : s.tracker.staleTimer ≠ none := by
    rcases hsome with hstale | ⟨key, hheld⟩
    · exact hstale
    · obtain ⟨held, hheld⟩ := Option.ne_none_iff_exists'.1 hheld
      have hkeeps := h.keeps key
      unfold Keeps at hkeeps
      rw [hheld] at hkeeps
      exact hkeeps.2.1
  obtain ⟨due, hdue⟩ := Option.ne_none_iff_exists'.1 hstale
  obtain ⟨x, hx, -⟩ := (h.stale due hdue).2
  exact ⟨x.time, by rw [h.readingAt, hx]; rfl⟩

theorem Tracks.reported {s : World} (h : Tracks config s) :
    s.reported = stepOf s.tracker.held := by
  cases hreading : s.tracker.readingAt with
  | some readingAt =>
    obtain ⟨state, hstate, hstep⟩ := s.tracker.current_step hreading
    unfold World.reported
    rw [hstate]
    exact hstep
  | none =>
    have hnone : ∀ key, s.tracker.held key = none := by
      intro key
      by_contra hheld
      obtain ⟨readingAt, hsome⟩ := h.read (.inr ⟨key, hheld⟩)
      rw [hreading] at hsome
      cases hsome
    simp [World.reported, MemoryPressureTracker.current, hreading, stepOf, hnone]

theorem Tracks.read_of_due {s : World} (h : Tracks config s) {timer : Timer} {due : ℚ}
    (hdue : s.tracker.due timer = some due) :
    ∃ readingAt, s.tracker.readingAt = some readingAt := by
  cases timer with
  | stale => exact h.read (.inl fun hnone => by simp [MemoryPressureTracker.due, hnone] at hdue)
  | clear key =>
    exact h.read (.inr ⟨key, fun hnone => by simp [MemoryPressureTracker.due, hnone] at hdue⟩)

/-- One step of the world emits the event of its change of step, if it changes. -/
theorem Tracks.events {s : World} (h : Tracks config s) (a : Action) :
    (HostLoad.step config s a).tracker.events.map PressureChanged.move =
      s.tracker.events.map PressureChanged.move ++
        moved s.reported (HostLoad.step config s a).reported := by
  rw [(h.step a).reported, h.reported]
  have hsame : ∀ held, moved (stepOf held) (stepOf held) = [] := fun held => if_pos rfl
  cases a with
  | wait time =>
    rw [HostLoad.step]
    split <;> simp [hsame]
  | observe memory =>
    by_cases hsettled : s.settled = true
    · rw [step_observe hsettled]
      dsimp only
      unfold MemoryPressureTracker.observe
      dsimp only
      split
      · rw [MemoryPressureTracker.changing_events _ _ rfl]
        simp
      · rw [MemoryPressureTracker.changing_events _ _ rfl]
        simp
    · rw [HostLoad.step, if_neg hsettled]
      simp [hsame]
  | fire timer =>
    rw [HostLoad.step]
    split
    · rename_i due hdue
      split
      · obtain ⟨readingAt, hreading⟩ := h.read_of_due hdue
        cases timer with
        | stale =>
          dsimp only [MemoryPressureTracker.fired]
          rw [MemoryPressureTracker.changing_events _ _ (by exact hreading)]
          simp
        | clear key =>
          dsimp only [MemoryPressureTracker.fired]
          rw [MemoryPressureTracker.changing_events _ _ (by exact hreading)]
          simp
      · simp [hsame]
    · simp [hsame]

/-- The steps reported along a run, the first one first. -/
def reportedSteps (config : MemoryPressureConfig) (s : World) :
    List Action → List MemoryPressureStep
  | [] => [s.reported]
  | a :: acts => s.reported :: reportedSteps config (HostLoad.step config s a) acts

/-- The changes between neighbours. -/
def changes : List MemoryPressureStep → List (MemoryPressureStep × MemoryPressureStep)
  | source :: target :: rest => moved source target ++ changes (target :: rest)
  | _ => []

theorem Tracks.run_events {s : World} (h : Tracks config s) (acts : List Action) :
    (run (HostLoad.step config) s acts).tracker.events.map PressureChanged.move =
      s.tracker.events.map PressureChanged.move ++ changes (reportedSteps config s acts) := by
  induction acts generalizing s with
  | nil => simp [reportedSteps, changes]
  | cons a acts ih =>
    rw [run_cons, ih (h.step a), h.events a, List.append_assoc]
    cases acts <;> rfl

def pauseAtWarn : MemoryPressureConfig :=
  ⟨true, ⟨some .warn, 20⟩, ⟨some .critical, 10⟩, 20000, by norm_num⟩

-- a warning, a miss 15 s later, and nothing more: warming goes on again 20 s after the miss
example :
    (run (HostLoad.step pauseAtWarn) (World.start 0)
        [.observe (some ⟨100, 50, some .warn⟩), .wait 15000,
          .observe (some ⟨100, 50, some .normal⟩), .wait 90000, .wait 35000,
          .fire (.clear .warming)]).tracker.events.map PressureChanged.move =
      [(.none, .warmingPaused), (.warmingPaused, .none)] := by decide +kernel

end Steps

end Simlock.HostLoad
