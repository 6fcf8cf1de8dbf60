import Mathlib.Tactic.Linarith
import Simlock.HostLoad.MemoryPressure

/-! When a pressure step is held.

    The meaning of a step is said of the readings alone: some reading met its rule, every reading
    since gave memory counters and came in time, and no unbroken run of readings that missed the
    rule lasted `clearAfterMs`. The tracker keeps no readings: it keeps, for each step, whether it
    is held and the time its clear timer is armed for, which is the start of the open run of misses
    and `clearAfterMs`. `openRun` reads exactly that from the readings, and one step of the world
    keeps the two together. -/

namespace Simlock.HostLoad

open Simlock.Lib
open MemoryPressureTracker (Timer timers mem_timers hold dropAll)

section Meaning

variable (config : MemoryPressureConfig) (rule : MemoryPressureRule)

/-- The reading gave memory counters and they meet the rule. -/
def Reading.meets (x : Reading) : Bool :=
  match x.memory with
  | some memory => (HostLoad.meets rule memory).isSome
  | none => false

/-- Going back from a time, each reading came less than 60 s before the next. -/
def Fresh : List Reading → ℚ → Prop
  | [], _ => True
  | x :: earlier, time => time - x.time < staleAfterMs ∧ Fresh earlier x.time

/-- Going back from a time, no run of readings that miss the rule lasts `clearAfterMs` up to the
    reading that breaks it, or up to the time when none does. -/
def NoLongRun : List Reading → ℚ → Prop
  | [], _ => True
  | x :: earlier, stop =>
    if x.meets rule then NoLongRun earlier x.time
    else stop - x.time < config.clearAfterMs ∧ NoLongRun earlier stop

/-- The readings, the last one first, hold the step: one met the rule, and none since cleared it. -/
def HeldSince (readings : List Reading) (time stop : ℚ) : Prop :=
  ∃ later since earlier, readings = later ++ since :: earlier ∧ since.meets rule = true ∧
    (∀ x ∈ later, x.memory ≠ none) ∧ Fresh (later ++ [since]) time ∧
      NoLongRun config rule later stop

/-- What it means that a step is held at a time. -/
def HeldBy (readings : List Reading) (now : ℚ) : Prop :=
  config.enabled = true ∧ HeldSince config rule readings now now

/-! ### The open run of misses -/

/-- The step is still held at a time: the last reading is fresh and the open run is short. -/
def Survives (readings : List Reading) (run : Option ℚ) (time stop : ℚ) : Prop :=
  (∀ x ∈ readings.head?, time - x.time < staleAfterMs) ∧
    ∀ since ∈ run, stop - since < config.clearAfterMs

instance (readings : List Reading) (run : Option ℚ) (time stop : ℚ) :
    Decidable (Survives config readings run time stop) :=
  inferInstanceAs (Decidable ((∀ x ∈ readings.head?, _) ∧ ∀ since ∈ run, _))

/-- While the step is held after the readings, the start of the open run of misses, if there is
    one. -/
def openRun : List Reading → Option (Option ℚ)
  | [] => none
  | x :: earlier =>
    if x.memory = none then none
    else if x.meets rule then some none
    else
      match openRun earlier with
      | none => none
      | some run =>
        if Survives config earlier run x.time x.time then some (some (run.getD x.time)) else none

variable {config rule}

theorem heldSince_met {x : Reading} {earlier : List Reading} {time stop : ℚ}
    (h : x.meets rule = true) :
    HeldSince config rule (x :: earlier) time stop ↔ time - x.time < staleAfterMs := by
  constructor
  · rintro ⟨later, since, rest, heq, -, -, hfresh, -⟩
    cases later with
    | nil =>
      obtain ⟨rfl, -⟩ := List.cons.inj heq
      exact hfresh.1
    | cons y later =>
      obtain ⟨rfl, -⟩ := List.cons.inj heq
      exact hfresh.1
  · intro hfresh
    exact ⟨[], x, earlier, rfl, h, by simp, ⟨hfresh, trivial⟩, trivial⟩

theorem heldSince_missed {x : Reading} {earlier : List Reading} {time stop : ℚ}
    (h : x.meets rule = false) :
    HeldSince config rule (x :: earlier) time stop ↔
      x.memory ≠ none ∧ time - x.time < staleAfterMs ∧ stop - x.time < config.clearAfterMs ∧
        HeldSince config rule earlier x.time stop := by
  constructor
  · rintro ⟨later, since, rest, heq, hmet, hcounted, hfresh, hruns⟩
    cases later with
    | nil =>
      obtain ⟨rfl, -⟩ := List.cons.inj heq
      rw [h] at hmet
      cases hmet
    | cons y later =>
      obtain ⟨rfl, rfl⟩ := List.cons.inj heq
      rw [NoLongRun, h] at hruns
      refine ⟨hcounted _ List.mem_cons_self, hfresh.1, hruns.1, later, since, rest, rfl, hmet, ?_,
        hfresh.2, hruns.2⟩
      exact fun y hy => hcounted y (List.mem_cons_of_mem _ hy)
  · rintro ⟨hmemory, hfresh, hrun, later, since, rest, rfl, hmet, hcounted, hfreshes, hruns⟩
    refine ⟨x :: later, since, rest, rfl, hmet, ?_, ⟨hfresh, hfreshes⟩, ?_⟩
    · intro y hy
      rcases List.mem_cons.1 hy with rfl | hy
      · exact hmemory
      · exact hcounted y hy
    · rw [NoLongRun, h]
      exact ⟨hrun, hruns⟩

/-- An open run starts no later than the last reading. -/
theorem openRun_le {readings : List Reading}
    (hsorted : readings.Pairwise fun x y => y.time ≤ x.time) {since : ℚ}
    (h : openRun config rule readings = some (some since)) :
    ∀ x ∈ readings.head?, since ≤ x.time := by
  cases readings with
  | nil => cases h
  | cons x earlier =>
    rw [openRun] at h
    split at h
    · cases h
    split at h
    · cases h
    split at h
    · cases h
    · rename_i run hrun
      split at h
      · obtain rfl : run.getD x.time = since := by simpa using h
        intro y hy
        obtain rfl : x = y := by simpa using hy
        cases run with
        | none => exact le_refl _
        | some since =>
          cases earlier with
          | nil => cases hrun
          | cons z earlier =>
            have hle := openRun_le (List.pairwise_cons.1 hsorted).2 hrun z rfl
            exact hle.trans ((List.pairwise_cons.1 hsorted).1 z List.mem_cons_self)
      · cases h

/-- The readings hold the step exactly when its open run survives. -/
theorem heldSince_iff {readings : List Reading}
    (hsorted : readings.Pairwise fun x y => y.time ≤ x.time) {time stop : ℚ}
    (hstop : ∀ x ∈ readings.head?, x.time ≤ stop) :
    HeldSince config rule readings time stop ↔
      ∃ run, openRun config rule readings = some run ∧ Survives config readings run time stop := by
  induction readings generalizing time with
  | nil =>
    refine ⟨?_, fun ⟨run, hrun, _⟩ => by cases hrun⟩
    rintro ⟨later, since, earlier, heq, -⟩
    cases later <;> cases heq
  | cons x earlier ih =>
    have hx : x.time ≤ stop := hstop x rfl
    have hrest := List.pairwise_cons.1 hsorted
    have hlast : ∀ y ∈ earlier.head?, y.time ≤ x.time := by
      intro y hy
      exact hrest.1 y (List.mem_of_mem_head? hy)
    by_cases hmet : x.meets rule = true
    · have hmemory : x.memory ≠ none := by
        intro hnone
        simp [Reading.meets, hnone] at hmet
      rw [heldSince_met hmet]
      constructor
      · intro hfresh
        refine ⟨none, by rw [openRun, if_neg hmemory, if_pos hmet], ?_, by simp⟩
        simpa using hfresh
      · rintro ⟨run, -, hfresh, -⟩
        exact hfresh x rfl
    · have hmissed : x.meets rule = false := by simpa using hmet
      rw [heldSince_missed hmissed, ih hrest.2 fun y hy => (hlast y hy).trans hx]
      by_cases hmemory : x.memory = none
      · simp [openRun, hmemory]
      · rw [openRun, if_neg hmemory, if_neg hmet]
        constructor
        · rintro ⟨-, hfresh, hlong, run, hrun, hsurvives⟩
          have hnow : Survives config earlier run x.time x.time :=
            ⟨hsurvives.1, fun since hsince => by linarith [hsurvives.2 since hsince]⟩
          refine ⟨some (run.getD x.time), by simp [hrun, hnow], by simpa using hfresh, ?_⟩
          intro since hsince
          cases run with
          | none =>
            obtain rfl : x.time = since := by simpa using hsince
            exact hlong
          | some since' => exact hsurvives.2 since (by simpa using hsince)
        · rintro ⟨run, hrun, hfresh, hrunShort⟩
          cases hopen : openRun config rule earlier with
          | none => simp [hopen] at hrun
          | some run' =>
            simp only [hopen] at hrun
            split at hrun
            · rename_i hsurvives
              obtain rfl : some (run'.getD x.time) = run := by simpa using hrun
              have hshort : stop - run'.getD x.time < config.clearAfterMs := hrunShort _ rfl
              refine ⟨hmemory, hfresh x rfl, ?_, run', rfl, hsurvives.1, ?_⟩
              · cases run' with
                | none => exact hshort
                | some since =>
                  cases hhead : earlier with
                  | nil =>
                    rw [hhead] at hopen
                    cases hopen
                  | cons y rest =>
                    rw [hhead] at hopen hrest
                    have hle := openRun_le hrest.2 hopen y rfl
                    have hyx := hrest.1 y List.mem_cons_self
                    simp only [Option.getD_some] at hshort
                    linarith
              · intro since hsince
                obtain rfl : run' = some since := by simpa using hsince
                exact hshort
            · cases hrun

end Meaning

end Simlock.HostLoad
