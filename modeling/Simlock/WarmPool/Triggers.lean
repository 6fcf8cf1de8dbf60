import Simlock.Lib.Run

/-! One pass of the warm pool at a time, and one more for the triggers that came during it.

    A drain runs passes until a check finds that none was asked for again; the promise of the drain
    is cleared in a continuation of its own, a turn later:

        pass ──(over)──▶ check ──(asked again)──▶ pass
                           │
                           └──(not asked)──▶ ending ──(cleared)──▶ no drain

    A trigger that finds the promise set only asks for one more pass. In the gap between the last
    check and the clearing nobody looks at what it asked. -/

namespace Simlock.WarmPool

open Simlock.Lib

/-- Where a drain stands: in a pass, in one that has evaluated, before the loop's check, or out of
    the loop with its promise still set. -/
inductive DrainPhase
  | once
  | evaluated
  | check
  | ending
  deriving DecidableEq, Repr

inductive PoolEvent
  | asked
  | started
  | evaluated
  deriving DecidableEq, Repr

/-- The drains there are, the flags, and what happened, the last first. -/
structure Converger where
  drains : List DrainPhase
  running : Bool
  again : Bool
  disposed : Bool
  draining : Bool
  log : List PoolEvent
  deriving DecidableEq, Repr

namespace Converger

def start : Converger := ⟨[], false, false, false, false, []⟩

/-- `#once` as far as it runs in the turn it is called in: a pool that drains returns at once. -/
def onceBegun (s : Converger) : DrainPhase := if s.draining then .check else .once

/-- `pass()`. -/
def pass (s : Converger) : Converger :=
  let s := { s with log := .asked :: s.log }
  if s.running then { s with again := true }
  else
    { s with
      drains := s.drains ++ [s.onceBegun]
      running := true
      again := false
      log := .started :: s.log }

/-- `#trigger()`. -/
def trigger (s : Converger) : Converger := if s.disposed ∨ s.draining then s else s.pass

/-- The loop's check, and the next pass when it was asked for. -/
def checkAgain (i : Nat) (s : Converger) : Converger :=
  if s.again then
    { s with
      drains := s.drains.set i s.onceBegun
      again := false
      log := .started :: s.log }
  else { s with drains := s.drains.set i .ending }

inductive Action
  | trigger
  | pass
  | evaluate (drain : Nat)
  | finishPass (drain : Nat)
  | check (drain : Nat)
  | clear (drain : Nat)
  | dispose
  | close
  deriving DecidableEq, Repr

/-- A pass ends after its evaluation or, under maintenance or on an error, without one. -/
def step (s : Converger) : Action → Converger
  | .trigger => s.trigger
  | .pass => s.pass
  | .evaluate i =>
    if s.drains[i]? = some .once then
      { s with drains := s.drains.set i .evaluated, log := .evaluated :: s.log }
    else s
  | .finishPass i =>
    if s.drains[i]? = some .once ∨ s.drains[i]? = some .evaluated then
      { s with drains := s.drains.set i .check }
    else s
  | .check i => if s.drains[i]? = some .check then s.checkAgain i else s
  | .clear i =>
    if s.drains[i]? = some .ending then { s with drains := s.drains.eraseIdx i, running := false }
    else s
  | .dispose => { s with disposed := true }
  | .close => { s with draining := true }

/-- Some trigger is not followed by the start of a pass. -/
def unserved : List PoolEvent → Bool
  | .asked :: _ => true
  | .evaluated :: earlier => unserved earlier
  | .started :: _ => false
  | [] => false

/-- The rest of a drain: at most two more passes, their checks, and the clearing. -/
def rest : List Action := [.finishPass 0, .check 0, .finishPass 0, .check 0, .clear 0]

/-- Once the drain has gone on to its end, every trigger is followed by a pass that started after
    it. -/
def Attended (s : Converger) : Prop :=
  (run step s rest).drains = [] ∧ unserved (run step s rest).log = false

/-- No trigger is accepted in the gap between the last check and the clearing. -/
def OutOfGap (s : Converger) : Action → Prop
  | .trigger => s.disposed = true ∨ s.draining = true ∨ .ending ∉ s.drains
  | .pass => .ending ∉ s.drains
  | _ => True

/-! ### One drain at a time -/

/-- The promise is set exactly while there is a drain, and there is one at most. -/
def Alone (s : Converger) : Prop :=
  (s.running = false ∧ s.drains = []) ∨ s.running = true ∧ ∃ phase, s.drains = [phase]

variable {s : Converger}

theorem Alone.pass (h : s.Alone) : s.pass.Alone := by
  unfold Converger.pass
  rcases h with ⟨hrunning, hdrains⟩ | ⟨hrunning, phase, hdrains⟩
  · refine .inr ?_
    simp [hrunning, hdrains]
  · refine .inr ?_
    simp [hrunning, hdrains]

/-- A drain that is moved on stays the only one. -/
theorem Alone.moved (h : s.Alone) (i : Nat) (phase : DrainPhase) :
    Alone { s with drains := s.drains.set i phase } := by
  rcases h with ⟨hrunning, hdrains⟩ | ⟨hrunning, phase', hdrains⟩
  · exact .inl ⟨hrunning, by simp [hdrains]⟩
  · refine .inr ⟨hrunning, ?_⟩
    cases i <;> simp [hdrains]

theorem Alone.step (h : s.Alone) (a : Action) : (Converger.step s a).Alone := by
  cases a with
  | trigger =>
    change s.trigger.Alone
    unfold Converger.trigger
    split
    · exact h
    · exact h.pass
  | pass => exact h.pass
  | evaluate i =>
    unfold Converger.step
    dsimp only
    split
    · exact h.moved i _
    · exact h
  | finishPass i =>
    unfold Converger.step
    dsimp only
    split
    · exact h.moved i _
    · exact h
  | check i =>
    unfold Converger.step Converger.checkAgain
    dsimp only
    split
    · split
      · exact h.moved i _
      · exact h.moved i _
    · exact h
  | clear i =>
    unfold Converger.step
    dsimp only
    split
    · rename_i hending
      rcases h with ⟨-, hdrains⟩ | ⟨-, phase, hdrains⟩
      · simp [hdrains] at hending
      · rw [hdrains] at hending ⊢
        cases i with
        | zero => exact .inl ⟨rfl, rfl⟩
        | succ i => simp at hending
    · exact h
  | dispose => exact h
  | close => exact h

theorem alone_run (acts : List Action) : (run Converger.step start acts).Alone :=
  run_invariant (fun _ a h => h.step a) acts _ (.inl ⟨rfl, rfl⟩)

/-! ### What the rest of a drain leaves -/

/-- Nothing unserved is left exactly when all is served, or the one drain will still look. -/
theorem attended_iff (h : s.Alone) :
    s.Attended ↔
      (unserved s.log = true → s.again = true ∧ s.drains ≠ [] ∧ .ending ∉ s.drains) := by
  obtain ⟨drains, running, again, disposed, draining, log⟩ := s
  rcases h with ⟨hrunning, hdrains⟩ | ⟨hrunning, phase, hdrains⟩
  · dsimp only at hrunning hdrains
    subst hdrains
    simp [Attended, rest, Converger.step]
  · dsimp only at hrunning hdrains
    subst hdrains
    cases phase <;> cases again <;> cases draining <;>
      simp [Attended, rest, Converger.step, checkAgain, onceBegun, unserved]

/-- Asking for a pass, outside of the gap or in it. -/
theorem attended_pass (halone : s.Alone) (h : s.Attended) :
    s.pass.Attended ↔ .ending ∉ s.drains := by
  rw [attended_iff halone.pass]
  obtain ⟨drains, running, again, disposed, draining, log⟩ := s
  rcases halone with ⟨hrunning, hdrains⟩ | ⟨hrunning, phase, hdrains⟩
  · dsimp only at hrunning hdrains
    subst hrunning hdrains
    simp [Converger.pass, unserved]
  · dsimp only at hrunning hdrains
    subst hrunning hdrains
    simp [Converger.pass, unserved]

/-- The drain's own steps keep the triggers attended. -/
theorem attended_drain (halone : s.Alone) (h : s.Attended) {a : Action}
    (ha : a ≠ .trigger ∧ a ≠ .pass) : (Converger.step s a).Attended := by
  rw [attended_iff (halone.step a)]
  rw [attended_iff halone] at h
  obtain ⟨drains, running, again, disposed, draining, log⟩ := s
  rcases halone with ⟨hrunning, hdrains⟩ | ⟨hrunning, phase, hdrains⟩
  · dsimp only at hrunning hdrains h
    subst hrunning hdrains
    cases a with
    | trigger => exact absurd rfl ha.1
    | pass => exact absurd rfl ha.2
    | _ => simpa [Converger.step] using h
  · dsimp only at hrunning hdrains h
    subst hrunning hdrains
    cases a with
    | trigger => exact absurd rfl ha.1
    | pass => exact absurd rfl ha.2
    | evaluate i =>
      cases i with
      | zero => cases phase <;> simpa [Converger.step, unserved] using h
      | succ i => simpa [Converger.step] using h
    | finishPass i =>
      cases i with
      | zero => cases phase <;> simpa [Converger.step] using h
      | succ i => simpa [Converger.step] using h
    | check i =>
      cases i with
      | zero =>
        cases phase <;> cases again <;>
          simp_all [Converger.step, checkAgain, onceBegun, unserved]
      | succ i => simpa [Converger.step] using h
    | clear i =>
      cases i with
      | zero => cases phase <;> simpa [Converger.step] using h
      | succ i => simpa [Converger.step] using h
    | dispose => exact h
    | close => exact h

/-- A step keeps the triggers attended exactly when it takes none in the gap. -/
theorem attended_step (halone : s.Alone) (h : s.Attended) (a : Action) :
    (Converger.step s a).Attended ↔ OutOfGap s a := by
  cases a with
  | trigger =>
    change s.trigger.Attended ↔ s.disposed = true ∨ s.draining = true ∨ _
    unfold Converger.trigger
    split
    · rename_i hoff
      exact iff_of_true h (by tauto)
    · rename_i hon
      rw [attended_pass halone h]
      tauto
  | pass => exact attended_pass halone h
  | evaluate i => exact iff_of_true (attended_drain halone h ⟨nofun, nofun⟩) trivial
  | finishPass i => exact iff_of_true (attended_drain halone h ⟨nofun, nofun⟩) trivial
  | check i => exact iff_of_true (attended_drain halone h ⟨nofun, nofun⟩) trivial
  | clear i => exact iff_of_true (attended_drain halone h ⟨nofun, nofun⟩) trivial
  | dispose => exact iff_of_true (attended_drain halone h ⟨nofun, nofun⟩) trivial
  | close => exact iff_of_true (attended_drain halone h ⟨nofun, nofun⟩) trivial

/-- No two drains run at the same time; and every trigger of every state is attended exactly when
    none is accepted in the gap. -/
theorem triggers_attended_iff (acts : List Action) :
    (run Converger.step start acts).drains.length ≤ 1 ∧
      (AllSteps Converger.step OutOfGap start acts ↔
        ∀ pre, pre <+: acts → (run Converger.step start pre).Attended) := by
  refine ⟨?_, ?_⟩
  · rcases alone_run acts with ⟨-, hdrains⟩ | ⟨-, phase, hdrains⟩ <;> simp [hdrains]
  · have hstart : start.Alone ∧ start.Attended := ⟨.inl ⟨rfl, rfl⟩, rfl, rfl⟩
    rw [allSteps_iff_invariant (I := fun s => s.Alone ∧ s.Attended) ?_ acts start hstart]
    · refine forall₂_congr fun pre _ => ?_
      exact and_iff_right (alone_run pre)
    · intro s a h
      rw [attended_step h.1 h.2 a]
      exact and_iff_right (h.1.step a)

/-- A trigger between the last check and the clearing: nothing looks at it any more. -/
theorem trigger_lost :
    ¬ ∀ acts, (run Converger.step start acts).Attended := by
  intro hall
  have hlost := (hall [.trigger, .finishPass 0, .check 0, .trigger]).2
  revert hlost
  decide

end Converger

end Simlock.WarmPool
