import Mathlib.Tactic.Linarith
import Mathlib.Data.List.Count
import Simlock.LeasePolicy.Renewal

/-! What a renewal loop keeps, whatever answers, times out, throws or stops it.

    `Heard` ties the deadline to the answers that came, `Numbered` the attempts to their requests and
    the race, `Armed` the one timer to the loop's state. An answer of an abandoned attempt moves the
    deadline and leaves the armed timer as it is, so the timer is in time only where that deadline is
    later than the timer is due. -/

namespace Simlock.LeasePolicy

open Simlock.Lib

/-! ### What was seen -/

/-- After it nothing more is to happen. -/
def Event.ends : Event → Bool
  | .onLeaseGone _ => true
  | .stop => true
  | _ => false

/-- A call of the daemon or of the holder. -/
def Event.acts : Event → Bool
  | .answer _ _ => false
  | .stop => false
  | _ => true

def Event.isGone : Event → Bool
  | .onLeaseGone _ => true
  | _ => false

def ended (seen : List Event) : Bool := seen.any Event.ends

/-- Nothing is called after an end. -/
def Quiet : List Event → Prop
  | [] => True
  | event :: earlier => (event.acts = true → ended earlier = false) ∧ Quiet earlier

/-- The answers that came while the loop ran, the last one first. -/
def answered : List Event → List (Nat × RenewedLease)
  | [] => []
  | .answer attemptId lease :: earlier =>
    if ended earlier then answered earlier else (attemptId, lease) :: answered earlier
  | _ :: earlier => answered earlier

/-- The answers of a number above all that had answered before. -/
def adopted : List (Nat × RenewedLease) → List (Nat × RenewedLease)
  | [] => []
  | x :: earlier =>
    if ∀ y ∈ earlier, y.1 < x.1 then x :: adopted earlier else adopted earlier

/-- What `onRenewed` was called with, the last call first. -/
def renewals (seen : List Event) : List (Nat × RenewedLease) :=
  seen.filterMap fun
    | .onRenewed attemptId lease => some (attemptId, lease)
    | _ => none

/-! ### What holds of the loop -/

/-- Due before the deadline, or, armed with less than the least delay left, after at most that. -/
def Timer.InTime (timer : Timer) (deadline : ℚ) : Prop :=
  timer.due < deadline ∨
    deadline - timer.armedAt < minimumRenewDelayMs ∧
      timer.due ≤ timer.armedAt + minimumRenewDelayMs

/-- No race waits to be resumed. -/
def undecided : Option Race → Prop
  | some ⟨_, some _⟩ => False
  | _ => True

/-- What a state of the loop is to be like. -/
structure Right (grant : RenewedLease) (s : Renewal) : Prop where
  raced : (answered s.seen = [] ∧ s.deadline = grant.ttlDeadline) ∨
    ∃ x ∈ answered s.seen, (∀ y ∈ answered s.seen, y.1 ≤ x.1) ∧ s.deadline = x.2.ttlDeadline
  renewed : renewals s.seen = adopted (answered s.seen)
  goneOnce : s.seen.countP Event.isGone ≤ 1
  quiet : Quiet s.seen
  disarmed : ended s.seen = true → s.timers = []
  armed : ended s.seen = false → undecided s.race →
    ∃ timer, s.timers = [timer] ∧ timer.InTime s.deadline

/-- A step tells of the lease's end only when the attempt in progress was rejected for good, or the
    deadline has come. -/
def GoneRightly (s : Renewal) (a : Action) : Prop :=
  (step s a).seen.any Event.isGone = true → s.seen.any Event.isGone = false →
    (∃ attemptId error, s.race = some ⟨attemptId, some (.answered (.rejected error))⟩ ∧
        isLeaseGone error = true) ∨
      (step s a).deadline ≤ (step s a).now

/-- The loop goes on after an outcome. -/
def goesOn : Outcome → Bool → Bool
  | .answered (.rejected error), errorStops => !isLeaseGone error && !errorStops
  | .timedOut, errorStops => !errorStops
  | .answered (.renewed _), _ => true

/-- An abandoned attempt's answer that is adopted brings a deadline after the armed timer is due, and
    no timer is armed with exactly the least delay left. -/
def Fits (s : Renewal) : Action → Prop
  | .settle attemptId (.renewed lease) stops =>
    s.stage attemptId = .sent → s.newestAnswered < attemptId → stops = false →
      (∀ race ∈ s.race, race.attemptId ≠ attemptId) →
        ∀ timer ∈ s.timers, timer.due < lease.ttlDeadline
  | .fire handle =>
    ∀ timer ∈ s.timers, timer.handle = handle → timer.role = .wait →
      s.deadline - s.now ≠ minimumRenewDelayMs
  | .resume errorStops _ _ =>
    s.stopped = false → ∀ race ∈ s.race, ∀ outcome ∈ race.outcome,
      goesOn outcome errorStops = true → s.deadline - s.now ≠ minimumRenewDelayMs
  | _ => True

instance (s : Renewal) : (a : Action) → Decidable (Fits s a)
  | .settle _ (.renewed _) _ => inferInstanceAs (Decidable (_ → _ → _ → _ → ∀ timer ∈ _, _))
  | .settle _ (.rejected _) _ => .isTrue trivial
  | .fire _ => inferInstanceAs (Decidable (∀ timer ∈ s.timers, _ → _ → _))
  | .resume _ _ _ => inferInstanceAs (Decidable (_ → ∀ race ∈ s.race, ∀ outcome ∈ _, _ → _))
  | .wait _ => .isTrue trivial
  | .send _ _ => .isTrue trivial
  | .stop => .isTrue trivial

/-! ### The answers and the deadline -/

/-- The log, whether the loop ended, its deadline and the newest number that answered. -/
structure Heard (grant : RenewedLease) (seen : List Event) (stopped : Bool) (deadline : ℚ)
    (newest : Nat) : Prop where
  ended : ended seen = stopped
  quiet : Quiet seen
  gone : seen.countP Event.isGone ≤ if stopped then 1 else 0
  raced : (answered seen = [] ∧ newest = 0 ∧ deadline = grant.ttlDeadline) ∨
    ∃ x ∈ answered seen, (∀ y ∈ answered seen, y.1 ≤ x.1) ∧ newest = x.1 ∧
      deadline = x.2.ttlDeadline
  renewed : renewals seen = adopted (answered seen)

namespace Heard

variable {grant : RenewedLease} {seen : List Event} {stopped : Bool} {deadline : ℚ} {newest : Nat}

theorem stop (h : Heard grant seen stopped deadline newest) :
    Heard grant (.stop :: seen) true deadline newest where
  ended := rfl
  quiet := ⟨nofun, h.quiet⟩
  gone := by
    have hgone := h.gone
    rw [List.countP_cons_of_neg (by simp [Event.isGone]), if_pos rfl]
    split at hgone <;> omega
  raced := h.raced
  renewed := h.renewed

/-- A call that neither answers nor ends. -/
theorem call (h : Heard grant seen false deadline newest) (event : Event)
    (hends : event.ends = false) (hanswered : answered (event :: seen) = answered seen)
    (hrenewals : renewals (event :: seen) = renewals seen) :
    Heard grant (event :: seen) false deadline newest where
  ended := by
    unfold LeasePolicy.ended
    rw [List.any_cons, hends]
    exact h.ended
  quiet := ⟨fun _ => h.ended, h.quiet⟩
  gone := by
    have hgone : event.isGone = false := by cases event <;> first | rfl | cases hends
    rw [List.countP_cons_of_neg (by simp [hgone])]
    exact h.gone
  raced := by
    rw [hanswered]
    exact h.raced
  renewed := by
    rw [hanswered, hrenewals]
    exact h.renewed

theorem lost (h : Heard grant seen false deadline newest) (reason : LeaseGoneReason) :
    Heard grant (.onLeaseGone reason :: seen) true deadline newest where
  ended := rfl
  quiet := ⟨fun _ => h.ended, h.quiet⟩
  gone := by
    have hgone := h.gone
    rw [List.countP_cons_of_pos rfl, if_pos rfl]
    simp only [Bool.false_eq_true, if_false] at hgone
    omega
  raced := h.raced
  renewed := h.renewed

/-- Whatever answered before is below a number exactly when the newest is. -/
theorem newest_lt_iff (h : Heard grant seen stopped deadline newest) {attemptId : Nat}
    (hpos : 0 < attemptId) :
    newest < attemptId ↔ ∀ y ∈ answered seen, y.1 < attemptId := by
  rcases h.raced with ⟨hnone, rfl, -⟩ | ⟨x, hx, hmax, rfl, -⟩
  · simp [hnone, hpos]
  · exact ⟨fun hlt y hy => lt_of_le_of_lt (hmax y hy) hlt, fun hall => hall x hx⟩

/-- An answer that is not adopted: it came too late, or from an older attempt. -/
theorem ignored (h : Heard grant seen stopped deadline newest) {attemptId : Nat}
    (hpos : 0 < attemptId) (hold : stopped = true ∨ ¬ newest < attemptId) (lease : RenewedLease) :
    Heard grant (.answer attemptId lease :: seen) stopped deadline newest where
  ended := h.ended
  quiet := ⟨nofun, h.quiet⟩
  gone := by
    rw [List.countP_cons_of_neg (by simp [Event.isGone])]
    exact h.gone
  raced := by
    rw [answered, h.ended]
    split
    · exact h.raced
    · rename_i hrunning
      have hle : ¬ newest < attemptId := hold.resolve_left hrunning
      rcases h.raced with ⟨hnone, rfl, -⟩ | ⟨x, hx, hmax, hnewest, hdeadline⟩
      · exact absurd hpos hle
      · refine .inr ⟨x, List.mem_cons_of_mem _ hx, fun y hy => ?_, hnewest, hdeadline⟩
        rcases List.mem_cons.1 hy with rfl | hy
        · dsimp only
          omega
        · exact hmax y hy
  renewed := by
    rw [answered, h.ended]
    split
    · exact h.renewed
    · rename_i hrunning
      have hle : ¬ newest < attemptId := hold.resolve_left hrunning
      rw [adopted, if_neg fun hall => hle ((h.newest_lt_iff hpos).2 hall)]
      exact h.renewed

/-- The answer of the highest number so far: it moves the deadline and is reported. -/
theorem adopts (h : Heard grant seen false deadline newest) {attemptId : Nat}
    (hnew : newest < attemptId) (lease : RenewedLease) :
    Heard grant (.onRenewed attemptId lease :: .answer attemptId lease :: seen) false
      lease.ttlDeadline attemptId := by
  have hpos : 0 < attemptId := by omega
  have hbelow := (h.newest_lt_iff hpos).1 hnew
  have hanswered : answered (.onRenewed attemptId lease :: .answer attemptId lease :: seen) =
      (attemptId, lease) :: answered seen := by
    rw [answered, answered, h.ended]
    · rfl
    · simp
  refine ⟨h.ended, ⟨fun _ => h.ended, nofun, h.quiet⟩, ?_, ?_, ?_⟩
  · rw [List.countP_cons_of_neg (by simp [Event.isGone]),
      List.countP_cons_of_neg (by simp [Event.isGone])]
    exact h.gone
  · rw [hanswered]
    refine .inr ⟨_, List.mem_cons_self, fun y hy => ?_, rfl, rfl⟩
    rcases List.mem_cons.1 hy with rfl | hy
    · exact le_refl _
    · exact (hbelow y hy).le
  · rw [hanswered, adopted, if_pos (by exact hbelow), ← h.renewed]
    rfl

end Heard

end Simlock.LeasePolicy
