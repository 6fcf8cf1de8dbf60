import Simlock.Lib.Run

/-! The queue of one alert destination.

    One alert at a time is sent, in at most three tries, while the others wait:

        waiting ─▶ starting ─▶ trying 1 ─▶ resting 1 ─▶ trying 2 ─▶ ...

    An alert goes by the number of alerts accepted before it; `ended` is what became of each. -/

namespace Simlock.Alerts

open Simlock.Lib

def maxTries : Nat := 3
def maxWaiting : Nat := 100

/-- Before its microtask, in a try, or between two. -/
inductive Point where
  | starting
  | trying (attempt : Nat)
  | resting (attempt : Nat)
  deriving DecidableEq

/-- No fourth try is made or comes. -/
def Point.Fits : Point → Prop
  | .starting => True
  | .trying k => k ≤ maxTries
  | .resting k => k < maxTries

inductive Fate where
  | delivered | gaveUp | dropped | discarded
  deriving DecidableEq

structure DestinationQueue where
  waiting : List Nat
  current : Option (Nat × Point)
  stopped : Bool
  accepted : Nat
  ended : List (Nat × Fate)

namespace DestinationQueue

def create : DestinationQueue := ⟨[], none, false, 0, []⟩

section
variable (q : DestinationQueue)

/-- What has not ended. -/
def held : List Nat := (q.current.map Prod.fst).toList ++ q.waiting

/-- What was sent to its end. -/
def sent : List Nat :=
  (q.ended.filter fun x => x.2 = .delivered || x.2 = .gaveUp).map Prod.fst

def pump : DestinationQueue :=
  if q.current.isSome || q.stopped then q
  else
    match q.waiting with
    | [] => q
    | a :: rest => { q with waiting := rest, current := some (a, .starting) }

/-- The oldest makes room. -/
def enqueue : DestinationQueue :=
  if q.stopped then q
  else if maxWaiting ≤ q.waiting.length then
    { q with
      waiting := q.waiting.tail ++ [q.accepted]
      accepted := q.accepted + 1
      ended := q.ended ++ (q.waiting.take 1).map fun a => (a, Fate.dropped) }.pump
  else { q with waiting := q.waiting ++ [q.accepted], accepted := q.accepted + 1 }.pump

def finish (a : Nat) (fate : Fate) : DestinationQueue :=
  { q with current := none, ended := q.ended ++ [(a, fate)] }.pump

def attempt (a k : Nat) : DestinationQueue := { q with current := some (a, .trying k) }

/-- After an answer with a status; a failure or timeout has none. -/
def decide (a k : Nat) (status : Option Nat) : DestinationQueue :=
  if status.any fun code => 200 ≤ code && code < 300 then q.finish a .delivered
  else if status.any (fun code => code ≠ 429 && code < 500) || maxTries ≤ k then
    q.finish a .gaveUp
  else { q with current := some (a, .resting k) }

def stop : DestinationQueue :=
  { q with
    stopped := true
    waiting := []
    current := none
    ended := q.ended ++ q.held.map fun a => (a, .discarded) }

/-- `settle` is an answer, a failure or the timer of try `k`, also a late one. -/
inductive Action where
  | enqueue
  | start (a : Nat) (built : Bool)
  | settle (a k : Nat) (status : Option Nat)
  | retry (a k : Nat)
  | stop

def step : Action → DestinationQueue
  | .enqueue => q.enqueue
  | .start a built =>
    if q.current = some (a, .starting) then if built then q.attempt a 1 else q.finish a .gaveUp
    else q
  | .settle a k status => if q.current = some (a, .trying k) then q.decide a k status else q
  | .retry a k => if q.current = some (a, .resting k) then q.attempt a (k + 1) else q
  | .stop => q.stop

end

/-! ### What every run keeps -/

structure Kept (q : DestinationQueue) : Prop where
  once : (q.ended.map Prod.fst ++ q.held).Perm (List.range q.accepted)
  order : (q.sent ++ q.held).Pairwise (· < ·)
  room : q.waiting.length ≤ maxWaiting
  empty : q.stopped = true → q.held = []
  few : ∀ a point, q.current = some (a, point) → point.Fits

section
variable {q : DestinationQueue}

theorem Kept.pump (h : Kept q) : Kept q.pump := by
  unfold DestinationQueue.pump
  split
  · exact h
  · rename_i hidle
    simp only [Bool.or_eq_true, not_or, Bool.not_eq_true, Option.isSome_eq_false_iff,
      Option.isNone_iff_eq_none] at hidle
    split
    · exact h
    · rename_i a rest hwaiting
      have hroom := h.room
      rw [hwaiting] at hroom
      refine ⟨?_, ?_, Nat.le_of_succ_le hroom, fun hs => ?_, fun b point hb => ?_⟩
      · simpa [held, hidle, hwaiting] using h.once
      · simpa [held, sent, hidle, hwaiting] using h.order
      · cases hidle.2.symm.trans hs
      · cases hb
        trivial

/-- The current alert goes on, or ends. -/
theorem Kept.moves {a : Nat} {point : Point} (h : Kept q) (hcurrent : q.current = some (a, point)) :
    (∀ next : Point, next.Fits → Kept { q with current := some (a, next) }) ∧
      ∀ fate, fate = .delivered ∨ fate = .gaveUp → Kept (q.finish a fate) := by
  have hopen : q.stopped = true → False := fun hs => by simpa [held, hcurrent] using h.empty hs
  refine ⟨fun next hnext => ⟨?_, ?_, h.room, fun hs => (hopen hs).elim, ?_⟩, fun fate hfate =>
    Kept.pump ⟨?_, ?_, h.room, fun hs => (hopen hs).elim, by simp⟩⟩
  · simpa [held, hcurrent] using h.once
  · simpa [held, sent, hcurrent] using h.order
  · rintro b point hb
    cases hb
    exact hnext
  · simpa [held, hcurrent] using h.once
  · rcases hfate with rfl | rfl <;> simpa [held, sent, hcurrent] using h.order

theorem Kept.enqueue (h : Kept q) : Kept q.enqueue := by
  have honce := h.once.append_right [q.accepted]
  have hbelow : ∀ x ∈ q.sent ++ q.held, x < q.accepted := fun x hx =>
    List.mem_range.mp (h.once.subset (List.mem_append.mpr ((List.mem_append.mp hx).imp_left
      fun hsent => List.map_subset _ (List.filter_subset_self _) hsent)))
  have horder := List.pairwise_append.mpr ⟨h.order, List.pairwise_singleton (· < ·) q.accepted,
    fun x hx y hy => List.mem_singleton.mp hy ▸ hbelow x hx⟩
  rw [← List.range_succ] at honce
  unfold DestinationQueue.enqueue
  split
  · exact h
  · rename_i hstopped
    split
    · rename_i hfull
      cases hwaiting : q.waiting with
      | nil => simp [hwaiting, maxWaiting] at hfull
      | cons a rest =>
        have hroom := h.room
        rw [hwaiting] at hroom
        refine Kept.pump ⟨?_, ?_, by simpa using hroom, fun hs => absurd hs hstopped, h.few⟩
        · refine .trans ?_ honce
          simp only [held, hwaiting, List.map_append, List.append_assoc]
          refine .append_left _ ?_
          change (a :: ((q.current.map Prod.fst).toList ++ (rest ++ [q.accepted]))).Perm _
          exact List.perm_middle.symm
        · refine horder.sublist ?_
          simp [held, sent, hwaiting]
    · rename_i hroom
      refine Kept.pump ⟨?_, ?_, ?_, fun hs => absurd hs hstopped, h.few⟩
      · simpa [held] using honce
      · simpa [held, sent] using horder
      · exact Nat.le_trans (Nat.le_of_eq List.length_append) (Nat.lt_of_not_le hroom)

theorem Kept.step (h : Kept q) (a : Action) : Kept (q.step a) := by
  cases a with
  | enqueue => exact h.enqueue
  | start a built =>
    simp only [DestinationQueue.step]
    split
    · obtain ⟨hgo, hend⟩ := h.moves ‹_›
      split
      · exact hgo _ (by simp [Point.Fits, maxTries])
      · exact hend _ (.inr rfl)
    · exact h
  | settle a k status =>
    simp only [DestinationQueue.step]
    split
    · obtain ⟨hgo, hend⟩ := h.moves ‹_›
      unfold DestinationQueue.decide
      split
      · exact hend _ (.inl rfl)
      · split
        · exact hend _ (.inr rfl)
        · rename_i hmore
          simp only [Bool.or_eq_true, not_or, decide_eq_true_eq, Nat.not_le] at hmore
          exact hgo _ hmore.2
    · exact h
  | retry a k =>
    simp only [DestinationQueue.step]
    split
    · rename_i hcurrent
      exact (h.moves hcurrent).1 (.trying (k + 1)) (h.few a (.resting k) hcurrent)
    · exact h
  | stop =>
    refine ⟨?_, ?_, Nat.zero_le _, fun _ => rfl, by simp [DestinationQueue.step, stop]⟩
    · simpa [DestinationQueue.step, stop, held, Function.comp_def] using h.once
    · refine h.order.sublist ?_
      simp [DestinationQueue.step, stop, held, sent, List.filter_map, Function.comp_def]

end

/-- Each accepted alert is held or has ended once, they are sent in order, at most a hundred wait,
    none is tried a fourth time, and a stopped queue holds none. -/
theorem alerts_end_once (acts : List Action) : Kept (run step create acts) :=
  run_invariant (fun _ a h => h.step a) acts _
    ⟨.nil, .nil, Nat.zero_le _, fun _ => rfl, by simp [create]⟩

end DestinationQueue

end Simlock.Alerts
