import Simlock.Leasing.WaitQueue
import Simlock.Lib.Run

/-! What holds of the queue of waiters in every run.

    Whatever the order of its operations and of its timers, a call leaves the waiter it names in one
    of four ways (`Moves`): as it was, settled, moved between its open states, or with a position.
    From this one relation come the invariants (`Accounts`): the pending waiters are the open ones,
    the positions are those of the waiters still open in the order of their first enqueue, and a
    promise is settled once. -/

namespace Simlock.Leasing

open Simlock.Lib Simlock.Core

variable {γ : Type}

/-! ### Runs of the queue -/

/-- A call of the queue's, or a timer of one of its waiters. A waiter is named by its own name, as
    the calls hold the object itself. -/
inductive QueueAction (γ : Type) where
  | create (id : String) (request : DeviceRequest) (options : WaiterOptions)
  | enqueue (id : String) (now : Int)
  | markProcessing (id : String) (now : Int)
  | markNew (id : String)
  | resolve (id : String) (grant : γ)
  | reject (id : String) (error : WaiterError)
  | cancelAll (error : String → WaiterError)
  | timeout (id : String)

/-- A queue, and the order in which its waiters were first enqueued. -/
structure QueueRun (γ : Type) where
  queue : WaitQueue γ
  enqueued : List String

namespace QueueRun

def empty : QueueRun γ := ⟨.empty, []⟩

/-- One call. A created waiter is a new one. -/
def step (s : QueueRun γ) : QueueAction γ → QueueRun γ
  | .create id request options =>
    if (s.queue.owned id).isSome then s
    else { s with queue := s.queue.create request options id }
  | .enqueue id now =>
    let (waits, queue) := s.queue.enqueue id now
    ⟨queue, if waits && !s.enqueued.contains id then s.enqueued ++ [id] else s.enqueued⟩
  | .markProcessing id now => { s with queue := (s.queue.markProcessing id now).2 }
  | .markNew id => { s with queue := (s.queue.markNew id).2 }
  | .resolve id grant => { s with queue := (s.queue.resolve id grant).2 }
  | .reject id error => { s with queue := (s.queue.reject id error).2 }
  | .cancelAll error => { s with queue := s.queue.cancelAll error }
  | .timeout id => { s with queue := s.queue.timeout id }

end QueueRun

/-! ### What a call leaves of the waiter it names -/

namespace WaitQueue

variable {q q' : WaitQueue γ} {id : String}

/-- The waiter was created, and is neither granted nor rejected. -/
def Open (q : WaitQueue γ) (id : String) : Prop :=
  ∃ w, q.owned id = some w ∧ w.state.isTerminal = false

instance (q : WaitQueue γ) (id : String) : Decidable (q.Open id) :=
  match h : q.owned id with
  | none => .isFalse fun ⟨_, hw, _⟩ => by simp [h] at hw
  | some w =>
    if ht : w.state.isTerminal = false then .isTrue ⟨w, h, ht⟩
    else .isFalse fun ⟨_, hw, ht'⟩ => ht (Option.some.inj (h.symm.trans hw) ▸ ht')

/-- An open waiter after a call that leaves it open: how it asks stays, and so does a deadline. -/
structure Continues (w w' : Waiter γ) : Prop where
  from_open : w.state.isTerminal = false
  to_open : w'.state.isTerminal = false
  request : w'.request = w.request
  options : w'.options = w.options
  deadline : ∀ d, w.deadlineAt = some d → w'.deadlineAt = some d

/-- What a call can do to the waiter it names. -/
inductive Moves (q : WaitQueue γ) (id : String) : WaitQueue γ → Prop where
  | stays : Moves q id q
  | settles (w : Waiter γ) (x : WaiterState γ) (hw : q.owned id = some w)
      (hopen : w.state.isTerminal = false) (hx : x.isTerminal = true) :
      Moves q id (q.settle id w x)
  | continues (w w' : Waiter γ) (hw : q.owned id = some w) (h : Continues w w')
      (hplace : w'.state = .queued → w.state = .queued ∨ id ∈ q.waiters) :
      Moves q id (q.set id w')

theorem settleOpen_moves {x : WaiterState γ} (hx : x.isTerminal = true) :
    Moves q id (q.settleOpen id x).2 := by
  cases hw : q.owned id with
  | none =>
    simp only [settleOpen, hw]
    exact .stays
  | some w =>
    simp only [settleOpen, hw]
    split
    · exact .stays
    · rename_i ht
      exact .settles w x hw (Bool.eq_false_iff.mpr ht) hx

theorem resolve_moves (grant : γ) : Moves q id (q.resolve id grant).2 := settleOpen_moves rfl

theorem reject_moves (error : WaiterError) : Moves q id (q.reject id error).2 :=
  settleOpen_moves rfl

theorem armTimeout_deadline (w : Waiter γ) (now : Int) {d : Int} (h : w.deadlineAt = some d) :
    (w.armTimeout now).deadlineAt = some d := by
  unfold Waiter.armTimeout
  split
  · exact h
  · split
    · exact h
    · simp [h]

theorem armTimeout_request (w : Waiter γ) (now : Int) :
    (w.armTimeout now).request = w.request := by
  unfold Waiter.armTimeout
  split
  · rfl
  · split <;> rfl

theorem markProcessing_moves (now : Int) : Moves q id (q.markProcessing id now).2 := by
  cases hw : q.owned id with
  | none =>
    simp only [markProcessing, hw]
    exact .stays
  | some w =>
    simp only [markProcessing, hw]
    split
    · exact .stays
    · rename_i ht
      split
      · exact reject_moves _
      · have h : Continues w { w with state := .processing } :=
          ⟨Bool.eq_false_iff.mpr ht, rfl, rfl, rfl, fun _ hd => hd⟩
        exact .continues w _ hw h (by simp)

theorem markNew_moves : Moves q id (q.markNew id).2 := by
  cases hw : q.owned id with
  | none =>
    simp only [markNew, hw]
    exact .stays
  | some w =>
    simp only [markNew, hw]
    split
    · exact .stays
    · rename_i ht
      have hstate : (if id ∈ q.waiters then WaiterState.queued (γ := γ) else .new).isTerminal
          = false := by split <;> rfl
      refine .continues w _ hw ⟨Bool.eq_false_iff.mpr ht, hstate, rfl, rfl, fun _ hd => hd⟩ ?_
      dsimp only
      split
      · exact fun _ => .inr (by assumption)
      · nofun

variable (id) in
/-- An enqueue that gives the waiter a position, or keeps the one it has. -/
theorem enqueue_moves (now : Int) :
    (q.enqueue id now).1 = false ∧ Moves q id (q.enqueue id now).2 ∨
      (q.enqueue id now).1 = true ∧ ∃ w w', q.owned id = some w ∧ Continues w w' ∧
        (q.enqueue id now).2 = { q.set id w' with
          waiters := if id ∈ q.waiters then q.waiters else q.waiters ++ [id] } := by
  cases hw : q.owned id with
  | none =>
    simp only [enqueue, hw]
    exact .inl ⟨trivial, .stays⟩
  | some w =>
    simp only [enqueue, hw]
    split
    · exact .inl ⟨rfl, .stays⟩
    · rename_i ht
      split
      · exact .inl ⟨rfl, reject_moves _⟩
      · have h : Continues w { w.armTimeout now with state := .queued } :=
          ⟨Bool.eq_false_iff.mpr ht, rfl, armTimeout_request w now, armTimeout_options w now,
            fun _ hd => armTimeout_deadline w now hd⟩
        exact .inr ⟨rfl, w, _, rfl, h, rfl⟩

/-- A settled waiter has no timer left to fire. -/
theorem timeout_moves
    (htimer : ∀ w, q.owned id = some w → w.state.isTerminal = true → w.timer = none) :
    Moves q id (q.timeout id) := by
  cases hw : q.owned id with
  | none =>
    simp only [timeout, hw]
    exact .stays
  | some w =>
    simp only [timeout, hw]
    split
    · rename_i harmed
      have hopen : w.state.isTerminal = false := by
        refine Bool.eq_false_iff.mpr fun ht => ?_
        simp [htimer w hw ht] at harmed
      split
      · have hset : (q.set id { w with timer := none }).settle id { w with timer := none }
            (.rejected (.queueTimeout id)) = q.settle id w (.rejected (.queueTimeout id)) := by
          simp [settle, set]
        rename_i hs
        have hrej : ((q.set id { w with timer := none }).reject id (.queueTimeout id)).2
            = q.settle id w (.rejected (.queueTimeout id)) := by
          rw [← hset]
          simp [reject, settleOpen, set, hs, WaiterState.isTerminal]
        rw [hrej]
        exact .settles w _ hw hopen rfl
      · have h : Continues w { w with timer := none } :=
          ⟨hopen, hopen, rfl, rfl, fun _ hd => hd⟩
        exact .continues w _ hw h fun hq => .inl hq
    · exact .stays

end WaitQueue

/-! ### The invariants -/

namespace QueueRun

open WaitQueue

/-- What the collections, the states, the timers and the promises say of each other. -/
structure Accounts (s : QueueRun γ) : Prop where
  pending_nodup : s.queue.pendingWaiters.Nodup
  pending : ∀ id, id ∈ s.queue.pendingWaiters ↔ s.queue.Open id
  enqueued_nodup : s.enqueued.Nodup
  enqueued_owned : ∀ id ∈ s.enqueued, (s.queue.owned id).isSome = true
  /-- A position is held from the first enqueue until the waiter settles. -/
  positions : s.queue.waiters = s.enqueued.filter fun id => s.queue.Open id
  queued : ∀ id w, s.queue.owned id = some w → w.state = .queued → id ∈ s.queue.waiters
  settled_once : s.queue.settlements.Nodup
  settled : ∀ id, id ∈ s.queue.settlements ↔ s.queue.Settled id
  timers : ∀ id w, s.queue.owned id = some w → w.state.isTerminal = true → w.timer = none

theorem accounts_empty : Accounts (empty : QueueRun γ) where
  pending_nodup := .nil
  pending id := ⟨nofun, fun ⟨_, hw, _⟩ => by cases hw⟩
  enqueued_nodup := .nil
  enqueued_owned := nofun
  positions := rfl
  queued _ _ hw := by cases hw
  settled_once := .nil
  settled id := ⟨nofun, fun ⟨_, hx, _⟩ => by cases hx⟩
  timers _ _ hw := by cases hw

variable {s : QueueRun γ} {q' : WaitQueue γ} {id : String}

theorem settled_iff {q : WaitQueue γ} {i : String} :
    q.Settled i ↔ ∃ w, q.owned i = some w ∧ w.state.isTerminal = true := by
  constructor
  · rintro ⟨x, hx, ht⟩
    obtain ⟨w, hw, rfl⟩ := Option.map_eq_some_iff.mp hx
    exact ⟨w, hw, ht⟩
  · rintro ⟨w, hw, ht⟩
    exact ⟨w.state, by simp [stateOf, hw], ht⟩

theorem owned_set_self (q : WaitQueue γ) (w : Waiter γ) : (q.set id w).owned id = some w :=
  Function.update_self ..

theorem owned_set_ne (q : WaitQueue γ) (w : Waiter γ) {i : String} (hi : i ≠ id) :
    (q.set id w).owned i = q.owned i := Function.update_of_ne hi ..

/-- Replacing a waiter by one as open as it was leaves every waiter as open, or settled, as before. -/
theorem open_set {q : WaitQueue γ} {w w' : Waiter γ} (hw : q.owned id = some w)
    (ht : w'.state.isTerminal = w.state.isTerminal) (i : String) :
    ((q.set id w').Open i ↔ q.Open i) ∧ ((q.set id w').Settled i ↔ q.Settled i) := by
  simp only [settled_iff, Open]
  by_cases hi : i = id
  · subst hi
    simp [owned_set_self, hw, ht]
  · simp [owned_set_ne q w' hi]

theorem Accounts.continues {w w' : Waiter γ} (h : Accounts s) (hw : s.queue.owned id = some w)
    (hc : Continues w w')
    (hplace : w'.state = .queued → w.state = .queued ∨ id ∈ s.queue.waiters) :
    Accounts { s with queue := s.queue.set id w' } := by
  have ht : w'.state.isTerminal = w.state.isTerminal := hc.to_open.trans hc.from_open.symm
  refine ⟨h.pending_nodup, fun i => ?_, h.enqueued_nodup, fun i hi => ?_, ?_, fun i v hv hq => ?_,
    h.settled_once, fun i => ?_, fun i v hv hvt => ?_⟩
  · exact (h.pending i).trans (open_set hw ht i).1.symm
  · by_cases hid : i = id
    · rw [hid, owned_set_self]
      rfl
    · rw [owned_set_ne _ _ hid]
      exact h.enqueued_owned i hi
  · refine h.positions.trans (List.filter_congr fun i _ => ?_)
    exact decide_eq_decide.mpr (open_set hw ht i).1.symm
  · by_cases hid : i = id
    · subst hid
      obtain rfl : w' = v := Option.some.inj ((owned_set_self _ _).symm.trans hv)
      rcases hplace hq with hq' | hmem
      · exact h.queued i w hw hq'
      · exact hmem
    · exact h.queued i v ((owned_set_ne _ _ hid).symm.trans hv) hq
  · exact (h.settled i).trans (open_set hw ht i).2.symm
  · by_cases hid : i = id
    · subst hid
      obtain rfl : w' = v := Option.some.inj ((owned_set_self _ _).symm.trans hv)
      simp [hc.to_open] at hvt
    · exact h.timers i v ((owned_set_ne _ _ hid).symm.trans hv) hvt

theorem Accounts.settles {w : Waiter γ} {x : WaiterState γ} (h : Accounts s)
    (hw : s.queue.owned id = some w) (hopen : w.state.isTerminal = false)
    (hx : x.isTerminal = true) : Accounts { s with queue := s.queue.settle id w x } := by
  have hself : (s.queue.settle id w x).owned id = some { w with state := x, timer := none } :=
    owned_set_self _ _
  have hother : ∀ i ≠ id, (s.queue.settle id w x).owned i = s.queue.owned i :=
    fun i hi => owned_set_ne _ _ hi
  have hclosed : ¬ (s.queue.settle id w x).Open id := by
    rintro ⟨v, hv, hvt⟩
    obtain rfl := Option.some.inj (hself.symm.trans hv)
    simp [hx] at hvt
  have hopen_iff : ∀ i, (s.queue.settle id w x).Open i ↔ i ≠ id ∧ s.queue.Open i := by
    intro i
    by_cases hi : i = id
    · subst hi
      simp [hclosed]
    · simp [Open, hother i hi, hi]
  have hnot : ¬ s.queue.Settled id := by
    rw [settled_iff]
    rintro ⟨v, hv, hvt⟩
    obtain rfl := Option.some.inj (hw.symm.trans hv)
    simp [hopen] at hvt
  have hset : (s.queue.settle id w x).Settled id := settled_iff.mpr ⟨_, hself, hx⟩
  refine ⟨h.pending_nodup.erase _, fun i => ?_, h.enqueued_nodup, fun i hi => ?_, ?_,
    fun i v hv hq => ?_, ?_, fun i => ?_, fun i v hv hvt => ?_⟩
  · exact (h.pending_nodup.mem_erase_iff.trans (and_congr_right' (h.pending i))).trans
      (hopen_iff i).symm
  · by_cases hid : i = id
    · rw [hid, hself]
      rfl
    · rw [hother i hid]
      exact h.enqueued_owned i hi
  · have hnodup : s.queue.waiters.Nodup := h.positions ▸ h.enqueued_nodup.filter _
    refine (hnodup.erase_eq_filter id).trans ?_
    rw [h.positions, List.filter_filter]
    refine List.filter_congr fun i _ => ?_
    rw [decide_eq_decide.mpr (hopen_iff i), Bool.decide_and, decide_not, bne, beq_eq_decide]
  · have hid : i ≠ id := by
      rintro rfl
      obtain rfl := Option.some.inj (hself.symm.trans hv)
      simp only at hq
      simp [hq, WaiterState.isTerminal] at hx
    exact (List.mem_erase_of_ne hid).mpr (h.queued i v ((hother i hid).symm.trans hv) hq)
  · refine List.nodup_append.mpr ⟨h.settled_once, List.nodup_singleton _, ?_⟩
    rintro a ha b hb rfl
    exact hnot ((h.settled id).mp (List.mem_singleton.mp hb ▸ ha))
  · have hmem : i ∈ (s.queue.settle id w x).settlements ↔ i ∈ s.queue.settlements ∨ i = id := by
      simp [settle]
    rw [hmem]
    by_cases hid : i = id
    · simp [hid, hset]
    · simp [hid, h.settled i, settled_iff, hother i hid]
  · by_cases hid : i = id
    · subst hid
      exact (Option.some.inj (hself.symm.trans hv)) ▸ rfl
    · exact h.timers i v ((hother i hid).symm.trans hv) hvt

theorem Accounts.moves (h : Accounts s) (hm : Moves s.queue id q') :
    Accounts { s with queue := q' } := by
  cases hm with
  | stays => exact h
  | settles w x hw hopen hx => exact h.settles hw hopen hx
  | continues w w' hw hc hplace => exact h.continues hw hc hplace

/-- A first enqueue is noted; a later one finds the position there. -/
theorem Accounts.queues {w w' : Waiter γ} (h : Accounts s) (hw : s.queue.owned id = some w)
    (hc : Continues w w') :
    Accounts ⟨{ s.queue.set id w' with
        waiters := if id ∈ s.queue.waiters then s.queue.waiters else s.queue.waiters ++ [id] },
      if !s.enqueued.contains id then s.enqueued ++ [id] else s.enqueued⟩ := by
  have hopen : s.queue.Open id := ⟨w, hw, hc.from_open⟩
  have hmem : id ∈ s.queue.waiters ↔ id ∈ s.enqueued := by
    rw [h.positions, List.mem_filter]
    simp [hopen]
  by_cases hid : id ∈ s.queue.waiters
  · have hseen : s.enqueued.contains id = true := List.contains_iff_mem.mpr (hmem.mp hid)
    rw [if_pos hid, hseen]
    exact h.continues hw hc fun _ => .inr hid
  · have hne : id ∉ s.enqueued := fun hin => hid (hmem.mpr hin)
    have ht : w'.state.isTerminal = w.state.isTerminal := hc.to_open.trans hc.from_open.symm
    have hseen : s.enqueued.contains id = false := by simpa using hne
    rw [if_neg hid, hseen]
    refine ⟨h.pending_nodup, fun i => ?_, ?_, fun i hi => ?_, ?_, fun i v hv hq => ?_,
      h.settled_once, fun i => ?_, fun i v hv hvt => ?_⟩
    · exact (h.pending i).trans (open_set hw ht i).1.symm
    · refine List.nodup_append.mpr ⟨h.enqueued_nodup, List.nodup_singleton _, ?_⟩
      rintro a ha b hb rfl
      exact hne (List.mem_singleton.mp hb ▸ ha)
    · by_cases hi' : i = id
      · rw [hi', owned_set_self]
        rfl
      · rw [owned_set_ne _ _ hi']
        exact h.enqueued_owned i (by simpa [hi'] using hi)
    · have hold : s.queue.waiters = s.enqueued.filter fun i => (s.queue.set id w').Open i :=
        h.positions.trans
          (List.filter_congr fun i _ => decide_eq_decide.mpr (open_set hw ht i).1.symm)
      have hnew : [id] = [id].filter fun i => (s.queue.set id w').Open i := by
        simp [(open_set hw ht id).1.mpr hopen]
      refine (congrArg₂ (· ++ ·) hold hnew).trans ?_
      exact (List.filter_append ..).symm
    · by_cases hi' : i = id
      · simp [hi']
      · exact List.mem_append_left _ (h.queued i v ((owned_set_ne _ _ hi').symm.trans hv) hq)
    · exact (h.settled i).trans (open_set hw ht i).2.symm
    · by_cases hi' : i = id
      · subst hi'
        obtain rfl : w' = v := Option.some.inj ((owned_set_self _ _).symm.trans hv)
        simp [hc.to_open] at hvt
      · exact h.timers i v ((owned_set_ne _ _ hi').symm.trans hv) hvt

theorem Accounts.creates (h : Accounts s) (hnone : s.queue.owned id = none)
    (request : DeviceRequest) (options : WaiterOptions) :
    Accounts { s with queue := s.queue.create request options id } := by
  have hself : (s.queue.create request options id).owned id
      = some ⟨request, options, .new, none, none⟩ := owned_set_self _ _
  have hother : ∀ i ≠ id, (s.queue.create request options id).owned i = s.queue.owned i :=
    fun i hi => owned_set_ne _ _ hi
  have hopen : ∀ i, (s.queue.create request options id).Open i ↔ s.queue.Open i ∨ i = id := by
    intro i
    by_cases hi : i = id
    · subst hi
      simp [Open, hself, WaiterState.isTerminal]
    · simp [Open, hother i hi, hi]
  have hsettled : ∀ i, (s.queue.create request options id).Settled i ↔ s.queue.Settled i := by
    intro i
    simp only [settled_iff]
    by_cases hi : i = id
    · subst hi
      simp [hself, hnone, WaiterState.isTerminal]
    · simp [hother i hi]
  have hpend : id ∉ s.queue.pendingWaiters := by
    intro hin
    obtain ⟨v, hv, -⟩ := (h.pending id).mp hin
    simp [hnone] at hv
  refine ⟨?_, fun i => ?_, h.enqueued_nodup, fun i hi => ?_, ?_, fun i v hv hq => ?_,
    h.settled_once, fun i => (h.settled i).trans (hsettled i).symm, fun i v hv hvt => ?_⟩
  · refine List.nodup_append.mpr ⟨h.pending_nodup, List.nodup_singleton _, ?_⟩
    rintro a ha b hb rfl
    exact hpend (List.mem_singleton.mp hb ▸ ha)
  · rw [hopen, ← h.pending]
    simp [create]
  · by_cases hid : i = id
    · rw [hid, hself]
      rfl
    · rw [hother i hid]
      exact h.enqueued_owned i hi
  · refine h.positions.trans (List.filter_congr fun i hi => decide_eq_decide.mpr ?_)
    have hid : i ≠ id := by
      rintro rfl
      have howned := h.enqueued_owned i hi
      simp [hnone] at howned
    simp [hopen, hid]
  · have hid : i ≠ id := by
      rintro rfl
      obtain rfl := Option.some.inj (hself.symm.trans hv)
      cases hq
    exact h.queued i v ((hother i hid).symm.trans hv) hq
  · have hid : i ≠ id := by
      rintro rfl
      obtain rfl := Option.some.inj (hself.symm.trans hv)
      simp [WaiterState.isTerminal] at hvt
    exact h.timers i v ((hother i hid).symm.trans hv) hvt

theorem Accounts.cancels (h : Accounts s) (error : String → WaiterError) :
    Accounts { s with queue := s.queue.cancelAll error } := by
  have hfold : ∀ (ids : List String) (q : WaitQueue γ), Accounts { s with queue := q } →
      Accounts { s with queue := ids.foldl (fun q id => (q.reject id (error id)).2) q } := by
    intro ids
    induction ids with
    | nil => exact fun q hq => hq
    | cons id ids ih => exact fun q hq => ih _ (hq.moves (reject_moves _))
  exact hfold s.queue.pendingWaiters s.queue h

theorem step_accounts (s : QueueRun γ) (a : QueueAction γ) (h : Accounts s) :
    Accounts (s.step a) := by
  cases a with
  | create id request options =>
    simp only [step]
    split
    · exact h
    · rename_i hnone
      exact h.creates (by simpa using hnone) request options
  | enqueue id now =>
    simp only [step]
    rcases enqueue_moves id (q := s.queue) now with ⟨hf, hm⟩ | ⟨ht, w, w', hw, hc, heq⟩
    · rw [hf]
      exact h.moves hm
    · rw [ht, heq]
      exact h.queues hw hc
  | markProcessing id now => exact h.moves (markProcessing_moves now)
  | markNew id => exact h.moves markNew_moves
  | resolve id grant => exact h.moves (resolve_moves grant)
  | reject id error => exact h.moves (reject_moves error)
  | cancelAll error => exact h.cancels error
  | timeout id => exact h.moves (timeout_moves (h.timers id))

theorem accounts_run (acts : List (QueueAction γ)) : Accounts (run step empty acts) :=
  run_invariant step_accounts acts empty accounts_empty

/-! ### What a waiter keeps -/

/-- A later state of a waiter: it asks as before, a deadline once fixed stays, and what its promise
    settled with stays. -/
structure Keeps (w w' : Waiter γ) : Prop where
  request : w'.request = w.request
  options : w'.options = w.options
  deadline : ∀ d, w.deadlineAt = some d → w'.deadlineAt = some d
  settled : w.state.isTerminal = true → w' = w

theorem Keeps.refl (w : Waiter γ) : Keeps w w := ⟨rfl, rfl, fun _ h => h, fun _ => rfl⟩

theorem Keeps.trans {w w' w'' : Waiter γ} (h : Keeps w w') (h' : Keeps w' w'') : Keeps w w'' := by
  refine ⟨h'.request.trans h.request, h'.options.trans h.options,
    fun d hd => h'.deadline d (h.deadline d hd), fun ht => ?_⟩
  have hw : w' = w := h.settled ht
  exact (h'.settled (hw ▸ ht)).trans hw

theorem Keeps.of_continues {w w' : Waiter γ} (h : Continues w w') : Keeps w w' :=
  ⟨h.request, h.options, h.deadline, fun ht => by simp [h.from_open] at ht⟩

/-- Every waiter of `q` is kept by `q'`. -/
def KeepsAll (q q' : WaitQueue γ) : Prop :=
  ∀ i w, q.owned i = some w → ∃ w', q'.owned i = some w' ∧ Keeps w w'

theorem KeepsAll.refl (q : WaitQueue γ) : KeepsAll q q := fun _ w hw => ⟨w, hw, .refl w⟩

theorem KeepsAll.trans {q q' q'' : WaitQueue γ} (h : KeepsAll q q') (h' : KeepsAll q' q'') :
    KeepsAll q q'' := by
  intro i w hw
  obtain ⟨w', hw', hk⟩ := h i w hw
  obtain ⟨w'', hw'', hk'⟩ := h' i w' hw'
  exact ⟨w'', hw'', hk.trans hk'⟩

theorem keepsAll_set {q : WaitQueue γ} {w w' : Waiter γ} (hw : q.owned id = some w)
    (hk : Keeps w w') : KeepsAll q (q.set id w') := by
  intro i v hv
  by_cases hi : i = id
  · subst hi
    obtain rfl := Option.some.inj (hw.symm.trans hv)
    exact ⟨w', owned_set_self _ _, hk⟩
  · exact ⟨v, (owned_set_ne _ _ hi).trans hv, .refl v⟩

theorem keepsAll_moves {q q' : WaitQueue γ} (hm : Moves q id q') : KeepsAll q q' := by
  cases hm with
  | stays => exact .refl q
  | settles w x hw hopen hx =>
    have hk : Keeps w { w with state := x, timer := none } :=
      ⟨rfl, rfl, fun _ h => h, fun ht => by simp [hopen] at ht⟩
    exact keepsAll_set hw hk
  | continues w w' hw hc hplace => exact keepsAll_set hw (.of_continues hc)

theorem keepsAll_cancelAll (q : WaitQueue γ) (error : String → WaiterError) :
    KeepsAll q (q.cancelAll error) := by
  unfold cancelAll
  generalize q.pendingWaiters = ids
  induction ids generalizing q with
  | nil => exact .refl q
  | cons id ids ih => exact (keepsAll_moves (reject_moves (error id))).trans (ih _)

theorem step_keeps (s : QueueRun γ) (a : QueueAction γ) (h : Accounts s) :
    KeepsAll s.queue (s.step a).queue := by
  cases a with
  | create id request options =>
    simp only [step]
    split
    · exact .refl _
    · rename_i hnone
      intro i w hw
      have hi : i ≠ id := by
        rintro rfl
        simp [hw] at hnone
      exact ⟨w, (owned_set_ne _ _ hi).trans hw, .refl w⟩
  | enqueue id now =>
    simp only [step]
    rcases enqueue_moves id (q := s.queue) now with ⟨-, hm⟩ | ⟨-, w, w', hw, hc, heq⟩
    · exact keepsAll_moves hm
    · rw [heq]
      exact keepsAll_set hw (.of_continues hc)
  | markProcessing id now => exact keepsAll_moves (markProcessing_moves now)
  | markNew id => exact keepsAll_moves markNew_moves
  | resolve id grant => exact keepsAll_moves (resolve_moves grant)
  | reject id error => exact keepsAll_moves (reject_moves error)
  | cancelAll error => exact keepsAll_cancelAll _ error
  | timeout id => exact keepsAll_moves (timeout_moves (h.timers id))

theorem keepsAll_run (acts : List (QueueAction γ)) :
    ∀ s : QueueRun γ, Accounts s → KeepsAll s.queue (run step s acts).queue := by
  induction acts with
  | nil => exact fun s _ => .refl _
  | cons a acts ih =>
    exact fun s h => (step_keeps s a h).trans (ih _ (step_accounts s a h))

/-! ### The invariants of every run -/

/-- The invariants of the queue, after any calls `acts`; what a promise settled with is what it has
    after any further calls. -/
theorem queue_invariants (acts later : List (QueueAction γ)) :
    let s := run step empty acts
    let q := s.queue
    (∀ id, id ∈ q.pendingWaiters ↔ q.Open id) ∧
    (q.waiters.Nodup ∧ (∀ id ∈ q.waiters, id ∈ q.pendingWaiters) ∧ q.waiters.Sublist s.enqueued) ∧
    (∀ id, q.stateOf id = some .queued → id ∈ q.waiters) ∧
    (∀ id, q.settlements.count id ≤ 1 ∧ (q.settlements.count id = 1 ↔ q.Settled id)) ∧
    (∀ id x, q.stateOf id = some x → x.isTerminal = true →
      (run step s later).queue.stateOf id = some x) ∧
    (∀ id w, q.owned id = some w → q.Settled id → w.timer = none) := by
  intro s q
  have h : Accounts s := accounts_run acts
  have hsub : q.waiters.Sublist s.enqueued := h.positions ▸ List.filter_sublist
  refine ⟨h.pending, ⟨h.enqueued_nodup.sublist hsub, fun id hid => ?_, hsub⟩, fun id hid => ?_,
    fun id => ⟨List.nodup_iff_count_le_one.mp h.settled_once id, ?_⟩, fun id x hx ht => ?_,
    fun id w hw hs => ?_⟩
  · have hmem : id ∈ s.enqueued.filter fun i => s.queue.Open i := h.positions ▸ hid
    exact (h.pending id).mpr (of_decide_eq_true (List.mem_filter.mp hmem).2)
  · obtain ⟨w, hw, hq⟩ := Option.map_eq_some_iff.mp hid
    exact h.queued id w hw hq
  · rw [← h.settled id]
    have hle : q.settlements.count id ≤ 1 := List.nodup_iff_count_le_one.mp h.settled_once id
    have hpos : 0 < q.settlements.count id ↔ id ∈ q.settlements := List.count_pos_iff
    constructor
    · intro hc
      exact hpos.mp (by omega)
    · intro hin
      have := hpos.mpr hin
      omega
  · obtain ⟨w, hw, rfl⟩ := Option.map_eq_some_iff.mp hx
    obtain ⟨w', hw', hk⟩ := keepsAll_run later s h id w hw
    rw [stateOf, hw', hk.settled ht]
    rfl
  · obtain ⟨v, hv, hvt⟩ := settled_iff.mp hs
    obtain rfl := Option.some.inj (hv.symm.trans hw)
    exact h.timers id v hv hvt

end QueueRun

end Simlock.Leasing
