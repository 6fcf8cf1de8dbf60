import Simlock.Gateway.FleetCoordinator

/-! One attempt at a time, and one lease, for each of the gateway's waiters.

    A forwarded request is live while its answer has not come, and after that while it may hold a
    lease the gateway has not given back. A waiter has at most one live request. It has none in the
    queue, and in `processing` it has one whose answer is awaited.

    A walk moves one waiter at a time. The waiter handed to it is between two attempts: what holds
    of every other waiter need not hold of it until the walk, or what follows the walk, has placed
    it again. -/

namespace Simlock.Gateway

open Simlock.Lib Simlock.Core Simlock.Leasing

namespace Forwarded

/-- The worker may hold a lease for the request that the gateway has not given back. -/
def MayHold (c : Forwarded) : Prop := c.release = .none ∧ ∀ e, c.answer ≠ some (.refused e)

def Live (c : Forwarded) : Prop := c.arrived = false ∨ c.MayHold

/-- Nothing waits for what has arrived, and nothing is given back before. -/
structure Ok (c : Forwarded) : Prop where
  awaited : c.awaited = true → c.arrived = false
  unreleased : c.arrived = false → c.release = .none

/-- The worker granted a lease that the gateway has not given back. -/
def KeepsLease (c : Forwarded) : Prop := c.release = .none ∧ ∃ g, c.answer = some (.granted g)

theorem KeepsLease.live {c : Forwarded} (h : c.KeepsLease) : c.Live := by
  obtain ⟨hr, g, hg⟩ := h
  refine .inr ⟨hr, fun e he => ?_⟩
  cases hg.symm.trans he

end Forwarded

/-- The requests of one waiter: at most one is live. -/
structure OneLive (cs : Nat → Option Forwarded) : Prop where
  one : ∀ {n m c d}, cs n = some c → cs m = some d → c.Live → d.Live → n = m
  ok : ∀ {n c}, cs n = some c → c.Ok

/-- How a waiter's state goes with its requests. -/
structure Placed (s : Option (WaiterState FleetLeaseGrant)) (cs : Nat → Option Forwarded) : Prop
    extends OneLive cs where
  fresh : s = none ∨ s = some .new → ∀ n, cs n = none
  queued : s = some .queued → ∀ {n c}, cs n = some c → ¬ c.Live
  processing : s = some .processing → ∃ n c, cs n = some c ∧ c.awaited = true

theorem Placed.of_settled {s : Option (WaiterState FleetLeaseGrant)} {cs : Nat → Option Forwarded}
    (h : OneLive cs) (hs : ∃ x, s = some x ∧ x.isTerminal = true) : Placed s cs := by
  obtain ⟨x, rfl, hx⟩ := hs
  refine ⟨h, ?_, ?_, ?_⟩
  · rintro (h | h)
    · cases h
    · cases Option.some.inj h
      cases hx
  · intro h
    cases Option.some.inj h
    cases hx
  · intro h
    cases Option.some.inj h
    cases hx

namespace FleetHost

variable {ν : Type} {o : FleetOptions ν} {h h' h'' : FleetHost ν} {id : String}

/-- The forwarded requests of a waiter. -/
def callsOf (h : FleetHost ν) (i : String) (n : Nat) : Option Forwarded :=
  (h.calls n).filter fun c => c.waiter = i

theorem callsOf_eq_some {i : String} {n : Nat} {c : Forwarded} :
    h.callsOf i n = some c ↔ h.calls n = some c ∧ c.waiter = i := by
  simp [callsOf, Option.filter_eq_some_iff]

/-- Between two attempts: settled, or without a live request. -/
def Idle (h : FleetHost ν) (i : String) : Prop :=
  h.queue.Settled i ∨ ∀ {n c}, h.callsOf i n = some c → ¬ c.Live

/-- The number of the next request is not in use. -/
def Fresh (h : FleetHost ν) : Prop := ∀ n ≥ h.sent, h.calls n = none

/-- What a step on the waiter `id` leaves of the rest. -/
structure Touches (h h' : FleetHost ν) (id : String) : Prop where
  queue : h.queue.OnlyMoves h'.queue id
  calls : h.Fresh → ∀ i ≠ id, h'.callsOf i = h.callsOf i
  admitting : h'.admitting = h.admitting
  nodup : h.queue.waiters.Nodup → h'.queue.waiters.Nodup
  fresh : h.Fresh → h'.Fresh

theorem Touches.refl (h : FleetHost ν) (id : String) : Touches h h id :=
  ⟨.refl _ _, fun _ _ _ => rfl, rfl, fun hn => hn, fun hf => hf⟩

theorem Touches.trans (ht : Touches h h' id) (ht' : Touches h' h'' id) : Touches h h'' id where
  queue := ht.queue.trans ht'.queue
  calls hf i hi := (ht'.calls (ht.fresh hf) i hi).trans (ht.calls hf i hi)
  admitting := ht'.admitting.trans ht.admitting
  nodup hn := ht'.nodup (ht.nodup hn)
  fresh hf := ht'.fresh (ht.fresh hf)

theorem Touches.stateOf (ht : Touches h h' id) {i : String} (hi : i ≠ id) :
    h'.queue.stateOf i = h.queue.stateOf i := ht.queue.stateOf hi

theorem Touches.idle (ht : Touches h h' id) (hf : h.Fresh) {i : String} (hi : i ≠ id)
    (hidle : h.Idle i) : h'.Idle i := by
  rcases hidle with ⟨x, hx, hxt⟩ | hnone
  · exact .inl ⟨x, (ht.stateOf hi).trans hx, hxt⟩
  · refine .inr fun {n c} hc => hnone (n := n) ?_
    rw [← ht.calls hf i hi]
    exact hc

/-- Created, and not walked yet. -/
def Unwalked (h : FleetHost ν) (i : String) : Prop :=
  (h.queue.stateOf i = some .new ∨ h.queue.Settled i) ∧ ∀ n, h.callsOf i n = none

theorem Touches.unwalked (ht : Touches h h' id) (hf : h.Fresh) {i : String} (hi : i ≠ id)
    (hu : h.Unwalked i) : h'.Unwalked i := by
  obtain ⟨hs, hn⟩ := hu
  refine ⟨?_, fun n => (congrFun (ht.calls hf i hi) n).trans (hn n)⟩
  rcases hs with hs | ⟨x, hx, hxt⟩
  · exact .inl ((ht.stateOf hi).trans hs)
  · exact .inr ⟨x, (ht.stateOf hi).trans hx, hxt⟩

/-- What holds between the steps of a walk; `e` is the waiter between two attempts. -/
structure Between (h : FleetHost ν) (e : Option String) : Prop where
  nodup : h.queue.waiters.Nodup
  fresh : h.Fresh
  admitting : ∀ i ∈ h.admitting, e ≠ some i ∧ h.Unwalked i
  placed : ∀ i, e ≠ some i → Placed (h.queue.stateOf i) (h.callsOf i)
  oneLive : ∀ i, e = some i → OneLive (h.callsOf i) ∧ h.queue.stateOf i ≠ none

/-- A waiter that is placed again is one like the others. -/
theorem Between.place (hb : Between h e) (ht : Touches h h' id)
    (hp : Placed (h'.queue.stateOf id) (h'.callsOf id))
    (ha : id ∈ h.admitting → h'.Unwalked id) :
    Between h' (e.filter fun i => i ≠ id) where
  nodup := ht.nodup hb.nodup
  fresh := ht.fresh hb.fresh
  admitting i hi := by
    rw [ht.admitting] at hi
    obtain ⟨he, hs⟩ := hb.admitting i hi
    refine ⟨fun hf => he (Option.filter_eq_some_iff.mp hf).1, ?_⟩
    by_cases hid : i = id
    · exact hid ▸ ha (hid ▸ hi)
    · exact ht.unwalked hb.fresh hid hs
  placed i hi := by
    by_cases hid : i = id
    · exact hid ▸ hp
    · rw [ht.stateOf hid, ht.calls hb.fresh i hid]
      refine hb.placed i fun he => hi ?_
      simp [he, hid]
  oneLive i hi := by
    obtain ⟨he, hid⟩ := Option.filter_eq_some_iff.mp hi
    have hid : i ≠ id := by simpa using hid
    rw [ht.stateOf hid, ht.calls hb.fresh i hid]
    exact hb.oneLive i he

/-- The waiter between two attempts moves, and stays between them. -/
theorem Between.move (hb : Between h (some id)) (ht : Touches h h' id)
    (hc : OneLive (h'.callsOf id)) (hs : h'.queue.stateOf id ≠ none) : Between h' (some id) where
  nodup := ht.nodup hb.nodup
  fresh := ht.fresh hb.fresh
  admitting i hi := by
    rw [ht.admitting] at hi
    obtain ⟨he, hs⟩ := hb.admitting i hi
    have hid : i ≠ id := fun hid => he (hid ▸ rfl)
    exact ⟨he, ht.unwalked hb.fresh hid hs⟩
  placed i hi := by
    have hid : i ≠ id := fun hid => hi (hid ▸ rfl)
    rw [ht.stateOf hid, ht.calls hb.fresh i hid]
    exact hb.placed i hi
  oneLive i hi := by
    cases Option.some.inj hi
    exact ⟨hc, hs⟩

/-! ### The steps of a walk -/

theorem touches_queue {queue : WaitQueue FleetLeaseGrant} (hq : h.queue.OnlyMoves queue id)
    (hn : h.queue.waiters.Nodup → queue.waiters.Nodup) : Touches h { h with queue := queue } id :=
  ⟨hq, fun _ _ _ => rfl, rfl, hn, fun hf => hf⟩

theorem touches_reject (error : DispatchError) : Touches h (h.reject id error) id :=
  touches_queue (WaitQueue.reject_onlyMoves _) (WaitQueue.nodup_reject _)

theorem touches_enqueue (now : Int) : Touches h (h.enqueue id now) id :=
  touches_queue (WaitQueue.enqueue_onlyMoves now) (WaitQueue.nodup_enqueue now)

theorem touches_setRefusals (memo : List (String × Refusal)) :
    Touches h (h.setRefusals id memo) id :=
  ⟨.refl _ _, fun _ _ _ => rfl, rfl, fun hn => hn, fun hf => hf⟩

theorem touches_noteReasons (request : RoutableRequest) (unreachable : Option String) :
    Touches h (h.noteReasons o id request unreachable) id := touches_setRefusals _

theorem touches_staleView (unreachable : Option String) (now : Int) :
    Touches h (h.staleView o id unreachable now) id := by
  unfold staleView
  split
  · exact .refl h id
  · exact (touches_noteReasons _ _).trans (touches_enqueue now)

theorem callsOf_setCall {n m : Nat} {c : Forwarded} {i : String} :
    (h.setCall n c).callsOf i m =
      if m = n then (if c.waiter = i then some c else none) else h.callsOf i m := by
  by_cases hm : m = n
  · subst hm
    simp [callsOf, setCall, Option.filter]
  · simp [callsOf, setCall, hm]

theorem Fresh.setCall (hf : h.Fresh) {n : Nat} {c c' : Forwarded} (hc : h.calls n = some c) :
    (h.setCall n c').Fresh := by
  intro m hm
  have hne : m ≠ n := by
    rintro rfl
    simp [hf m hm] at hc
  simpa [FleetHost.setCall, hne] using hf m hm

/-- A forwarded request is replaced by one of the same waiter. -/
theorem touches_setCall {n : Nat} {c : Forwarded} (c' : Forwarded) (hc : h.calls n = some c)
    (hw : c'.waiter = c.waiter) : Touches h (h.setCall n c') c.waiter where
  queue := .refl _ _
  calls _ i hi := by
    funext m
    rw [callsOf_setCall, hw, if_neg hi.symm]
    split
    · rename_i hm
      subst hm
      simp [callsOf, hc, Option.filter, hi.symm]
    · rfl
  admitting := rfl
  nodup hn := hn
  fresh hf := hf.setCall hc

/-- A request is forwarded for the waiter. -/
theorem touches_forward {c : Forwarded} (hw : c.waiter = id) :
    Touches h { h.setCall h.sent c with sent := h.sent + 1 } id where
  queue := .refl _ _
  calls hf i hi := by
    funext m
    have hold : h.callsOf i h.sent = none := by simp [callsOf, hf h.sent (Nat.le_refl _)]
    rw [show FleetHost.callsOf { h.setCall h.sent c with sent := h.sent + 1 } i m =
      (h.setCall h.sent c).callsOf i m from rfl, callsOf_setCall, hw, if_neg hi.symm]
    split
    · rename_i hm
      rw [hm, hold]
    · rfl
  admitting := rfl
  nodup hn := hn
  fresh hf m hm := by
    have hlt : h.sent < m := hm
    simpa [FleetHost.setCall, Nat.ne_of_gt hlt] using hf m (Nat.le_of_lt hlt)

theorem touches_attempt (workerId : String) (now : Int) :
    Touches h (h.attempt o id workerId now) id := by
  unfold attempt
  split
  · exact touches_forward rfl
  · exact touches_staleView _ _

theorem touches_beginAttempt (workerId : String) (now : Int) :
    Touches h (h.beginAttempt o id workerId now) id := by
  have hmark : Touches h { h with queue := (h.queue.markProcessing id now).2 } id :=
    touches_queue (WaitQueue.markProcessing_onlyMoves now) (WaitQueue.nodup_markProcessing now)
  unfold beginAttempt
  split
  · rename_i hq
    rw [hq] at hmark
    exact hmark
  · rename_i hq
    rw [hq] at hmark
    exact hmark.trans (touches_attempt workerId now)

/-! ### Where a step leaves its waiter -/

theorem stateOf_ne_none_of_idle (hp : Placed (h.queue.stateOf id) (h.callsOf id)) {n : Nat}
    {c : Forwarded} (hc : h.callsOf id n = some c) : h.queue.stateOf id ≠ none := by
  intro hs
  simp [hp.fresh (.inl hs) n] at hc

/-- An enqueue places a waiter that is between two attempts. -/
theorem placed_enqueue (hc : OneLive (h.callsOf id)) (hs : h.queue.stateOf id ≠ none)
    (hidle : h.Idle id) (now : Int) :
    Placed ((h.enqueue id now).queue.stateOf id) ((h.enqueue id now).callsOf id) := by
  rcases WaitQueue.enqueue_stateOf now hs with hset | ⟨hopen, hq⟩
  · exact .of_settled hc hset
  · have hq : (h.enqueue id now).queue.stateOf id = some .queued := hq
    rw [hq]
    refine ⟨hc, ?_, fun _ => hidle.resolve_left hopen, nofun⟩
    rintro (h | h) <;> cases h

theorem placed_staleView (hc : OneLive (h.callsOf id)) (hs : h.queue.stateOf id ≠ none)
    (hidle : h.Idle id) (unreachable : Option String) (now : Int) :
    Placed ((h.staleView o id unreachable now).queue.stateOf id)
      ((h.staleView o id unreachable now).callsOf id) := by
  unfold staleView
  split
  · rename_i hw
    simp [WaitQueue.stateOf, hw] at hs
  · exact placed_enqueue (h := h.noteReasons o id _ unreachable) hc hs hidle now

/-- An attempt of a waiter that is taken up, and has no live request, places it. -/
theorem placed_attempt (hc : OneLive (h.callsOf id))
    (hs : h.queue.stateOf id = some .processing)
    (hidle : ∀ {n c}, h.callsOf id n = some c → ¬ c.Live) (workerId : String) (now : Int) :
    Placed ((h.attempt o id workerId now).queue.stateOf id)
      ((h.attempt o id workerId now).callsOf id) := by
  unfold attempt
  split
  · have hcalls : ∀ m, FleetHost.callsOf { h.setCall h.sent
        ⟨id, workerId, false, true, false, none, .none⟩ with sent := h.sent + 1 } id m =
          if m = h.sent then some ⟨id, workerId, false, true, false, none, .none⟩
          else h.callsOf id m := by
      intro m
      exact callsOf_setCall.trans (by simp)
    refine ⟨⟨?_, ?_⟩, ?_, ?_, ?_⟩
    · intro n m c d hn hm hcl hdl
      rw [hcalls] at hn hm
      split at hn
      · split at hm
        · rename_i h1 h2
          rw [h1, h2]
        · exact absurd hdl (hidle hm)
      · exact absurd hcl (hidle hn)
    · intro n c hn
      rw [hcalls] at hn
      split at hn
      · cases hn
        exact ⟨fun _ => rfl, fun _ => rfl⟩
      · exact hc.ok hn
    · rintro (h' | h')
      · cases hs.symm.trans h'
      · cases Option.some.inj (hs.symm.trans h')
    · intro h'
      cases Option.some.inj (hs.symm.trans h')
    · intro _
      exact ⟨h.sent, _, by rw [hcalls, if_pos rfl], rfl⟩
  · exact placed_staleView hc (by simp [hs]) (.inr hidle) _ _

theorem placed_beginAttempt (hc : OneLive (h.callsOf id)) (hs : h.queue.stateOf id ≠ none)
    (hidle : h.Idle id) (workerId : String) (now : Int) :
    Placed ((h.beginAttempt o id workerId now).queue.stateOf id)
      ((h.beginAttempt o id workerId now).callsOf id) := by
  unfold beginAttempt
  rcases WaitQueue.markProcessing_stateOf now hs with ⟨hm, hset⟩ | ⟨hm, hopen, hproc⟩
  · split
    · rename_i hq
      rw [hq] at hset
      exact .of_settled hc hset
    · rename_i hq
      rw [hq] at hm
      cases hm
  · split
    · rename_i hq
      rw [hq] at hm
      cases hm
    · rename_i queue hq
      rw [hq] at hproc
      exact placed_attempt (h := { h with queue := queue }) hc hproc
        (hidle.resolve_left hopen) workerId now

/-- What a walk does with one waiter: it places it by an attempt, or leaves or settles it. -/
structure Walked (h : FleetHost ν) (id : String) (r : Bool × Claims × FleetHost ν) : Prop where
  touches : Touches h r.2.2 id
  attempted : r.1 = true → OneLive (h.callsOf id) → h.queue.stateOf id ≠ none → h.Idle id →
    Placed (r.2.2.queue.stateOf id) (r.2.2.callsOf id)
  passed : r.1 = false → r.2.2.callsOf id = h.callsOf id ∧
    (r.2.2.queue.stateOf id = h.queue.stateOf id ∨ r.2.2.queue.Settled id)

theorem walked_reject (hs : h.queue.stateOf id ≠ none) (claims : Claims) (error : DispatchError) :
    Walked h id (false, claims, h.reject id error) where
  touches := touches_reject error
  attempted := nofun
  passed _ := ⟨rfl, .inr (WaitQueue.settled_of_reject _ hs)⟩

/-- Ending refusals moves no waiter. -/
theorem Walked.of_setRefusals {memo : List (String × Refusal)}
    {r : Bool × Claims × FleetHost ν} (hw : Walked (h.setRefusals id memo) id r) :
    Walked h id r where
  touches := (touches_setRefusals memo).trans hw.touches
  attempted := hw.attempted
  passed := hw.passed

theorem Walked.of_noteReasons {request : RoutableRequest} {unreachable : Option String}
    {r : Bool × Claims × FleetHost ν} (hw : Walked (h.noteReasons o id request unreachable) id r) :
    Walked h id r := .of_setRefusals hw

theorem walked_unselected (hs : h.queue.stateOf id ≠ none) (claims : Claims)
    (request : RoutableRequest) (views : List (WorkerView ν)) :
    Walked h id (false, claims, h.rejectIfEveryWorkerFailedProvisioning o id request views) := by
  have hsame : Walked h id (false, claims, h) := ⟨.refl _ _, nofun, fun _ => ⟨rfl, .inl rfl⟩⟩
  simp only [rejectIfEveryWorkerFailedProvisioning]
  split
  · exact hsame
  · split
    · exact hsame
    · exact walked_reject hs claims _

theorem walked_selected (claims : Claims) (workerId : String) (now : Int) :
    Walked h id (true, claims, h.beginAttempt o id workerId now) where
  touches := touches_beginAttempt workerId now
  attempted _ hc hs hidle := placed_beginAttempt hc hs hidle workerId now
  passed := nofun

theorem walkWaiter_walked {w : Waiter FleetLeaseGrant} (hw : h.queue.owned id = some w)
    (claims : Claims) (now : Int) : Walked h id (h.walkWaiter o claims id w now) := by
  have hs : h.queue.stateOf id ≠ none := by simp [WaitQueue.stateOf, hw]
  simp only [walkWaiter]
  split
  · exact walked_reject hs claims _
  · split
    · refine .of_noteReasons (.of_setRefusals (walked_unselected ?_ claims _ _))
      exact hs
    · exact .of_noteReasons (.of_setRefusals (walked_selected _ _ now))

/-! ### A pass -/

/-- A pass over the waiters `ids` still to come; `e` is its candidate until it is attempted. -/
structure Passing (candidate : Option String) (ids : List String)
    (s : Bool × Claims × FleetHost ν) : Prop where
  between : Between s.2.2 (if s.1 then none else candidate)
  idle : s.1 = false → ∀ i, candidate = some i → s.2.2.Idle i
  once : s.1 = true → ∀ i, candidate = some i → i ∉ ids
  nodup : ids.Nodup

theorem Between.outside (hb : Between h (some id)) : id ∉ h.admitting :=
  fun hi => (hb.admitting id hi).1 rfl

theorem notMem_admitting_of_queued {e : Option String} (hb : Between h e)
    (hs : h.queue.stateOf id = some .queued) : id ∉ h.admitting := by
  intro hi
  rcases (hb.admitting id hi).2.1 with hn | ⟨x, hx, hxt⟩
  · cases Option.some.inj (hs.symm.trans hn)
  · cases Option.some.inj (hs.symm.trans hx)
    cases hxt

/-- A waiter of the queue that the walk passes by or attempts is placed as it was. -/
theorem placed_of_walked_queued {r : Bool × Claims × FleetHost ν} (hw : Walked h id r)
    (hp : Placed (h.queue.stateOf id) (h.callsOf id)) (hs : h.queue.stateOf id = some .queued) :
    Placed (r.2.2.queue.stateOf id) (r.2.2.callsOf id) := by
  cases hr : r.1 with
  | true => exact hw.attempted hr hp.toOneLive (by simp [hs]) (.inr (hp.queued hs))
  | false =>
    obtain ⟨hcalls, hstate | hset⟩ := hw.passed hr
    · rw [hcalls, hstate]
      exact hp
    · rw [hcalls]
      exact .of_settled hp.toOneLive hset

theorem Between.place_other {e : Option String} (hb : Between h e) (he : e ≠ some id)
    {r : Bool × Claims × FleetHost ν} (hw : Walked h id r)
    (hs : h.queue.stateOf id = some .queued) : Between r.2.2 e := by
  have hplaced := placed_of_walked_queued hw (hb.placed id he) hs
  have hnext := hb.place hw.touches hplaced fun hi => absurd hi (notMem_admitting_of_queued hb hs)
  have hsame : (e.filter fun i => i ≠ id) = e := by
    cases e with
    | none => rfl
    | some i =>
      have hi : i ≠ id := fun hi => he (hi ▸ rfl)
      simp [Option.filter, hi]
  rwa [hsame] at hnext

/-- The walk of the candidate: an attempt places it, else it stays between two attempts. -/
theorem Between.walk_candidate (hb : Between h (some id)) (hidle : h.Idle id)
    {r : Bool × Claims × FleetHost ν} (hw : Walked h id r) :
    Between r.2.2 (if r.1 then none else some id) ∧ (r.1 = false → r.2.2.Idle id) := by
  obtain ⟨hone, hs⟩ := hb.oneLive id rfl
  cases hr : r.1 with
  | true =>
    have hplaced := hw.attempted hr hone hs hidle
    have hnext := hb.place hw.touches hplaced fun hi => absurd hi hb.outside
    refine ⟨?_, nofun⟩
    simpa [Option.filter] using hnext
  | false =>
    obtain ⟨hcalls, hstate⟩ := hw.passed hr
    have hsome : r.2.2.queue.stateOf id ≠ none := by
      rcases hstate with hstate | hset
      · rw [hstate]
        exact hs
      · exact hset.ne_none
    refine ⟨hb.move hw.touches (hcalls ▸ hone) hsome, fun _ => ?_⟩
    rcases hstate with hstate | hset
    · rcases hidle with ⟨x, hx, hxt⟩ | hnone
      · exact .inl ⟨x, hstate.trans hx, hxt⟩
      · exact .inr fun {n c} hc => hnone (n := n) (hcalls ▸ hc)
    · exact .inl hset

theorem passWaiter_passing {candidate : Option String} {ids : List String}
    {s : Bool × Claims × FleetHost ν} (hp : Passing candidate (id :: ids) s) (now : Int) :
    Passing candidate ids (passWaiter o candidate now s id) := by
  have hnodup : ids.Nodup := hp.nodup.of_cons
  have hlater : s.1 = true → ∀ i, candidate = some i → i ∉ ids :=
    fun hs i hi hmem => hp.once hs i hi (List.mem_cons_of_mem _ hmem)
  unfold passWaiter
  split
  · exact ⟨hp.between, hp.idle, hlater, hnodup⟩
  · rename_i w hw
    have hwalk := walkWaiter_walked (o := o) hw s.2.1 now
    split
    · -- a waiter of the queue
      rename_i hstate hcand
      have hne : candidate ≠ some id := of_decide_eq_false hcand
      have hs : s.2.2.queue.stateOf id = some .queued := by simp [WaitQueue.stateOf, hw, hstate]
      have he : (if s.1 then none else candidate) ≠ some id := by split <;> simp [hne]
      have hother := hp.between.place_other he hwalk hs
      refine ⟨hother, fun hf i hi => ?_, hlater, hnodup⟩
      have hid : i ≠ id := fun hid => hne (hid ▸ hi)
      exact hwalk.touches.idle hp.between.fresh hid (hp.idle hf i hi)
    · -- the candidate
      rename_i hcand
      have hc : candidate = some id := of_decide_eq_true hcand
      have hs : s.1 = false := by
        cases hs : s.1 with
        | false => rfl
        | true => exact absurd List.mem_cons_self (hp.once hs id hc)
      have hb : Between s.2.2 (some id) := by
        have hb := hp.between
        rwa [hs, if_neg Bool.false_ne_true, hc] at hb
      obtain ⟨hnext, hidle⟩ := hb.walk_candidate (hp.idle hs id hc) hwalk
      refine ⟨?_, fun hf i hi => ?_, fun _ i hi => ?_, hnodup⟩
      · simpa [hs, hc] using hnext
      · cases Option.some.inj (hc.symm.trans hi)
        exact hidle (by simpa [hs] using hf)
      · cases Option.some.inj (hc.symm.trans hi)
        exact hp.nodup.notMem
    · exact ⟨hp.between, hp.idle, hlater, hnodup⟩

theorem foldl_passing {candidate : Option String} {ids : List String}
    {s : Bool × Claims × FleetHost ν} (hp : Passing candidate ids s) (now : Int) :
    Passing candidate [] (ids.foldl (passWaiter o candidate now) s) := by
  induction ids generalizing s with
  | nil => exact hp
  | cons id ids ih => exact ih (passWaiter_passing hp now)

theorem dispatchPass_between {candidate : Option String} (hb : Between h candidate)
    (hidle : ∀ i, candidate = some i → h.Idle i) (now : Int) :
    Between (h.dispatchPass o candidate now).2
        (if (h.dispatchPass o candidate now).1 then none else candidate) ∧
      ((h.dispatchPass o candidate now).1 = false →
        ∀ i, candidate = some i → (h.dispatchPass o candidate now).2.Idle i) := by
  have hstart : ∀ ids : List String, ids.Nodup → Passing candidate ids (false, ⟨[], []⟩, h) :=
    fun ids hids => ⟨hb, fun _ => hidle, nofun, hids⟩
  have hend : ∀ ids : List String, ids.Nodup →
      Passing candidate [] (ids.foldl (passWaiter o candidate now) (false, ⟨[], []⟩, h)) :=
    fun ids hids => foldl_passing (hstart ids hids) now
  cases candidate with
  | none => exact ⟨(hend _ hb.nodup).between, (hend _ hb.nodup).idle⟩
  | some id =>
    have hnodup : (if h.queue.isQueued id then h.queue.waiters
        else h.queue.waiters ++ [id]).Nodup := by
      split
      · exact hb.nodup
      · rename_i hid
        refine List.nodup_append.mpr ⟨hb.nodup, List.nodup_singleton _, ?_⟩
        rintro a ha b hmem rfl
        exact hid (by simpa [WaitQueue.isQueued] using List.mem_singleton.mp hmem ▸ ha)
    exact ⟨(hend _ hnodup).between, (hend _ hnodup).idle⟩

theorem dispatch_between (hb : Between h none) (now : Int) : Between (h.dispatch o now) none := by
  have hpass := (dispatchPass_between (o := o) hb nofun now).1
  rwa [ite_self] at hpass

/-- The waiter handed to `#admit` is placed by an attempt, the queue or its end. -/
theorem admit_between (hb : Between h (some id)) (hidle : h.Idle id) (now : Int) :
    Between (h.admitWaiter o id now) none := by
  have hpass := dispatchPass_between (o := o) hb
    (fun i hi => Option.some.inj hi ▸ hidle) now
  unfold admitWaiter
  split
  · rename_i h' hd
    have hnext := hpass.1
    rw [hd] at hnext
    exact hnext
  · rename_i h' hd
    obtain ⟨hnext, hidle'⟩ := hpass
    rw [hd] at hnext hidle'
    have hnext : Between h' (some id) := hnext
    have hidle' : h'.Idle id := hidle' rfl id rfl
    obtain ⟨hone, hs⟩ := hnext.oneLive id rfl
    split
    · have hplaced : Placed ((h'.reject id noWorkerCanServe).queue.stateOf id)
          ((h'.reject id noWorkerCanServe).callsOf id) :=
        .of_settled hone (WaitQueue.settled_of_reject _ hs)
      have hb' := hnext.place (touches_reject _) hplaced fun hi => absurd hi hnext.outside
      simpa [Option.filter] using hb'
    · have hplaced := placed_enqueue hone hs hidle' now
      have hb' := hnext.place (touches_enqueue now) hplaced fun hi => absurd hi hnext.outside
      simpa [Option.filter] using hb'

/-! ### The end of an attempt -/

theorem callsOf_setCall_eq_some {n m : Nat} {c d : Forwarded}
    (hd : (h.setCall n c).callsOf c.waiter m = some d) :
    m = n ∧ d = c ∨ m ≠ n ∧ h.callsOf c.waiter m = some d := by
  rw [callsOf_setCall] at hd
  split at hd
  · rename_i hm
    rw [if_pos rfl] at hd
    exact .inl ⟨hm, (Option.some.inj hd).symm⟩
  · rename_i hm
    exact .inr ⟨hm, hd⟩

/-- A request that is replaced by one no more live than it was. -/
theorem oneLive_setCall {n : Nat} {c : Forwarded} (c' : Forwarded) (hone : OneLive (h.callsOf c.waiter))
    (hc : h.calls n = some c) (hw : c'.waiter = c.waiter) (hl : c'.Live → c.Live) (hok : c'.Ok) :
    OneLive ((h.setCall n c').callsOf c.waiter) := by
  have hcn : h.callsOf c.waiter n = some c := callsOf_eq_some.mpr ⟨hc, rfl⟩
  rw [← hw] at hone hcn ⊢
  refine ⟨fun {i j d e} hd he hdl hel => ?_, fun {i d} hd => ?_⟩
  · rcases callsOf_setCall_eq_some hd with ⟨hi, hdc⟩ | ⟨-, hd'⟩
    · rcases callsOf_setCall_eq_some he with ⟨hj, hec⟩ | ⟨-, he'⟩
      · rw [hi, hj]
      · exact hi ▸ hone.one hcn he' (hl (hdc ▸ hdl)) hel
    · rcases callsOf_setCall_eq_some he with ⟨hj, hec⟩ | ⟨-, he'⟩
      · exact hj ▸ hone.one hd' hcn hdl (hl (hec ▸ hel))
      · exact hone.one hd' he' hdl hel
  · rcases callsOf_setCall_eq_some hd with ⟨-, hdc⟩ | ⟨-, hd'⟩
    · exact hdc ▸ hok
    · exact hone.ok hd'

theorem unwalked_of_admitting (hb : Between h none) {i : String} (hi : i ∈ h.admitting) :
    h.Unwalked i := (hb.admitting i hi).2

theorem notMem_admitting_of_calls (hb : Between h none) {n : Nat} {c : Forwarded}
    (hc : h.calls n = some c) : c.waiter ∉ h.admitting := by
  intro hi
  have hn := (unwalked_of_admitting hb hi).2 n
  rw [callsOf_eq_some.mpr ⟨hc, rfl⟩] at hn
  cases hn

/-- A change of a request that its attempt does not see. -/
theorem setCall_between (hb : Between h none) {n : Nat} {c c' : Forwarded} (hc : h.calls n = some c)
    (hw : c'.waiter = c.waiter) (hl : c'.Live → c.Live) (ha : c'.awaited = c.awaited)
    (hok : c.Ok → c'.Ok) : Between (h.setCall n c') none := by
  have hp := hb.placed c.waiter nofun
  have hcn : h.callsOf c.waiter n = some c := callsOf_eq_some.mpr ⟨hc, rfl⟩
  have hold : ∀ {m d}, (h.setCall n c').callsOf c.waiter m = some d →
      m = n ∧ d = c' ∨ m ≠ n ∧ h.callsOf c.waiter m = some d := fun hd =>
    hw ▸ callsOf_setCall_eq_some (hw ▸ hd)
  have hplaced : Placed (h.queue.stateOf c.waiter) ((h.setCall n c').callsOf c.waiter) := by
    refine ⟨oneLive_setCall c' hp.toOneLive hc hw hl (hok (hp.ok hcn)), fun hs m => ?_,
      fun hs {m d} hd => ?_, fun hs => ?_⟩
    · cases hcn.symm.trans (hp.fresh hs n)
    · rcases hold hd with ⟨rfl, rfl⟩ | ⟨-, hd⟩
      · exact fun hlive => hp.queued hs hcn (hl hlive)
      · exact hp.queued hs hd
    · obtain ⟨m, d, hd, hda⟩ := hp.processing hs
      by_cases hm : m = n
      · subst hm
        refine ⟨m, c', by rw [callsOf_setCall, if_pos rfl, if_pos hw], ?_⟩
        cases Option.some.inj (hcn.symm.trans hd)
        exact ha.trans hda
      · exact ⟨m, d, by rw [callsOf_setCall, if_neg hm]; exact hd, hda⟩
  exact hb.place (touches_setCall c' hc hw) hplaced
    fun hi => absurd hi (notMem_admitting_of_calls hb hc)

/-- An attempt that waits no more leaves its waiter between two attempts. -/
theorem setCall_handed (hb : Between h none) {n : Nat} {c : Forwarded} (c' : Forwarded) (hc : h.calls n = some c)
    (hw : c'.waiter = c.waiter) (hl : c'.Live → c.Live) (hok : c.Ok → c'.Ok) :
    Between (h.setCall n c') (some c.waiter) := by
  have ht := touches_setCall c' hc hw
  have hp := hb.placed c.waiter nofun
  refine ⟨hb.nodup, ht.fresh hb.fresh, fun i hi => ?_, fun i hi => ?_, fun i hi => ?_⟩
  · have hne : i ≠ c.waiter := fun h' => notMem_admitting_of_calls hb hc (h' ▸ hi)
    exact ⟨fun h' => hne (Option.some.inj h').symm,
      ht.unwalked hb.fresh hne (unwalked_of_admitting hb hi)⟩
  · have hne : i ≠ c.waiter := fun h' => hi (h' ▸ rfl)
    rw [ht.calls hb.fresh i hne]
    exact hb.placed i nofun
  · cases Option.some.inj hi
    have hcn : h.callsOf c.waiter n = some c := callsOf_eq_some.mpr ⟨hc, rfl⟩
    refine ⟨oneLive_setCall c' hp.toOneLive hc hw hl (hok (hp.ok hcn)), ?_⟩
    · have hs := stateOf_ne_none_of_idle hp (callsOf_eq_some.mpr ⟨hc, rfl⟩)
      exact hs

/-- The waiter of a request that was the live one, and is no more, is idle. -/
theorem setCall_idle {n : Nat} {c : Forwarded} (c' : Forwarded) (hone : OneLive (h.callsOf c.waiter))
    (hc : h.calls n = some c) (hw : c'.waiter = c.waiter) (hcl : c.Live) (hl : ¬ c'.Live) :
    (h.setCall n c').Idle c.waiter := by
  refine .inr fun {m d} hd hlive => ?_
  rcases hw ▸ callsOf_setCall_eq_some (hw ▸ hd) with ⟨rfl, rfl⟩ | ⟨hm, hd⟩
  · exact hl hlive
  · exact hm (hone.one (hw ▸ hd) (callsOf_eq_some.mpr ⟨hc, rfl⟩) hlive hcl)

/-- The waiter between two attempts is settled, and the next walk runs. -/
theorem reject_dispatch_between (hb : Between h (some id)) (error : DispatchError) (now : Int) :
    Between ((h.reject id error).dispatch o now) none := by
  obtain ⟨hone, hs⟩ := hb.oneLive id rfl
  have hplaced : Placed ((h.reject id error).queue.stateOf id) ((h.reject id error).callsOf id) :=
    .of_settled hone (WaitQueue.settled_of_reject _ hs)
  have hnext := hb.place (touches_reject error) hplaced fun hi => absurd hi hb.outside
  rw [Option.filter_some, if_neg (by simp)] at hnext
  exact dispatch_between hnext now

theorem Between.setRefusals {e : Option String} (hb : Between h e) (i : String)
    (memo : List (String × Refusal)) : Between (h.setRefusals i memo) e :=
  ⟨hb.nodup, hb.fresh, hb.admitting, hb.placed, hb.oneLive⟩

theorem Between.rememberRefusal {e : Option String} (hb : Between h e) (i workerId : String)
    (provisionFailure : Option DispatchError) :
    Between (h.rememberRefusal i workerId provisionFailure) e := by
  unfold FleetHost.rememberRefusal
  split
  · exact hb
  · exact hb.setRefusals _ _

theorem Idle.rememberRefusal (hidle : h.Idle id) (workerId : String)
    (provisionFailure : Option DispatchError) :
    (h.rememberRefusal id workerId provisionFailure).Idle id := by
  unfold FleetHost.rememberRefusal
  split
  · exact hidle
  · exact hidle

theorem staleView_between (hb : Between h (some id)) (hidle : h.Idle id)
    (unreachable : Option String) (now : Int) :
    Between (h.staleView o id unreachable now) none := by
  obtain ⟨hone, hs⟩ := hb.oneLive id rfl
  have hplaced := placed_staleView (o := o) hone hs hidle unreachable now
  have hnext := hb.place (touches_staleView unreachable now) hplaced
    fun hi => absurd hi hb.outside
  rwa [Option.filter_some, if_neg (by simp)] at hnext

/-- A failed attempt ends in the queue, in one more walk or in a rejection. -/
theorem attemptFailed_between (c : Forwarded) (failure : CallFailure)
    (hb : Between h (some c.waiter)) (hidle : ∀ e, failure = .refused e → h.Idle c.waiter)
    (now : Int) : Between (h.attemptFailed o c failure now) none := by
  unfold attemptFailed
  split
  · rename_i error _
    have hi := hidle error rfl
    split
    · have hb' := hb.rememberRefusal c.waiter c.workerId none
      have hi' := hi.rememberRefusal c.workerId none
      dsimp only
      split
      · exact admit_between hb' hi' now
      · exact staleView_between hb' hi' none now
    · split
      · exact admit_between (hb.rememberRefusal c.waiter c.workerId (some error))
          (hi.rememberRefusal c.workerId (some error)) now
      · split
        · have hb' : Between (h.rememberCannotServe c.waiter c.workerId error) (some c.waiter) :=
            ⟨hb.nodup, hb.fresh, hb.admitting, hb.placed, hb.oneLive⟩
          exact admit_between hb' hi now
        · exact reject_dispatch_between hb error now
  · exact reject_dispatch_between hb _ now

theorem releaseOnWorker_between {n : Nat} {c : Forwarded} (hb : Between h (some c.waiter))
    (hc : h.calls n = some c) (hn : c.awaited = false) (hcl : c.Live) (harr : c.arrived = true) :
    Between (h.releaseOnWorker n c) (some c.waiter) ∧ (h.releaseOnWorker n c).Idle c.waiter := by
  obtain ⟨hone, hs⟩ := hb.oneLive c.waiter rfl
  let c' : Forwarded := { c with release := if h.live c.workerId then .asked else .failed }
  have hdead : ¬ c'.Live := by
    rintro (h' | ⟨h', -⟩)
    · cases harr.symm.trans h'
    · have h' : (if h.live c.workerId then Release.asked else .failed) = .none := h'
      split at h' <;> cases h'
  have hok : c'.Ok := by
    refine ⟨fun h' => ?_, fun h' => ?_⟩
    · cases hn.symm.trans h'
    · cases harr.symm.trans h'
  have hone' := oneLive_setCall c' hone hc rfl (fun h' => absurd h' hdead) hok
  exact ⟨hb.move (touches_setCall c' hc rfl) hone' hs, setCall_idle c' hone hc rfl hcl hdead⟩

/-- A granted attempt ends in the queue, in a grant or in a rejection. -/
theorem attemptGranted_between {n : Nat} (c : Forwarded) (hb : Between h (some c.waiter))
    (hc : h.calls n = some c) (hn : c.awaited = false) (hcl : c.Live) (harr : c.arrived = true)
    (grant : LeaseGrant) (now : Int) : Between (h.attemptGranted o n c grant now) none := by
  obtain ⟨hone, hs⟩ := hb.oneLive c.waiter rfl
  obtain ⟨hgiven, hidle⟩ := releaseOnWorker_between hb hc hn hcl harr
  unfold attemptGranted
  split
  · rename_i hw
    simp [WaitQueue.stateOf, hw] at hs
  · rename_i w hw
    split
    · exact staleView_between (hgiven.rememberRefusal c.waiter c.workerId none)
        (hidle.rememberRefusal c.workerId none) none now
    · simp only [settleGrant]
      split
      · exact reject_dispatch_between hgiven _ now
      · rename_i index _
        let h' : FleetHost ν :=
          { h with
            index := index
            queue := (h.queue.resolve c.waiter
              (projectGrant grant (entryOf w.options c.workerId grant.lease))).2 }
        have ht : Touches h h' c.waiter :=
          ⟨WaitQueue.resolve_onlyMoves _, fun _ _ _ => rfl, rfl, WaitQueue.nodup_settleOpen _,
            fun hf => hf⟩
        have hplaced : Placed (h'.queue.stateOf c.waiter) (h'.callsOf c.waiter) :=
          .of_settled hone (WaitQueue.settled_of_settleOpen rfl hs)
        have hnext := hb.place ht hplaced fun hi => absurd hi hb.outside
        rw [Option.filter_some, if_neg (by simp)] at hnext
        exact dispatch_between hnext now

theorem answered_between (hb : Between h none) (n : Nat) (now : Int) :
    Between (h.answered o n now) none := by
  unfold answered
  split
  · exact hb
  · rename_i c hc
    have hp := hb.placed c.waiter nofun
    split
    · exact hb
    · exact hb
    · rename_i hans harr haw
      refine setCall_between hb hc rfl (fun _ => .inl harr) rfl fun hok => ⟨?_, nofun⟩
      exact fun h' => by cases haw.symm.trans h'
    · rename_i answer hans harr haw
      have hcl : c.Live := .inl harr
      have hrel : c.release = .none :=
        (hp.ok (callsOf_eq_some.mpr ⟨hc, rfl⟩)).unreleased harr
      cases answer with
      | granted grant =>
        let c' : Forwarded := { c with announced := true, awaited := false, arrived := true }
        have hc' : (h.setCall n c').calls n = some c' := Function.update_self _ _ _
        have hcl' : c'.Live := .inr ⟨hrel, fun e he => by cases hans.symm.trans he⟩
        have hb' : Between (h.setCall n c') (some c.waiter) :=
          setCall_handed hb c' hc rfl (fun _ => hcl) fun _ => ⟨nofun, nofun⟩
        exact attemptGranted_between c' hb' hc' rfl hcl' rfl grant now
      | malformed =>
        let c' : Forwarded := { c with awaited := false, arrived := true }
        have hb' : Between (h.setCall n c') (some c.waiter) :=
          setCall_handed hb c' hc rfl (fun _ => hcl) fun _ => ⟨nofun, nofun⟩
        exact attemptFailed_between c' .malformed hb' (fun e he => by cases he) now
      | refused error =>
        let c' : Forwarded := { c with awaited := false, arrived := true }
        have hdead : ¬ c'.Live := by
          rintro (h' | ⟨-, h'⟩)
          · cases h'
          · exact h' error hans
        have hb' : Between (h.setCall n c') (some c.waiter) :=
          setCall_handed hb c' hc rfl (fun _ => hcl) fun _ => ⟨nofun, nofun⟩
        have hidle : (h.setCall n c').Idle c.waiter :=
          setCall_idle c' hp.toOneLive hc rfl hcl hdead
        exact attemptFailed_between c' (.refused error) hb' (fun _ _ => hidle) now

theorem callFails_between (hb : Between h none) (n : Nat) {failure : CallFailure}
    (hf : ∀ e, failure ≠ .refused e) (now : Int) : Between (h.callFails o n failure now) none := by
  unfold callFails
  split
  · exact hb
  · rename_i c hc
    split
    · exact hb
    · rename_i harr haw
      refine setCall_between hb hc rfl (fun _ => .inl harr) rfl fun _ => ⟨?_, nofun⟩
      exact fun h' => by cases haw.symm.trans h'
    · rename_i harr haw
      let c' : Forwarded := { c with awaited := false, arrived := true }
      have hb' : Between (h.setCall n c') (some c.waiter) :=
        setCall_handed hb c' hc rfl (fun _ => .inl harr) fun _ => ⟨nofun, nofun⟩
      exact attemptFailed_between c' failure hb' (fun e he => absurd he (hf e)) now

theorem requestTimeout_between (hb : Between h none) (n : Nat) (now : Int) :
    Between (h.requestTimeout o n now) none := by
  unfold requestTimeout
  split
  · exact hb
  · rename_i c hc
    split
    · let c' : Forwarded := { c with awaited := false }
      have hb' : Between (h.setCall n c') (some c.waiter) :=
        setCall_handed hb c' hc rfl id fun hok => ⟨nofun, hok.unreleased⟩
      exact attemptFailed_between c' .timedOut hb' (fun e he => by cases he) now
    · exact hb

theorem progress_between (hb : Between h none) (n : Nat) : Between (h.progress n) none := by
  unfold progress
  split
  · exact hb
  · rename_i c hc
    split
    · exact setCall_between hb hc rfl id rfl fun hok => ⟨hok.awaited, hok.unreleased⟩
    · exact hb

theorem decides_between (hb : Between h none) (n : Nat) (answer : WorkerAnswer) :
    Between (h.decides n answer) none := by
  unfold decides
  split
  · exact hb
  · rename_i c hc
    split
    · exact hb
    · rename_i hans
      have hans : c.answer = none := by simpa using hans
      refine setCall_between hb hc rfl ?_ rfl fun hok => ⟨hok.awaited, hok.unreleased⟩
      rintro (h' | ⟨hrel, -⟩)
      · exact .inl h'
      · exact .inr ⟨hrel, fun e he => by cases hans.symm.trans he⟩

theorem releaseEnds_between (hb : Between h none) (n : Nat) (ok : Bool) :
    Between (h.releaseEnds n ok) none := by
  unfold releaseEnds
  split
  · exact hb
  · rename_i c hc
    split
    · rename_i hrel
      refine setCall_between hb hc rfl ?_ rfl fun hok => ⟨hok.awaited, fun h' => ?_⟩
      · rintro (h' | ⟨h', -⟩)
        · exact .inl h'
        · cases ok <;> cases h'
      · cases hrel.symm.trans (hok.unreleased h')
    · exact hb

/-! ### The other steps -/

/-- Nothing a walk reads of the waiters and their requests changes. -/
theorem Between.of_same {e : Option String} (hb : Between h e) (hq : h'.queue = h.queue)
    (ha : h'.admitting = h.admitting) (hc : h'.calls = h.calls) (hs : h'.sent = h.sent) :
    Between h' e := by
  cases h
  cases h'
  cases hq
  cases ha
  cases hc
  cases hs
  exact ⟨hb.nodup, hb.fresh, hb.admitting, hb.placed, hb.oneLive⟩

theorem request_between (hb : Between h none) {request : DeviceRequest} {options : WaiterOptions}
    (hid : h.queue.owned id = none) (replayed holdsLeaseId : Bool) (now : Int) :
    Between (h.request o request options id replayed holdsLeaseId now) none := by
  have hnone : h.queue.stateOf id = none := by simp [WaitQueue.stateOf, hid]
  have hcalls : ∀ n, h.callsOf id n = none := (hb.placed id (by simp)).fresh (.inl hnone)
  have hother : ∀ i ≠ id, (h.queue.create request options id).stateOf i = h.queue.stateOf i :=
    fun i hi => WaitQueue.create_stateOf_ne request options hi
  have hself : (h.queue.create request options id).stateOf id = some .new :=
    WaitQueue.create_stateOf_self request options
  unfold FleetHost.request
  split
  · exact hb
  · split
    · exact hb
    · split
      · exact hb
      · refine ⟨hb.nodup, hb.fresh, fun i hi => ⟨by simp, ?_⟩, fun i _ => ?_, by simp⟩
        · by_cases hii : i = id
          · subst hii
            exact ⟨.inl hself, hcalls⟩
          · have hi : i ∈ h.admitting := by
              rcases List.mem_append.mp hi with hi | hi
              · exact hi
              · exact absurd (List.mem_singleton.mp hi) hii
            obtain ⟨hs, hn⟩ := unwalked_of_admitting hb hi
            refine ⟨?_, hn⟩
            rcases hs with hs | ⟨x, hx, hxt⟩
            · exact .inl ((hother i hii).trans hs)
            · exact .inr ⟨x, (hother i hii).trans hx, hxt⟩
        · by_cases hii : i = id
          · subst hii
            refine ⟨(hb.placed i (by simp)).toOneLive, fun _ => hcalls, ?_, ?_⟩
            · intro h'
              cases Option.some.inj (hself.symm.trans h')
            · intro h'
              cases Option.some.inj (hself.symm.trans h')
          · have hp := hb.placed i (by simp)
            rw [← hother i hii] at hp
            exact hp

theorem admitNew_between (hb : Between h none) (now : Int) :
    Between (h.admitNew o id now) none := by
  unfold admitNew
  split
  · rename_i hid
    obtain ⟨hs, hn⟩ := unwalked_of_admitting hb hid
    have hsome : h.queue.stateOf id ≠ none := by
      rcases hs with hs | hs
      · simp [hs]
      · exact hs.ne_none
    let h' : FleetHost ν := { h with admitting := h.admitting.filter fun i => i ≠ id }
    have hb' : Between h' (some id) := by
      refine ⟨hb.nodup, hb.fresh, fun i hi => ?_, fun i _ => hb.placed i nofun, fun i hi => ?_⟩
      · obtain ⟨hmem, hne⟩ := List.mem_filter.mp hi
        have hne : i ≠ id := of_decide_eq_true hne
        exact ⟨fun h' => hne (Option.some.inj h').symm, unwalked_of_admitting hb hmem⟩
      · cases Option.some.inj hi
        exact ⟨(hb.placed id (by simp)).toOneLive, hsome⟩
    have hidle : h'.Idle id := by
      refine .inr fun {n c} hc => ?_
      cases (hn n).symm.trans hc
    exact admit_between hb' hidle now
  · exact hb

theorem reconcile_between (hb : Between h none) (view : WorkerView ν) :
    Between (h.reconcile view) none := by
  unfold reconcile
  split
  · exact hb
  · split
    · exact hb
    · exact hb.of_same rfl rfl rfl rfl

theorem viewsChanged_between (hb : Between h none) (views routingViews : List (WorkerView ν))
    (now : Int) : Between (h.viewsChanged o views routingViews now) none := by
  have hrec : ∀ (vs : List (WorkerView ν)) {h : FleetHost ν}, Between h none →
      Between (vs.foldl reconcile h) none := by
    intro vs
    induction vs with
    | nil => exact fun hb => hb
    | cons v vs ih => exact fun hb => ih (reconcile_between hb v)
  have hforget : ∀ (ids : List String) {h : FleetHost ν}, Between h none →
      Between (ids.foldl forgetWorker h) none := by
    intro ids
    induction ids with
    | nil => exact fun hb => hb
    | cons i ids ih => exact fun hb => ih (hb.of_same rfl rfl rfl rfl)
  have hviews : Between { h with views := views, routingViews := routingViews } none :=
    hb.of_same rfl rfl rfl rfl
  simp only [viewsChanged]
  split
  · exact hviews
  · refine dispatch_between ?_ now
    exact (hforget _ (hrec views hviews)).of_same rfl rfl rfl rfl

theorem cancelPending_between (hb : Between h none) (requesterId : String)
    (platform : Option Platform) : Between (h.cancelPending requesterId platform) none := by
  unfold cancelPending
  split
  · exact hb
  · rename_i id _
    split
    · rename_i hs
      have ht : Touches h { h with queue := (h.queue.reject id (.cancelled id)).2 } id :=
        touches_queue (WaitQueue.reject_onlyMoves _) (WaitQueue.nodup_reject _)
      refine hb.place ht ?_ fun hi => absurd hi (notMem_admitting_of_queued hb hs)
      exact .of_settled (hb.placed id (by simp)).toOneLive
        (WaitQueue.settled_of_reject _ (by simp [hs]))
    · exact hb

theorem timeout_between (hb : Between h none) :
    Between { h with queue := h.queue.timeout id } none := by
  have ht : Touches h { h with queue := h.queue.timeout id } id :=
    touches_queue WaitQueue.timeout_onlyMoves WaitQueue.nodup_timeout
  have hp := hb.placed id nofun
  rcases WaitQueue.timeout_stateOf id (q := h.queue) with hs | ⟨hq, hset⟩
  · rw [← hs] at hp
    refine hb.place ht hp fun hi => ?_
    obtain ⟨hu, hn⟩ := unwalked_of_admitting hb hi
    refine ⟨?_, hn⟩
    rcases hu with hu | ⟨x, hx, hxt⟩
    · exact .inl (hs.trans hu)
    · exact .inr ⟨x, hs.trans hx, hxt⟩
  · exact hb.place ht (.of_settled hp.toOneLive hset)
      fun hi => absurd hi (notMem_admitting_of_queued hb hq)

theorem dispose_between (hb : Between h none) : Between h.dispose none := by
  have hstate := WaitQueue.cancelAll_stateOf (q := h.queue)
    fun _ => .coded "DAEMON_STOPPING" "Gateway is stopping"
  refine ⟨WaitQueue.nodup_cancelAll _ hb.nodup, hb.fresh, fun i hi => ⟨nofun, ?_⟩, fun i _ => ?_,
    nofun⟩
  · obtain ⟨hu, hn⟩ := unwalked_of_admitting hb hi
    refine ⟨?_, hn⟩
    rcases hstate i with hs | hset
    · rcases hu with hu | ⟨x, hx, hxt⟩
      · exact .inl (hs.trans hu)
      · exact .inr ⟨x, hs.trans hx, hxt⟩
    · exact .inr hset
  · have hp := hb.placed i (by simp)
    rcases hstate i with hs | hset
    · rw [← hs] at hp
      exact hp
    · exact .of_settled hp.toOneLive hset

theorem create_between (gatewayRequesterPrefix : String) :
    Between (create (ν := ν) gatewayRequesterPrefix) none where
  nodup := List.nodup_nil
  fresh _ _ := rfl
  admitting _ hi := by cases hi
  placed _ _ := ⟨⟨nofun, nofun⟩, fun _ _ => rfl, nofun, nofun⟩
  oneLive := nofun

theorem step_between (hb : Between h none) {a : FleetAction ν} (ha : Admits h a) :
    Between (step o h a) none := by
  cases a with
  | request request options id replayed holdsLeaseId now => exact request_between hb ha _ _ now
  | admitted id now => exact admitNew_between hb now
  | viewsChanged views routingViews now => exact viewsChanged_between hb views routingViews now
  | linksChanged live => exact hb.of_same rfl rfl rfl rfl
  | cancelPending requesterId platform => exact cancelPending_between hb requesterId platform
  | timeout id => exact timeout_between hb
  | progress n => exact progress_between hb n
  | decides n answer => exact decides_between hb n answer
  | answered n now => exact answered_between hb n now
  | linkLost n message now => exact callFails_between hb n (fun e he => by cases he) now
  | callThrows n now => exact callFails_between hb n (fun e he => by cases he) now
  | requestTimeout n now => exact requestTimeout_between hb n now
  | releaseEnds n ok => exact releaseEnds_between hb n ok
  | leaseRemoved gatewayLeaseId => exact hb.of_same rfl rfl rfl rfl
  | leaseEnded workerId workerLeaseId => exact hb.of_same rfl rfl rfl rfl
  | dispose => exact dispose_between hb

theorem Reached.between (hr : Reached o h) : Between h none := by
  obtain ⟨pre, acts, hall, rfl⟩ := hr
  exact run_invariant_of_allSteps (I := fun h => Between h none)
    (fun _ _ ha hb => step_between hb ha) acts _ (create_between pre) hall

end FleetHost

end Simlock.Gateway
