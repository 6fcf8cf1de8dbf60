import Simlock.Leasing.RequestBook

/-! The queue of waiters, on a worker and on a gateway.

    A waiter is pending from its creation until it is granted or rejected, and holds a position from
    its first enqueue until then. A position outlives an attempt: a waiter in `processing` that was
    queued keeps its place. Its deadline is fixed when its timer is first armed.

        new ──enqueue──▶ queued ◀──enqueue── processing
          └──markProcessing──▶ processing ◀──markProcessing── queued
        new, queued, processing ──resolve──▶ granted,  ──reject──▶ rejected

    A timer that fires while the waiter is `processing` ends nothing: the deadline is met again when
    the waiter is enqueued or taken up. -/

namespace Simlock.Leasing

open Simlock.Core

/-! ### How many requests a requester may have -/

/-- `lease.maxPerRequester`. -/
inductive MaxPerRequester where
  | number (limit : Nat)
  | perPlatform (ios android : Option Nat)
  deriving DecidableEq, Repr

def MaxPerRequester.of (ios android : Option Nat) : Platform → Option Nat
  | .ios => ios
  | .android => android

/-- A lease as the limit counts it; without a platform it counts against every platform. -/
structure HeldLease where
  id : String
  grantedAt : Int
  platform : Option Platform
  deriving DecidableEq, Repr

structure RequesterLimitContext where
  limit : Nat
  held : Nat
  waiting : Bool
  platform : Option Platform
  deriving DecidableEq, Repr

/-- `RequesterAlreadyLeasedError`. -/
structure RequesterAlreadyLeased where
  requesterId : String
  existingLeaseId : Option String
  context : RequesterLimitContext
  deriving DecidableEq, Repr

structure RequesterLimitInput where
  requesterId : String
  platform : Platform
  maxPerRequester : Option MaxPerRequester
  held : List HeldLease
  waiting : List Platform
  probe : Bool

/-- Of the leases granted first, the first listed. -/
def earliestGranted (leases : List HeldLease) : Option HeldLease :=
  leases.foldl (fun earliest lease =>
    if earliest.any fun e => e.grantedAt ≤ lease.grantedAt then earliest else some lease) none

/-- The one rule of workers and gateways; `none` admits. -/
def requesterLimitDecision (input : RequesterLimitInput) : Option RequesterAlreadyLeased :=
  match input.maxPerRequester.getD (.number 1) with
  | .number configured =>
    let atLimit := !input.probe && configured ≤ input.held.length + input.waiting.length
    if !input.waiting.contains input.platform && !atLimit then none
    else some ⟨input.requesterId, (earliestGranted input.held).map HeldLease.id,
      ⟨configured, input.held.length, !input.waiting.isEmpty, none⟩⟩
  | .perPlatform ios android =>
    let limit := (MaxPerRequester.of ios android input.platform).getD 1
    let held := input.held.filter fun lease => lease.platform.all fun p => p = input.platform
    let atLimit := !input.probe && limit ≤ held.length
    let waiting := input.waiting.contains input.platform
    if !waiting && !atLimit then none
    else some ⟨input.requesterId, (earliestGranted held).map HeldLease.id,
      ⟨limit, held.length, waiting && !atLimit, some input.platform⟩⟩

/-! ### Waiters -/

/-- How a request waits. -/
structure WaiterOptions extends LeaseRequestOptions where
  timeoutMs : Option Int
  noWait : Bool
  requires : Option (List String)
  deriving DecidableEq, Repr

/-- What a waiter is rejected with. -/
inductive WaiterError where
  | queueTimeout (requestId : String)
  | cancelled (requestId : String)
  | coded (code message : String)
  deriving DecidableEq, Repr

/-- A waiter's state; a terminal one carries what its promise settled with. -/
inductive WaiterState (γ : Type) where
  | new | queued | processing
  | granted (grant : γ)
  | rejected (error : WaiterError)

def WaiterState.isTerminal {γ : Type} : WaiterState γ → Bool
  | .granted _ | .rejected _ => true
  | .new | .queued | .processing => false

structure Waiter (γ : Type) where
  request : DeviceRequest
  options : WaiterOptions
  state : WaiterState γ
  deadlineAt : Option Int
  /-- When the armed timer fires. -/
  timer : Option Int

structure WaitQueue (γ : Type) where
  /-- Every waiter the queue created. -/
  owned : String → Option (Waiter γ)
  /-- Those with a position, in its order. -/
  waiters : List String
  pendingWaiters : List String
  /-- The waiters whose promise was settled, a call at a time. -/
  settlements : List String

inductive QueueLine where
  | virtual | physical
  deriving DecidableEq, Repr

def lineOf (request : DeviceRequest) : QueueLine :=
  if request.physical = some true then .physical else .virtual

variable {γ : Type}

namespace Waiter

/-- `#armTimeout`: a deadline, once fixed, stays. -/
def armTimeout (w : Waiter γ) (now : Int) : Waiter γ :=
  match w.options.timeoutMs with
  | none => w
  | some timeoutMs =>
    if w.timer.isSome then w
    else
      let deadlineAt := w.deadlineAt.getD (now + timeoutMs)
      { w with deadlineAt := some deadlineAt, timer := some (now + max 0 (deadlineAt - now)) }

def isPastDeadline (w : Waiter γ) (now : Int) : Bool :=
  w.deadlineAt.any fun deadline => deadline ≤ now

end Waiter

namespace WaitQueue

variable (q : WaitQueue γ)

def empty : WaitQueue γ := ⟨fun _ => none, [], [], []⟩

def set (id : String) (w : Waiter γ) : WaitQueue γ :=
  { q with owned := Function.update q.owned id (some w) }

def isQueued (id : String) : Bool := id ∈ q.waiters

/-- The waiters of a line, by position. -/
def line (l : QueueLine) : List String :=
  q.waiters.filter fun id => (q.owned id).any fun w => lineOf w.request = l

/-- The head of the virtual line. -/
def head : Option String := (q.line .virtual).head?

def create (request : DeviceRequest) (options : WaiterOptions) (id : String) : WaitQueue γ :=
  { q.set id ⟨request, options, .new, none, none⟩ with
    pendingWaiters := q.pendingWaiters ++ [id] }

/-- `#remove`, and the state the waiter ends in. -/
def settle (id : String) (w : Waiter γ) (x : WaiterState γ) : WaitQueue γ :=
  { q.set id { w with state := x, timer := none } with
    waiters := q.waiters.erase id
    pendingWaiters := q.pendingWaiters.erase id
    settlements := q.settlements ++ [id] }

/-- `resolve` and `reject`: a terminal waiter stays as it is. -/
def settleOpen (id : String) (x : WaiterState γ) : Bool × WaitQueue γ :=
  match q.owned id with
  | none => (false, q)
  | some w => if w.state.isTerminal then (false, q) else (true, q.settle id w x)

def resolve (id : String) (grant : γ) : Bool × WaitQueue γ := q.settleOpen id (.granted grant)

def reject (id : String) (error : WaiterError) : Bool × WaitQueue γ :=
  q.settleOpen id (.rejected error)

/-- A waiter past its deadline is rejected instead of waiting on, or of being taken up. -/
def enqueue (id : String) (now : Int) : Bool × WaitQueue γ :=
  match q.owned id with
  | none => (false, q)
  | some w =>
    if w.state.isTerminal then (false, q)
    else if w.isPastDeadline now then (false, (q.reject id (.queueTimeout id)).2)
    else
      (true, { q.set id { w.armTimeout now with state := .queued } with
        waiters := if id ∈ q.waiters then q.waiters else q.waiters ++ [id] })

def markProcessing (id : String) (now : Int) : Bool × WaitQueue γ :=
  match q.owned id with
  | none => (false, q)
  | some w =>
    if w.state.isTerminal then (false, q)
    else if w.isPastDeadline now then (false, (q.reject id (.queueTimeout id)).2)
    else (true, q.set id { w with state := .processing })

def markNew (id : String) : Bool × WaitQueue γ :=
  match q.owned id with
  | none => (false, q)
  | some w =>
    if w.state.isTerminal then (false, q)
    else (true, q.set id { w with state := if id ∈ q.waiters then .queued else .new })

/-- The timer of the waiter fires. -/
def timeout (id : String) : WaitQueue γ :=
  match q.owned id with
  | none => q
  | some w =>
    if w.timer.isSome then
      let q := q.set id { w with timer := none }
      match w.state with
      | .queued => (q.reject id (.queueTimeout id)).2
      | _ => q
    else q

def cancelAll (error : String → WaiterError) : WaitQueue γ :=
  q.pendingWaiters.foldl (fun q id => (q.reject id (error id)).2) q

/-- The platforms a requester waits for. -/
def pendingPlatforms (requesterId : String) : List Platform :=
  ((q.pendingWaiters.filterMap q.owned).filter
    fun w => w.options.requesterId = requesterId).map fun w => w.request.platform

def findPendingWaiter (requesterId : String) (platform : Option Platform) : Option String :=
  q.pendingWaiters.find? fun id => (q.owned id).any fun w =>
    w.options.requesterId = requesterId && platform.all fun p => w.request.platform = p

/-! ### What an operation leaves of each waiter -/

/-- The state of a waiter; `none` before its creation. -/
def stateOf (id : String) : Option (WaiterState γ) := (q.owned id).map Waiter.state

/-- How a waiter asks; this never changes. -/
def optionsOf (id : String) : Option WaiterOptions := (q.owned id).map Waiter.options

/-- The waiter is granted or rejected. -/
def Settled (id : String) : Prop := ∃ x, q.stateOf id = some x ∧ x.isTerminal = true

/-- The waiters besides `id`, and how `id` asks, are the same in both queues. -/
structure OnlyMoves (q q' : WaitQueue γ) (id : String) : Prop where
  other : ∀ i ≠ id, q'.owned i = q.owned i
  options : q'.optionsOf id = q.optionsOf id

variable {q} {id : String}

theorem OnlyMoves.refl (q : WaitQueue γ) (id : String) : OnlyMoves q q id := ⟨fun _ _ => rfl, rfl⟩

theorem OnlyMoves.trans {q' q'' : WaitQueue γ} (h : OnlyMoves q q' id) (h' : OnlyMoves q' q'' id) :
    OnlyMoves q q'' id :=
  ⟨fun i hi => (h'.other i hi).trans (h.other i hi), h'.options.trans h.options⟩

theorem OnlyMoves.stateOf {q' : WaitQueue γ} (h : OnlyMoves q q' id) {i : String} (hi : i ≠ id) :
    q'.stateOf i = q.stateOf i := by rw [WaitQueue.stateOf, h.other i hi]; rfl

theorem onlyMoves_set (w' : Waiter γ) {w : Waiter γ} (hw : q.owned id = some w)
    (ho : w'.options = w.options) : OnlyMoves q (q.set id w') id := by
  refine ⟨fun i hi => Function.update_of_ne hi _ _, ?_⟩
  simp [WaitQueue.optionsOf, WaitQueue.set, hw, ho]

theorem settle_onlyMoves {w : Waiter γ} (x : WaiterState γ) (hw : q.owned id = some w) :
    OnlyMoves q (q.settle id w x) id :=
  have h := onlyMoves_set { w with state := x, timer := none } hw rfl
  ⟨h.other, h.options⟩

theorem settleOpen_onlyMoves (x : WaiterState γ) : OnlyMoves q (q.settleOpen id x).2 id := by
  cases hw : q.owned id with
  | none =>
    simp only [settleOpen, hw]
    exact .refl q id
  | some w =>
    simp only [settleOpen, hw]
    split
    · exact .refl q id
    · exact settle_onlyMoves x hw

theorem create_stateOf_self (request : DeviceRequest) (options : WaiterOptions) :
    (q.create request options id).stateOf id = some .new := by
  simp [stateOf, create, set]

theorem create_stateOf_ne (request : DeviceRequest) (options : WaiterOptions) {i : String}
    (hi : i ≠ id) : (q.create request options id).stateOf i = q.stateOf i := by
  simp [stateOf, create, set, hi]

/-- A waiter that is not settled ends in the state given; a settled one stays. -/
theorem settleOpen_stateOf (x : WaiterState γ) :
    (q.settleOpen id x).2.stateOf id =
      (q.stateOf id).map fun s => if s.isTerminal then s else x := by
  cases hw : q.owned id with
  | none => simp [settleOpen, hw, stateOf]
  | some w =>
    simp only [settleOpen, hw, stateOf, Option.map_some]
    split
    · simp [hw]
    · simp [settle, set]

theorem settled_of_settleOpen {x : WaiterState γ} (hx : x.isTerminal = true)
    (h : q.stateOf id ≠ none) : (q.settleOpen id x).2.Settled id := by
  obtain ⟨s, hs⟩ := Option.ne_none_iff_exists'.mp h
  refine ⟨_, by rw [settleOpen_stateOf, hs]; rfl, ?_⟩
  dsimp only
  split
  · assumption
  · exact hx

theorem settled_of_reject (error : WaiterError) (h : q.stateOf id ≠ none) :
    (q.reject id error).2.Settled id := settled_of_settleOpen rfl h

theorem reject_onlyMoves (error : WaiterError) : OnlyMoves q (q.reject id error).2 id :=
  settleOpen_onlyMoves _

theorem resolve_onlyMoves (grant : γ) : OnlyMoves q (q.resolve id grant).2 id :=
  settleOpen_onlyMoves _

theorem armTimeout_options (w : Waiter γ) (now : Int) :
    (w.armTimeout now).options = w.options := by
  unfold Waiter.armTimeout
  split
  · rfl
  · split <;> rfl

theorem enqueue_onlyMoves (now : Int) : OnlyMoves q (q.enqueue id now).2 id := by
  cases hw : q.owned id with
  | none =>
    simp only [enqueue, hw]
    exact .refl q id
  | some w =>
    simp only [enqueue, hw]
    split
    · exact .refl q id
    · split
      · exact reject_onlyMoves _
      · have h := onlyMoves_set { w.armTimeout now with state := .queued } hw
          (armTimeout_options w now)
        exact ⟨h.other, h.options⟩

theorem markProcessing_onlyMoves (now : Int) : OnlyMoves q (q.markProcessing id now).2 id := by
  cases hw : q.owned id with
  | none =>
    simp only [markProcessing, hw]
    exact .refl q id
  | some w =>
    simp only [markProcessing, hw]
    split
    · exact .refl q id
    · split
      · exact reject_onlyMoves _
      · exact onlyMoves_set _ hw rfl

theorem timeout_onlyMoves : OnlyMoves q (q.timeout id) id := by
  cases hw : q.owned id with
  | none =>
    simp only [timeout, hw]
    exact .refl q id
  | some w =>
    have hset := onlyMoves_set { w with timer := none } hw rfl
    simp only [timeout, hw]
    split
    · split
      · exact hset.trans (reject_onlyMoves _)
      · exact hset
    · exact .refl q id

theorem Settled.ne_none (h : q.Settled id) : q.stateOf id ≠ none := by
  obtain ⟨x, hx, -⟩ := h
  simp [hx]

/-- After an enqueue the waiter waits or is settled; a settled one stays as it was. -/
theorem enqueue_stateOf (now : Int) (h : q.stateOf id ≠ none) :
    (q.enqueue id now).2.Settled id ∨
      ¬ q.Settled id ∧ (q.enqueue id now).2.stateOf id = some .queued := by
  obtain ⟨w, hw⟩ : ∃ w, q.owned id = some w := by
    cases hw : q.owned id with
    | none => simp [stateOf, hw] at h
    | some w => exact ⟨w, rfl⟩
  simp only [enqueue, hw]
  split
  · rename_i ht
    exact .inl ⟨w.state, by simp [stateOf, hw], ht⟩
  · rename_i ht
    split
    · exact .inl (settled_of_reject _ h)
    · refine .inr ⟨?_, by simp [stateOf, set]⟩
      rintro ⟨x, hx, hxt⟩
      simp only [stateOf, hw, Option.map_some, Option.some.injEq] at hx
      exact ht (hx ▸ hxt)

/-- A waiter is taken up, or was or is settled. -/
theorem markProcessing_stateOf (now : Int) (h : q.stateOf id ≠ none) :
    (q.markProcessing id now).1 = false ∧ (q.markProcessing id now).2.Settled id ∨
      (q.markProcessing id now).1 = true ∧ ¬ q.Settled id ∧
        (q.markProcessing id now).2.stateOf id = some .processing := by
  obtain ⟨w, hw⟩ : ∃ w, q.owned id = some w := by
    cases hw : q.owned id with
    | none => simp [stateOf, hw] at h
    | some w => exact ⟨w, rfl⟩
  simp only [markProcessing, hw]
  split
  · rename_i ht
    exact .inl ⟨rfl, w.state, by simp [stateOf, hw], ht⟩
  · rename_i ht
    split
    · exact .inl ⟨rfl, settled_of_reject _ h⟩
    · refine .inr ⟨rfl, ?_, by simp [stateOf, set]⟩
      rintro ⟨x, hx, hxt⟩
      simp only [stateOf, hw, Option.map_some, Option.some.injEq] at hx
      exact ht (hx ▸ hxt)

variable (id) in
/-- A timer settles a waiter in the queue, and moves no other. -/
theorem timeout_stateOf :
    (q.timeout id).stateOf id = q.stateOf id ∨
      q.stateOf id = some .queued ∧ (q.timeout id).Settled id := by
  cases hw : q.owned id with
  | none => simp [timeout, hw]
  | some w =>
    simp only [timeout, hw]
    split
    · split
      · rename_i hs
        have hq : q.stateOf id = some .queued := by simp [stateOf, hw, hs]
        exact .inr ⟨hq, settled_of_reject _ (by simp [stateOf, set])⟩
      · exact .inl (by simp [stateOf, set, hw])
    · exact .inl rfl

/-- After `cancelAll` a waiter is as it was, or settled. -/
theorem cancelAll_stateOf (error : String → WaiterError) (i : String) :
    (q.cancelAll error).stateOf i = q.stateOf i ∨ (q.cancelAll error).Settled i := by
  unfold cancelAll
  generalize q.pendingWaiters = ids
  induction ids generalizing q with
  | nil => exact .inl rfl
  | cons id ids ih =>
    rw [List.foldl_cons]
    rcases ih (q := (q.reject id (error id)).2) with h | h
    · by_cases hi : i = id
      · subst hi
        by_cases hn : q.stateOf i = none
        · refine .inl (h.trans ?_)
          rw [hn, reject, settleOpen_stateOf, hn]
          rfl
        · obtain ⟨x, hx, hxt⟩ := settled_of_reject (error i) hn
          exact .inr ⟨x, h.trans hx, hxt⟩
      · exact .inl (h.trans ((reject_onlyMoves _).stateOf hi))
    · exact .inr h

/-! ### Positions -/

theorem settleOpen_waiters (x : WaiterState γ) :
    (q.settleOpen id x).2.waiters.Sublist q.waiters := by
  unfold settleOpen
  split
  · exact .refl _
  · split
    · exact .refl _
    · exact List.erase_sublist

theorem nodup_settleOpen (x : WaiterState γ) (h : q.waiters.Nodup) :
    (q.settleOpen id x).2.waiters.Nodup := h.sublist (settleOpen_waiters x)

theorem nodup_reject (error : WaiterError) (h : q.waiters.Nodup) :
    (q.reject id error).2.waiters.Nodup := nodup_settleOpen _ h

theorem nodup_enqueue (now : Int) (h : q.waiters.Nodup) : (q.enqueue id now).2.waiters.Nodup := by
  unfold enqueue
  split
  · exact h
  · split
    · exact h
    · split
      · exact nodup_reject _ h
      · dsimp only
        split
        · exact h
        · rename_i hid
          refine List.nodup_append.mpr ⟨h, List.nodup_singleton _, ?_⟩
          rintro a ha b hb rfl
          exact hid (List.mem_singleton.mp hb ▸ ha)

theorem nodup_markProcessing (now : Int) (h : q.waiters.Nodup) :
    (q.markProcessing id now).2.waiters.Nodup := by
  unfold markProcessing
  split
  · exact h
  · split
    · exact h
    · split
      · exact nodup_reject _ h
      · exact h

theorem nodup_timeout (h : q.waiters.Nodup) : (q.timeout id).waiters.Nodup := by
  unfold timeout
  split
  · exact h
  · split
    · split
      · exact nodup_reject _ h
      · exact h
    · exact h

theorem nodup_cancelAll (error : String → WaiterError) (h : q.waiters.Nodup) :
    (q.cancelAll error).waiters.Nodup := by
  unfold cancelAll
  generalize q.pendingWaiters = ids
  induction ids generalizing q with
  | nil => exact h
  | cons id ids ih => exact ih (nodup_reject _ h)

end WaitQueue

end Simlock.Leasing
