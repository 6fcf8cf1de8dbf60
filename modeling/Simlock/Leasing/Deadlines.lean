import Simlock.Leasing.CoordinatorSteps

/-! One deadline for each waiter, in every run of the queue and of its coordinator.

    The first arming fixes the deadline, and every later one aims at it. The timer is a single shot
    that spares a waiter in `processing`, and `markNew` arms nothing: what keeps a queued waiter from
    waiting without a timer is that the drive that marked it goes on to decide.

        queued ──timer──▶ rejected
        processing ──timer──▶ processing, no timer ──enqueue, markProcessing──▶ rejected if late
        processing ──markNew──▶ queued, no timer ──retrying, deciding──▶ the same -/

namespace Simlock.Leasing

open Simlock.Lib Simlock.Core

variable {γ : Type}

namespace WaitQueue

variable {q q' : WaitQueue γ} {id : String}

/-! ### Timers of the queue -/

/-- A queued waiter that may time out has a timer, aimed at its deadline. -/
def Armed (q : WaitQueue γ) (id : String) : Prop :=
  ∀ w timeoutMs, q.owned id = some w → w.state = .queued → w.options.timeoutMs = some timeoutMs →
    ∃ deadline fires, w.deadlineAt = some deadline ∧ w.timer = some fires ∧
      (0 ≤ timeoutMs → fires = deadline)

/-- An armed timer is aimed at the deadline. -/
def Aims (w : Waiter γ) : Prop :=
  ∀ fires, w.timer = some fires →
    ∃ timeoutMs deadline, w.options.timeoutMs = some timeoutMs ∧ w.deadlineAt = some deadline ∧
      (0 ≤ timeoutMs → fires = deadline)

def TimersAim (q : WaitQueue γ) : Prop := ∀ id w, q.owned id = some w → Aims w

theorem aims_of_none {w : Waiter γ} (h : w.timer = none) : Aims w := by
  intro fires hfires
  rw [h] at hfires
  cases hfires

variable (id) in
theorem timersAim_set {w : Waiter γ} (h : TimersAim q) (hw : Aims w) :
    TimersAim (q.set id w) := by
  intro i v hv
  by_cases hi : i = id
  · subst hi
    obtain rfl := Option.some.inj ((QueueRun.owned_set_self q w).symm.trans hv)
    exact hw
  · exact h i v ((QueueRun.owned_set_ne q w hi).symm.trans hv)

theorem timersAim_settleOpen (h : TimersAim q) (x : WaiterState γ) :
    TimersAim (q.settleOpen id x).2 := by
  unfold settleOpen
  split
  · exact h
  · split
    · exact h
    · rename_i w hw _
      exact timersAim_set id (w := { w with state := x, timer := none }) h
        (aims_of_none rfl)

/-- An arming aims the timer, or leaves the one that is aimed. -/
theorem armTimeout_aims {w : Waiter γ} {now : Int} (h : Aims w)
    (hearly : w.isPastDeadline now = false) : Aims (w.armTimeout now) := by
  unfold Waiter.armTimeout
  split
  · exact h
  · rename_i timeoutMs htimeout
    split
    · exact h
    · intro fires hfires
      refine ⟨timeoutMs, w.deadlineAt.getD (now + timeoutMs), htimeout, rfl, fun hpos => ?_⟩
      obtain rfl := Option.some.inj hfires
      cases hdeadline : w.deadlineAt with
      | none =>
        simp only [Option.getD_none]
        omega
      | some d =>
        have hlate : ¬ d ≤ now := by simpa [Waiter.isPastDeadline, hdeadline] using hearly
        simp only [Option.getD_some]
        omega

/-- A waiter that may time out leaves an arming with a timer. -/
theorem armTimeout_timer {w : Waiter γ} {timeoutMs : Int} (now : Int)
    (h : w.options.timeoutMs = some timeoutMs) : ∃ fires, (w.armTimeout now).timer = some fires := by
  simp only [Waiter.armTimeout, h]
  split
  · rename_i harmed
    exact Option.isSome_iff_exists.mp harmed
  · exact ⟨_, rfl⟩

theorem timersAim_step {s : QueueRun γ} (a : QueueAction γ) (h : TimersAim s.queue) :
    TimersAim (s.step a).queue := by
  cases a with
  | create id request options =>
    simp only [QueueRun.step]
    split
    · exact h
    · exact timersAim_set _ (w := ⟨request, options, .new, none, none⟩) h
        (aims_of_none rfl)
  | enqueue id now =>
    simp only [QueueRun.step, enqueue]
    split
    · exact h
    · rename_i w hw
      split
      · exact h
      · split
        · exact timersAim_settleOpen h _
        · rename_i hearly
          exact timersAim_set _ (w := { w.armTimeout now with state := .queued }) h
            (armTimeout_aims (h id w hw) (Bool.eq_false_iff.mpr hearly))
  | markProcessing id now =>
    simp only [QueueRun.step, markProcessing]
    split
    · exact h
    · rename_i w hw
      split
      · exact h
      · split
        · exact timersAim_settleOpen h _
        · exact timersAim_set _ (w := { w with state := .processing }) h (h id w hw)
  | markNew id =>
    simp only [QueueRun.step, markNew]
    split
    · exact h
    · rename_i w hw
      split
      · exact h
      · exact timersAim_set _ (w := { w with state := _ }) h (h id w hw)
  | resolve id grant => exact timersAim_settleOpen h _
  | reject id error => exact timersAim_settleOpen h _
  | cancelAll error =>
    simp only [QueueRun.step, cancelAll]
    generalize s.queue.pendingWaiters = ids
    revert h
    generalize s.queue = q
    intro h
    induction ids generalizing q with
    | nil => exact h
    | cons id ids ih => exact ih _ (timersAim_settleOpen h _)
  | timeout id =>
    simp only [QueueRun.step, timeout]
    split
    · exact h
    · rename_i w hw
      have hset : TimersAim (s.queue.set id { w with timer := none }) :=
        timersAim_set _ h (aims_of_none rfl)
      split
      · split
        · exact timersAim_settleOpen hset _
        · exact hset
      · exact h

theorem timersAim_of_reaches (h : TimersAim q) (hr : Reaches q q') : TimersAim q' := by
  obtain ⟨acts, rfl⟩ := hr []
  exact run_invariant (I := fun s : QueueRun γ => TimersAim s.queue)
    (fun _ a h => timersAim_step a h) acts _ h

/-! ### Which waiters have one -/

theorem Armed.other (h : Armed q id) (hother : q'.owned id = q.owned id) : Armed q' id :=
  fun w timeoutMs hw => h w timeoutMs (hother ▸ hw)

theorem armed_of_state (h : q.stateOf id ≠ some .queued) : Armed q id := by
  intro w timeoutMs hw hqueued
  rw [stateOf, hw, Option.map_some, hqueued] at h
  exact absurd rfl h

theorem armed_of_settled (h : q.Settled id) : Armed q id := by
  obtain ⟨x, hx, ht⟩ := h
  refine armed_of_state fun hqueued => ?_
  obtain rfl := Option.some.inj (hx.symm.trans hqueued)
  cases ht

theorem Moved.armed {now : Int} (h : Moved q q' id now .processing) : Armed q' id :=
  armed_of_state (by rw [h.state]; nofun)

theorem armed_of_none (h : q.owned id = none) : Armed q id :=
  armed_of_state (by simp [stateOf, h])

theorem armed_settleOpen {x : WaiterState γ} (hx : x.isTerminal = true) :
    Armed (q.settleOpen id x).2 id := by
  by_cases h : q.stateOf id = none
  · refine armed_of_state ?_
    rw [settleOpen_stateOf, h]
    nofun
  · exact armed_of_settled (settled_of_settleOpen hx h)

/-- An enqueue arms a waiter that it does not settle. -/
theorem armed_enqueue (h : TimersAim q) (now : Int) : Armed (q.enqueue id now).2 id := by
  have haims : TimersAim (q.enqueue id now).2 := timersAim_step (s := ⟨q, []⟩) (.enqueue id now) h
  intro v timeoutMs hv hqueued htimeout
  suffices htimer : ∃ fires, v.timer = some fires by
    obtain ⟨fires, hfires⟩ := htimer
    obtain ⟨_, deadline, ht, hdeadline, haim⟩ := haims id v hv fires hfires
    obtain rfl := Option.some.inj (ht.symm.trans htimeout)
    exact ⟨deadline, fires, hdeadline, hfires, haim⟩
  cases hw : q.owned id with
  | none =>
    simp only [enqueue, hw] at hv
    cases hv
  | some w =>
    simp only [enqueue, hw] at hv
    split at hv
    · rename_i hterminal
      obtain rfl := Option.some.inj (hw.symm.trans hv)
      rw [hqueued] at hterminal
      cases hterminal
    · split at hv
      · have hover : (q.reject id (.queueTimeout id)).2.Settled id :=
          settled_of_reject (.queueTimeout id) (by simp [stateOf, hw])
        obtain ⟨x, hx, ht⟩ := hover
        have hx' : some v.state = some x := by rw [← hx, stateOf, hv]; rfl
        rw [← Option.some.inj hx', hqueued] at ht
        cases ht
      · have hv' : (q.set id { w.armTimeout now with state := .queued }).owned id = some v := hv
        rw [QueueRun.owned_set_self] at hv'
        obtain rfl := Option.some.inj hv'
        exact armTimeout_timer now (armTimeout_options w now ▸ htimeout)

theorem armed_markProcessing (now : Int) : Armed (q.markProcessing id now).2 id := by
  by_cases h : q.stateOf id = none
  · have hw : q.owned id = none := Option.map_eq_none_iff.mp h
    simp only [markProcessing, hw]
    exact armed_of_none hw
  · rcases markProcessing_stateOf now h with ⟨-, hover⟩ | ⟨-, -, hstate⟩
    · exact armed_of_settled hover
    · exact armed_of_state (by rw [hstate]; simp)

theorem armed_reject {jd : String} (error : WaiterError) (h : Armed q id) :
    Armed (q.reject jd error).2 id := by
  by_cases hid : id = jd
  · subst hid
    exact armed_settleOpen rfl
  · exact h.other ((reject_onlyMoves error).other id hid)

theorem armed_timeout {jd : String} (h : Armed q id) : Armed (q.timeout jd) id := by
  by_cases hid : id = jd
  · subst hid
    unfold timeout
    split
    · exact h
    · rename_i w hw
      split
      · split
        · exact armed_settleOpen rfl
        · rename_i hstate
          exact armed_of_state (by simpa [stateOf, set] using hstate)
      · exact h
  · exact h.other (timeout_onlyMoves.other id hid)

theorem armed_cancelAll (error : String → WaiterError) (h : Armed q id) :
    Armed (q.cancelAll error) id := by
  unfold cancelAll
  generalize q.pendingWaiters = ids
  induction ids generalizing q with
  | nil => exact h
  | cons jd ids ih => exact ih (armed_reject (error jd) h)

theorem armed_refuseWaiting (error : WaiterError) (h : Armed q id) :
    Armed (q.refuseWaiting error) id := by
  unfold WaitQueue.refuseWaiting
  generalize q.pendingWaiters = ids
  induction ids generalizing q with
  | nil => exact h
  | cons jd ids ih =>
    rw [List.foldl_cons]
    refine ih ?_
    split
    · exact armed_reject error h
    · exact armed_reject error h
    · exact h

theorem armed_create {jd : String} (request : DeviceRequest) (options : WaiterOptions)
    (h : Armed q id) : Armed (q.create request options jd) id := by
  by_cases hid : id = jd
  · subst hid
    exact armed_of_state (by rw [create_stateOf_self]; nofun)
  · exact h.other (QueueRun.owned_set_ne _ _ hid)

/-- Every call but `markNew` leaves an armed waiter armed. -/
theorem armed_step {s : QueueRun γ} {a : QueueAction γ} (ha : a ≠ .markNew id)
    (haims : TimersAim s.queue) (h : Armed s.queue id) : Armed (s.step a).queue id := by
  cases a with
  | create jd request options =>
    simp only [QueueRun.step]
    split
    · exact h
    · exact armed_create request options h
  | enqueue jd now =>
    by_cases hid : id = jd
    · subst hid
      exact armed_enqueue haims now
    · exact h.other ((enqueue_onlyMoves now).other id hid)
  | markProcessing jd now =>
    by_cases hid : id = jd
    · subst hid
      exact armed_markProcessing now
    · exact h.other ((markProcessing_onlyMoves now).other id hid)
  | markNew jd =>
    have hid : id ≠ jd := fun he => ha (he ▸ rfl)
    exact h.other (markNew_touches.only.other id hid)
  | resolve jd grant =>
    by_cases hid : id = jd
    · subst hid
      exact armed_settleOpen rfl
    · exact h.other ((resolve_onlyMoves grant).other id hid)
  | reject jd error => exact armed_reject error h
  | cancelAll error => exact armed_cancelAll error h
  | timeout jd => exact armed_timeout h

/-- `markNew` alone leaves a queued waiter unarmed. -/
theorem armed_run (calls : List (QueueAction γ)) (hnot : QueueAction.markNew id ∉ calls) :
    Armed (run QueueRun.step QueueRun.empty calls).queue id := by
  have hok : ∀ (calls : List (QueueAction γ)) (s : QueueRun γ), QueueAction.markNew id ∉ calls →
      AllSteps QueueRun.step (fun _ a => a ≠ .markNew id) s calls := by
    intro calls
    induction calls with
    | nil => exact fun _ _ => trivial
    | cons a calls ih =>
      intro s hnot
      rw [List.mem_cons, not_or] at hnot
      exact ⟨Ne.symm hnot.1, ih _ hnot.2⟩
  have h := run_invariant_of_allSteps
    (I := fun s : QueueRun γ => TimersAim s.queue ∧ Armed s.queue id)
    (fun s a ha h => ⟨timersAim_step a h.1, armed_step ha h.1 h.2⟩) calls QueueRun.empty
    ⟨fun id w hw => (by cases hw), armed_of_none rfl⟩ (hok calls _ hnot)
  exact h.2

end WaitQueue

/-- The drive is about to decide. -/
def DrivePoint.isDeciding : DrivePoint → Bool
  | .deciding | .retrying | .choosing _ => true
  | _ => false

namespace Coordinator

open WaitQueue

variable {o : CoordinatorOptions} {s s' : Coordinator} {i : Nat} {id : String}

/-! ### Decisions in progress -/

/-- A decision about the waiter is in progress. -/
def Deciding (s : Coordinator) (id : String) : Prop :=
  ∃ (i : Nat) (x : DrivePoint), s.drives[i]? = some ⟨id, x⟩ ∧ x.isDeciding = true

theorem Deciding.kept (h : Deciding s id)
    (hkept : ∀ (j : Nat) (x : DrivePoint), s.drives[j]? = some ⟨id, x⟩ → x.isDeciding = true →
      s'.drives[j]? = some ⟨id, x⟩) : Deciding s' id := by
  obtain ⟨j, x, hj, hx⟩ := h
  exact ⟨j, x, hkept j x hj hx, hx⟩

/-- A drive that was not about to decide sets its point. -/
theorem Deciding.setPoint {x y : DrivePoint} {s₁ : Coordinator} (h : Deciding s id)
    (hd : s.drives[i]? = some ⟨id, x⟩) (hx : x.isDeciding = false)
    (hdrives : s₁.drives = s.drives) : Deciding (s₁.setPoint i y) id := by
  refine h.kept fun j z hj hz => ?_
  rw [setPoint_drives (hdrives ▸ hd), hdrives, if_neg]
  · exact hj
  · rintro rfl
    obtain ⟨-, rfl⟩ := Drive.mk.inj (Option.some.inj (hd.symm.trans hj))
    rw [hx] at hz
    cases hz

/-! ### Timers of the coordinator's queue -/

/-- The timers of the queue are aimed, and a queued waiter has one, or a decision about it is in
    progress, or the daemon plans nothing any more. -/
structure Timed (s : Coordinator) : Prop where
  known : Known s
  aims : TimersAim s.queue
  armed : ∀ id, Armed s.queue id ∨ Deciding s id ∨ s.stopPlanning = true

theorem goes_deciding {x y : DrivePoint} (h : Goes x y) : x.isDeciding = false := by
  cases h <;> rfl

theorem DriveStep.armed {x : DrivePoint} (h : Timed s) (hd : s.drives[i]? = some ⟨id, x⟩)
    (hstep : DriveStep o s i id x s') :
    Armed s'.queue id ∨ Deciding s' id ∨ s'.stopPlanning = true := by
  have hsame : ∀ {y : DrivePoint} {t : Coordinator}, x.isDeciding = false →
      t.drives = s.drives → t.queue = s.queue → t.stopPlanning = s.stopPlanning →
      Armed (t.setPoint i y).queue id ∨ Deciding (t.setPoint i y) id ∨
        (t.setPoint i y).stopPlanning = true := by
    intro y t hx hdrives hqueue hstop
    rcases h.armed id with harmed | hdeciding | hstopped
    · exact .inl (hqueue ▸ harmed : Armed t.queue id)
    · exact .inr (.inl (hdeciding.setPoint hd hx hdrives))
    · exact .inr (.inr (hstop.trans hstopped))
  cases hstep with
  | goes hgoes => exact hsame (goes_deciding hgoes) rfl rfl rfl
  | begins hfree hy => exact hsame (t := { s with driving := _ }) rfl rfl rfl rfl
  | stops now hholder hstop hx => exact .inr (.inr hstop)
  | closes hholder hstore hq hy => exact .inl (armed_of_settled hq.closed)
  | waits now hholder hstore hclock hwork hq hwaits =>
    obtain ⟨q₁, htouch, rfl⟩ := hwaits
    exact .inl (armed_enqueue (timersAim_of_reaches h.aims htouch.reaches) now)
  | takes now hholder hq hy => exact .inl hq.armed
  | commits g now writable hholder hq hw hreturns hdevice =>
    rcases hq with ⟨hq, -⟩ | ⟨rfl, rfl, -⟩
    · exact .inl hq.armed
    · exact hsame (t := { s with store := _, queue := _, holder := _, grants := _ }) rfl rfl rfl rfl
  | marks hholder hopen =>
    refine .inr (.inl ⟨i, .retrying, ?_, rfl⟩)
    exact (setPoint_drives (s := { s with failures := _, queue := _ }) hd .retrying i).trans (if_pos rfl)
  | retries =>
    rw [retry_eq hd]
    refine .inr (.inl ⟨s.drives.length, if s.isPhysical id then .choosing [] else .deciding, ?_, ?_⟩)
    · have hlength : (s.setPoint i (.awaiting s.drives.length)).drives.length = s.drives.length := by
        simp [setPoint]
      rw [getElem?_append_one, if_pos hlength.symm]
    · split <;> rfl
  | resolves =>
    simp only [resolve, hd]
    exact .inl (armed_settleOpen rfl)
  | finishes =>
    simp only [finish, hd]
    exact hsame (t := { s with driving := _, planAgain := _ }) rfl rfl rfl rfl

/-- The decisions about a waiter go on when its drives do. -/
theorem DaemonStep.armed {a : Action} (h : Timed s) (hstep : DaemonStep o s a s') (id : String) :
    Armed s'.queue id ∨ Deciding s' id ∨ s'.stopPlanning = true := by
  have hmono : ∀ {t : Coordinator}, (Armed s.queue id → Armed t.queue id) →
      (∀ (j : Nat) (d : Drive), s.drives[j]? = some d → t.drives[j]? = some d) →
      (s.stopPlanning = true → t.stopPlanning = true) →
      Armed t.queue id ∨ Deciding t id ∨ t.stopPlanning = true := by
    intro t harmed hdrives hstop
    rcases h.armed id with h | h | h
    · exact .inl (harmed h)
    · exact .inr (.inl (h.kept fun j x hj _ => hdrives j _ hj))
    · exact .inr (.inr (hstop h))
  cases hstep with
  | stays => exact h.armed id
  | refuses store hstore => exact hmono (fun h => h) (fun _ _ h => h) fun h => h
  | @admits request options rid answered now writable hholder hnew hlimit hreturns =>
    refine hmono (armed_create request options) (fun j d hj => ?_) fun h => h
    have hlt := (List.getElem?_eq_some_iff.mp hj).1
    exact (List.getElem?_append_left hlt).trans hj
  | wakes hholder =>
    obtain ⟨driving, drives, heq, hkept⟩ := wake_eq s
    rw [heq]
    exact hmono (t := { s with driving := driving, drives := drives }) (fun h => h) hkept
      fun h => h
  | cancels jd hholder hpending => exact hmono (armed_reject _) (fun _ _ h => h) fun h => h
  | begins hholder => exact hmono (armed_cancelAll _) (fun _ _ h => h) fun h => h
  | ends => exact hmono (fun h => h) (fun _ _ h => h) fun h => h
  | holds hholder => exact hmono (armed_refuseWaiting _) (fun _ _ h => h) fun h => h
  | lifts => exact hmono (fun h => h) (fun _ _ h => h) fun h => h
  | stops => exact .inr (.inr rfl)
  | settles x hx hholder => exact hmono (fun h => h) (fun _ _ h => h) fun h => h
  | times => exact hmono armed_timeout (fun _ _ h => h) fun h => h
  | commits hc => exact hmono (fun h => h) (fun _ _ h => h) fun h => h
  | restarts => exact .inl (armed_of_none rfl)
  | serves hserving => exact hmono (fun h => h) (fun _ _ h => h) fun h => h

theorem Timed.step (h : Timed s) (a : Action) : Timed (s.step o a) := by
  have hknown := h.known.step (o := o) a
  rcases step_cases h.known.drives a with ⟨i, -, hd⟩ | ⟨-, hd⟩
  · rcases hd with heq | ⟨id, x, hd, hstep⟩
    · rw [heq]
      exact h
    · have hframe := hstep.frame hd
      refine ⟨hknown, timersAim_of_reaches h.aims hframe.reaches, fun jd => ?_⟩
      by_cases hid : jd = id
      · subst hid
        exact hstep.armed h hd
      · rcases h.armed jd with harmed | hdeciding | hstop
        · exact .inl (harmed.other (hframe.only.other jd hid))
        · exact .inr (.inl (hdeciding.kept fun j x hj _ => hframe.kept j _ hj hid))
        · exact .inr (.inr (hframe.stop.trans hstop))
  · refine ⟨hknown, ?_, hd.armed h⟩
    rcases hd.reaches h.known with hreaches | hempty
    · exact timersAim_of_reaches h.aims hreaches
    · rw [hempty]
      exact fun id w hw => (by cases hw)

theorem timed_run (o : CoordinatorOptions) (now : Int) (acts : List Action) :
    Timed (run (step o) (create now) acts) :=
  run_invariant (fun _ a h => h.step a) acts _
    ⟨known_create now, fun id w hw => (by cases hw), fun id => .inl (armed_of_none rfl)⟩

/-! ### No way back after the deadline -/

/-- The waiter comes into the queue, or is taken up. -/
def PutsBack (s s' : Coordinator) (id : String) : Prop :=
  s'.queue.stateOf id ≠ s.queue.stateOf id ∧
    (s'.queue.stateOf id = some .queued ∨ s'.queue.stateOf id = some .processing)

/-- The waiter was before its deadline when the step read the clock. -/
def Timely (s s' : Coordinator) (id : String) : Prop :=
  ∀ w, s.queue.owned id = some w → w.isPastDeadline s'.store.clock = false

theorem not_putsBack_of_stateOf (h : s'.queue.stateOf id = s.queue.stateOf id) :
    ¬ PutsBack s s' id := fun hback => hback.1 h

theorem not_putsBack_of_settled (h : s'.queue.Settled id) : ¬ PutsBack s s' id := by
  obtain ⟨x, hx, ht⟩ := h
  rintro ⟨-, hq | hp⟩
  · obtain rfl := Option.some.inj (hx.symm.trans hq)
    cases ht
  · obtain rfl := Option.some.inj (hx.symm.trans hp)
    cases ht

theorem DriveStep.putsBack {x : DrivePoint} (hd : s.drives[i]? = some ⟨id, x⟩)
    (hne : s.queue.stateOf id ≠ none) (hstep : DriveStep o s i id x s') (hback : PutsBack s s' id) :
    Timely s s' id ∨ s'.drives[i]? = some ⟨id, .retrying⟩ ∨ s.stopPlanning = true := by
  cases hstep with
  | goes hgoes => exact absurd hback (not_putsBack_of_stateOf rfl)
  | begins hfree hy => exact absurd hback (not_putsBack_of_stateOf rfl)
  | stops now hholder hstop hx => exact .inr (.inr hstop)
  | closes hholder hstore hq hy => exact absurd hback (not_putsBack_of_settled hq.closed)
  | waits now hholder hstore hclock hwork hq hwaits =>
    subst hclock
    exact .inl hq.early
  | takes now hholder hq hy => exact .inl hq.early
  | commits g now writable hholder hq hw hreturns hdevice =>
    rcases hq with ⟨hq, -⟩ | ⟨-, rfl, -⟩
    · exact .inl hq.early
    · exact absurd hback (not_putsBack_of_stateOf rfl)
  | marks hholder hopen =>
    exact .inr (.inl ((setPoint_drives (s := { s with failures := _, queue := _ }) hd .retrying
      i).trans (if_pos rfl)))
  | retries =>
    rw [retry_eq hd] at hback
    exact absurd hback (not_putsBack_of_stateOf rfl)
  | resolves =>
    simp only [resolve, hd] at hback
    exact absurd hback (not_putsBack_of_settled (settled_of_settleOpen rfl hne))
  | finishes =>
    simp only [finish, hd] at hback
    exact absurd hback (not_putsBack_of_stateOf rfl)

/-- A step of the daemon leaves every waiter in its state, settled, new or forgotten. -/
theorem DaemonStep.not_putsBack {a : Action} (hstep : DaemonStep o s a s') (id : String) :
    ¬ PutsBack s s' id := by
  have hor : s'.queue.stateOf id = s.queue.stateOf id ∨ s'.queue.Settled id → ¬ PutsBack s s' id :=
    fun h => h.elim not_putsBack_of_stateOf not_putsBack_of_settled
  cases hstep with
  | @admits request options rid answered now writable hholder hnew hlimit hreturns =>
    by_cases hid : id = rid
    · subst hid
      have hstate : (s.queue.create request options id).stateOf id = some .new :=
        create_stateOf_self request options
      rintro ⟨-, hq | hp⟩
      · cases hstate.symm.trans hq
      · cases hstate.symm.trans hp
    · exact hor (.inl (create_stateOf_ne request options hid))
  | wakes hholder =>
    obtain ⟨driving, drives, heq, -⟩ := wake_eq s
    rw [heq]
    exact not_putsBack_of_stateOf rfl
  | cancels jd hholder hpending => exact hor (reject_stateOf _ jd _)
  | begins hholder => exact hor (cancelAll_stateOf _ id)
  | holds hholder => exact hor (refuseWaiting_stateOf _ _)
  | @times jd =>
    by_cases hid : id = jd
    · subst hid
      exact hor ((timeout_stateOf _).imp_right fun h => h.2)
    · exact hor (.inl (timeout_onlyMoves.stateOf hid))
  | restarts =>
    rintro ⟨-, hq | hp⟩
    · cases hq
    · cases hp
  | _ => exact not_putsBack_of_stateOf rfl

theorem step_putsBack (h : Known s) (a : Action) (hback : PutsBack s (s.step o a) id) :
    Timely s (s.step o a) id ∨ (∃ i : Nat, (s.step o a).drives[i]? = some ⟨id, .retrying⟩) ∨
      s.stopPlanning = true := by
  rcases step_cases h.drives a with ⟨i, -, hd⟩ | ⟨-, hd⟩
  · rcases hd with heq | ⟨jd, x, hd, hstep⟩
    · rw [heq] at hback
      exact absurd hback (not_putsBack_of_stateOf rfl)
    · by_cases hid : id = jd
      · subst hid
        exact (hstep.putsBack hd (h.drives i id x hd) hback).imp_right
          fun h => h.imp_left fun hi => ⟨i, hi⟩
      · exact absurd hback (not_putsBack_of_stateOf ((hstep.frame hd).only.stateOf hid))
  · exact absurd hback (hd.not_putsBack id)

/-- A decision leaves its waiter settled, or found it before its deadline. -/
theorem DriveStep.decision {x : DrivePoint} (hstep : DriveStep o s i id x s')
    (hx : x = .deciding ∨ ∃ absent, x = .choosing absent) :
    s'.queue.Settled id ∨ Timely s s' id ∨ s.stopPlanning = true := by
  cases hstep with
  | stops now hholder hstop hq => exact .inr (.inr hstop)
  | closes hholder hstore hq hy => exact .inl hq.closed
  | waits now hholder hstore hclock hwork hq hwaits =>
    subst hclock
    exact .inr (.inl hq.early)
  | takes now hholder hq hy => exact .inr (.inl hq.early)
  | commits g now writable hholder hq hw hreturns hdevice =>
    rcases hq with ⟨hq, -⟩ | ⟨rfl, -⟩
    · exact .inr (.inl hq.early)
    · rcases hx with hx | ⟨absent, hx⟩ <;> cases hx
  | goes hgoes =>
    have hno := goes_deciding hgoes
    rcases hx with rfl | ⟨absent, rfl⟩ <;> cases hno
  | _ => rcases hx with hx | ⟨absent, hx⟩ <;> cases hx

/-! ### One deadline -/

/-- In every run of the coordinator a deadline never moves, not even over a restart. A waiter comes
    into the queue or is taken up before its deadline only, unless its drive failed once and goes on
    to decide, or the daemon has stopped planning; the decision settles the waiter, or found it
    before its deadline. A queued waiter that may time out has a timer aimed at its deadline,
    unless a decision about it is in progress or the daemon has stopped planning. The queue by
    itself keeps deadlines as well, and it is `markNew` alone that leaves a waiter unarmed. -/
theorem deadline_fixed_and_armed (o : CoordinatorOptions) (now : Int) (acts later : List Action)
    (calls laterCalls : List (QueueAction LeaseGrant)) :
    let s := run (step o) (create now) acts
    let r := run QueueRun.step QueueRun.empty calls
    (∀ id w w' deadline, s.queue.owned id = some w → w.deadlineAt = some deadline →
      (run (step o) s later).queue.owned id = some w' → w'.deadlineAt = some deadline) ∧
    (∀ a id, PutsBack s (s.step o a) id → Timely s (s.step o a) id ∨
      (∃ i : Nat, (s.step o a).drives[i]? = some ⟨id, .retrying⟩) ∨ s.stopPlanning = true) ∧
    (∀ (a : Action) (i : Nat) id x, a.drive? = some i → s.drives[i]? = some ⟨id, x⟩ →
      (x = .deciding ∨ ∃ absent, x = .choosing absent) → s.step o a = s ∨
        (s.step o a).queue.Settled id ∨ Timely s (s.step o a) id ∨ s.stopPlanning = true) ∧
    (∀ id, Armed s.queue id ∨ Deciding s id ∨ s.stopPlanning = true) ∧
    (∀ id w deadline, r.queue.owned id = some w → w.deadlineAt = some deadline →
      ∃ w', (run QueueRun.step r laterCalls).queue.owned id = some w' ∧
        w'.deadlineAt = some deadline) ∧
    (∀ id now, (r.queue.enqueue id now).1 = true ∨ (r.queue.markProcessing id now).1 = true →
      ∀ w, r.queue.owned id = some w → w.isPastDeadline now = false) ∧
    (∀ id, QueueAction.markNew id ∉ calls → Armed r.queue id) := by
  intro s r
  have htimed : Timed s := timed_run o now acts
  have haccounts : QueueRun.Accounts r := QueueRun.accounts_run calls
  refine ⟨fun id w w' deadline hw hd hw' => ?_, fun a id => step_putsBack htimed.known a,
    fun a i id x ha hd hx => ?_, htimed.armed, fun id w deadline hw hd => ?_,
    fun id now hcall w hw => ?_, fun id hnot => ?_⟩
  · have hminted := htimed.known.minted id (by simp [stateOf, hw])
    obtain ⟨v, hv, hkeeps⟩ := (htimed.known.run_follows (o := o) later).keeps id w' hw' hminted
    obtain rfl := Option.some.inj (hw.symm.trans hv)
    exact hkeeps.deadline deadline hd
  · rcases step_drives htimed.known.drives ha with heq | ⟨jd, y, hd', hstep⟩
    · exact .inl heq
    · obtain ⟨rfl, rfl⟩ := Drive.mk.inj (Option.some.inj (hd.symm.trans hd'))
      exact .inr (hstep.decision hx)
  · obtain ⟨w', hw', hkeeps⟩ := QueueRun.keepsAll_run laterCalls r haccounts id w hw
    exact ⟨w', hw', hkeeps.deadline deadline hd⟩
  · refine Bool.eq_false_iff.mpr fun hlate => ?_
    rcases hcall with hcall | hcall
    · simp only [enqueue, hw, hlate, if_true] at hcall
      split at hcall <;> cases hcall
    · simp only [markProcessing, hw, hlate, if_true] at hcall
      split at hcall <;> cases hcall
  · exact armed_run calls hnot

/-! ### Past its deadline in the queue -/

def shortOptions : CoordinatorOptions := ⟨shortRetention, none⟩

/-- A request that waits ten milliseconds. -/
def briefly : WaiterOptions := ⟨⟨"agent", "owner", none, none, none⟩, some 10, false, none⟩

/-- A waiter is queued until 10 and taken up at 5; its timer fires, and at 20 its device fails to
    come. -/
def failsLate : List Action :=
  [.serve 0 true, .request ⟨.ios, none, none, none, none, none, none, none, none⟩ briefly "req_1"
      false 0 true,
    .resolved 0 none, .decide 0 .wait 0 true, .finish 0, .wake,
    .decide 1 (.work .provision) 5 true, .timeout "req_1", .other (.unenrollPhysical "dev_1") 20 true,
    .worked 1 (.failed "no runtime")]

/-- The first failure puts the waiter back into the queue, past its deadline and with no timer. -/
theorem failure_requeues_late :
    let s := run (step shortOptions) (create 0) failsLate
    let s' := s.step shortOptions (.countFailure 1)
    (s.queue.owned "req_1").map (fun w => (w.state.isProcessing, w.deadlineAt)) =
        some (true, some 10) ∧
      s'.store.clock = 20 ∧
      (s'.queue.owned "req_1").map (fun w => (w.state.isQueued, w.deadlineAt, w.timer)) =
        some (true, some 10, none) := by
  decide +kernel

end Coordinator

end Simlock.Leasing
