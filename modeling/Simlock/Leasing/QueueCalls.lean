import Simlock.Leasing.Coordinator

/-! What the calls of a section leave of the queue.

    Whatever a section or a continuation does, the queue it leaves is one that calls of the queue
    reach (`Reaches`), so that what holds of every run of the queue holds of the coordinator's. Its
    calls for a waiter settle it (`Closed`) or move it before its deadline (`Moved`). -/

namespace Simlock.Leasing

open Simlock.Lib Simlock.Core

variable {γ : Type}

/-! ### Queues that calls reach -/

namespace WaitQueue

variable {q q' q'' : WaitQueue γ} {id : String}

/-- Calls of the queue lead from the one to the other. -/
def Reaches (q q' : WaitQueue γ) : Prop :=
  ∀ enqueued, ∃ acts, (run QueueRun.step (⟨q, enqueued⟩ : QueueRun γ) acts).queue = q'

theorem Reaches.refl (q : WaitQueue γ) : Reaches q q := fun _ => ⟨[], rfl⟩

theorem Reaches.trans (h : Reaches q q') (h' : Reaches q' q'') : Reaches q q'' := by
  intro enqueued
  obtain ⟨acts, hacts⟩ := h enqueued
  obtain ⟨acts', hacts'⟩ := h' (run QueueRun.step (⟨q, enqueued⟩ : QueueRun γ) acts).enqueued
  refine ⟨acts ++ acts', ?_⟩
  rw [run_append, ← hacts', ← hacts]

theorem Reaches.call (a : QueueAction γ) (h : ∀ enqueued,
    ((⟨q, enqueued⟩ : QueueRun γ).step a).queue = q') : Reaches q q' :=
  fun enqueued => ⟨[a], h enqueued⟩

theorem reaches_reject (error : WaiterError) : Reaches q (q.reject id error).2 :=
  .call (.reject id error) fun _ => rfl

theorem reaches_enqueue (now : Int) : Reaches q (q.enqueue id now).2 :=
  .call (.enqueue id now) fun _ => rfl

theorem reaches_markProcessing (now : Int) : Reaches q (q.markProcessing id now).2 :=
  .call (.markProcessing id now) fun _ => rfl

theorem reaches_markNew : Reaches q (q.markNew id).2 := .call (.markNew id) fun _ => rfl

theorem reaches_resolve (grant : γ) : Reaches q (q.resolve id grant).2 :=
  .call (.resolve id grant) fun _ => rfl

theorem reaches_timeout : Reaches q (q.timeout id) := .call (.timeout id) fun _ => rfl

theorem reaches_cancelAll (error : String → WaiterError) : Reaches q (q.cancelAll error) :=
  .call (.cancelAll error) fun _ => rfl

theorem reaches_create (request : DeviceRequest) (options : WaiterOptions)
    (hnone : q.owned id = none) : Reaches q (q.create request options id) := by
  refine .call (.create id request options) fun _ => ?_
  simp [QueueRun.step, hnone]

theorem reaches_refuseWaiting (error : WaiterError) : Reaches q (q.refuseWaiting error) := by
  unfold WaitQueue.refuseWaiting
  generalize q.pendingWaiters = ids
  induction ids generalizing q with
  | nil => exact .refl q
  | cons id ids ih =>
    rw [List.foldl_cons]
    refine Reaches.trans ?_ ih
    split
    · exact reaches_reject error
    · exact reaches_reject error
    · exact .refl _

/-- What calls for the waiter `id` leave: the other waiters are as they were, a settled one stays
    settled and a deadline stays, and none is granted. -/
structure Touches (q q' : WaitQueue γ) (id : String) : Prop where
  only : OnlyMoves q q' id
  reaches : Reaches q q'
  settled : q.Settled id → q'.Settled id
  granted : ∀ g, q'.stateOf id = some (.granted g) → q.stateOf id = some (.granted g)
  deadline : ∀ w, q.owned id = some w → ∃ w', q'.owned id = some w' ∧
    ∀ d, w.deadlineAt = some d → w'.deadlineAt = some d

/-- The waiter is settled, and not granted by this. -/
structure Closed (q q' : WaitQueue γ) (id : String) : Prop extends Touches q q' id where
  closed : q'.Settled id

/-- The waiter was open and before its deadline, and is now in this state. -/
structure Moved (q q' : WaitQueue γ) (id : String) (now : Int) (x : WaiterState γ) : Prop
    extends Touches q q' id where
  wasOpen : ¬ q.Settled id
  early : ∀ w, q.owned id = some w → w.isPastDeadline now = false
  state : q'.stateOf id = some x

theorem Touches.refl (q : WaitQueue γ) (id : String) : Touches q q id :=
  ⟨.refl q id, .refl q, fun h => h, fun _ h => h, fun w hw => ⟨w, hw, fun _ h => h⟩⟩

theorem Touches.trans (h : Touches q q' id) (h' : Touches q' q'' id) : Touches q q'' id := by
  refine ⟨h.only.trans h'.only, h.reaches.trans h'.reaches, fun hs => h'.settled (h.settled hs),
    fun g hg => h.granted g (h'.granted g hg), fun w hw => ?_⟩
  obtain ⟨w', hw', hd⟩ := h.deadline w hw
  obtain ⟨w'', hw'', hd'⟩ := h'.deadline w' hw'
  exact ⟨w'', hw'', fun d h => hd' d (hd d h)⟩

theorem Closed.after (h' : Closed q' q'' id) (h : Touches q q' id) : Closed q q'' id :=
  ⟨h.trans h'.toTouches, h'.closed⟩

theorem Moved.after {now : Int} {x : WaiterState γ} (h' : Moved q' q'' id now x)
    (h : Touches q q' id) : Moved q q'' id now x := by
  refine ⟨h.trans h'.toTouches, fun hs => h'.wasOpen (h.settled hs), fun w hw => ?_, h'.state⟩
  obtain ⟨w', hw', hd⟩ := h.deadline w hw
  have hearly := h'.early w' hw'
  unfold Waiter.isPastDeadline at hearly ⊢
  cases hdead : w.deadlineAt with
  | none => rfl
  | some d => rwa [hd d hdead] at hearly

theorem owned_of_ne_none (h : q.stateOf id ≠ none) : ∃ w, q.owned id = some w := by
  cases hw : q.owned id with
  | none => simp [stateOf, hw] at h
  | some w => exact ⟨w, rfl⟩

theorem not_settled {w : Waiter γ} (hw : q.owned id = some w) :
    ¬ q.Settled id ↔ w.state.isTerminal = false := by
  simp [Settled, stateOf, hw]

theorem closed_self (h : q.Settled id) : Closed q q id := ⟨.refl q id, h⟩

theorem closed_reject (error : WaiterError) (h : q.stateOf id ≠ none) :
    Closed q (q.reject id error).2 id := by
  obtain ⟨w, hw⟩ := owned_of_ne_none h
  have hover := settled_of_reject error h
  refine ⟨⟨reject_onlyMoves error, reaches_reject error, fun _ => hover, fun g hg => ?_,
    fun v hv => ?_⟩, hover⟩
  · rw [reject, settleOpen_stateOf] at hg
    obtain ⟨x, hx, hif⟩ := Option.map_eq_some_iff.mp hg
    split at hif
    · rw [hx, hif]
    · cases hif
  · obtain ⟨v', hv', hk⟩ := QueueRun.keepsAll_moves (reject_moves error) id v hv
    exact ⟨v', hv', hk.deadline⟩

/-- A waiter that is open, before and after. -/
theorem touches_set {w w' : Waiter γ} {waiters : List String} (hw : q.owned id = some w)
    (hopen : w.state.isTerminal = false) (hopen' : w'.state.isTerminal = false)
    (hoptions : w'.options = w.options) (hdeadline : ∀ d, w.deadlineAt = some d →
      w'.deadlineAt = some d) (hreaches : Reaches q { q.set id w' with waiters := waiters }) :
    Touches q { q.set id w' with waiters := waiters } id := by
  have honly := onlyMoves_set _ hw hoptions
  refine ⟨⟨honly.other, honly.options⟩, hreaches, fun hs => absurd hs ((not_settled hw).mpr hopen),
    fun g hg => ?_, fun v hv => ?_⟩
  · have hstate : w'.state = .granted g := by simpa [stateOf, set] using hg
    rw [hstate] at hopen'
    cases hopen'
  · obtain rfl := Option.some.inj (hw.symm.trans hv)
    exact ⟨w', Function.update_self .., hdeadline⟩

/-- An enqueue leaves the waiter in the queue, or settled. -/
theorem enqueue_cases (now : Int) (h : q.stateOf id ≠ none) :
    Closed q (q.enqueue id now).2 id ∨ Moved q (q.enqueue id now).2 id now .queued := by
  obtain ⟨w, hw⟩ := owned_of_ne_none h
  have hreaches : Reaches q (q.enqueue id now).2 := reaches_enqueue now
  simp only [enqueue, hw] at hreaches ⊢
  split
  · rename_i ht
    exact .inl (closed_self ⟨w.state, by simp [stateOf, hw], ht⟩)
  · rename_i ht
    have hopen := Bool.eq_false_iff.mpr ht
    split
    · exact .inl (closed_reject _ h)
    · rename_i hpast
      simp only [ht, hpast, Bool.false_eq_true, if_false] at hreaches
      refine .inr ⟨touches_set hw hopen rfl (armTimeout_options w now)
        (fun d => armTimeout_deadline w now) hreaches, (not_settled hw).mpr hopen, fun v hv => ?_, ?_⟩
      · obtain rfl := Option.some.inj (hw.symm.trans hv)
        exact Bool.eq_false_iff.mpr hpast
      · simp [stateOf, set]

variable (id) in
/-- A waiter that is taken up was open and before its deadline. -/
theorem markProcessing_cases (now : Int) (h : q.stateOf id ≠ none) :
    (q.markProcessing id now).1 = false ∧ Closed q (q.markProcessing id now).2 id ∨
      (q.markProcessing id now).1 = true ∧
        Moved q (q.markProcessing id now).2 id now .processing := by
  obtain ⟨w, hw⟩ := owned_of_ne_none h
  have hreaches : Reaches q (q.markProcessing id now).2 := reaches_markProcessing now
  simp only [markProcessing, hw] at hreaches ⊢
  split
  · rename_i ht
    exact .inl ⟨rfl, closed_self ⟨w.state, by simp [stateOf, hw], ht⟩⟩
  · rename_i ht
    have hopen := Bool.eq_false_iff.mpr ht
    split
    · exact .inl ⟨rfl, closed_reject _ h⟩
    · rename_i hpast
      simp only [ht, hpast, Bool.false_eq_true, if_false] at hreaches
      refine .inr ⟨rfl, touches_set hw hopen rfl rfl (fun _ h => h) hreaches,
        (not_settled hw).mpr hopen, fun v hv => ?_, ?_⟩
      · obtain rfl := Option.some.inj (hw.symm.trans hv)
        exact Bool.eq_false_iff.mpr hpast
      · simp [stateOf, set]

/-- `#defer` settles the waiter or leaves it in the queue. -/
theorem defer_cases (now : Int) (h : q.stateOf id ≠ none) :
    Closed q (q.defer id now) id ∨
      Moved q (q.defer id now) id now .queued ∧ q.defer id now = (q.enqueue id now).2 := by
  obtain ⟨w, hw⟩ := owned_of_ne_none h
  simp only [WaitQueue.defer, hw]
  split
  · exact .inl (closed_reject _ h)
  · exact (enqueue_cases now h).imp_right fun h => ⟨h, rfl⟩

theorem markNew_touches : Touches q (q.markNew id).2 id := by
  have hreaches : Reaches q (q.markNew id).2 := reaches_markNew
  cases hw : q.owned id with
  | none =>
    simp only [markNew, hw]
    exact .refl q id
  | some w =>
    simp only [markNew, hw] at hreaches ⊢
    split
    · exact .refl q id
    · rename_i ht
      simp only [ht, Bool.false_eq_true, if_false] at hreaches
      refine touches_set hw (Bool.eq_false_iff.mpr ht) ?_ rfl (fun _ h => h) hreaches
      dsimp only
      split <;> rfl

/-- `markNew` moves no position. -/
theorem markNew_head : (q.markNew id).2.head = q.head := by
  cases hw : q.owned id with
  | none => simp only [markNew, hw]
  | some w =>
    simp only [markNew, hw]
    split
    · rfl
    · have hline : ∀ w' : Waiter γ, w'.request = w.request →
          (q.set id w').line .virtual = q.line .virtual := by
        intro w' hrequest
        refine List.filter_congr fun i _ => ?_
        by_cases hi : i = id
        · subst hi
          rw [QueueRun.owned_set_self, hw, Option.any_some, Option.any_some, hrequest]
        · rw [QueueRun.owned_set_ne q w' hi]
      exact congrArg List.head? (hline { w with state := _ } rfl)

/-! ### What holds of a queue that was reached -/

theorem accounts_of_reaches {q q' : WaitQueue γ} {enqueued : List String}
    (h : QueueRun.Accounts ⟨q, enqueued⟩) (hr : Reaches q q') :
    ∃ enqueued', QueueRun.Accounts ⟨q', enqueued'⟩ := by
  obtain ⟨acts, rfl⟩ := hr enqueued
  exact ⟨_, run_invariant QueueRun.step_accounts acts _ h⟩

theorem keepsAll_of_reaches {q q' : WaitQueue γ} {enqueued : List String}
    (h : QueueRun.Accounts ⟨q, enqueued⟩) (hr : Reaches q q') : QueueRun.KeepsAll q q' := by
  obtain ⟨acts, rfl⟩ := hr enqueued
  exact QueueRun.keepsAll_run acts _ h

theorem stateOf_ne_none_of_keepsAll {q q' : WaitQueue γ} (h : QueueRun.KeepsAll q q')
    (hne : q.stateOf id ≠ none) : q'.stateOf id ≠ none := by
  obtain ⟨w, hw⟩ := owned_of_ne_none hne
  obtain ⟨w', hw', -⟩ := h id w hw
  simp [stateOf, hw']

theorem cancelAll_known (q : WaitQueue γ) (error : String → WaiterError) :
    (q.cancelAll error).stateOf id ≠ none → q.stateOf id ≠ none := by
  unfold cancelAll
  generalize q.pendingWaiters = ids
  induction ids generalizing q with
  | nil => exact fun h => h
  | cons jd ids ih =>
    intro h
    have hone := ih (q.reject jd (error jd)).2 h
    by_cases hid : id = jd
    · subst hid
      rw [WaitQueue.reject, settleOpen_stateOf] at hone
      exact fun hnone => hone (by rw [hnone]; rfl)
    · rwa [(reject_onlyMoves _).stateOf hid] at hone

theorem reject_known (q : WaitQueue γ) {jd : String} (error : WaiterError)
    (h : (q.reject jd error).2.stateOf id ≠ none) : q.stateOf id ≠ none := by
  by_cases hid : id = jd
  · subst hid
    rw [WaitQueue.reject, settleOpen_stateOf] at h
    exact fun hnone => h (by rw [hnone]; rfl)
  · rwa [(reject_onlyMoves _).stateOf hid] at h

theorem refuseWaiting_known (q : WaitQueue γ) (error : WaiterError)
    (h : (q.refuseWaiting error).stateOf id ≠ none) : q.stateOf id ≠ none := by
  unfold WaitQueue.refuseWaiting at h
  generalize q.pendingWaiters = ids at h
  induction ids generalizing q with
  | nil => exact h
  | cons jd ids ih =>
    rw [List.foldl_cons] at h
    have hone := ih _ h
    split at hone
    · exact reject_known q error hone
    · exact reject_known q error hone
    · exact hone

/-- A rejection leaves every waiter in its state, or settled. -/
theorem reject_stateOf (q : WaitQueue γ) (jd : String) (error : WaiterError) :
    (q.reject jd error).2.stateOf id = q.stateOf id ∨ (q.reject jd error).2.Settled id := by
  by_cases hid : id = jd
  · subst hid
    by_cases hnone : q.stateOf id = none
    · refine .inl ?_
      rw [WaitQueue.reject, settleOpen_stateOf, hnone]
      rfl
    · exact .inr (settled_of_reject error hnone)
  · exact .inl ((reject_onlyMoves error).stateOf hid)

theorem foldl_stateOf {f : WaitQueue γ → String → WaitQueue γ}
    (hf : ∀ q jd, (f q jd).stateOf id = q.stateOf id ∨ (f q jd).Settled id) (ids : List String) :
    ∀ q, (ids.foldl f q).stateOf id = q.stateOf id ∨ (ids.foldl f q).Settled id := by
  induction ids with
  | nil => exact fun _ => .inl rfl
  | cons jd ids ih =>
    intro q
    rw [List.foldl_cons]
    rcases ih (f q jd) with hsame | hover
    · refine (hf q jd).imp hsame.trans ?_
      rintro ⟨x, hx, ht⟩
      exact ⟨x, hsame.trans hx, ht⟩
    · exact .inr hover

theorem refuseWaiting_stateOf (q : WaitQueue γ) (error : WaiterError) :
    (q.refuseWaiting error).stateOf id = q.stateOf id ∨ (q.refuseWaiting error).Settled id := by
  refine foldl_stateOf (fun q jd => ?_) _ q
  split
  · exact reject_stateOf q jd error
  · exact reject_stateOf q jd error
  · exact .inl rfl

theorem timeout_known (q : WaitQueue γ) {jd : String} (h : (q.timeout jd).stateOf id ≠ none) :
    q.stateOf id ≠ none := by
  by_cases hid : id = jd
  · subst hid
    rcases timeout_stateOf id (q := q) with hsame | ⟨hqueued, -⟩
    · rwa [hsame] at h
    · simp [hqueued]
  · rwa [timeout_onlyMoves.stateOf hid] at h

end WaitQueue

end Simlock.Leasing
