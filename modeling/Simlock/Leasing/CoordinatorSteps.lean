import Simlock.Leasing.QueueCalls

/-! What a step of the coordinator does to its queue and to its drives.

    A step is one of a drive, which touches the one waiter it is for and sets its own point
    (`DriveStep`), or one of the daemon (`DaemonStep`). In every run the queue is one that calls of
    the queue reach, the drives are for its waiters, and their ids were minted (`Known`). -/

namespace Simlock.Leasing

open Simlock.Lib Simlock.Core

namespace Coordinator

open WaitQueue

variable {o : CoordinatorOptions} {s s' : Coordinator} {i : Nat} {id : String}

/-! ### Drives -/

theorem setPoint_drives {x : DrivePoint} (h : s.drives[i]? = some ⟨id, x⟩) (y : DrivePoint)
    (j : Nat) : (s.setPoint i y).drives[j]? = if j = i then some ⟨id, y⟩ else s.drives[j]? := by
  simp only [setPoint, List.getElem?_modify]
  by_cases hj : j = i
  · subst hj
    simp [h]
  · simp [hj, Ne.symm hj]

theorem setPoint_self {x : DrivePoint} (h : s.drives[i]? = some ⟨id, x⟩) (y : DrivePoint) :
    (s.setPoint i y).drives[i]? = some ⟨id, y⟩ :=
  (setPoint_drives h y i).trans (if_pos rfl)

/-- Where a drive goes on without its waiter. -/
inductive Goes : DrivePoint → DrivePoint → Prop where
  | unresolved (error : WaiterError) : Goes .resolving (.unresolved error)
  | guarded : Goes .resolving .over
  | made (work : DeviceWork) (deviceId : String) : Goes (.working work) (.handoff deviceId)
  | refused (work : DeviceWork) (error : WaiterError) : Goes (.working work) (.refusing error)
  | failed (work : DeviceWork) (message : String) : Goes (.working work) (.failed message)
  | evicted (work : DeviceWork) : Goes (.working work) .evicted
  | notEvicted (work : DeviceWork) : Goes (.working work) (.deferring false)
  | throws (work : DeviceWork) : Goes (.working work) .ending
  | superseded (deviceId : String) : Goes (.handoff deviceId) (.discarding deviceId)
  | disposed (deviceId : String) : Goes (.discarding deviceId) (.deferring true)
  | read (deviceId : String) (present : Bool) (absent : List String) :
      Goes (.reading deviceId absent) (.read deviceId present absent)
  | resumed (child : Nat) : Goes (.awaiting child) .ending

/-- The clock was read, or a grant was tried and failed. -/
inductive Unwritten (o : CoordinatorOptions) (s : Coordinator) (id : String) : Store → Prop where
  | same : Unwritten o s id s.store
  | read (now : Int) : Unwritten o s id { s.store with clock := now }
  | failed (w : Waiter LeaseGrant) (g : RequestHost.GrantInput) (now : Int) (writable : Bool)
      (hw : s.queue.optionsOf id = some w.options)
      (hfails : s.store.returns o.registry (RequestHost.grantCall id w.wait g now) now writable =
          false ∨ (s.store.attempted o.registry (RequestHost.grantCall id w.wait g now) now
            writable).registry.device g.deviceId = none) :
      Unwritten o s id
        (s.store.attempted o.registry (RequestHost.grantCall id w.wait g now) now writable)

/-- No other virtual request is at the head of the line. -/
def NoneAhead (s : Coordinator) (id : String) : Prop := ∀ other, s.queue.head = some other → other = id

/-- What a waiter is taken up for, from the point of its drive. -/
inductive Taken (s : Coordinator) (id : String) : DrivePoint → DrivePoint → Prop where
  | works (work : DeviceWork) (hhead : NoneAhead s id) : Taken s id .deciding (.working work)
  | worksAgain (work : DeviceWork) (hhead : NoneAhead s id) : Taken s id .evicted (.working work)
  | chooses {w : Waiter LeaseGrant} {d : PhysicalDevice} {absent : List String}
      (claimed : List String) (hw : s.queue.owned id = some w)
      (hplan : s.planPhysical id w absent claimed = some d) :
      Taken s id (.choosing absent) (.reading d.id absent)
  | passes (deviceId : String) (present : Bool) (absent : List String) :
      Taken s id (.read deviceId present absent) (.choosing (deviceId :: absent))

/-- From where a waiter is taken up for the grant of this device. -/
inductive Granting (s : Coordinator) (id deviceId : String) : DrivePoint → Prop where
  | ready (hhead : NoneAhead s id) (hoffers : s.offers id deviceId .ready = true) :
      Granting s id deviceId .deciding
  | readyAgain (hhead : NoneAhead s id) (hoffers : s.offers id deviceId .ready = true) :
      Granting s id deviceId .evicted
  | present (absent : List String)
      (hready : (s.store.registry.device deviceId).any (fun d => d.state = .ready) = true) :
      Granting s id deviceId (.read deviceId true absent)

/-- What a drive of `id` at the point `x` does in one step. -/
inductive DriveStep (o : CoordinatorOptions) (s : Coordinator) (i : Nat) (id : String) :
    DrivePoint → Coordinator → Prop where
  | goes {x y : DrivePoint} (hgoes : Goes x y) : DriveStep o s i id x (s.setPoint i y)
  | begins {y : DrivePoint} (hfree : id ∉ s.driving)
      (hy : y = if s.isPhysical id then .choosing [] else .deciding) :
      DriveStep o s i id .resolving ({ s with driving := id :: s.driving }.setPoint i y)
  | stops {x : DrivePoint} (now : Int) {q : WaitQueue LeaseGrant} (hholder : s.holder = none)
      (hstop : s.stopPlanning = true)
      (hx : x = .deciding ∧ q = s.queue ∨ x = .evicted ∧ q = (s.queue.markNew id).2) :
      DriveStep o s i id x (({ s with queue := q }.at now).setPoint i .ending)
  | closes {x y : DrivePoint} {store : Store} {q : WaitQueue LeaseGrant} {failures : String → Nat}
      {again : List String} (hholder : s.holder = none) (hstore : Unwritten o s id store)
      (hq : Closed s.queue q id) (hy : y = .ending ∨ x.isAtWork = false ∧ y = .over) :
      DriveStep o s i id x ({ s with
        store := store
        queue := q
        failures := failures
        planAgain := again }.setPoint i y)
  | waits {x : DrivePoint} {store : Store} {q : WaitQueue LeaseGrant} {again : List String}
      (now : Int) (hholder : s.holder = none) (hstore : Unwritten o s id store)
      (hclock : store.clock = now) (hwork : x.isAtWork = true)
      (hq : Moved s.queue q id now .queued)
      (hwaits : ∃ q₁, Touches s.queue q₁ id ∧ q = (q₁.enqueue id now).2) :
      DriveStep o s i id x ({ s with
        store := store
        queue := q
        planAgain := again }.setPoint i .ending)
  | takes {x y : DrivePoint} {q : WaitQueue LeaseGrant} (now : Int) (hholder : s.holder = none)
      (hq : Moved s.queue q id now .processing) (hy : Taken s id x y) :
      DriveStep o s i id x (({ s with queue := q }.at now).setPoint i y)
  | commits {x : DrivePoint} {q : WaitQueue LeaseGrant} {w : Waiter LeaseGrant} {device : Device}
      (g : RequestHost.GrantInput) (now : Int) (writable : Bool) (hholder : s.holder = none)
      (hq : Moved s.queue q id now .processing ∧ Granting s id g.deviceId x ∨
        x = .handoff g.deviceId ∧ q = s.queue ∧
          ∀ error, s.queue.stateOf id ≠ some (.rejected error))
      (hw : q.owned id = some w)
      (hreturns : s.store.returns o.registry (RequestHost.grantCall id w.wait g now) now writable =
        true)
      (hdevice : (s.store.attempted o.registry (RequestHost.grantCall id w.wait g now) now
        writable).registry.device g.deviceId = some device) :
      DriveStep o s i id x ({ s with
        store := s.store.attempted o.registry (RequestHost.grantCall id w.wait g now) now writable
        queue := q
        holder := some i
        grants := s.grants ++ [(⟨id, ⟨device, g.environment,
          grantedLease now g.generated (RequestHost.leaseInput id w.wait g now), g.timing⟩,
          !w.state.isTerminal, (s.store.attempted o.registry (RequestHost.grantCall id w.wait g now)
            now writable).registry.leaseRequests.find? fun r => r.id = id⟩ : Granted)] }.setPoint i
          (.granting ⟨device, g.environment,
            grantedLease now g.generated (RequestHost.leaseInput id w.wait g now), g.timing⟩))
  | marks {failures : String → Nat} {message : String} (hholder : s.holder = none)
      (hopen : ∀ error, s.queue.stateOf id ≠ some (.rejected error)) :
      DriveStep o s i id (.failed message) ({ s with
        failures := failures
        queue := (s.queue.markNew id).2 }.setPoint i .retrying)
  | retries : DriveStep o s i id .retrying (s.retry i)
  | resolves {grant : LeaseGrant} : DriveStep o s i id (.granting grant) (s.resolve i)
  | finishes : DriveStep o s i id .ending (s.finish i)

/-- A step of one drive, if any. -/
def Drives (o : CoordinatorOptions) (s : Coordinator) (i : Nat) (s' : Coordinator) : Prop :=
  s' = s ∨ ∃ id x, s.drives[i]? = some ⟨id, x⟩ ∧ DriveStep o s i id x s'

/-- Every drive is for a waiter of the queue. -/
def DrivesKnown (s : Coordinator) : Prop :=
  ∀ (i : Nat) (id : String) (x : DrivePoint), s.drives[i]? = some ⟨id, x⟩ → s.queue.stateOf id ≠ none

theorem stateOf_ne_none_of_touches {q q' : WaitQueue LeaseGrant} (h : Touches q q' id)
    (hne : q.stateOf id ≠ none) : q'.stateOf id ≠ none := by
  obtain ⟨w, hw⟩ := owned_of_ne_none hne
  obtain ⟨w', hw', -⟩ := h.deadline w hw
  simp [stateOf, hw']

/-! ### What each section and continuation does -/

section Sections

variable {x : DrivePoint} {now : Int}

/-- A section ends with its waiter deferred. -/
theorem DriveStep.defers {store : Store} {q : WaitQueue LeaseGrant} {again : List String}
    (hholder : s.holder = none) (hstore : Unwritten o s id store) (hclock : store.clock = now)
    (hwork : x.isAtWork = true) (hq : Touches s.queue q id) (hne : s.queue.stateOf id ≠ none) :
    DriveStep o s i id x ({ s with
      store := store
      queue := q.defer id now
      planAgain := again }.setPoint i .ending) := by
  rcases defer_cases now (stateOf_ne_none_of_touches hq hne) with h | ⟨h, heq⟩
  · exact .closes hholder hstore (h.after hq) (.inl rfl)
  · exact .waits now hholder hstore hclock hwork (h.after hq) ⟨q, hq, heq⟩

/-- A section ends with its waiter rejected. -/
theorem DriveStep.rejects {y : DrivePoint} {store : Store} {q : WaitQueue LeaseGrant}
    {failures : String → Nat} (error : WaiterError) (hholder : s.holder = none)
    (hstore : Unwritten o s id store) (hy : y = .ending ∨ x.isAtWork = false ∧ y = .over)
    (hq : Touches s.queue q id) (hne : s.queue.stateOf id ≠ none) :
    DriveStep o s i id x ({ s with
      store := store
      queue := (q.reject id error).2
      failures := failures }.setPoint i y) :=
  .closes hholder hstore ((closed_reject error (stateOf_ne_none_of_touches hq hne)).after hq) hy

/-- A grant commits its lease, or its waiter is deferred. -/
theorem grant_driveStep {q : WaitQueue LeaseGrant} (g : RequestHost.GrantInput) (writable : Bool)
    (hholder : s.holder = none) (hne : s.queue.stateOf id ≠ none)
    (hq : Moved s.queue q id now .processing ∧ Granting s id g.deviceId x ∨
      x = .handoff g.deviceId ∧ q = s.queue ∧
        ∀ error, s.queue.stateOf id ≠ some (.rejected error)) :
    DriveStep o s i id x (({ s with queue := q }.at now).grant o i id g now writable) := by
  have htouch : Touches s.queue q id := by
    rcases hq with ⟨hq, -⟩ | ⟨-, rfl, -⟩
    · exact hq.toTouches
    · exact .refl _ _
  have hwork : x.isAtWork = true := by
    rcases hq with ⟨-, hx⟩ | ⟨rfl, -, -⟩
    · cases hx <;> rfl
    · rfl
  obtain ⟨w, hw⟩ := owned_of_ne_none (stateOf_ne_none_of_touches htouch hne)
  have hoptions : s.queue.optionsOf id = some w.options := by
    rw [← htouch.only.options, optionsOf, hw]
    rfl
  have hwq : ({ s with queue := q }.at now).queue.owned id = some w := hw
  rw [grant, hwq]
  dsimp only
  split
  · rename_i device hreturns hdevice
    exact .commits g now writable hholder hq hw hreturns hdevice
  · rename_i hfails
    refine .defers hholder (.failed w g now writable hoptions ?_) rfl hwork htouch hne
    cases hreturns : s.store.returns o.registry (RequestHost.grantCall id w.wait g now) now writable
    · exact .inl rfl
    · refine .inr ?_
      cases hdevice : (s.store.attempted o.registry (RequestHost.grantCall id w.wait g now) now
          writable).registry.device g.deviceId with
      | none => rfl
      | some device => exact absurd hdevice (hfails device hreturns)

/-- The waiter is taken up for what follows, or is settled. -/
theorem takeUp_driveStep {q : WaitQueue LeaseGrant} {next : Coordinator → Coordinator}
    (hholder : s.holder = none) (hq : Touches s.queue q id) (hne : s.queue.stateOf id ≠ none)
    (hnext : ∀ q', Moved s.queue q' id now .processing →
      DriveStep o s i id x (next ({ s with queue := q' }.at now))) :
    DriveStep o s i id x (({ s with queue := q }.at now).takeUp i id now next) := by
  have hcases := markProcessing_cases id now (stateOf_ne_none_of_touches hq hne)
  unfold takeUp
  rcases hcases with ⟨hfalse, h⟩ | ⟨htrue, h⟩
  · have hq' : (({ s with queue := q }.at now).queue.markProcessing id now).1 = false := hfalse
    simp only [hq']
    exact .closes hholder (.read now) (h.after hq) (.inl rfl)
  · have hq' : (({ s with queue := q }.at now).queue.markProcessing id now).1 = true := htrue
    simp only [hq']
    exact hnext _ (h.after hq)

/-- The decision of a waiter whose queue was touched so far. -/
theorem decideWaiter_driveStep {q : WaitQueue LeaseGrant} (plan : Plan) (writable : Bool)
    (hadmits : s.admits id plan = true) (hholder : s.holder = none) (hne : s.queue.stateOf id ≠ none)
    (hx : x = .deciding ∧ q = s.queue ∨ x = .evicted ∧ q = (s.queue.markNew id).2) :
    DriveStep o s i id x
      (({ s with queue := q }.at now).decideWaiter o i id plan now writable) := by
  have hwork : x.isAtWork = true := by rcases hx with ⟨rfl, -⟩ | ⟨rfl, -⟩ <;> rfl
  have hq : Touches s.queue q id := by
    rcases hx with ⟨-, rfl⟩ | ⟨-, rfl⟩
    · exact .refl _ _
    · exact markNew_touches
  unfold decideWaiter
  split
  · exact .rejects nukeCancelled hholder (.read now) (.inl rfl) hq hne
  split
  · rename_i hstop
    exact .stops now hholder hstop hx
  split
  · rename_i hsettled
    obtain ⟨w, hw, ht⟩ := (Option.any_eq_true _ _).mp hsettled
    have hover : q.Settled id := ⟨w.state, by simp only [stateOf]; exact congrArg _ hw, ht⟩
    exact .closes hholder (.read now) ((closed_self hover).after hq) (.inl rfl)
  split
  · exact .rejects daemonUpdating hholder (.read now) (.inl rfl) hq hne
  split
  · exact .defers hholder (.read now) rfl hwork hq hne
  rename_i hhead
  have hnone : NoneAhead s id := by
    intro other hother
    have hsame : q.head = s.queue.head := by
      rcases hx with ⟨-, rfl⟩ | ⟨-, rfl⟩
      · rfl
      · exact markNew_head
    have hany : ¬ (q.head.any fun h => h ≠ id) = true := hhead
    rw [hsame, hother] at hany
    simpa using hany
  split
  · exact .defers hholder (.read now) rfl hwork hq hne
  · rename_i g
    refine takeUp_driveStep hholder hq hne fun q' hq' =>
      grant_driveStep g writable hholder hne (.inl ⟨hq', ?_⟩)
    rcases hx with ⟨rfl, -⟩ | ⟨rfl, -⟩
    · exact .ready hnone hadmits
    · exact .readyAgain hnone hadmits
  · rename_i work
    refine takeUp_driveStep hholder hq hne fun q' hq' => .takes now hholder hq' ?_
    rcases hx with ⟨rfl, -⟩ | ⟨rfl, -⟩
    · exact .works work hnone
    · exact .worksAgain work hnone

theorem decide_drives (h : DrivesKnown s) (hholder : s.holder = none) (plan : Plan) (now : Int)
    (writable : Bool) : Drives o s i (s.decide o i plan now writable) := by
  unfold decide
  split
  · rename_i id x hd
    split
    · rename_i hadmits
      split
      · exact .inr ⟨id, _, hd, decideWaiter_driveStep plan writable hadmits hholder (h i id _ hd)
          (.inl ⟨rfl, rfl⟩)⟩
      · exact .inr ⟨id, _, hd, decideWaiter_driveStep plan writable hadmits hholder (h i id _ hd)
          (.inr ⟨rfl, rfl⟩)⟩
      · exact .inl rfl
    · exact .inl rfl
  · exact .inl rfl

theorem choose_drives (h : DrivesKnown s) (hholder : s.holder = none) (claimed : List String)
    (now : Int) : Drives o s i (s.choose i claimed now) := by
  unfold choose
  split
  · rename_i id absent hd
    have hne := h i id _ hd
    split
    · exact .inl rfl
    · rename_i w hw
      refine .inr ⟨id, _, hd, ?_⟩
      dsimp only
      split
      · exact .rejects _ hholder (.read now) (.inl rfl) (.refl _ _) hne
      · split
        · exact .defers hholder (.read now) rfl rfl (.refl _ _) hne
        · rename_i d hplan
          exact takeUp_driveStep hholder (.refl _ _) hne fun q' hq' =>
            .takes now hholder hq' (.chooses claimed hw hplan)
  · exact .inl rfl

theorem grantPhysical_drives (h : DrivesKnown s) (hholder : s.holder = none) (active : Bool)
    (g : RequestHost.GrantInput) (now : Int) (writable : Bool) :
    Drives o s i (s.grantPhysical o i active g now writable) := by
  unfold grantPhysical
  split
  · rename_i id deviceId present absent hd
    have hne := h i id _ hd
    refine .inr ⟨id, _, hd, takeUp_driveStep hholder (.refl _ _) hne fun q' hq' => ?_⟩
    dsimp only
    split
    · rename_i hpresent
      simp only [Bool.and_eq_true] at hpresent
      obtain ⟨⟨rfl, -⟩, hready⟩ := hpresent
      exact grant_driveStep _ writable hholder hne (.inl ⟨hq', .present absent hready⟩)
    · exact .takes now hholder hq' (.passes deviceId present absent)
  · exact .inl rfl

theorem grantHandoff_drives (h : DrivesKnown s) (hholder : s.holder = none) (superseded : Bool)
    (g : RequestHost.GrantInput) (now : Int) (writable : Bool) :
    Drives o s i (s.grantHandoff o i superseded g now writable) := by
  unfold grantHandoff
  split
  · rename_i id deviceId hd
    have hne := h i id _ hd
    refine .inr ⟨id, _, hd, ?_⟩
    split
    · rename_i error hrejected
      exact .closes hholder .same (closed_self ⟨_, hrejected, rfl⟩) (.inl rfl)
    · rename_i hopen
      split
      · exact .goes (.superseded deviceId)
      · exact grant_driveStep _ writable hholder hne
          (.inr ⟨rfl, rfl, fun error he => hopen error he⟩)
  · exact .inl rfl

theorem deferAgain_drives (h : DrivesKnown s) (hholder : s.holder = none) (now : Int) :
    Drives o s i (s.deferAgain i now) := by
  unfold deferAgain
  split
  · rename_i id again hd
    have hne := h i id _ hd
    refine .inr ⟨id, _, hd, ?_⟩
    dsimp only
    split
    · exact .defers hholder (.read now) rfl rfl (.refl _ _) hne
    · exact .defers hholder (.read now) rfl rfl (.refl _ _) hne
  · exact .inl rfl

theorem refuse_drives (h : DrivesKnown s) (hholder : s.holder = none) :
    Drives o s i (s.refuse i) := by
  unfold refuse
  split
  · rename_i id error hd
    exact .inr ⟨id, _, hd, .rejects error hholder .same (.inr ⟨rfl, rfl⟩) (.refl _ _) (h i id _ hd)⟩
  · rename_i id error hd
    exact .inr ⟨id, _, hd, .rejects error hholder .same (.inl rfl) (.refl _ _) (h i id _ hd)⟩
  · exact .inl rfl

theorem countFailure_drives (h : DrivesKnown s) (hholder : s.holder = none) :
    Drives o s i (s.countFailure i) := by
  unfold countFailure
  split
  · rename_i id message hd
    have hne := h i id _ hd
    refine .inr ⟨id, _, hd, ?_⟩
    split
    · rename_i error hrejected
      exact .closes hholder .same (closed_self ⟨_, hrejected, rfl⟩) (.inl rfl)
    · rename_i hopen
      dsimp only
      split
      · exact .marks hholder fun error he => hopen error he
      · exact .rejects _ hholder .same (.inl rfl) (.refl _ _) hne
  · exact .inl rfl

theorem resolved_drives (error : Option WaiterError) : Drives o s i (s.resolved i error) := by
  unfold resolved
  split
  · rename_i id hd
    refine .inr ⟨id, _, hd, ?_⟩
    split
    · exact .goes (.unresolved _)
    · split
      · exact .goes .guarded
      · rename_i hfree
        exact .begins hfree rfl
  · exact .inl rfl

theorem worked_drives (e : WorkEnd) : Drives o s i (s.worked i e) := by
  unfold worked
  split
  · rename_i id work hd
    have hgoes : ∀ {y : DrivePoint}, Goes (.working work) y → Drives o s i (s.setPoint i y) :=
      fun hy => .inr ⟨id, _, hd, .goes hy⟩
    split
    · exact hgoes (.throws _)
    · split
      · split
        · exact hgoes (.made _ _)
        · exact .inl rfl
      · exact .inl rfl
    · exact hgoes (.made _ _)
    · exact hgoes (.made _ _)
    · exact hgoes (.refused _ _)
    · exact hgoes (.refused _ _)
    · exact hgoes (.failed _ _)
    · exact hgoes (.failed _ _)
    · exact hgoes (.failed _ _)
    · exact hgoes (.evicted _)
    · exact hgoes (.notEvicted _)
    · exact .inl rfl
  · exact .inl rfl

/-- A continuation that takes the one drive on. -/
theorem presence_drives (present : Bool) : Drives o s i (s.presence i present) := by
  unfold presence
  split
  · rename_i id deviceId absent hd
    exact .inr ⟨id, _, hd, .goes (.read deviceId present absent)⟩
  · exact .inl rfl

theorem disposed_drives : Drives o s i (s.disposed i) := by
  unfold disposed
  split
  · rename_i id deviceId hd
    exact .inr ⟨id, _, hd, .goes (.disposed deviceId)⟩
  · exact .inl rfl

theorem resumed_drives : Drives o s i (s.resumed i) := by
  unfold resumed
  split
  · rename_i id child hd
    split
    · exact .inr ⟨id, _, hd, .goes (.resumed child)⟩
    · exact .inl rfl
  · exact .inl rfl

theorem retry_drives : Drives o s i (s.retry i) := by
  cases hd : s.drives[i]? with
  | none => exact .inl (by simp [retry, hd])
  | some d =>
    obtain ⟨id, x⟩ := d
    cases x with
    | retrying => exact .inr ⟨id, _, hd, .retries⟩
    | _ => exact .inl (by simp [retry, hd])

theorem resolve_drives : Drives o s i (s.resolve i) := by
  cases hd : s.drives[i]? with
  | none => exact .inl (by simp [resolve, hd])
  | some d =>
    obtain ⟨id, x⟩ := d
    cases x with
    | granting grant => exact .inr ⟨id, _, hd, .resolves⟩
    | _ => exact .inl (by simp [resolve, hd])

theorem finish_drives : Drives o s i (s.finish i) := by
  cases hd : s.drives[i]? with
  | none => exact .inl (by simp [finish, hd])
  | some d =>
    obtain ⟨id, x⟩ := d
    cases x with
    | ending => exact .inr ⟨id, _, hd, .finishes⟩
    | _ => exact .inl (by simp [finish, hd])

end Sections


/-! ### What a drive leaves alone -/

/-- A step of a drive for `id`: the other waiters and the drives for them are as they were. -/
structure DriveFrame (s s' : Coordinator) (id : String) : Prop where
  only : OnlyMoves s.queue s'.queue id
  reaches : Reaches s.queue s'.queue
  minted : s'.minted = s.minted
  stop : s'.stopPlanning = s.stopPlanning
  serving : s'.serving = s.serving
  drives : ∀ (j : Nat) (d : Drive), s'.drives[j]? = some d → d.waiter = id ∨ s.drives[j]? = some d
  kept : ∀ (j : Nat) (d : Drive), s.drives[j]? = some d → d.waiter ≠ id → s'.drives[j]? = some d

/-- A step that sets the point of the drive `i` and leaves the other drives. -/
theorem DriveFrame.of_setPoint {x : DrivePoint} (hd : s.drives[i]? = some ⟨id, x⟩) (y : DrivePoint)
    {s₁ : Coordinator} (honly : OnlyMoves s.queue s₁.queue id)
    (hreaches : Reaches s.queue s₁.queue) (hminted : s₁.minted = s.minted)
    (hstop : s₁.stopPlanning = s.stopPlanning) (hserving : s₁.serving = s.serving)
    (hdrives : s₁.drives = s.drives) : DriveFrame s (s₁.setPoint i y) id := by
  have hset := fun j => setPoint_drives (s := s₁) (by rw [hdrives]; exact hd) y j
  refine ⟨honly, hreaches, hminted, hstop, hserving, fun j d hj => ?_, fun j d hj hne => ?_⟩
  · rw [hset, hdrives] at hj
    split at hj
    · obtain rfl := Option.some.inj hj
      exact .inl rfl
    · exact .inr hj
  · rw [hset, hdrives, if_neg]
    · exact hj
    · rintro rfl
      obtain rfl := Option.some.inj (hd.symm.trans hj)
      exact hne rfl

theorem retry_eq (hd : s.drives[i]? = some ⟨id, .retrying⟩) :
    s.retry i = { s with
      driving := id :: s.driving.filter fun x => x ≠ id
      drives := (s.setPoint i (.awaiting s.drives.length)).drives ++
        [⟨id, if s.isPhysical id then .choosing [] else .deciding⟩] } := by
  have hfree : id ∉ s.driving.filter fun x => x ≠ id := by simp
  simp only [retry, hd, drive]
  exact if_neg hfree

theorem DriveStep.frame {x : DrivePoint} (hd : s.drives[i]? = some ⟨id, x⟩)
    (h : DriveStep o s i id x s') : DriveFrame s s' id := by
  cases h with
  | goes hgoes => exact .of_setPoint hd _ (.refl _ _) (.refl _) rfl rfl rfl rfl
  | begins hfree hy => exact .of_setPoint hd _ (.refl _ _) (.refl _) rfl rfl rfl rfl
  | stops now hholder hstop hx =>
    rcases hx with ⟨rfl, rfl⟩ | ⟨rfl, rfl⟩
    · exact .of_setPoint hd _ (.refl _ _) (.refl _) rfl rfl rfl rfl
    · exact .of_setPoint hd _ markNew_touches.only reaches_markNew rfl rfl rfl rfl
  | closes hholder hstore hq hy => exact .of_setPoint hd _ hq.only hq.reaches rfl rfl rfl rfl
  | waits now hholder hstore hclock hwork hq hwaits =>
    exact .of_setPoint hd _ hq.only hq.reaches rfl rfl rfl rfl
  | takes now hholder hq hy => exact .of_setPoint hd _ hq.only hq.reaches rfl rfl rfl rfl
  | commits g now writable hholder hq hw hreturns hdevice =>
    rcases hq with ⟨hq, -⟩ | ⟨-, rfl, -⟩
    · exact .of_setPoint hd _ hq.only hq.reaches rfl rfl rfl rfl
    · exact .of_setPoint hd _ (.refl _ _) (.refl _) rfl rfl rfl rfl
  | marks hholder hopen =>
    exact .of_setPoint hd _ markNew_touches.only reaches_markNew rfl rfl rfl rfl
  | retries =>
    rw [retry_eq hd]
    have hset := fun j => setPoint_drives hd (.awaiting s.drives.length) j
    refine ⟨.refl _ _, .refl _, rfl, rfl, rfl, fun j d hj => ?_, fun j d hj hne => ?_⟩
    · rw [getElem?_append_one] at hj
      split at hj
      · obtain rfl := Option.some.inj hj
        exact .inl rfl
      · rw [hset] at hj
        split at hj
        · obtain rfl := Option.some.inj hj
          exact .inl rfl
        · exact .inr hj
    · rw [getElem?_append_one, if_neg, hset, if_neg]
      · exact hj
      · rintro rfl
        obtain rfl := Option.some.inj (hd.symm.trans hj)
        exact hne rfl
      · have hlt := (List.getElem?_eq_some_iff.mp hj).1
        simp only [setPoint, List.length_modify]
        omega
  | resolves =>
    simp only [resolve, hd]
    exact .of_setPoint hd _ (resolve_onlyMoves _) (reaches_resolve _) rfl rfl rfl rfl
  | finishes =>
    simp only [finish, hd]
    exact .of_setPoint hd _ (.refl _ _) (.refl _) rfl rfl rfl rfl

/-- Where a drive may go in one step. -/
inductive Next (s : Coordinator) (id : String) : DrivePoint → DrivePoint → Prop where
  | goes {x y : DrivePoint} (hgoes : Goes x y) : Next s id x y
  | begins : Next s id .resolving (if s.isPhysical id then .choosing [] else .deciding)
  | ends (x : DrivePoint) : Next s id x .ending
  | closes {x : DrivePoint} (hx : x.isAtWork = false) : Next s id x .over
  | takes {x y : DrivePoint} (htaken : Taken s id x y) : Next s id x y
  | commits {x : DrivePoint} (grant : LeaseGrant)
      (hx : Granting s id grant.lease.deviceId x ∨ x = .handoff grant.lease.deviceId) :
      Next s id x (.granting grant)
  | marks (message : String) : Next s id (.failed message) .retrying
  | retries (child : Nat) : Next s id .retrying (.awaiting child)

/-- A drive sets its point, or is the one that drives its waiter again. -/
theorem DriveStep.sets {x : DrivePoint} (hd : s.drives[i]? = some ⟨id, x⟩)
    (h : DriveStep o s i id x s') :
    (∃ y, Next s id x y ∧
      ∀ j : Nat, s'.drives[j]? = if j = i then some ⟨id, y⟩ else s.drives[j]?) ∨
        x = .retrying ∧ s' = s.retry i := by
  have hset : ∀ {s₁ : Coordinator} {y : DrivePoint}, s₁.drives = s.drives →
      ∀ j : Nat, (s₁.setPoint i y).drives[j]? = if j = i then some ⟨id, y⟩ else s.drives[j]? :=
    fun hdrives j => hdrives ▸ setPoint_drives (hdrives ▸ hd) _ j
  cases h with
  | retries => exact .inr ⟨rfl, rfl⟩
  | resolves =>
    simp only [resolve, hd]
    exact .inl ⟨_, .ends _, hset rfl⟩
  | finishes =>
    simp only [finish, hd]
    exact .inl ⟨_, .closes rfl, hset rfl⟩
  | goes hgoes => exact .inl ⟨_, .goes hgoes, hset rfl⟩
  | begins hfree hy => exact .inl ⟨_, hy ▸ .begins, hset rfl⟩
  | stops now hholder hstop hx => exact .inl ⟨_, .ends _, hset rfl⟩
  | closes hholder hstore hq hy =>
    rcases hy with rfl | ⟨hx, rfl⟩
    · exact .inl ⟨_, .ends _, hset rfl⟩
    · exact .inl ⟨_, .closes hx, hset rfl⟩
  | waits now hholder hstore hclock hwork hq hwaits => exact .inl ⟨_, .ends _, hset rfl⟩
  | takes now hholder hq hy => exact .inl ⟨_, .takes hy, hset rfl⟩
  | commits g now writable hholder hq hw hreturns hdevice =>
    exact .inl ⟨_, .commits _ (hq.imp (fun h => h.2) fun h => h.1), hset rfl⟩
  | marks hholder hopen => exact .inl ⟨_, .marks _, hset rfl⟩

theorem DriveStep.next {x y : DrivePoint} (hd : s.drives[i]? = some ⟨id, x⟩)
    (h : DriveStep o s i id x s') (hd' : s'.drives[i]? = some ⟨id, y⟩) : Next s id x y := by
  rcases h.sets hd with ⟨z, hnext, hset⟩ | ⟨rfl, heq⟩
  · rw [hset, if_pos rfl] at hd'
    obtain ⟨-, rfl⟩ := Drive.mk.inj (Option.some.inj hd')
    exact hnext
  · have hlt := (List.getElem?_eq_some_iff.mp hd).1
    rw [heq, retry_eq hd, List.getElem?_append_left (by simpa [setPoint] using hlt),
      setPoint_self hd] at hd'
    obtain ⟨-, rfl⟩ := Drive.mk.inj (Option.some.inj hd')
    exact .retries _

/-! ### Actions -/

/-- The drive that an action takes on. -/
def Action.drive? : Action → Option Nat
  | .resolved i _ | .decide i .. | .worked i _ | .refuse i | .deferAgain i _ | .countFailure i
  | .retry i | .resumed i | .grantHandoff i .. | .disposed i | .resolve i | .finish i | .choose i ..
  | .presence i _ | .grantPhysical i .. => some i
  | _ => none

theorem step_of_free {a : Action} (h : a.inSection = true → s.holder = none) :
    s.step o a = s.next o a := by
  unfold step
  split
  · rename_i hlocked
    rw [Bool.and_eq_true] at hlocked
    rw [h hlocked.1] at hlocked
    cases hlocked.2
  · rfl

/-- An action of a drive is a step of that drive. -/
theorem step_drives (h : DrivesKnown s) {a : Action} (ha : a.drive? = some i) :
    Drives o s i (s.step o a) := by
  by_cases hlocked : (a.inSection && s.holder.isSome) = true
  · exact .inl (if_pos hlocked)
  · have hfree : a.inSection = true → s.holder = none := by
      intro hsection
      rw [hsection, Bool.true_and] at hlocked
      exact Option.not_isSome_iff_eq_none.mp hlocked
    rw [step_of_free hfree]
    cases a with
    | resolved j error => cases ha; exact resolved_drives error
    | decide j plan now writable => cases ha; exact decide_drives h (hfree rfl) plan now writable
    | worked j e => cases ha; exact worked_drives e
    | refuse j => cases ha; exact refuse_drives h (hfree rfl)
    | deferAgain j now => cases ha; exact deferAgain_drives h (hfree rfl) now
    | countFailure j => cases ha; exact countFailure_drives h (hfree rfl)
    | retry j => cases ha; exact retry_drives
    | resumed j => cases ha; exact resumed_drives
    | grantHandoff j superseded g now writable =>
      cases ha
      exact grantHandoff_drives h (hfree rfl) superseded g now writable
    | disposed j => cases ha; exact disposed_drives
    | resolve j => cases ha; exact resolve_drives
    | finish j => cases ha; exact finish_drives
    | choose j claimed now => cases ha; exact choose_drives h (hfree rfl) claimed now
    | presence j present => cases ha; exact presence_drives present
    | grantPhysical j active g now writable =>
      cases ha
      exact grantPhysical_drives h (hfree rfl) active g now writable
    | _ => cases ha

/-! ### What the daemon's own steps do -/

/-- The steps besides those of a drive. -/
inductive DaemonStep (o : CoordinatorOptions) (s : Coordinator) : Action → Coordinator → Prop where
  | stays {a : Action} : DaemonStep o s a s
  | refuses {request : DeviceRequest} {options : WaiterOptions} {rid : String} {answered : Bool}
      {now : Int} {writable : Bool} (store : Store) (hstore : store = { s.store with clock := now } ∨
        store = s.store.attempted o.registry (.createLeaseRequest
          (RequestHost.newRequest request options.toLeaseRequestOptions rid)) now writable ∧
        s.store.returns o.registry (.createLeaseRequest
          (RequestHost.newRequest request options.toLeaseRequestOptions rid)) now writable = false) :
      DaemonStep o s (.request request options rid answered now writable) { s with store := store }
  | admits {request : DeviceRequest} {options : WaiterOptions} {rid : String} {answered : Bool}
      {now : Int} {writable : Bool} (hholder : s.holder = none) (hnew : rid ∉ s.minted)
      (hlimit : s.atLimit o request options = false)
      (hreturns : s.store.returns o.registry (.createLeaseRequest
        (RequestHost.newRequest request options.toLeaseRequestOptions rid)) now writable = true) :
      DaemonStep o s (.request request options rid answered now writable) { s with
        store := s.store.attempted o.registry (.createLeaseRequest
          (RequestHost.newRequest request options.toLeaseRequestOptions rid)) now writable
        queue := s.queue.create request options rid
        drives := s.drives ++ [⟨rid, .resolving⟩]
        minted := s.minted ++ [rid] }
  | wakes (hholder : s.holder = none) : DaemonStep o s .wake s.wake
  | cancels {requesterId : String} {platform : Option Platform} (id : String)
      (hholder : s.holder = none) (hpending : id ∈ s.queue.pendingWaiters) :
      DaemonStep o s (.cancelPending requesterId platform) (s.reject id (.cancelled id))
  | begins (hholder : s.holder = none) : DaemonStep o s .beginMaintenance s.beginMaintenance
  | ends : DaemonStep o s .endMaintenance s.endMaintenance
  | holds (hholder : s.holder = none) : DaemonStep o s .holdForUpdate s.holdForUpdate
  | lifts : DaemonStep o s .releaseUpdateHold { s with updateHold := false }
  | stops : DaemonStep o s .settleAcquisitions { s with stopPlanning := true }
  | settles {id : String} {now : Int} {writable : Bool} (x : LeaseRequestOutcome)
      (hx : (s.queue.stateOf id).bind WaiterState.outcome = some x) (hholder : s.holder = none) :
      DaemonStep o s (.settleRequest id now writable) { s with
        store := s.store.attempted o.registry (.settleLeaseRequest id x) now writable }
  | times {id : String} : DaemonStep o s (.timeout id) { s with queue := s.queue.timeout id }
  | commits {c : Call} {now : Int} {writable : Bool} (hc : c.writesRequests = false) :
      DaemonStep o s (.other c now writable) { s with
        store := s.store.attempted o.registry c now writable }
  | restarts {now : Int} : DaemonStep o s (.restart now) (s.next o (.restart now))
  | serves {now : Int} {writable : Bool} (hserving : s.serving = false) :
      DaemonStep o s (.serve now writable) { s with
        store := s.store.attempted o.registry (.failOpenLeaseRequests daemonRestarted) now writable
        serving := s.store.returns o.registry (.failOpenLeaseRequests daemonRestarted) now writable }

/-- What `findPendingWaiter` finds is pending. -/
theorem findPendingWaiter_mem {q : WaitQueue LeaseGrant} {requesterId : String}
    {platform : Option Platform} (h : q.findPendingWaiter requesterId platform = some id) :
    id ∈ q.pendingWaiters := List.mem_of_find?_eq_some h

theorem step_daemon {a : Action} (ha : a.drive? = none) : DaemonStep o s a (s.step o a) := by
  by_cases hlocked : (a.inSection && s.holder.isSome) = true
  · rw [step, if_pos hlocked]
    exact .stays
  · have hfree : a.inSection = true → s.holder = none := by
      intro hsection
      rw [hsection, Bool.true_and] at hlocked
      exact Option.not_isSome_iff_eq_none.mp hlocked
    rw [step_of_free hfree]
    cases a with
    | request request options rid answered now writable =>
      simp only [next]
      split
      · rename_i hserves
        rw [Bool.and_eq_true] at hserves
        unfold Coordinator.request
        split
        · exact .refuses _ (.inl rfl)
        · rename_i hadmitted
          dsimp only
          split
          · rename_i hreturns
            refine .admits (hfree rfl) (by simpa using hserves.2) ?_ hreturns
            simp only [Bool.or_eq_true, not_or, Bool.not_eq_true] at hadmitted
            exact hadmitted.1.2
          · rename_i hfails
            exact .refuses _ (.inr ⟨rfl, by simpa using hfails⟩)
      · exact .stays
    | wake => exact .wakes (hfree rfl)
    | cancelPending requesterId platform =>
      simp only [next, Coordinator.cancelPending]
      split
      · exact .stays
      · rename_i id hid
        split
        · exact .cancels id (hfree rfl) (findPendingWaiter_mem hid)
        · exact .stays
    | beginMaintenance => exact .begins (hfree rfl)
    | endMaintenance => exact .ends
    | holdForUpdate => exact .holds (hfree rfl)
    | releaseUpdateHold => exact .lifts
    | settleAcquisitions => exact .stops
    | settleRequest id now writable =>
      simp only [next, Coordinator.settleRequest]
      split
      · rename_i x hx
        exact .settles x hx (hfree rfl)
      · exact .stays
    | timeout id => exact .times
    | other c now writable =>
      simp only [next]
      split
      · exact .stays
      · rename_i hc
        exact .commits (by simpa using hc)
    | restart now => exact .restarts
    | serve now writable =>
      simp only [next]
      split
      · exact .stays
      · rename_i hserving
        exact .serves (by simpa using hserving)
    | _ => cases ha

/-- Every action is a step of a drive or of the daemon. -/
theorem step_cases (h : DrivesKnown s) (a : Action) :
    (∃ i, a.drive? = some i ∧ Drives o s i (s.step o a)) ∨
      a.drive? = none ∧ DaemonStep o s a (s.step o a) := by
  cases ha : a.drive? with
  | some i => exact .inl ⟨i, rfl, step_drives h ha⟩
  | none => exact .inr ⟨rfl, step_daemon ha⟩

/-! ### Waiters and their drives -/


theorem woken_known (h : id ∈ s.woken) : s.queue.stateOf id ≠ none := by
  have hany : ∀ {p : Waiter LeaseGrant → Bool}, (s.queue.owned id).any p = true →
      s.queue.stateOf id ≠ none := by
    intro p hp
    obtain ⟨w, hw, -⟩ := (Option.any_eq_true _ _).mp hp
    simp [stateOf, show s.queue.owned id = some w from hw]
  rcases List.mem_append.mp h with h | h
  · exact hany (List.mem_filter.mp h).2
  · exact hany (List.mem_filter.mp h).2

/-- A wake drives one waiter after the other. -/
theorem wake_induct {P : Coordinator → Prop} (h : P s)
    (hdrive : ∀ (driving : List String) (drives : List Drive), ∀ id ∈ s.woken,
      P { s with driving := driving, drives := drives } →
      P (({ s with driving := driving, drives := drives } : Coordinator).drive id)) : P s.wake := by
  have hfold : ∀ (ids : List String) (driving : List String) (drives : List Drive),
      (∀ id ∈ ids, id ∈ s.woken) → P { s with driving := driving, drives := drives } →
      P (ids.foldl drive { s with driving := driving, drives := drives }) := by
    intro ids
    induction ids with
    | nil => exact fun _ _ _ hP => hP
    | cons id ids ih =>
      intro driving drives hin hP
      rw [List.foldl_cons]
      have hnext := hdrive driving drives id (hin id List.mem_cons_self) hP
      have hrest := fun x hx => hin x (List.mem_cons_of_mem _ hx)
      unfold drive at hnext ⊢
      split
      · exact ih driving drives hrest hP
      · rename_i hfree
        rw [if_neg hfree] at hnext
        exact ih _ _ hrest hnext
  exact hfold s.woken s.driving s.drives (fun _ hid => hid) h

/-- A wake adds drives, and leaves the ones there are. -/
theorem wake_eq (s : Coordinator) : ∃ driving drives,
    s.wake = { s with driving := driving, drives := drives } ∧
      ∀ (j : Nat) (d : Drive), s.drives[j]? = some d → drives[j]? = some d := by
  refine wake_induct (s := s) (P := fun s' => ∃ driving drives,
    s' = { s with driving := driving, drives := drives } ∧
      ∀ (j : Nat) (d : Drive), s.drives[j]? = some d → drives[j]? = some d)
    ⟨s.driving, s.drives, rfl, fun _ _ h => h⟩ fun driving drives id hid hP => ?_
  obtain ⟨_, _, heq, hkept⟩ := hP
  injection heq with _ _ _ hdriving _ _ hdrives
  subst hdriving hdrives
  unfold Coordinator.drive
  split
  · exact ⟨_, _, rfl, hkept⟩
  · refine ⟨_, _, rfl, fun j d hj => ?_⟩
    have hold := hkept j d hj
    have hlt := (List.getElem?_eq_some_iff.mp hold).1
    rw [getElem?_append_one, if_neg (Nat.ne_of_lt hlt)]
    exact hold

/-- The drives that a wake adds are at their start. -/
theorem wake_drives {j : Nat} {d : Drive} (h : s.wake.drives[j]? = some d) :
    s.drives[j]? = some d ∨
      ∃ id ∈ s.woken, d = ⟨id, if s.isPhysical id then .choosing [] else .deciding⟩ := by
  revert h
  refine wake_induct (P := fun s' => s'.drives[j]? = some d → s.drives[j]? = some d ∨
    ∃ id ∈ s.woken, d = ⟨id, if s.isPhysical id then .choosing [] else .deciding⟩)
    (fun h => .inl h) fun driving drives id hid hP => ?_
  unfold Coordinator.drive
  split
  · exact hP
  · intro h
    rw [getElem?_append_one] at h
    split at h
    · exact .inr ⟨id, hid, (Option.some.inj h).symm⟩
    · exact hP h

/-- A step of the daemon leaves each drive where it is, or forgets them all. -/
theorem DaemonStep.kept {a : Action} (h : DaemonStep o s a s') {d : Drive}
    (hd : s.drives[i]? = some d) : s'.drives[i]? = some d ∨ s'.drives = [] := by
  cases h with
  | admits hholder hnew hlimit hreturns =>
    have hlt := (List.getElem?_eq_some_iff.mp hd).1
    exact .inl ((List.getElem?_append_left hlt).trans hd)
  | wakes hholder =>
    obtain ⟨driving, drives, heq, hkept⟩ := wake_eq s
    rw [heq]
    exact .inl (hkept i d hd)
  | restarts => exact .inr rfl
  | _ => exact .inl hd

/-- A drive is where it was, unless the step is its own. -/
theorem step_point (h : DrivesKnown s) {a : Action} {d d' : Drive} (hd : s.drives[i]? = some d)
    (hd' : (s.step o a).drives[i]? = some d') :
    d' = d ∨ d'.waiter = d.waiter ∧ DriveStep o s i d.waiter d.point (s.step o a) := by
  rcases step_cases h a with ⟨j, -, hstep⟩ | ⟨-, hstep⟩
  · rcases hstep with heq | ⟨id, x, hdj, hstep⟩
    · rw [heq] at hd'
      exact .inl (Option.some.inj (hd'.symm.trans hd))
    · by_cases hji : i = j
      · subst hji
        obtain rfl := Option.some.inj (hd.symm.trans hdj)
        refine .inr ⟨?_, hstep⟩
        rcases hstep.sets hdj with ⟨y, -, hset⟩ | ⟨rfl, heq⟩
        · rw [hset, if_pos rfl] at hd'
          exact (Option.some.inj hd') ▸ rfl
        · have hlt := (List.getElem?_eq_some_iff.mp hd).1
          rw [heq, retry_eq hdj, List.getElem?_append_left (by simpa [setPoint] using hlt),
            setPoint_self hdj] at hd'
          exact (Option.some.inj hd') ▸ rfl
      · refine .inl (Option.some.inj (hd'.symm.trans ?_))
        rcases hstep.sets hdj with ⟨y, -, hset⟩ | ⟨rfl, heq⟩
        · rw [hset, if_neg hji]
          exact hd
        · have hlt := (List.getElem?_eq_some_iff.mp hd).1
          rw [heq, retry_eq hdj, List.getElem?_append_left (by simpa [setPoint] using hlt),
            setPoint_drives hdj, if_neg hji]
          exact hd
  · rcases hstep.kept hd with hkept | hnil
    · exact .inl (Option.some.inj (hd'.symm.trans hkept))
    · rw [hnil] at hd'
      cases hd'

/-- Drives are for waiters of the queue, which have ids that were minted. -/
structure Known (s : Coordinator) : Prop where
  drives : DrivesKnown s
  minted : ∀ id, s.queue.stateOf id ≠ none → id ∈ s.minted
  accounts : ∃ enqueued, QueueRun.Accounts ⟨s.queue, enqueued⟩

/-- The queue goes on, and no waiter comes with it. -/
theorem Known.queues (h : Known s) (hdrives : s'.drives = s.drives) (hminted : s'.minted = s.minted)
    (hreaches : Reaches s.queue s'.queue)
    (hnew : ∀ id, s'.queue.stateOf id ≠ none → s.queue.stateOf id ≠ none) : Known s' := by
  obtain ⟨enqueued, haccounts⟩ := h.accounts
  have hkeeps := keepsAll_of_reaches haccounts hreaches
  refine ⟨fun i id x hd => ?_, fun id hid => hminted ▸ h.minted id (hnew id hid),
    accounts_of_reaches haccounts hreaches⟩
  rw [hdrives] at hd
  exact stateOf_ne_none_of_keepsAll hkeeps (h.drives i id x hd)

theorem Known.drive (h : Known s) (hframe : DriveFrame s s' id)
    (hne : s.queue.stateOf id ≠ none) : Known s' := by
  obtain ⟨enqueued, haccounts⟩ := h.accounts
  have hkeeps := keepsAll_of_reaches haccounts hframe.reaches
  refine ⟨fun i jd x hd => ?_, fun jd hjd => ?_, accounts_of_reaches haccounts hframe.reaches⟩
  · rcases hframe.drives i _ hd with rfl | hold
    · exact stateOf_ne_none_of_keepsAll hkeeps hne
    · exact stateOf_ne_none_of_keepsAll hkeeps (h.drives i jd x hold)
  · rw [hframe.minted]
    by_cases hid : jd = id
    · exact h.minted jd (hid ▸ hne)
    · exact h.minted jd (hframe.only.stateOf hid ▸ hjd)

theorem Known.drives_ (h : Known s) (hd : Drives o s i s') : Known s' := by
  rcases hd with rfl | ⟨id, x, hd, hstep⟩
  · exact h
  · exact h.drive (hstep.frame hd) (h.drives i id x hd)


theorem Known.daemon {a : Action} (h : Known s) (hd : DaemonStep o s a s') : Known s' := by
  have hsame : ∀ {s'}, s'.drives = s.drives → s'.minted = s.minted → s'.queue = s.queue →
      Known s' := fun hdrives hminted hqueue =>
    h.queues hdrives hminted (hqueue ▸ .refl _) fun _ hid => hqueue ▸ hid
  cases hd with
  | stays => exact h
  | refuses store hstore => exact hsame rfl rfl rfl
  | @admits request options rid answered now writable hholder hnew hlimit hreturns =>
    obtain ⟨enqueued, haccounts⟩ := h.accounts
    have hnone : s.queue.owned rid = none := by
      cases hw : s.queue.owned rid with
      | none => rfl
      | some w => exact absurd (h.minted rid (by simp [stateOf, hw])) hnew
    have hreaches := reaches_create request options hnone
    have hkeeps := keepsAll_of_reaches haccounts hreaches
    refine ⟨fun i id x hd => ?_, fun id hid => ?_, accounts_of_reaches haccounts hreaches⟩
    · have hd' : (s.drives ++ [(⟨rid, .resolving⟩ : Drive)])[i]? = some ⟨id, x⟩ := hd
      rw [getElem?_append_one] at hd'
      split at hd'
      · obtain ⟨rfl, -⟩ := Drive.mk.inj (Option.some.inj hd')
        rw [show ({ s with
          store := _, queue := s.queue.create request options rid, drives := _, minted := _ } :
            Coordinator).queue = s.queue.create request options rid from rfl, create_stateOf_self]
        simp
      · exact stateOf_ne_none_of_keepsAll hkeeps (h.drives i id x hd')
    · refine List.mem_append.mpr ?_
      by_cases he : id = rid
      · exact .inr (List.mem_singleton.mpr he)
      · exact .inl (h.minted id (create_stateOf_ne request options he ▸ hid))
  | wakes hholder =>
    refine wake_induct h fun driving drives id hid hP => ?_
    unfold Coordinator.drive
    split
    · exact hP
    · refine ⟨fun j jd x hd => ?_, hP.minted, hP.accounts⟩
      have hd' : (drives ++ [(⟨id, if s.isPhysical id then .choosing [] else .deciding⟩ :
        Drive)])[j]? = some ⟨jd, x⟩ := hd
      rw [getElem?_append_one] at hd'
      split at hd'
      · obtain ⟨rfl, -⟩ := Drive.mk.inj (Option.some.inj hd')
        exact woken_known hid
      · exact hP.drives j jd x hd'
  | cancels id hholder hpending =>
    exact h.queues rfl rfl (reaches_reject _) fun jd => reject_known _ _
  | begins hholder => exact h.queues rfl rfl (reaches_cancelAll _) fun jd => cancelAll_known _ _
  | ends => exact hsame rfl rfl rfl
  | holds hholder =>
    exact h.queues rfl rfl (reaches_refuseWaiting _) fun jd => refuseWaiting_known _ _
  | lifts => exact hsame rfl rfl rfl
  | stops => exact hsame rfl rfl rfl
  | settles x hx hholder => exact hsame rfl rfl rfl
  | times => exact h.queues rfl rfl reaches_timeout fun jd => timeout_known _
  | commits hc => exact hsame rfl rfl rfl
  | restarts =>
    exact ⟨fun i id x hd => (by cases hd), fun id hid => absurd rfl hid,
      ⟨[], QueueRun.accounts_empty⟩⟩
  | serves hserving => exact hsame rfl rfl rfl

theorem Known.step (h : Known s) (a : Action) : Known (s.step o a) := by
  rcases step_cases h.drives a with ⟨i, -, hd⟩ | ⟨-, hd⟩
  · exact h.drives_ hd
  · exact h.daemon hd

/-- A step of the daemon calls the queue, or starts it anew. -/
theorem DaemonStep.reaches {a : Action} (h : Known s) (hstep : DaemonStep o s a s') :
    Reaches s.queue s'.queue ∨ s'.queue = .empty := by
  cases hstep with
  | @admits request options rid answered now writable hholder hnew hlimit hreturns =>
    refine .inl (reaches_create request options ?_)
    cases hw : s.queue.owned rid with
    | none => rfl
    | some w => exact absurd (h.minted rid (by simp [stateOf, hw])) hnew
  | wakes hholder =>
    obtain ⟨driving, drives, heq, -⟩ := wake_eq s
    rw [heq]
    exact .inl (.refl _)
  | cancels jd hholder hpending => exact .inl (reaches_reject _)
  | begins hholder => exact .inl (reaches_cancelAll _)
  | holds hholder => exact .inl (reaches_refuseWaiting _)
  | times => exact .inl reaches_timeout
  | restarts => exact .inr rfl
  | _ => exact .inl (.refl _)

theorem Known.step_reaches (h : Known s) (a : Action) :
    Reaches s.queue (s.step o a).queue ∨ (s.step o a).queue = .empty := by
  rcases step_cases h.drives a with ⟨i, -, hd⟩ | ⟨-, hd⟩
  · rcases hd with heq | ⟨id, x, hd, hstep⟩
    · rw [heq]
      exact .inl (.refl _)
    · exact .inl (hstep.frame hd).reaches
  · exact hd.reaches h

/-! ### What a waiter keeps -/

/-- A later state: a waiter of before asks as it did, and keeps its deadline and what it settled
    with; an id is given once. -/
structure Follows (s s' : Coordinator) : Prop where
  minted : ∀ id ∈ s.minted, id ∈ s'.minted
  keeps : ∀ id w', s'.queue.owned id = some w' → id ∈ s.minted →
    ∃ w, s.queue.owned id = some w ∧ QueueRun.Keeps w w'

theorem Follows.refl (s : Coordinator) : Follows s s :=
  ⟨fun _ h => h, fun _ w hw _ => ⟨w, hw, .refl w⟩⟩

theorem Follows.trans {s'' : Coordinator} (h : Follows s s') (h' : Follows s' s'') :
    Follows s s'' := by
  refine ⟨fun id hid => h'.minted id (h.minted id hid), fun id w'' hw'' hid => ?_⟩
  obtain ⟨w', hw', hk'⟩ := h'.keeps id w'' hw'' (h.minted id hid)
  obtain ⟨w, hw, hk⟩ := h.keeps id w' hw' hid
  exact ⟨w, hw, hk.trans hk'⟩

theorem Known.follows (h : Known s) (hminted : s'.minted = s.minted)
    (hreaches : Reaches s.queue s'.queue)
    (hnew : ∀ id, s'.queue.stateOf id ≠ none → s.queue.stateOf id ≠ none) : Follows s s' := by
  obtain ⟨enqueued, haccounts⟩ := h.accounts
  have hkeeps := keepsAll_of_reaches haccounts hreaches
  refine ⟨fun id hid => hminted ▸ hid, fun id w' hw' _ => ?_⟩
  obtain ⟨w, hw⟩ := owned_of_ne_none (hnew id (by simp [stateOf, hw']))
  obtain ⟨v, hv, hk⟩ := hkeeps id w hw
  obtain rfl := Option.some.inj (hv.symm.trans hw')
  exact ⟨w, hw, hk⟩

theorem Known.step_follows (h : Known s) (a : Action) : Follows s (s.step o a) := by
  rcases step_cases h.drives a with ⟨i, -, hd⟩ | ⟨-, hd⟩
  · rcases hd with heq | ⟨id, x, hd, hstep⟩
    · rw [heq]
      exact .refl s
    · have hframe := hstep.frame hd
      refine h.follows hframe.minted hframe.reaches fun jd hjd => ?_
      by_cases hid : jd = id
      · exact hid ▸ h.drives i id x hd
      · rwa [hframe.only.stateOf hid] at hjd
  · generalize s.step o a = s' at hd
    have hsame : ∀ {s'}, s'.minted = s.minted → s'.queue = s.queue → Follows s s' :=
      fun hminted hqueue => h.follows hminted (hqueue ▸ .refl _) fun _ hid => hqueue ▸ hid
    cases hd with
    | stays => exact .refl s
    | refuses store hstore => exact hsame rfl rfl
    | @admits request options rid answered now writable hholder hnew hlimit hreturns =>
      refine ⟨fun id hid => List.mem_append_left _ hid, fun id w' hw' hid => ?_⟩
      have hne : id ≠ rid := fun he => hnew (he ▸ hid)
      exact ⟨w', (QueueRun.owned_set_ne _ _ hne).symm.trans hw', .refl w'⟩
    | wakes hholder =>
      obtain ⟨driving, drives, heq, -⟩ := wake_eq s
      rw [heq]
      exact hsame rfl rfl
    | cancels id hholder hpending =>
      exact h.follows rfl (reaches_reject _) fun jd => reject_known _ _
    | begins hholder => exact h.follows rfl (reaches_cancelAll _) fun jd => cancelAll_known _ _
    | ends => exact hsame rfl rfl
    | holds hholder =>
      exact h.follows rfl (reaches_refuseWaiting _) fun jd => refuseWaiting_known _ _
    | lifts => exact hsame rfl rfl
    | stops => exact hsame rfl rfl
    | settles x hx hholder => exact hsame rfl rfl
    | times => exact h.follows rfl reaches_timeout fun jd => timeout_known _
    | commits hc => exact hsame rfl rfl
    | restarts => exact ⟨fun id hid => hid, fun id w' hw' => (by cases hw')⟩
    | serves hserving => exact hsame rfl rfl

theorem Known.run_follows (h : Known s) (acts : List Action) :
    Follows s (run (Coordinator.step o) s acts) := by
  have hboth : Known (run (Coordinator.step o) s acts) ∧ Follows s (run (Coordinator.step o) s acts) :=
    run_invariant (I := fun s' => Known s' ∧ Follows s s')
      (fun s' a hs => ⟨hs.1.step a, hs.2.trans (hs.1.step_follows a)⟩) acts s ⟨h, .refl s⟩
  exact hboth.2

theorem known_create (now : Int) : Known (create now) :=
  ⟨fun i id x hd => (by cases hd), fun id hid => absurd rfl hid, ⟨[], QueueRun.accounts_empty⟩⟩

theorem known_run (o : CoordinatorOptions) (now : Int) (acts : List Action) :
    Known (run (step o) (create now) acts) :=
  run_invariant (fun _ a h => h.step a) acts _ (known_create now)

end Coordinator

end Simlock.Leasing
