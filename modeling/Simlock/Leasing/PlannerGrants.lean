import Simlock.Leasing.AcquisitionPlanner

/-! The planner grants only what may be granted, and takes only what its plan carries.

    A plan is honoured when its device is one the planner may pick for it, and when the planner
    after it has the claim and the reservation the plan carries, and nothing else besides what it
    had before. Every branch of the cascade picks before it takes, so a lemma for each pick comes
    first; a claim on what was picked never fails. -/

namespace Simlock.Leasing
open Core WarmPool

namespace AcquisitionPlanner

variable (p : AcquisitionPlanner) (input : PlannerInput)

/-- The device may be given to the request: it is virtual, free, and fits what is asked. -/
structure MayServe (state : VirtualState) (v : VirtualDevice) : Prop where
  known : .virtual v ∈ input.snapshot.devices
  state : v.state = state
  unclaimed : p.claims.isClaimed v.id = false
  granted : mayBeGranted (.virtual v) = true
  mode : v.spec.mode = input.spec.mode
  fits : fits input.required v.spec input.classOf = true

/-- The device is nobody's, in one of `states`. -/
structure IdleVictim (states : List VirtualState) (v : VirtualDevice) : Prop where
  known : .virtual v ∈ input.snapshot.devices
  state : v.state ∈ states
  unleased : ∀ lease ∈ input.snapshot.leases, lease.deviceId ≠ v.id
  unclaimed : p.claims.isClaimed v.id = false

/-- A plan's device may be picked for it, and the planner holds exactly what the plan carries. -/
def Honours (after : AcquisitionPlanner) : AcquisitionPlan → Prop
  | .grantReady device => (∃ v, device = .virtual v ∧ p.MayServe input .ready v) ∧ after = p
  | .rebootReady claim v =>
    p.MayServe input .ready v ∧ claim.deviceId = v.id ∧
      after = { p with claims := p.claims.take claim }
  | .bootShutdown reservation claim v =>
    p.MayServe input .shutdown v ∧ claim.deviceId = v.id ∧ after =
      { capacity := { p.capacity with
          runningReservations := p.capacity.runningReservations ++ [⟨reservation, v.spec.platform⟩]
          bootReservations := p.capacity.bootReservations ++ [⟨reservation, v.id⟩] }
        claims := p.claims.take claim }
  | .provision reservation => after =
      { p with capacity := { p.capacity with
          provisioningReservations := p.capacity.provisioningReservations ++
            [⟨reservation, plannedCapacityDevice input.spec⟩] } }
  | .evictRunning claim v _ =>
    p.IdleVictim input [.ready] v ∧ claim.deviceId = v.id ∧
      after = { p with claims := p.claims.take claim }
  | .evictManaged claim v _ =>
    p.IdleVictim input [.ready, .shutdown] v ∧ claim.deviceId = v.id ∧
      after = { p with claims := p.claims.take claim }
  | .wait _ | .noCapacity _ => after = p
  | .grantPhysical _ _ => False

variable {p input}

theorem honours_blocked (reason : WaitingReason) :
    p.Honours input p (blocked input.noWait reason) := by
  unfold blocked
  split <;> rfl

/-! ### Picks -/

theorem mem_virtualDevices {snapshot : PlannerSnapshot} {v : VirtualDevice} :
    v ∈ snapshot.virtualDevices ↔ .virtual v ∈ snapshot.devices := by
  simp only [PlannerSnapshot.virtualDevices, List.mem_filterMap]
  constructor
  · rintro ⟨device, hmem, hof⟩
    cases device with
    | virtual d =>
      simp only [virtualOf, Option.some.injEq] at hof
      exact hof ▸ hmem
    | physical d => simp [virtualOf] at hof
  · exact fun hmem => ⟨_, hmem, rfl⟩

theorem mayServe_of_servesRequest {state : VirtualState} {v : VirtualDevice}
    (hmem : .virtual v ∈ input.snapshot.devices) (hstate : v.state = state)
    (h : p.servesRequest input (.virtual v) = true) : p.MayServe input state v := by
  simp only [servesRequest, PlannerInput.serves, Bool.and_eq_true, Bool.not_eq_true',
    decide_eq_true_eq] at h
  exact ⟨hmem, hstate, h.1, h.2.1.1, h.2.1.2, h.2.2⟩

theorem readyDevice_spec {ready : Device} (h : p.readyDevice input = some ready) :
    ∃ v, ready = .virtual v ∧ p.MayServe input .ready v := by
  have hmem := List.mem_of_find?_eq_some h
  have hfound := List.find?_some h
  simp only [Bool.and_eq_true, decide_eq_true_eq] at hfound
  cases ready with
  | virtual v =>
    have hstate : v.state = .ready := by
      cases hv : v.state <;> simp_all [Device.state, VirtualState.toState]
    exact ⟨v, rfl, mayServe_of_servesRequest hmem hstate hfound.2⟩
  | physical d =>
    simp [servesRequest, PlannerInput.serves, fitsDevice] at hfound

theorem shutdownDevice_spec {v : VirtualDevice} (h : p.shutdownDevice input = some v) :
    p.MayServe input .shutdown v := by
  have hfound := List.find?_some h
  simp only [Bool.and_eq_true, decide_eq_true_eq] at hfound
  exact mayServe_of_servesRequest (mem_virtualDevices.1 (List.mem_of_find?_eq_some h)) hfound.1
    hfound.2

theorem leastRecent_mem {localeLe : String → String → Bool} {devices : List VirtualDevice}
    {v : VirtualDevice} (h : leastRecent localeLe devices = some v) : v ∈ devices :=
  (List.mem_insertionSort _).1 (List.mem_of_head? h)

theorem mem_eligible {v : VirtualDevice} (h : v ∈ p.eligibleEvictionDevices input)
    {states : List VirtualState} (hstate : v.state ∈ states) : p.IdleVictim input states v := by
  simp only [eligibleEvictionDevices, List.mem_filter, Bool.and_eq_true, Bool.not_eq_true'] at h
  refine ⟨mem_virtualDevices.1 h.1, hstate, fun lease hlease heq => ?_, h.2.2⟩
  have hmem : v.id ∈ input.snapshot.leases.map (·.deviceId) :=
    heq ▸ List.mem_map_of_mem hlease
  rw [List.contains_iff_mem.2 hmem] at h
  exact Bool.noConfusion h.2.1

variable {host : PlannerHost} {token : Nat}

/-- The victim of a running slot runs idle, in the scope that is blocked. -/
theorem runningVictim_spec {reason : CapacityRefusalReason} {v : VirtualDevice}
    (h : p.runningVictim host input reason = some v) :
    (reason = .globalRunningLimit ∨ reason = .platformRunningLimit) ∧
      p.IdleVictim input [.ready] v ∧
      (p.platformBlocked host input = true → v.spec.platform = input.spec.platform) := by
  rw [runningVictim] at h
  split at h
  · cases h
  · rename_i hreason
    have hmem := List.mem_filter.1 (leastRecent_mem h)
    simp only [Bool.and_eq_true, decide_eq_true_eq] at hmem
    refine ⟨?_, mem_eligible hmem.1 (by simp [hmem.2.1]), fun hblocked => ?_⟩
    · by_contra hnot
      rw [not_or] at hnot
      exact hreason hnot
    · have htakes := hmem.2.2
      rw [if_pos hblocked] at htakes
      simpa [IdleVictimScope.takes] using htakes

theorem selectManagedVictim_spec {v : VirtualDevice}
    (h : selectManagedVictim host.localeLe (p.eligibleEvictionDevices input) input.spec.platform =
      some v) : p.IdleVictim input [.ready, .shutdown] v := by
  have hmem := List.mem_filter.1 (leastRecent_mem h)
  simp only [Bool.and_eq_true, Bool.or_eq_true, decide_eq_true_eq] at hmem
  exact mem_eligible hmem.1 (by simpa using hmem.2.2)

/-! ### Plans -/

/-- The claim on a victim is had. -/
theorem claimVictim_free
    {make : DeviceOperationClaim → VirtualDevice → WaitingReason → AcquisitionPlan}
    {v : VirtualDevice} {reason : WaitingReason} (h : p.claims.isClaimed v.id = false) :
    p.claimVictim input token make v reason =
      (make ⟨v.id, .eviction, none, token⟩ v reason,
        { p with claims := p.claims.take ⟨v.id, .eviction, none, token⟩ }) := by
  rw [claimVictim, DeviceOperationClaims.tryClaim_of_free (by exact h)]

theorem honours_evictOrBlock (reason : CapacityRefusalReason) :
    p.Honours input (p.evictOrBlock host input token reason).2
      (p.evictOrBlock host input token reason).1 := by
  rw [evictOrBlock]
  cases hvictim : p.runningVictim host input reason with
  | none => exact honours_blocked _
  | some v =>
    have hidle := (runningVictim_spec hvictim).2.1
    dsimp only
    rw [claimEviction, claimVictim_free hidle.unclaimed]
    exact ⟨hidle, rfl, rfl⟩

theorem honours_planReady {v : VirtualDevice} (h : p.MayServe input .ready v) :
    p.Honours input (p.planReady host input token (.virtual v)).2
      (p.planReady host input token (.virtual v)).1 := by
  simp only [planReady]
  split
  · exact ⟨⟨v, rfl, h⟩, rfl⟩
  · split
    · exact honours_blocked _
    · rw [DeviceOperationClaims.tryClaim_of_free (by exact h.unclaimed)]
      exact ⟨h, rfl, rfl⟩

theorem honours_planShutdownBoot {v : VirtualDevice} (h : p.MayServe input .shutdown v) :
    p.Honours input (p.planShutdownBoot host input token v).2
      (p.planShutdownBoot host input token v).1 := by
  rw [planShutdownBoot]
  cases hreserve : p.capacity.tryReserveBoot host.strategy host.newDevicesPaused token v.id
      (capacityDevice v) input.capacityDevices with
  | error reason => exact honours_evictOrBlock reason
  | ok capacity =>
    dsimp only
    rw [DeviceOperationClaims.tryClaim_of_free (by exact h.unclaimed)]
    refine ⟨h, rfl, ?_⟩
    rw [(tryReserveBoot_ok hreserve).1]
    rfl

theorem honours_planProvision :
    p.Honours input (p.planProvision host input token).2 (p.planProvision host input token).1 := by
  rw [planProvision]
  split
  · rename_i capacity hreserve
    change _ = _
    rw [(tryReserveProvisioning_ok hreserve).1]
  · cases hvictim : selectManagedVictim host.localeLe (p.eligibleEvictionDevices input)
        input.spec.platform with
    | none => exact honours_evictOrBlock _
    | some v =>
      have hidle := selectManagedVictim_spec hvictim
      dsimp only
      rw [claimManagedEviction, claimVictim_free hidle.unclaimed]
      exact ⟨hidle, rfl, rfl⟩
  · exact honours_evictOrBlock _

/-- Whatever the planner answers, it may, and it takes no more than it says. -/
theorem plan_honours (host : PlannerHost) (p : AcquisitionPlanner) (input : PlannerInput)
    (token : Nat) :
    p.Honours input (p.plan host input token).2 (p.plan host input token).1 := by
  rw [plan]
  cases hready : p.readyDevice input with
  | some ready =>
    obtain ⟨v, rfl, hserve⟩ := readyDevice_spec hready
    exact honours_planReady hserve
  | none =>
    dsimp only
    split
    · exact rfl
    · cases hshutdown : p.shutdownDevice input with
      | some v => exact honours_planShutdownBoot (shutdownDevice_spec hshutdown)
      | none => exact honours_planProvision

/-! ### Physical devices -/

/-- A physical device the request may be given is ready, free and there, and nobody's before. -/
structure MayServePhysical (p : AcquisitionPlanner) (input : PhysicalPlanInput)
    (d : PhysicalDevice) : Prop where
  known : .physical d ∈ input.snapshot.devices
  ready : d.state = .ready
  unclaimed : p.claims.isClaimed d.id = false
  there : d.id ∉ input.absent
  fits : fitsPhysical d input.request = true
  first : input.heldByOlder d = false

def HonoursPhysical (p : AcquisitionPlanner) (input : PhysicalPlanInput)
    (after : AcquisitionPlanner) : AcquisitionPlan → Prop
  | .grantPhysical claim d =>
    p.MayServePhysical input d ∧ claim.deviceId = d.id ∧
      after = { p with claims := p.claims.take claim }
  | .wait _ | .noCapacity _ => after = p
  | _ => False

theorem planPhysicalFrom_honours (p : AcquisitionPlanner) (input : PhysicalPlanInput)
    (token : Nat) (devices : List Device) (hsub : ∀ d ∈ devices, d ∈ input.snapshot.devices)
    (held : Bool) :
    p.HonoursPhysical input (p.planPhysicalFrom input token devices held).2
      (p.planPhysicalFrom input token devices held).1 := by
  induction devices generalizing held with
  | nil =>
    simp only [planPhysicalFrom, blocked]
    split <;> rfl
  | cons device devices ih =>
    have ih := ih fun d hd => hsub d (List.mem_cons_of_mem _ hd)
    cases device with
    | virtual v => exact ih held
    | physical d =>
      rw [planPhysicalFrom]
      split
      · exact ih held
      · rename_i hpick
        rw [not_or, not_or, not_not, Bool.not_eq_false] at hpick
        split
        · exact ih true
        · rename_i hfirst
          dsimp only
          cases htry : p.claims.tryClaim ⟨d.id, .grant, some input.owner, token⟩ with
          | none => exact ih held
          | some claims =>
            obtain ⟨hfree, rfl⟩ := DeviceOperationClaims.tryClaim_some htry
            exact ⟨⟨hsub _ List.mem_cons_self, hpick.1, hfree, hpick.2.1, hpick.2.2,
              by simpa using hfirst⟩, rfl, rfl⟩

theorem planPhysical_honours (p : AcquisitionPlanner) (input : PhysicalPlanInput) (token : Nat) :
    p.HonoursPhysical input (p.planPhysical input token).2 (p.planPhysical input token).1 :=
  planPhysicalFrom_honours p input token _ (fun _ h => h) false

/-- Every plan honours what it answers, of a request for a virtual device and of one for a physical
    one. -/
theorem plans_honour_answers (host : PlannerHost) (p : AcquisitionPlanner) (token : Nat) :
    (∀ input : PlannerInput,
      p.Honours input (p.plan host input token).2 (p.plan host input token).1) ∧
    ∀ input : PhysicalPlanInput,
      p.HonoursPhysical input (p.planPhysical input token).2 (p.planPhysical input token).1 :=
  ⟨fun input => plan_honours host p input token, fun input => planPhysical_honours p input token⟩

end AcquisitionPlanner

end Simlock.Leasing
