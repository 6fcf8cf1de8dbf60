import Simlock.Core.CapacityOrder
import Simlock.Leasing.PlannerGrants
import Simlock.WarmPool.Displacement

/-! An eviction is never in vain.

    A victim is chosen only when a running slot is all that is missing. Shut down, it no longer runs
    and uses no RAM it did not use before; it does not serve the request, so the planner finds the
    same device to boot, or again none; and it is of the request's platform when that platform has
    no slot left. So the same request is admitted next. -/

namespace Simlock.Leasing
open Core WarmPool

/-! ### The snapshot after the eviction -/

/-- The record of a device that was shut down. -/
def shutDown (v : VirtualDevice) : VirtualDevice := { v with state := .shutdown }

def stopped (v d : VirtualDevice) : VirtualDevice := if d = v then shutDown v else d

def stoppedDevice (v : VirtualDevice) : Device → Device
  | .virtual d => .virtual (stopped v d)
  | .physical d => .physical d

/-- The same request, with `v` shut down and nothing else changed. -/
def PlannerInput.withShutdown (input : PlannerInput) (v : VirtualDevice) : PlannerInput :=
  { input with snapshot :=
    { input.snapshot with devices := input.snapshot.devices.map (stoppedDevice v) } }

/-- The spec and the requirement of a request are resolved from one request. -/
def PlannerInput.OnePlatform (input : PlannerInput) : Prop :=
  ∀ requirement, input.requirement = some requirement → requirement.platform = input.spec.platform

variable {host : PlannerHost} {p : AcquisitionPlanner} {input : PlannerInput} {token : Nat}
  {v : VirtualDevice}

theorem stopped_of_ne {d : VirtualDevice} (h : d ≠ v) : stopped v d = d := if_neg h

theorem stopped_self : stopped v v = shutDown v := if_pos rfl

theorem virtualDevices_withShutdown :
    (input.withShutdown v).snapshot.virtualDevices =
      input.snapshot.virtualDevices.map (stopped v) := by
  simp only [PlannerInput.withShutdown, PlannerSnapshot.virtualDevices, List.filterMap_map,
    List.map_filterMap]
  refine List.filterMap_congr fun device _ => ?_
  cases device <;> rfl

theorem serves_shutDown : input.serves (.virtual (shutDown v)) = input.serves (.virtual v) := rfl

theorem required_platform (h : input.OnePlatform) :
    input.required.platform = input.spec.platform := by
  rw [PlannerInput.required]
  cases hrequirement : input.requirement with
  | none => rfl
  | some requirement => exact h requirement hrequirement

/-! ### What the victim frees -/

theorem shutDown_lighter (c : CapacityCoordinator) (hready : v.state = .ready) :
    Lighter (c.withBoot (capacityDevice (shutDown v))) (c.withBoot (capacityDevice v)) := by
  by_cases hbooting : c.booting v.id = true
  · refine ⟨?_, ?_, fun options => ?_⟩ <;>
      simp [CapacityCoordinator.withBoot, capacityDevice, shutDown, hready, hbooting,
        ResourceStrategyOptions.bytesUsed]
  · refine ⟨?_, ?_, fun options => ?_⟩ <;>
      simp [CapacityCoordinator.withBoot, capacityDevice, shutDown, hready, hbooting,
        ResourceStrategyOptions.bytesUsed]

/-- With the reservations, the devices after the eviction are a lighter load. -/
theorem withShutdown_lighter (c : CapacityCoordinator) (hready : v.state = .ready) :
    List.Forall₂ Lighter (c.withReservations (input.withShutdown v).capacityDevices)
      (c.withReservations input.capacityDevices) := by
  simp only [CapacityCoordinator.withReservations, PlannerInput.capacityDevices,
    virtualDevices_withShutdown, List.map_map]
  refine List.rel_append ?_ (List.forall₂_same.2 fun d _ => .refl d)
  · rw [List.forall₂_map_left_iff, List.forall₂_map_right_iff, List.forall₂_same]
    intro d _
    by_cases heq : d = v
    · rw [heq]
      simpa only [Function.comp_apply, stopped_self] using shutDown_lighter c hready
    · simpa only [Function.comp_apply, stopped_of_ne heq] using Lighter.refl _

theorem countP_map_le {α β : Type} {f g : α → β} {q : β → Bool} {l : List α}
    (h : ∀ x ∈ l, q (f x) = true → q (g x) = true) : (l.map f).countP q ≤ (l.map g).countP q := by
  rw [List.countP_map, List.countP_map]
  exact List.countP_mono_left h

theorem countP_map_lt {α β : Type} {f g : α → β} {q : β → Bool} {l : List α} {a : α}
    (h : ∀ x ∈ l, q (f x) = true → q (g x) = true) (ha : a ∈ l) (hf : q (f a) = false)
    (hg : q (g a) = true) : (l.map f).countP q < (l.map g).countP q := by
  obtain ⟨front, back, rfl⟩ := List.append_of_mem ha
  have hfront := countP_map_le (q := q) fun x hx => h x (List.mem_append_left _ hx)
  have hback := countP_map_le (q := q) fun x hx =>
    h x (List.mem_append_right _ (List.mem_cons_of_mem _ hx))
  simp only [List.map_append, List.map_cons, List.countP_append,
    List.countP_cons_of_neg (show ¬ q (f a) = true by simp [hf]), List.countP_cons_of_pos hg]
  omega

/-- A platform, or none for all of them, that the device is of. -/
def ofScope (platform : Option Platform) (v : VirtualDevice) : Prop :=
  ∀ asked, platform = some asked → v.spec.platform = asked

/-- The slots a platform has taken, or all of them. -/
def slotsTaken (host : PlannerHost) (p : AcquisitionPlanner) (input : PlannerInput)
    (platform : Option Platform) : Nat :=
  (p.runningCapacity host input platform).running + (p.runningCapacity host input platform).reserved

theorem slotsTaken_le (platform : Option Platform) :
    slotsTaken host p (input.withShutdown v) platform ≤ slotsTaken host p input platform := by
  simp only [slotsTaken, AcquisitionPlanner.runningCapacity, Core.runningCapacity,
    PlannerInput.capacityDevices, virtualDevices_withShutdown, List.map_map]
  refine Nat.add_le_add_right (countP_map_le fun d _ hd => ?_) _
  by_cases heq : d = v
  · rw [heq] at hd
    simp [stopped_self, shutDown, capacityDevice, isRunning] at hd
  · simpa only [Function.comp_apply, stopped_of_ne heq] using hd

/-- The slot of the victim is free. -/
theorem slotsTaken_lt (platform : Option Platform) (hmem : v ∈ input.snapshot.virtualDevices)
    (hready : v.state = .ready) (hscope : ofScope platform v) :
    slotsTaken host p (input.withShutdown v) platform < slotsTaken host p input platform := by
  simp only [slotsTaken, AcquisitionPlanner.runningCapacity, Core.runningCapacity,
    PlannerInput.capacityDevices, virtualDevices_withShutdown, List.map_map]
  refine Nat.add_lt_add_right (countP_map_lt (fun d _ hd => ?_) hmem ?_ ?_) _
  · by_cases heq : d = v
    · rw [heq] at hd
      simp [stopped_self, shutDown, capacityDevice, isRunning] at hd
    · simpa only [Function.comp_apply, stopped_of_ne heq] using hd
  · simp [stopped_self, shutDown, capacityDevice, isRunning]
  · cases platform with
    | none => simp [capacityDevice, hready, isRunning]
    | some asked => simp [capacityDevice, hready, isRunning, hscope asked rfl]

/-! ### The slot that was missing -/

/-- No more devices run and are reserved than may, of all and of each platform. -/
def WithinRunningLimits (host : PlannerHost) (p : AcquisitionPlanner) (input : PlannerInput) :
    Prop :=
  ∀ platform, slotsTaken host p input platform ≤ (p.runningCapacity host input platform).maxRunning

theorem canReserveRunning_of_room {platform : Platform}
    (hglobal : slotsTaken host p input none < (p.runningCapacity host input none).maxRunning)
    (hplatform : slotsTaken host p input (some platform) <
      (p.runningCapacity host input (some platform)).maxRunning) :
    p.capacity.canReserveRunning host.strategy platform input.capacityDevices = none := by
  simp only [slotsTaken, AcquisitionPlanner.runningCapacity] at hglobal hplatform
  simp only [CapacityCoordinator.canReserveRunning, Core.canReserveRunning]
  rw [if_neg (Nat.not_le.2 hglobal), if_neg (Nat.not_le.2 hplatform)]

/-- After the eviction the request's platform has a slot. -/
theorem room_after {reason : CapacityRefusalReason} (hlimits : WithinRunningLimits host p input)
    (h : p.runningVictim host input reason = some v) :
    p.capacity.canReserveRunning host.strategy input.spec.platform
      (input.withShutdown v).capacityDevices = none := by
  obtain ⟨-, hidle, hblocked⟩ := AcquisitionPlanner.runningVictim_spec h
  have hmem := AcquisitionPlanner.mem_virtualDevices.2 hidle.known
  have hready : v.state = .ready := by simpa using hidle.state
  refine canReserveRunning_of_room ?_ ?_
  · exact Nat.lt_of_lt_of_le (slotsTaken_lt none hmem hready nofun) (hlimits none)
  · by_cases hfull : p.platformBlocked host input = true
    · refine Nat.lt_of_lt_of_le (slotsTaken_lt _ hmem hready ?_) (hlimits _)
      rintro asked ⟨⟩
      exact hblocked hfull
    · have hroom : slotsTaken host p input (some input.spec.platform) <
          (p.runningCapacity host input (some input.spec.platform)).maxRunning := by
        simpa [AcquisitionPlanner.platformBlocked, slotsTaken] using hfull
      exact Nat.lt_of_le_of_lt (slotsTaken_le _) hroom

/-! ### The cascade after the eviction -/

namespace AcquisitionPlanner

variable {plan : AcquisitionPlan × AcquisitionPlanner} {claim : DeviceOperationClaim}
  {reason : WaitingReason}

/-- A running victim is evicted only after a refusal for a running slot. -/
theorem evictOrBlock_evicts {refusal : CapacityRefusalReason}
    (h : (p.evictOrBlock host input token refusal).1 = .evictRunning claim v reason) :
    p.runningVictim host input refusal = some v := by
  rw [evictOrBlock] at h
  cases hvictim : p.runningVictim host input refusal with
  | none =>
    rw [hvictim] at h
    simp only [blocked] at h
    split at h <;> cases h
  | some victim =>
    rw [hvictim] at h
    dsimp only at h
    rw [claimEviction, claimVictim_free (runningVictim_spec hvictim).2.1.unclaimed] at h
    simp only [AcquisitionPlan.evictRunning.injEq] at h
    rw [h.2.1]

theorem readyDevice_withShutdown (h : p.readyDevice input = none) :
    p.readyDevice (input.withShutdown v) = none := by
  simp only [readyDevice, List.find?_eq_none, PlannerInput.withShutdown, List.mem_map] at h ⊢
  rintro _ ⟨device, hmem, rfl⟩
  cases device with
  | physical d => exact h _ hmem
  | virtual d =>
    by_cases heq : d = v
    · simp [stoppedDevice, heq, stopped_self, shutDown, Device.state, VirtualState.toState]
    · rw [stoppedDevice, stopped_of_ne heq]
      exact h _ hmem

/-- The victim was ready and free, so it would have been granted if it served. -/
theorem victim_serves_not (h : p.readyDevice input = none) (hidle : p.IdleVictim input [.ready] v) :
    input.serves (.virtual v) = false := by
  have hnot := List.find?_eq_none.1 h _ hidle.known
  have hready : v.state = .ready := by simpa using hidle.state
  have hfree := hidle.unclaimed
  simpa [Device.state, hready, VirtualState.toState, servesRequest, Device.id, Device.fields, hfree]
    using hnot

theorem onItsWay_withShutdown (hserves : input.serves (.virtual v) = false)
    (h : ∀ d ∈ input.snapshot.virtualDevices, p.isOnItsWay input d = false) :
    ∀ d ∈ (input.withShutdown v).snapshot.virtualDevices,
      p.isOnItsWay (input.withShutdown v) d = false := by
  rw [virtualDevices_withShutdown]
  simp only [List.mem_map]
  rintro _ ⟨d, hmem, rfl⟩
  by_cases heq : d = v
  · rw [heq, stopped_self, isOnItsWay]
    exact Bool.and_eq_false_iff.2 (.inr hserves)
  · rw [stopped_of_ne heq]
    exact h d hmem

/-- The same device is booted, or again none. -/
theorem shutdownDevice_withShutdown (hserves : input.serves (.virtual v) = false)
    (hready : v.state = .ready) :
    p.shutdownDevice (input.withShutdown v) = p.shutdownDevice input := by
  have hsame : ∀ d : VirtualDevice,
      ((stopped v d).state = .shutdown && p.servesRequest input (.virtual (stopped v d))) =
        (d.state = .shutdown && p.servesRequest input (.virtual d)) := by
    intro d
    by_cases heq : d = v
    · rw [heq, stopped_self]
      simp [servesRequest, serves_shutDown, hserves]
    · rw [stopped_of_ne heq]
  have hfind : p.shutdownDevice (input.withShutdown v) =
      (p.shutdownDevice input).map (stopped v) := by
    rw [shutdownDevice, virtualDevices_withShutdown, List.find?_map, shutdownDevice]
    refine congrArg _ (congrArg (fun q => List.find? q _) (funext fun d => ?_))
    exact hsame d
  rw [hfind]
  cases hshutdown : p.shutdownDevice input with
  | none => rfl
  | some d =>
    have hne : d ≠ v := by
      rintro rfl
      have hstate := (shutdownDevice_spec hshutdown).state
      rw [hready] at hstate
      cases hstate
    rw [Option.map_some, stopped_of_ne hne]

/-- A boot that was refused a running slot is admitted after the eviction. -/
theorem planShutdownBoot_after {d : VirtualDevice} (token' : Nat)
    (hlimits : WithinRunningLimits host p input)
    (hplatform : d.spec.platform = input.spec.platform) (hfree : p.claims.isClaimed d.id = false)
    (h : (p.planShutdownBoot host input token d).1 = .evictRunning claim v reason) :
    (∃ refusal, p.runningVictim host input refusal = some v) ∧
    ∃ boot, (p.planShutdownBoot host (input.withShutdown v) token' d).1 =
      .bootShutdown token' boot d := by
  rw [planShutdownBoot] at h
  cases hreserve : p.capacity.tryReserveBoot host.strategy host.newDevicesPaused token d.id
      (capacityDevice d) input.capacityDevices with
  | ok capacity =>
    rw [hreserve] at h
    dsimp only at h
    rw [DeviceOperationClaims.tryClaim_of_free (by exact hfree)] at h
    cases h
  | error refusal =>
    rw [hreserve] at h
    have hvictim := evictOrBlock_evicts h
    obtain ⟨hrunning, hidle, -⟩ := runningVictim_spec hvictim
    have hready : v.state = .ready := by simpa using hidle.state
    obtain ⟨hpaused, hboot⟩ := tryReserveBoot_running hreserve hrunning
    refine ⟨⟨refusal, hvictim⟩, ⟨d.id, .boot, input.owner, token'⟩, ?_⟩
    have hboot' := canBoot_mono (withShutdown_lighter p.capacity hready) hboot
    have hroom := room_after hlimits hvictim
    rw [planShutdownBoot, CapacityCoordinator.tryReserveBoot, hpaused, if_neg (by decide)]
    rw [hboot']
    dsimp only
    rw [show (capacityDevice d).platform = input.spec.platform from hplatform, hroom]
    dsimp only
    rw [DeviceOperationClaims.tryClaim_of_free (by exact hfree)]
    rfl

/-- A device that was refused a running slot may be made after the eviction. -/
theorem planProvision_after (token' : Nat) (hlimits : WithinRunningLimits host p input)
    (h : (p.planProvision host input token).1 = .evictRunning claim v reason) :
    (∃ refusal, p.runningVictim host input refusal = some v) ∧
    (p.planProvision host (input.withShutdown v) token').1 = .provision token' := by
  rw [planProvision] at h
  split at h
  · cases h
  · cases hmanaged : selectManagedVictim host.localeLe (p.eligibleEvictionDevices input)
        input.spec.platform with
    | some d =>
      rw [hmanaged] at h
      dsimp only at h
      rw [claimManagedEviction, claimVictim_free (selectManagedVictim_spec hmanaged).unclaimed] at h
      cases h
    | none =>
      rw [hmanaged] at h
      rcases (runningVictim_spec (evictOrBlock_evicts h)).1 with hno | hno <;> cases hno
  · rename_i refusal _ hreserve
    have hvictim := evictOrBlock_evicts h
    obtain ⟨hrunning, hidle, -⟩ := runningVictim_spec hvictim
    have hready : v.state = .ready := by simpa using hidle.state
    obtain ⟨hpaused, hprovision⟩ := tryReserveProvisioning_running hreserve hrunning
    refine ⟨⟨refusal, hvictim⟩, ?_⟩
    have hprovision' := canProvision_mono (withShutdown_lighter p.capacity hready) hprovision
    have hroom := room_after hlimits hvictim
    rw [planProvision, CapacityCoordinator.tryReserveProvisioning, hpaused, if_neg (by decide)]
    rw [show plannedCapacityDevice (input.withShutdown v).spec = plannedCapacityDevice input.spec
      from rfl, hprovision']
    dsimp only
    rw [show (plannedCapacityDevice input.spec).platform = input.spec.platform from rfl, hroom]

/-- The planner once the eviction is over: its claim is given back. -/
def afterEviction (p : AcquisitionPlanner) (claim : DeviceOperationClaim) : AcquisitionPlanner :=
  { p with claims := p.claims.release claim }

/-- What an eviction's plan took is given back with its claim. -/
theorem afterEviction_plan (h : (p.plan host input token).1 = .evictRunning claim v reason) :
    (p.plan host input token).2.afterEviction claim = p := by
  have hhonours := plan_honours host p input token
  rw [h] at hhonours
  obtain ⟨hidle, hid, hafter⟩ := hhonours
  rw [hafter, afterEviction]
  dsimp only
  rw [DeviceOperationClaims.release_take (by rw [hid]; exact hidle.unclaimed)]

theorem planReady_evicts_not {d : VirtualDevice} (hserve : p.MayServe input .ready d) :
    (p.planReady host input token (.virtual d)).1 ≠ .evictRunning claim v reason := by
  intro h
  simp only [planReady] at h
  split at h
  · cases h
  · split at h
    · simp only [blocked] at h
      split at h <;> cases h
    · rw [DeviceOperationClaims.tryClaim_of_free (by exact hserve.unclaimed)] at h
      cases h

/-- An eviction is planned at the end of the cascade. -/
theorem plan_evicts (h : (p.plan host input token).1 = .evictRunning claim v reason) :
    p.readyDevice input = none ∧
    (!input.noWait && input.snapshot.virtualDevices.any (p.isOnItsWay input)) = false ∧
    ((∃ d, p.shutdownDevice input = some d ∧
        (p.planShutdownBoot host input token d).1 = .evictRunning claim v reason) ∨
      (p.shutdownDevice input = none ∧
        (p.planProvision host input token).1 = .evictRunning claim v reason)) := by
  rw [plan] at h
  cases hready : p.readyDevice input with
  | some ready =>
    obtain ⟨d, rfl, hserve⟩ := readyDevice_spec hready
    rw [hready] at h
    exact absurd h (planReady_evicts_not hserve)
  | none =>
    rw [hready] at h
    dsimp only at h
    split at h
    · cases h
    · rename_i hway
      refine ⟨rfl, Bool.not_eq_true _ ▸ hway, ?_⟩
      cases hshutdown : p.shutdownDevice input with
      | some d =>
        rw [hshutdown] at h
        exact .inl ⟨d, rfl, h⟩
      | none =>
        rw [hshutdown] at h
        exact .inr ⟨rfl, h⟩

/-- Nothing the request could have had is on its way after the eviction either. -/
theorem way_withShutdown (hserves : input.serves (.virtual v) = false)
    (h : (!input.noWait && input.snapshot.virtualDevices.any (p.isOnItsWay input)) = false) :
    (!(input.withShutdown v).noWait && (input.withShutdown v).snapshot.virtualDevices.any
      (p.isOnItsWay (input.withShutdown v))) = false := by
  rw [Bool.and_eq_false_iff] at h ⊢
  refine h.imp_right fun hany => ?_
  rw [List.any_eq_false] at hany ⊢
  simp only [Bool.not_eq_true] at hany ⊢
  exact onItsWay_withShutdown hserves hany

/-- Past the ready devices and those on their way, the same device is booted, or one is made. -/
theorem plan_withShutdown {token' : Nat} (hready : p.readyDevice input = none)
    (hidle : p.IdleVictim input [.ready] v)
    (hway : (!input.noWait && input.snapshot.virtualDevices.any (p.isOnItsWay input)) = false) :
    p.plan host (input.withShutdown v) token' =
      match p.shutdownDevice input with
      | some d => p.planShutdownBoot host (input.withShutdown v) token' d
      | none => p.planProvision host (input.withShutdown v) token' := by
  have hserves := victim_serves_not hready hidle
  rw [plan, readyDevice_withShutdown hready]
  dsimp only
  rw [way_withShutdown hserves hway, if_neg (by decide)]
  have hsame : p.shutdownDevice (input.withShutdown v) = p.shutdownDevice input :=
    shutdownDevice_withShutdown hserves (by simpa using hidle.state)
  exact congrArg (fun shutDown : Option VirtualDevice => match shutDown with
    | some d => p.planShutdownBoot host (input.withShutdown v) token' d
    | none => p.planProvision host (input.withShutdown v) token') hsame

/-- Within the running limits, the request that evicts a device is admitted once that device is shut
    down, and the device is of the request's platform when that platform's limit blocks. -/
theorem eviction_not_in_vain {token' : Nat} (hlimits : WithinRunningLimits host p input)
    (hplatform : input.OnePlatform)
    (h : (p.plan host input token).1 = .evictRunning claim v reason) :
    ((∃ reservation boot d,
        (((p.plan host input token).2.afterEviction claim).plan host (input.withShutdown v)
          token').1 = .bootShutdown reservation boot d) ∨
      ∃ reservation,
        (((p.plan host input token).2.afterEviction claim).plan host (input.withShutdown v)
          token').1 = .provision reservation) ∧
    (p.platformBlocked host input = true → v.spec.platform = input.spec.platform) := by
  have hidle : p.IdleVictim input [.ready] v := by
    have hhonours := plan_honours host p input token
    rw [h] at hhonours
    exact hhonours.1
  rw [afterEviction_plan h]
  obtain ⟨hready, hway, ⟨d, hshutdown, hboot⟩ | ⟨hshutdown, hmade⟩⟩ := plan_evicts h
  · have hserve := shutdownDevice_spec hshutdown
    have hof : d.spec.platform = input.spec.platform := by
      have hfits := hserve.fits
      simp only [fits, Bool.and_eq_true, decide_eq_true_eq] at hfits
      rw [← required_platform hplatform]
      exact hfits.1.1.1.1.symm
    obtain ⟨⟨refusal, hvictim⟩, boot, hafter⟩ :=
      planShutdownBoot_after token' hlimits hof hserve.unclaimed hboot
    refine ⟨.inl ⟨token', boot, d, ?_⟩, (runningVictim_spec hvictim).2.2⟩
    rw [plan_withShutdown hready hidle hway, hshutdown]
    exact hafter
  · obtain ⟨⟨refusal, hvictim⟩, hafter⟩ := planProvision_after token' hlimits hmade
    refine ⟨.inr ⟨token', ?_⟩, (runningVictim_spec hvictim).2.2⟩
    rw [plan_withShutdown hready hidle hway, hshutdown]
    exact hafter

/-- One slot for two devices, so only running slots are short. -/
def oneSlotHost : PlannerHost where
  strategy := .fixed ⟨1, some ⟨some 2, none⟩, none⟩
  newDevicesPaused := false
  localeLe left right := left ≤ right

/-- A tablet is asked for while a phone runs idle. -/
def tabletInput : PlannerInput where
  noWait := false
  owner := some "waiter"
  snapshot := ⟨[.virtual (warmDevice "dev_1" "iPhone 16" 1)], []⟩
  spec := iosKind "iPad mini"
  requirement := none
  rebootReady := false
  classOf _ := none

def idlePlanner : AcquisitionPlanner := ⟨.empty, .empty⟩

theorem eviction_not_in_vain_phone :
    (∃ reservation boot d,
      (((idlePlanner.plan oneSlotHost tabletInput 0).2.afterEviction
        ⟨"dev_1", .eviction, none, 0⟩).plan oneSlotHost
          (tabletInput.withShutdown (warmDevice "dev_1" "iPhone 16" 1)) 1).1 =
        .bootShutdown reservation boot d) ∨
    ∃ reservation,
      (((idlePlanner.plan oneSlotHost tabletInput 0).2.afterEviction
        ⟨"dev_1", .eviction, none, 0⟩).plan oneSlotHost
          (tabletInput.withShutdown (warmDevice "dev_1" "iPhone 16" 1)) 1).1 =
        .provision reservation := by
  have hlimits : WithinRunningLimits oneSlotHost idlePlanner tabletInput
    | none => by decide +kernel
    | some .ios => by decide +kernel
    | some .android => by decide +kernel
  have hevict : (idlePlanner.plan oneSlotHost tabletInput 0).1 =
      .evictRunning ⟨"dev_1", .eviction, none, 0⟩ (warmDevice "dev_1" "iPhone 16" 1)
        (.capacity .globalRunningLimit) := by decide +kernel
  refine (eviction_not_in_vain hlimits ?_ hevict).1
  rintro requirement ⟨⟩

end AcquisitionPlanner

end Simlock.Leasing
