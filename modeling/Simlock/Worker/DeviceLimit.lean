import Simlock.Worker.Ledger

/-! The device limit: no platform ever has more virtual devices than its limit, with the devices that
    are still to be made counted by their reservations.

    A device is admitted by a reservation and counted by its record from the section on that registers
    it. The flow that creates it is the one place where the one is exchanged for the other. -/

namespace Simlock.Worker

open Simlock.Lib Simlock.Core

/-- The device of a reservation, once it has one. -/
def Host.deviceOf (s : Host) (token : Nat) : Option String :=
  (s.flows.find? fun f => f.reservation = some token).bind fun f => f.target.map Target.deviceId

/-- The virtual devices of a platform that are not deleted. -/
def activeCount (r : Registry) (platform : Platform) : Nat :=
  (virtualDevices r).countP fun v => v.state ≠ .deleted && v.spec.platform = platform

/-- The provisioning reservations of a platform whose device is not registered. -/
def Host.unregistered (s : Host) (platform : Platform) : Nat :=
  s.capacity.provisioningReservations.countP fun r =>
    r.entry.platform = platform && (s.deviceOf r.token).isNone

def WithinDeviceLimit (strategy : CapacityStrategy) (s : Host) : Prop :=
  ∀ platform, activeCount s.registry platform + s.unregistered platform ≤
    (strategy.limits.platform platform).maxDevices

/-! ### Flows in place of reservations -/

/-- The flow creates a device of the platform. -/
def Flow.creates (platform : Platform) (f : Flow) : Bool :=
  f.target.isNone && f.platform = platform

/-- An active virtual device of the platform weighs one. -/
def activeWeight (platform : Platform) : Device → Nat :=
  onVirtual fun v => if v.state ≠ .deleted && v.spec.platform = platform then 1 else 0

section Counts

variable {s : Host} {f : Flow} {t : Nat} {platform : Platform}

theorem activeWeight_weighs (platform : Platform) : Weighs (activeWeight platform) :=
  weighs_onVirtual (fun _ _ _ => rfl) fun v hv => by simp [hv]

/-- Two flows with one token are one. -/
theorem flow_of_token {flows : List Flow} (htokens : (flows.filterMap Flow.reservation).Nodup)
    {f g : Flow} (hf : f ∈ flows) (hg : g ∈ flows) (hft : f.reservation = some t)
    (hgt : g.reservation = some t) : f = g := by
  by_contra hne
  refine not_mem_erase htokens hf hft (List.mem_filterMap.mpr ⟨g, ?_, hgt⟩)
  exact (List.mem_erase_of_ne (Ne.symm hne)).mpr hg

theorem deviceOf_eq (h : Ledger s) (hf : f ∈ s.flows) (ht : f.reservation = some t) :
    s.deviceOf t = f.target.map Target.deviceId := by
  rw [Host.deviceOf]
  cases hfound : s.flows.find? fun f => f.reservation = some t with
  | none =>
    have := List.find?_eq_none.mp hfound f hf
    simp [ht] at this
  | some g =>
    have hg : g.reservation = some t := by simpa using List.find?_some hfound
    rw [flow_of_token h.tokens (List.mem_of_find?_eq_some hfound) hf hg ht]
    rfl

/-- A flow without a device holds the reservation for it. -/
theorem creating_entry (hok : FlowOk f) (hnone : f.target = none) :
    ∃ t, f.reservation = some t ∧ f.provisioningEntry = some ⟨t, ⟨f.platform, .full⟩⟩ := by
  have hpoint : f.point = .creating := by
    by_contra hp
    have := hok.target hp
    rw [hnone] at this
    cases this
  obtain ⟨hprovisions, -⟩ := hok.creating hpoint
  rcases hok.held (.inl hprovisions) with hsome | hpast
  · obtain ⟨t, ht⟩ := Option.isSome_iff_exists.mp hsome
    refine ⟨t, ht, ?_⟩
    rw [Flow.provisioningEntry, if_pos hprovisions, ht]
    rfl
  · rw [hpoint] at hpast
    cases hpast

theorem unregistered_eq (h : Ledger s) (platform : Platform) :
    s.unregistered platform = s.flows.countP (Flow.creates platform) := by
  rw [Host.unregistered, h.provisioning.countP_eq, List.countP_filterMap]
  refine List.countP_congr fun f hf => ?_
  have hok := h.flows f hf
  cases htarget : f.target with
  | none =>
    obtain ⟨t, ht, hentry⟩ := creating_entry hok htarget
    simp [hentry, Flow.creates, htarget, deviceOf_eq h hf ht]
  | some target =>
    cases hentry : f.provisioningEntry with
    | none => simp [Flow.creates, htarget]
    | some r => simp [Flow.creates, htarget, deviceOf_eq h hf (provisioningEntry_token f r hentry)]

end Counts

/-! ### Steps -/

/-- The limit, with the flows that create a device in place of their reservations. -/
structure DeviceLimitInv (strategy : CapacityStrategy) (s : Host) : Prop where
  devices : DevicesOk s.registry
  ledger : Ledger s
  limit : ∀ platform, total (activeWeight platform) s.registry +
    s.flows.countP (Flow.creates platform) ≤ (strategy.limits.platform platform).maxDevices

section Steps

variable {o : RegistryOptions} {strategy : CapacityStrategy} {s : Host}

/-- Only a device that was active is rewritten to an active one. -/
theorem activeWeight_le {d d' : Device} (hstep : DeviceStep d d') (platform : Platform) :
    activeWeight platform d' ≤ activeWeight platform d := by
  refine step_onVirtual hstep fun v v' _ _ _ hplatform hdeleted => ?_
  rw [hplatform]
  by_cases hv' : v'.state = .deleted
  · simp [hv']
  · have hv : v.state ≠ .deleted := fun hv => hv' (hdeleted hv)
    simp [hv', hv]

/-- A section that adds no virtual device leaves no more active ones. -/
theorem after_active_le (h : DevicesOk s.registry) {w : Section} (now : Int) (writable : Bool)
    (hw : ∀ id driverDeviceId spec driverData, w ≠ .register id driverDeviceId spec driverData)
    (platform : Platform) :
    total (activeWeight platform) (w.after o s.registry now writable) ≤
      total (activeWeight platform) s.registry := by
  rcases @Section.after_total o _ now writable h w _ (activeWeight_weighs platform) with
    hsame | ⟨-, d, d', -, hstep, -, -, -, htotal⟩ | ⟨d, hadds, htotal⟩
  · exact Nat.le_of_eq hsame
  · have := activeWeight_le hstep platform
    omega
  · -- the only other device that is added is a physical one
    cases w with
    | register id driverDeviceId spec driverData => exact absurd rfl (hw _ _ _ _)
    | enroll id input =>
      obtain ⟨p, rfl, -⟩ := hadds
      rw [htotal]
      exact Nat.le_refl _
    | _ => exact absurd hadds id

/-- The reservation that is admitted still fits under the limit. -/
theorem reserve_within (h : Ledger s) {device : PlannedCapacityDevice}
    (hcan : strategy.canProvision device (s.capacity.withReservations (capacityDevices s.registry)) =
      none) :
    total (activeWeight device.platform) s.registry +
      s.flows.countP (Flow.creates device.platform) <
      (strategy.limits.platform device.platform).maxDevices := by
  have hwithin := canProvision_within hcan
  have hdevices : ((activeDevices ((capacityDevices s.registry).map s.capacity.withBoot)).filter
      fun d => d.platform = device.platform).length =
      total (activeWeight device.platform) s.registry := by
    rw [activeDevices, List.filter_filter, ← List.countP_eq_length_filter, capacityDevices,
      List.map_map, List.countP_map, activeWeight, ← countP_virtualDevices]
    refine List.countP_congr fun v _ => ?_
    simp only [Function.comp_apply, CapacityCoordinator.withBoot]
    split
    · by_cases hv : v.state = .shutdown
      · simp [capacityDevice, hv]
      · simp [capacityDevice, hv, Bool.and_comm]
        exact fun _ => decide_eq_true_iff
    · simp [capacityDevice, Bool.and_comm]
      exact fun _ => decide_eq_true_iff
  have hpending : s.flows.countP (Flow.creates device.platform) ≤
      ((activeDevices (s.capacity.provisioningReservations.map fun r =>
        CapacityCoordinator.asProvisioningDevice r.entry)).filter
        fun d => d.platform = device.platform).length := by
    rw [activeDevices, List.filter_filter, ← List.countP_eq_length_filter, List.countP_map,
      h.provisioning.countP_eq, List.countP_filterMap]
    refine List.countP_mono_left fun f hf hcreates => ?_
    rw [Flow.creates, Bool.and_eq_true, Option.isNone_iff_eq_none, decide_eq_true_eq] at hcreates
    obtain ⟨t, -, hentry⟩ := creating_entry (h.flows f hf) hcreates.1
    simp [hentry, CapacityCoordinator.asProvisioningDevice, hcreates.2]
  rw [CapacityCoordinator.withReservations, activeDevices, List.filter_append, List.filter_append,
    List.length_append] at hwithin
  rw [activeDevices] at hdevices hpending
  omega

/-- A step of a flow gives up its device slot, or exchanges it for the device. -/
theorem DeviceLimitInv.take (h : DeviceLimitInv strategy s) {f : Flow} (hf : f ∈ s.flows)
    {m : Move} {now : Int} {writable : Bool}
    (hadmits : s.Admits o (.advance f m now writable)) :
    DeviceLimitInv strategy (s.take o f (f.next o s now writable m) now writable) := by
  have hok := h.ledger.flows f hf
  have hkeeps := next_keeps o s hok now writable m
  generalize hn : f.next o s now writable m = n at hkeeps
  have hcount : ∀ platform, s.flows.countP (Flow.creates platform) =
      (if f.creates platform then 1 else 0) + (s.flows.erase f).countP (Flow.creates platform) := by
    intro platform
    rw [(List.perm_cons_erase hf).countP_eq, List.countP_cons, Nat.add_comm]
  -- a flow that has its device creates none
  have hnext : ∀ platform, (n.flow.toList ++ s.flows.erase f).countP (Flow.creates platform) ≤
      s.flows.countP (Flow.creates platform) ∧
      ((∀ f', n.flow = some f' → f'.target.isSome) →
        (n.flow.toList ++ s.flows.erase f).countP (Flow.creates platform) =
          (s.flows.erase f).countP (Flow.creates platform)) := by
    intro platform
    rw [hcount platform]
    cases hflow : n.flow with
    | none => simp
    | some f' =>
      obtain ⟨-, hplatform, -⟩ := hkeeps.same f' hflow
      rw [Option.toList_some, List.cons_append, List.nil_append, List.countP_cons]
      refine ⟨?_, ?_⟩
      · rcases hkeeps.target f' hflow with htarget | ⟨_, _, _, _, _, -, -, -, htarget⟩
        · have hsame : f'.creates platform = f.creates platform := by
            rw [Flow.creates, Flow.creates, htarget, hplatform]
          rw [hsame, Nat.add_comm]
        · have hnone : f'.creates platform = false := by
            rw [Flow.creates, htarget]
            rfl
          rw [hnone]
          simp
      · intro hsome
        have htarget := hsome f' rfl
        have hnone : f'.creates platform = false := by
          rw [Flow.creates, Option.isNone_eq_false_iff.mpr htarget]
          rfl
        rw [hnone]
        simp
  refine ⟨?_, h.ledger.take hf hkeeps now writable, fun platform => ?_⟩
  · -- the devices
    cases hsection : n.section_ with
    | none =>
      simp only [Host.take, hsection, Option.map_none, Option.getD_none]
      exact h.devices
    | some w =>
      simp only [Host.take, hsection, Option.map_some, Option.getD_some]
      exact Section.after_ok h.devices fun id physical hadds =>
        ((hadmits w (hn ▸ hsection)).1 id physical hadds).1
  · have hlimit := h.limit platform
    obtain ⟨hle, heq⟩ := hnext platform
    have hflows : (s.take o f n now writable).flows = n.flow.toList ++ s.flows.erase f := rfl
    rw [hflows]
    cases hsection : n.section_ with
    | none =>
      simp only [Host.take, hsection, Option.map_none, Option.getD_none]
      omega
    | some w =>
      simp only [Host.take, hsection, Option.map_some, Option.getD_some]
      by_cases hregister : ∃ id driverDeviceId spec driverData,
          w = .register id driverDeviceId spec driverData
      · obtain ⟨id, driverDeviceId, spec, driverData, rfl⟩ := hregister
        have hruns := next_runs (hn ▸ hsection)
        rw [hn] at hruns
        cases hruns with
        | @register spec _ _ version _ hjob hpoint hflow =>
          have hcreates := heq fun f' hf' => by rw [hflow f' hf']; rfl
          have hplatform := hok.platform _ hjob
          have hnone := (hok.creating hpoint).2
          rw [hcreates]
          rw [hcount platform] at hlimit
          rcases @Section.after_total o _ now writable h.devices
            (.register id driverDeviceId (madeSpec spec version) driverData) _
            (activeWeight_weighs platform) with hsame | ⟨-, d, d', hd, hstep, -, -, -, htotal⟩ |
              ⟨d, ⟨v, rfl, -, -, hspec, -⟩, htotal⟩
          · omega
          · have := activeWeight_le hstep platform
            omega
          · have hweight : activeWeight platform (.virtual v) ≤
                if f.creates platform then 1 else 0 := by
              by_cases hp : f.platform = platform
              · rw [Flow.creates, hnone, if_pos (by simpa using hp)]
                simp only [activeWeight, onVirtual]
                split <;> omega
              · have hv : v.spec.platform ≠ platform := by
                  rw [hspec]
                  exact fun he => hp (hplatform.trans he)
                simp [activeWeight, onVirtual, hv]
            omega
      · have hactive := after_active_le (o := o) h.devices (w := w) now writable
          (fun id driverDeviceId spec driverData hw => hregister ⟨_, _, _, _, hw⟩) platform
        omega

theorem DeviceLimitInv.step (h : DeviceLimitInv strategy s) {s' : Host} {a : HostAction}
    (hstep : Stepped o strategy s a s') (hadmits : s.Admits o a) : DeviceLimitInv strategy s' := by
  have hledger := h.ledger.step hstep
  cases hstep with
  | idle => exact h
  | @provision spec owner paused capacity hok =>
    refine ⟨h.devices, hledger, fun platform => ?_⟩
    obtain ⟨-, hcan, -⟩ := tryReserveProvisioning_ok hok
    have hlimit := h.limit platform
    have hwithin := reserve_within h.ledger hcan
    dsimp only
    rw [List.countP_cons]
    by_cases hp : spec.platform = platform
    · subst hp
      rw [if_pos (by simp [Flow.creates])]
      exact hwithin
    · rw [if_neg (by simp [Flow.creates, hp])]
      exact hlimit
  | @boot deviceId owner paused v capacity hd hshutdown hfree hok =>
    refine ⟨h.devices, hledger, fun platform => ?_⟩
    simp only [Host.claimFor]
    rw [List.countP_cons, if_neg (by simp [Flow.creates, flowOf])]
    exact h.limit platform
  | @claimed a deviceId operation claimOwner job owner d hd hfree hoperation hjob =>
    refine ⟨h.devices, hledger, fun platform => ?_⟩
    simp only [Host.claimFor]
    rw [List.countP_cons, if_neg (by simp [Flow.creates, flowOf])]
    exact h.limit platform
  | advanced hf => exact h.take hf hadmits
  | @other w now writable hw =>
    refine ⟨Section.after_ok h.devices fun id physical hadds => (hadmits.1 id physical hadds).1,
      hledger, fun platform => ?_⟩
    have hactive := after_active_le (o := o) h.devices (w := w) now writable
      (fun id driverDeviceId spec driverData hregister => by subst hregister; cases hw) platform
    have hlimit := h.limit platform
    dsimp only
    omega
  | takes hplanned hfree => exact ⟨h.devices, hledger, h.limit⟩
  | gives hown => exact ⟨h.devices, hledger, h.limit⟩

end Steps

/-- From any registry within the limit, in every run of plans, operations and other workflows, the
    devices of a platform with those still to be registered never are more than its limit. -/
theorem devices_within_limit (o : RegistryOptions) (strategy : CapacityStrategy) (store : Store)
    (hstore : store.Reached o)
    (hstart : ∀ platform, activeCount store.registry platform ≤
      (strategy.limits.platform platform).maxDevices)
    (acts : List HostAction)
    (hrun : AllSteps (Host.step o strategy) (Host.Admits o) (Host.start store.registry) acts) :
    WithinDeviceLimit strategy
      (run (Host.step o strategy) (Host.start store.registry) acts) := by
  have hinv := run_invariant_of_allSteps (I := DeviceLimitInv strategy)
    (fun s a hadmits h => h.step (step_stepped o strategy s a) hadmits) acts
    (Host.start store.registry) ⟨hstore.ok.ok.devicesOk, Ledger.start _, fun platform => ?_⟩ hrun
  · intro platform
    rw [activeCount, countP_virtualDevices, unregistered_eq hinv.ledger]
    exact hinv.limit platform
  · have := hstart platform
    rw [activeCount, countP_virtualDevices] at this
    exact this

/-! ### One device, and a plan that is refused -/

def creating : Flow :=
  ⟨.provision iphoneSpec, some "req_1", .ios, none, some 0, none, none, .creating⟩

/-- A request plans a new device and the driver makes it; a second plan finds no room. -/
def provisionOne : List HostAction :=
  [.planProvision iphoneSpec (some "req_1") false true,
    .planProvision iphoneSpec (some "req_2") false true,
    .advance creating (.register "dev_1" "udid_1" 0 iphoneData) 1 true,
    .planProvision iphoneSpec (some "req_3") false true]

theorem devices_within_limit_provisionOne :
    (run (Host.step shortRetention (.fixed ⟨1, none, none⟩)) (Host.start Registry.empty)
      provisionOne).flows.length = 1 ∧
    activeCount (run (Host.step shortRetention (.fixed ⟨1, none, none⟩)) (Host.start Registry.empty)
      provisionOne).registry .ios = 1 ∧
    WithinDeviceLimit (.fixed ⟨1, none, none⟩)
      (run (Host.step shortRetention (.fixed ⟨1, none, none⟩)) (Host.start Registry.empty)
        provisionOne) := by
  refine ⟨by decide +kernel, by decide +kernel, ?_⟩
  refine devices_within_limit shortRetention (.fixed ⟨1, none, none⟩) (Store.create 0)
    ⟨0, [], trivial, rfl⟩ ?_ provisionOne ⟨trivial, trivial, ?_, trivial, trivial⟩
  · intro platform
    exact Nat.zero_le _
  · rintro w ⟨⟩
    refine ⟨?_, trivial⟩
    rintro id physical ⟨⟩
    constructor
    · decide +kernel
    · decide +kernel

end Simlock.Worker
