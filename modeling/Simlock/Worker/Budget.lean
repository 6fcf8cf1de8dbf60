import Simlock.Worker.RunningLimit

/-! The RAM budget: what the devices take, with the devices still to be made, stays within the limit of
    the machine.

    A device counts by its platform and recorded mode, and at its full size until it has booted. A
    provisioning reservation is held to the end of its operation, so the device it is for counts
    twice once it is registered; the budget bounds what counts once. What goes past it are a reboot
    that records a larger mode and a shut-down device that is taken up without a boot reservation. -/

namespace Simlock.Worker

open Simlock.Lib Simlock.Core

variable (options : ResourceStrategyOptions)

/-- The bytes of the devices and of every provisioning reservation, as an admission counts them. -/
def Host.admissionBytes (s : Host) : Nat :=
  options.usedBytes (s.capacity.withReservations (capacityDevices s.registry))

/-- The bytes of the devices and of the provisioning reservations whose device is not registered. -/
def Host.countedBytes (s : Host) : Nat :=
  options.usedBytes ((capacityDevices s.registry).map s.capacity.withBoot) +
    ((s.capacity.provisioningReservations.filter fun r => (s.deviceOf r.token).isNone).map
      fun r => options.bytesPerDevice r.entry).sum

def WithinBudget (totalRamBytes : Nat) (s : Host) : Prop :=
  s.countedBytes options ≤ limitBytes totalRamBytes

/-- A slim device takes no more than a full one. -/
def SlimFits : Prop :=
  ∀ platform, options.bytesPerDevice ⟨platform, .slim⟩ ≤ options.fullBytes platform

/-- A shut-down device is taken up under its boot reservation, and a reboot records no larger mode. -/
def Sized (s : Host) : Section → Prop
  | .enterQuarantine deviceId _ _ | .enterFromStalledTransition deviceId _ _ _
  | .fixRunning deviceId =>
    ∀ v, s.registry.device deviceId = some (.virtual v) → v.state = .shutdown →
      s.capacity.booting deviceId = true
  | .commitReboot deviceId _ ready =>
    ∀ v, s.registry.device deviceId = some (.virtual v) →
      options.bytesPerDevice ⟨v.spec.platform, ready.mode⟩ ≤
        options.bytesPerDevice ⟨v.spec.platform, v.mode⟩
  | _ => True

/-- Every section of the action keeps to what was admitted. -/
def KeepsSizes (o : RegistryOptions) (s : Host) : HostAction → Prop
  | .advance f m now writable => ∀ w, (f.next o s now writable m).section_ = some w →
    Sized options s w
  | .other w _ _ => Sized options s w
  | _ => True

/-! ### The measure -/

/-- A flow boots the device under a boot reservation. -/
def bootedBy (flows : List Flow) (deviceId : String) : Bool :=
  flows.any fun f => f.bootEntry.any fun r => r.entry = deviceId

/-- The bytes a device counts for. -/
def ramWeight (booting : String → Bool) : Device → Nat :=
  onVirtual fun v =>
    if v.state = .deleted then 0
    else if booting v.id then options.fullBytes v.spec.platform
    else if v.state = .shutdown then 0
    else if v.state = .provisioning then options.fullBytes v.spec.platform
    else options.bytesPerDevice ⟨v.spec.platform, v.mode⟩

/-- The bytes of the device a flow is creating. -/
def Flow.createdBytes (f : Flow) : Nat := if f.target.isNone then options.fullBytes f.platform else 0

section Measure

variable {options} {s : Host} {r : Registry}

theorem bytesPerDevice_le (hslim : SlimFits options) (platform : Platform) (mode : DeviceMode) :
    options.bytesPerDevice ⟨platform, mode⟩ ≤ options.fullBytes platform := by
  cases mode with
  | full => exact Nat.le_refl _
  | slim => exact hslim platform

theorem ramWeight_weighs (booting : String → Bool) : Weighs (ramWeight options booting) := by
  refine weighs_onVirtual (fun v fs hid => ?_) fun v hv => ?_
  · dsimp only
    rw [hid]
  · simp [hv]

/-- What `#usedBytes` adds up is the sum of the weights. -/
theorem usedBytes_devices (c : CapacityCoordinator) (r : Registry) :
    options.usedBytes ((capacityDevices r).map c.withBoot) = total (ramWeight options c.booting) r := by
  rw [ResourceStrategyOptions.usedBytes, activeDevices, capacityDevices, ramWeight,
    ← sum_virtualDevices]
  induction virtualDevices r with
  | nil => rfl
  | cons v vs ih =>
    rw [List.map_cons, List.map_cons, List.map_cons, List.sum_cons, ← ih]
    cases hb : c.booting v.id <;> cases hv : v.state <;>
      simp [CapacityCoordinator.withBoot, hb, hv, capacityDevice,
        ResourceStrategyOptions.bytesPerDevice]

theorem booting_eq (h : Ledger s) : s.capacity.booting = bootedBy s.flows := by
  funext deviceId
  rw [CapacityCoordinator.booting, bootedBy, h.boot.any_eq, List.any_filterMap]
  rfl

/-- The reservations whose device is not registered, by their flows. -/
theorem unregistered_bytes (h : Ledger s) :
    ((s.capacity.provisioningReservations.filter fun r => (s.deviceOf r.token).isNone).map
      fun r => options.bytesPerDevice r.entry).sum = (s.flows.map (Flow.createdBytes options)).sum := by
  rw [((h.provisioning.filter _).map _).sum_eq]
  suffices hall : ∀ flows : List Flow, (∀ f ∈ flows, f ∈ s.flows) →
      (((flows.filterMap Flow.provisioningEntry).filter fun r => (s.deviceOf r.token).isNone).map
        fun r => options.bytesPerDevice r.entry).sum = (flows.map (Flow.createdBytes options)).sum from
    hall s.flows fun f hf => hf
  intro flows
  induction flows with
  | nil =>
    intro _
    rfl
  | cons f flows ih =>
    intro hin
    have hf := hin f List.mem_cons_self
    have htail := ih fun g hg => hin g (List.mem_cons_of_mem _ hg)
    rw [List.map_cons, List.sum_cons, ← htail]
    cases htarget : f.target with
    | none =>
      obtain ⟨t, ht, hentry⟩ := creating_entry (h.flows f hf) htarget
      rw [List.filterMap_cons_some hentry]
      simp [deviceOf_eq h hf ht, htarget, Flow.createdBytes, ResourceStrategyOptions.bytesPerDevice]
    | some target =>
      cases hentry : f.provisioningEntry with
      | none =>
        rw [List.filterMap_cons_none hentry]
        simp [Flow.createdBytes, htarget]
      | some r =>
        rw [List.filterMap_cons_some hentry]
        simp [deviceOf_eq h hf (provisioningEntry_token f r hentry), htarget, Flow.createdBytes]

variable (options) in
/-- The counted bytes are the measure. -/
theorem countedBytes_eq (h : Ledger s) : s.countedBytes options =
    total (ramWeight options (bootedBy s.flows)) s.registry +
      (s.flows.map (Flow.createdBytes options)).sum := by
  rw [Host.countedBytes, usedBytes_devices, booting_eq h, unregistered_bytes h]

variable (options) in
/-- An admission counts at least the measure. -/
theorem counted_le_admission (s : Host) : s.countedBytes options ≤ s.admissionBytes options := by
  have hsplit : s.admissionBytes options =
      options.usedBytes ((capacityDevices s.registry).map s.capacity.withBoot) +
        (s.capacity.provisioningReservations.map fun r => options.bytesPerDevice r.entry).sum := by
    rw [Host.admissionBytes, CapacityCoordinator.withReservations, ResourceStrategyOptions.usedBytes,
      ResourceStrategyOptions.usedBytes, activeDevices, activeDevices, List.filter_append,
      List.filter_append, List.map_append, List.sum_append]
    congr 1
    induction s.capacity.provisioningReservations with
    | nil => rfl
    | cons r rs ih =>
      rw [List.map_cons, List.map_cons, List.sum_cons, ← ih]
      simp [CapacityCoordinator.asProvisioningDevice]
  rw [hsplit, Host.countedBytes]
  refine Nat.add_le_add_left ?_ _
  exact (List.filter_sublist.map _).sum_le_sum fun _ _ => Nat.zero_le _

end Measure

/-! ### What a section changes -/

section Changes

variable {options} {o : RegistryOptions} {r : Registry} {now : Int} {writable : Bool} {w : Section}

/-- What is counted, and in the recorded mode, is no larger than the full size. -/
theorem ramWeight_le_full (hslim : SlimFits options) (booting : String → Bool) (v : VirtualDevice) :
    ramWeight options booting (.virtual v) ≤ options.fullBytes v.spec.platform := by
  have hmode := bytesPerDevice_le hslim v.spec.platform v.mode
  simp only [ramWeight, onVirtual]
  repeat' split
  all_goals omega

/-- The weight of a device that stays as it is or moves on. -/
theorem ramWeight_step (hslim : SlimFits options) (booting : String → Bool) {v v' : VirtualDevice}
    (hid : v'.id = v.id) (hplatform : v'.spec.platform = v.spec.platform)
    (hdeleted : v.state = .deleted → v'.state = .deleted)
    (hup : v.state = .shutdown → v'.state ≠ .shutdown → v'.state ≠ .deleted → booting v.id = true)
    (hprovisioning : v'.state = .provisioning → v.state = .provisioning)
    (hmode : v.state ≠ .provisioning → v.state ≠ .shutdown → booting v.id = false →
      v'.state ≠ .shutdown → v'.state ≠ .deleted → options.bytesPerDevice ⟨v.spec.platform, v'.mode⟩ ≤
        options.bytesPerDevice ⟨v.spec.platform, v.mode⟩) :
    ramWeight options booting (.virtual v') ≤ ramWeight options booting (.virtual v) := by
  have hfull := bytesPerDevice_le hslim v.spec.platform v'.mode
  simp only [ramWeight, onVirtual, hid, hplatform]
  by_cases hd' : v'.state = .deleted
  · simp [hd']
  · have hd : v.state ≠ .deleted := fun hd => hd' (hdeleted hd)
    rw [if_neg hd', if_neg hd]
    cases hb : booting v.id with
    | true => simp
    | false =>
      simp only [Bool.false_eq_true, if_false]
      by_cases hs' : v'.state = .shutdown
      · simp [hs']
      · have hs : v.state ≠ .shutdown := by
          intro hs
          rw [hup hs hs' hd'] at hb
          cases hb
        rw [if_neg hs', if_neg hs]
        by_cases hp : v.state = .provisioning
        · rw [if_pos hp]
          split <;> omega
        · rw [if_neg hp, if_neg fun hp' => hp (hprovisioning hp')]
          exact hmode hp hs hb hs' hd'

/-- A section raises the bytes by the device it registers only. -/
theorem after_ram (o : RegistryOptions) (now : Int) (writable : Bool) (hslim : SlimFits options)
    (booting : String → Bool) (h : DevicesOk r) (htyped : w.Typed r)
    (hup : w.checks r = true → ∀ v, r.device v.id = some (.virtual v) → w.starts = some v.id →
      v.state = .shutdown → booting v.id = true)
    (hreboot : ∀ v driverDeviceId ready, r.device v.id = some (.virtual v) →
      w = .commitReboot v.id driverDeviceId ready →
        options.bytesPerDevice ⟨v.spec.platform, ready.mode⟩ ≤
          options.bytesPerDevice ⟨v.spec.platform, v.mode⟩) :
    total (ramWeight options booting) (w.after o r now writable) ≤
        total (ramWeight options booting) r ∨
      ∃ id driverDeviceId spec driverData, w = .register id driverDeviceId spec driverData ∧
        total (ramWeight options booting) (w.after o r now writable) ≤
          total (ramWeight options booting) r + options.fullBytes spec.platform := by
  rcases @Section.after_total o r now writable h w _ (ramWeight_weighs booting) with
    hsame | ⟨hchecks, d, d', hd, hstep, hdevice, hmode, hturns, htotal⟩ | ⟨d, hadds, htotal⟩
  · exact .inl (Nat.le_of_eq hsame)
  · left
    have hle : ramWeight options booting d' ≤ ramWeight options booting d := by
      cases d with
      | physical p =>
        cases d' with
        | physical p' => exact Nat.le_refl _
        | virtual v' => cases hstep.isPhysical
      | virtual v =>
        obtain ⟨v', rfl, hid, hplatform, hdeleted⟩ := step_virtual hstep
        refine ramWeight_step hslim booting hid hplatform hdeleted ?_ ?_ ?_
        · intro hs hs' hd'
          have hne : ∀ state, v'.state ≠ state → v'.state.toState ≠ state.toState :=
            fun state hne he => hne (toState_injective he)
          rcases turns_started hdevice htyped hturns (hne .shutdown hs') (hne .deleted hd') with
            hsame | hran | hstarts
          · rw [hs] at hsame
            exact absurd (toState_injective hsame) hs'
          · rw [hs] at hran
            cases hran
          · exact hup hchecks v hd hstarts hs
        · intro hp
          rw [Device.state, hp] at hturns
          exact turns_provisioning hturns
        · intro hp hs hb hs' hd'
          rcases hmode with hsame | ⟨m, hm, hnew⟩
          · rw [Option.some.inj hsame]
          · have hnew : v'.mode = m := Option.some.inj hnew
            cases w with
            | commitReady deviceId driverDeviceId expected ready =>
              -- a boot starts from one of the two states
              have hstate : v.state = expected := by
                have hid : v.id = deviceId := hdevice deviceId rfl
                subst hid
                have hd : r.device v.id = some (.virtual v) := hd
                simp only [Section.checks, registeredTarget, hd] at hchecks
                simp only [Bool.and_eq_true, List.contains_cons, List.contains_nil, Bool.or_false,
                  beq_iff_eq] at hchecks
                exact hchecks.1.2
              rcases htyped with rfl | rfl
              · exact absurd hstate hp
              · exact absurd hstate hs
            | commitReboot deviceId driverDeviceId ready =>
              cases hm
              have hid : v.id = deviceId := hdevice deviceId rfl
              rw [hnew]
              exact hreboot v driverDeviceId ready hd (by rw [hid])
            | _ => cases hm
    omega
  · cases w with
    | register id driverDeviceId spec driverData =>
      obtain ⟨v, rfl, -, -, hspec, -⟩ := hadds
      have hle := ramWeight_le_full hslim booting v
      rw [hspec] at hle
      refine .inr ⟨id, driverDeviceId, spec, driverData, rfl, ?_⟩
      omega
    | enroll id input =>
      obtain ⟨p, rfl, -⟩ := hadds
      exact .inl (Nat.le_of_eq htotal)
    | _ => exact absurd hadds id

end Changes

/-! ### Steps -/

/-- The measure is within the limit. -/
structure BudgetInv (totalRamBytes : Nat) (s : Host) : Prop where
  devices : DevicesOk s.registry
  ledger : Ledger s
  limit : ((total (ramWeight options (bootedBy s.flows)) s.registry +
    (s.flows.map (Flow.createdBytes options)).sum : Nat) : Int) ≤ limitBytes totalRamBytes

section Steps

variable {options} {o : RegistryOptions} {totalRamBytes : Nat} {s : Host}

/-- A boot reservation that is given up leaves its device at its own size. -/
theorem ramWeight_mono (hslim : SlimFits options) {booting booting' : String → Bool} {r : Registry}
    (h : ∀ id, booting' id = true → booting id = true) :
    total (ramWeight options booting') r ≤ total (ramWeight options booting) r := by
  refine total_le fun d _ => ?_
  cases d with
  | physical p => exact Nat.le_refl _
  | virtual v =>
    have hfull := bytesPerDevice_le hslim v.spec.platform v.mode
    have hv := h v.id
    simp only [ramWeight, onVirtual]
    by_cases hdeleted : v.state = .deleted
    · simp [hdeleted]
    · rw [if_neg hdeleted, if_neg hdeleted]
      cases hb : booting v.id with
      | true =>
        simp only [if_true]
        repeat' split
        all_goals omega
      | false =>
        have hb' : booting' v.id = false := by
          rw [← Bool.not_eq_true]
          intro hb'
          rw [hv hb'] at hb
          cases hb
        simp [hb']

/-- A step of a flow boots no other device, and creates no other. -/
theorem next_booted {f : Flow} {n : Next} (hkeeps : Keeps f n) {flows : List Flow} (hf : f ∈ flows)
    (deviceId : String) (h : bootedBy (n.flow.toList ++ flows.erase f) deviceId = true) :
    bootedBy flows deviceId = true := by
  rw [bootedBy, List.any_append, Bool.or_eq_true] at h
  rcases h with h | h
  · obtain ⟨f', hf', hboots⟩ := List.any_eq_true.mp h
    have hflow := Option.mem_toList.mp hf'
    obtain ⟨hjob, -, -⟩ := hkeeps.same f' hflow
    refine List.any_eq_true.mpr ⟨f, hf, ?_⟩
    have htarget : f.job = .boot → f'.target = f.target := by
      intro hboot
      rcases hkeeps.target f' hflow with hsame | ⟨_, _, _, _, _, hprovision, -⟩
      · exact hsame
      · rw [hboot] at hprovision
        cases hprovision
    have hreservation : f'.reservation = f.reservation ∨ f'.reservation = none := by
      rcases hkeeps.reservation with ⟨-, hr⟩ | ⟨-, hr⟩
      · rw [hflow] at hr
        exact .inl hr
      · rw [hflow] at hr
        exact .inr hr
    rw [Flow.bootEntry, hjob] at hboots
    rw [Flow.bootEntry]
    split at hboots
    · rename_i hboot
      rw [htarget hboot] at hboots
      rw [if_pos hboot]
      rcases hreservation with hr | hr
      · rwa [hr] at hboots
      · rw [hr] at hboots
        cases hboots
    · cases hboots
  · obtain ⟨g, hg, hboots⟩ := List.any_eq_true.mp h
    exact List.any_eq_true.mpr ⟨g, List.mem_of_mem_erase hg, hboots⟩

variable (options) in
theorem next_created {f : Flow} {n : Next} (hkeeps : Keeps f n) {flows : List Flow} (hf : f ∈ flows) :
    ((n.flow.toList ++ flows.erase f).map (Flow.createdBytes options)).sum ≤
        (flows.map (Flow.createdBytes options)).sum ∧
      ((∀ f', n.flow = some f' → f'.target.isSome) →
        ((n.flow.toList ++ flows.erase f).map (Flow.createdBytes options)).sum +
          f.createdBytes options = (flows.map (Flow.createdBytes options)).sum) := by
  have hperm := ((List.perm_cons_erase hf).map (Flow.createdBytes options)).sum_eq
  rw [List.map_cons, List.sum_cons] at hperm
  rw [hperm, List.map_append, List.sum_append]
  cases hflow : n.flow with
  | none => simp [Nat.add_comm]
  | some f' =>
    obtain ⟨-, hplatform, -⟩ := hkeeps.same f' hflow
    simp only [Option.toList_some, List.map_cons, List.map_nil, List.sum_cons, List.sum_nil]
    refine ⟨?_, fun hsome => ?_⟩
    · have hle : f'.createdBytes options ≤ f.createdBytes options := by
        rw [Flow.createdBytes, Flow.createdBytes, hplatform]
        rcases hkeeps.target f' hflow with hsame | ⟨_, _, _, _, _, -, -, -, htarget⟩
        · rw [hsame]
        · rw [htarget]
          exact Nat.zero_le _
      omega
    · have hzero : f'.createdBytes options = 0 := by
        have htarget := hsome f' rfl
        rw [Flow.createdBytes, Option.isNone_eq_false_iff.mpr htarget]
        rfl
      omega

/-- The sections of a flow keep to what was admitted for it. -/
theorem BudgetInv.after_flow (h : BudgetInv options totalRamBytes s) (hslim : SlimFits options)
    {f : Flow} (hf : f ∈ s.flows) {n : Next} {w : Section} (hw : n.section_ = some w)
    (hruns : Runs f n w) (htyped : w.Typed s.registry) (hsized : Sized options s w) (now : Int)
    (writable : Bool) :
    total (ramWeight options (bootedBy s.flows)) (w.after o s.registry now writable) ≤
        total (ramWeight options (bootedBy s.flows)) s.registry ∨
      (total (ramWeight options (bootedBy s.flows)) (w.after o s.registry now writable) ≤
          total (ramWeight options (bootedBy s.flows)) s.registry + f.createdBytes options ∧
        ∀ f', n.flow = some f' → f'.target.isSome) := by
  have hok := h.ledger.flows f hf
  have hup : w.checks s.registry = true → ∀ v, s.registry.device v.id = some (.virtual v) →
      w.starts = some v.id → v.state = .shutdown → bootedBy s.flows v.id = true := by
    intro hchecks v hd hstarts hs
    cases w with
    | commitReady deviceId driverDeviceId expected ready =>
      cases hruns with
      | @ready t _ _ htarget hpoint hjob =>
        have hid : t.deviceId = v.id := Option.some.inj hstarts
        simp only [Section.checks, registeredTarget, hid, hd, Bool.and_eq_true, List.contains_cons,
          List.contains_nil, Bool.or_false, beq_iff_eq] at hchecks
        rcases hjob with ⟨-, rfl⟩ | ⟨hboot, -⟩
        · rw [hs] at hchecks
          cases hchecks.1.2
        · -- a boot that works on its device holds its reservation
          refine List.any_eq_true.mpr ⟨f, hf, ?_⟩
          rcases hok.held (.inr hboot) with hsome | hpast
          · obtain ⟨token, htoken⟩ := Option.isSome_iff_exists.mp hsome
            simp [Flow.bootEntry, hboot, htoken, htarget, hid]
          · rw [hpoint] at hpast
            cases hpast
    | enterFromStalledTransition deviceId findingState nextRetryAt cause =>
      cases hstarts
      rw [← booting_eq h.ledger]
      exact hsized v hd hs
    | enterQuarantine deviceId nextRetryAt cause => cases hruns
    | fixRunning deviceId => cases hruns
    | _ => cases hstarts
  have hreboot : ∀ v driverDeviceId ready, s.registry.device v.id = some (.virtual v) →
      w = .commitReboot v.id driverDeviceId ready →
        options.bytesPerDevice ⟨v.spec.platform, ready.mode⟩ ≤
          options.bytesPerDevice ⟨v.spec.platform, v.mode⟩ := by
    rintro v driverDeviceId ready hd rfl
    exact hsized v hd
  rcases after_ram o now writable hslim (bootedBy s.flows) h.devices htyped hup hreboot with
    hle | ⟨id, driverDeviceId, spec, driverData, rfl, hle⟩
  · exact .inl hle
  · right
    cases hruns with
    | @register spec _ _ version _ hjob hpoint hflow =>
      refine ⟨?_, fun f' hf' => by rw [hflow f' hf']; rfl⟩
      have hcreated : f.createdBytes options = options.fullBytes spec.platform := by
        rw [Flow.createdBytes, (hok.creating hpoint).2, hok.platform spec hjob]
        rfl
      rw [hcreated]
      exact hle

theorem BudgetInv.take (h : BudgetInv options totalRamBytes s) (hslim : SlimFits options) {f : Flow}
    (hf : f ∈ s.flows) {m : Move} {now : Int} {writable : Bool}
    (hadmits : s.Admits o (.advance f m now writable))
    (hsizes : KeepsSizes options o s (.advance f m now writable)) :
    BudgetInv options totalRamBytes (s.take o f (f.next o s now writable m) now writable) := by
  have hkeeps := next_keeps o s (h.ledger.flows f hf) now writable m
  have hruns : ∀ w, (f.next o s now writable m).section_ = some w →
      Runs f (f.next o s now writable m) w := fun w hw => next_runs hw
  have hledger := h.ledger.take (o := o) hf hkeeps now writable
  generalize hn : f.next o s now writable m = n at hkeeps hruns hledger
  obtain ⟨hcreated, hregisters⟩ := next_created options hkeeps hf
  have hmono := @ramWeight_mono options hslim (bootedBy s.flows)
    (bootedBy (n.flow.toList ++ s.flows.erase f)) (s.take o f n now writable).registry
    (next_booted hkeeps hf)
  have hlimit := h.limit
  cases hsection : n.section_ with
  | none =>
    simp only [Host.take, hsection, Option.map_none, Option.getD_none] at hmono
    refine ⟨?_, hledger, ?_⟩
    · simp only [Host.take, hsection, Option.map_none, Option.getD_none]
      exact h.devices
    · simp only [Host.take, hsection, Option.map_none, Option.getD_none]
      omega
  | some w =>
    obtain ⟨hnew, htyped⟩ := hadmits w (hn ▸ hsection)
    have hsized := hsizes w (hn ▸ hsection)
    have hafter := h.after_flow (o := o) hslim hf hsection (hruns w hsection) htyped hsized now writable
    simp only [Host.take, hsection, Option.map_some, Option.getD_some] at hmono
    refine ⟨?_, hledger, ?_⟩
    · simp only [Host.take, hsection, Option.map_some, Option.getD_some]
      exact Section.after_ok h.devices fun id physical hadds => (hnew id physical hadds).1
    · simp only [Host.take, hsection, Option.map_some, Option.getD_some]
      rcases hafter with hle | ⟨hle, hsome⟩
      · omega
      · have := hregisters hsome
        omega

/-- A flow that boots nothing. -/
theorem bootedBy_cons_none {f : Flow} (h : f.bootEntry = none) (flows : List Flow) :
    bootedBy (f :: flows) = bootedBy flows := by
  funext deviceId
  rw [bootedBy, List.any_cons, h]
  rfl

/-- The boot of a device that is admitted adds its full size. -/
theorem boot_bytes (hslim : SlimFits options) (h : DevicesOk s.registry) {v : VirtualDevice} {f : Flow}
    (hd : s.registry.device v.id = some (.virtual v))
    (hboots : ∀ r, f.bootEntry = some r → r.entry = v.id) :
    total (ramWeight options (bootedBy (f :: s.flows))) s.registry ≤
      total (ramWeight options (bootedBy s.flows)) s.registry + options.fullBytes v.spec.platform := by
  have hone := total_at_le h.nodup v.id (options.fullBytes v.spec.platform)
  have hle : total (ramWeight options (bootedBy (f :: s.flows))) s.registry ≤ total (fun d =>
      ramWeight options (bootedBy s.flows) d +
        if d.id = v.id then options.fullBytes v.spec.platform else 0) s.registry := by
    refine total_le fun d hmem => ?_
    cases d with
    | physical p => exact Nat.zero_le _
    | virtual u =>
      by_cases hid : u.id = v.id
      · have hsame : Device.virtual u = .virtual v := by
          have hu := Registry.device_of_mem h.nodup hmem
          have hu : s.registry.device u.id = some (.virtual u) := hu
          rw [hid, hd] at hu
          exact (Option.some.inj hu).symm
        cases hsame
        have hfull := ramWeight_le_full hslim (bootedBy (f :: s.flows)) v
        have hid : (Device.virtual v).id = v.id := rfl
        rw [if_pos hid]
        omega
      · have hother : bootedBy (f :: s.flows) u.id = bootedBy s.flows u.id := by
          rw [bootedBy, List.any_cons]
          cases hentry : f.bootEntry with
          | none => rfl
          | some r => simp [hboots r hentry, Ne.symm hid, bootedBy]
        have hsame : ramWeight options (bootedBy (f :: s.flows)) (.virtual u) =
            ramWeight options (bootedBy s.flows) (.virtual u) := by
          simp only [ramWeight, onVirtual, hother]
        omega
  have hsum : total (fun d => ramWeight options (bootedBy s.flows) d +
      if d.id = v.id then options.fullBytes v.spec.platform else 0) s.registry =
      total (ramWeight options (bootedBy s.flows)) s.registry +
        total (fun d => if d.id = v.id then options.fullBytes v.spec.platform else 0) s.registry :=
    List.sum_map_add
  omega

theorem BudgetInv.step (h : BudgetInv options totalRamBytes s) (hslim : SlimFits options) {s' : Host}
    {a : HostAction} (hstep : Stepped o (.resource options totalRamBytes) s a s')
    (hadmits : s.Admits o a) (hsizes : KeepsSizes options o s a) :
    BudgetInv options totalRamBytes s' := by
  have hledger := h.ledger.step hstep
  have hlimit := h.limit
  have hcounted := countedBytes_eq options h.ledger
  have hadmission := counted_le_admission options s
  cases hstep with
  | idle => exact h
  | @provision spec owner paused capacity hok =>
    refine ⟨h.devices, hledger, ?_⟩
    obtain ⟨-, hcan, -⟩ := tryReserveProvisioning_ok hok
    have hfits := canProvision_bytes hcan
    have hbytes : options.bytesPerDevice (plannedCapacityDevice spec) =
        options.fullBytes spec.platform := rfl
    have hfull : s.admissionBytes options = options.usedBytes
        (s.capacity.withReservations (capacityDevices s.registry)) := rfl
    simp only [List.map_cons, List.sum_cons]
    rw [bootedBy_cons_none rfl]
    simp only [Flow.createdBytes, Option.isNone_none, if_true]
    omega
  | @boot deviceId owner paused v capacity hd hshutdown hfree hok =>
    refine ⟨h.devices, hledger, ?_⟩
    obtain ⟨-, hcan, -⟩ := tryReserveBoot_ok hok
    have hid : v.id = deviceId := (Registry.device_mem hd).2
    subst hid
    have hbytes := boot_bytes (s := s) (f := flowOf .boot owner (.virtual v) (some s.next)
      (some s.next)) hslim h.devices hd (by rintro r ⟨⟩; rfl)
    have hfull : s.admissionBytes options = options.usedBytes
        (s.capacity.withReservations (capacityDevices s.registry)) := rfl
    have hplatform : (capacityDevice v).platform = v.spec.platform := rfl
    have hzero : (flowOf .boot owner (.virtual v) (some s.next) (some s.next)).createdBytes options =
        0 := rfl
    simp only [Host.claimFor, List.map_cons, List.sum_cons, hzero]
    rcases canBoot_bytes (by rw [capacityDevice, hshutdown]) hcan with hnothing | hfits
    · rw [hplatform] at hnothing
      omega
    · rw [hplatform] at hfits
      omega
  | @claimed a deviceId operation claimOwner job owner d hd hfree hoperation hjob =>
    refine ⟨h.devices, hledger, ?_⟩
    have hnone : (flowOf job (some owner) d none (some s.next)).bootEntry = none :=
      entry_none bootEntry_token rfl
    have hzero : (flowOf job (some owner) d none (some s.next)).createdBytes options = 0 := rfl
    simp only [Host.claimFor, List.map_cons, List.sum_cons, hzero]
    rw [bootedBy_cons_none hnone, Nat.zero_add]
    exact hlimit
  | advanced hf => exact h.take hslim hf hadmits hsizes
  | @other w now writable hw =>
    refine ⟨Section.after_ok h.devices fun id physical hadds => (hadmits.1 id physical hadds).1,
      hledger, ?_⟩
    have hup : w.checks s.registry = true → ∀ v, s.registry.device v.id = some (.virtual v) →
        w.starts = some v.id → v.state = .shutdown → bootedBy s.flows v.id = true := by
      intro hchecks v hd hstarts hs
      rw [← booting_eq h.ledger]
      cases w with
      | commitReady deviceId driverDeviceId expected ready => cases hw
      | enterQuarantine deviceId nextRetryAt cause =>
        cases hstarts
        exact hsizes v hd hs
      | enterFromStalledTransition deviceId findingState nextRetryAt cause =>
        cases hstarts
        exact hsizes v hd hs
      | fixRunning deviceId =>
        cases hstarts
        exact hsizes v hd hs
      | _ => cases hstarts
    have hreboot : ∀ v driverDeviceId ready, s.registry.device v.id = some (.virtual v) →
        w = .commitReboot v.id driverDeviceId ready →
          options.bytesPerDevice ⟨v.spec.platform, ready.mode⟩ ≤
            options.bytesPerDevice ⟨v.spec.platform, v.mode⟩ := by
      rintro v driverDeviceId ready hd rfl
      cases hw
    rcases after_ram o now writable hslim (bootedBy s.flows) h.devices hadmits.2 hup hreboot with
      hle | ⟨id, driverDeviceId, spec, driverData, rfl, -⟩
    · dsimp only
      omega
    · cases hw
  | takes hplanned hfree => exact ⟨h.devices, hledger, h.limit⟩
  | gives hown => exact ⟨h.devices, hledger, h.limit⟩

end Steps

/-- From any registry within the budget, in every run that takes up no shut-down device without a boot
    reservation and reboots into no larger mode, the devices with those still to be made stay within
    the budget. -/
theorem ram_within_budget (o : RegistryOptions) (options : ResourceStrategyOptions)
    (totalRamBytes : Nat) (hslim : SlimFits options) (store : Store) (hstore : store.Reached o)
    (hstart : WithinBudget options totalRamBytes (Host.start store.registry)) (acts : List HostAction)
    (hrun : AllSteps (Host.step o (.resource options totalRamBytes))
      (fun s a => s.Admits o a ∧ KeepsSizes options o s a) (Host.start store.registry) acts) :
    WithinBudget options totalRamBytes
      (run (Host.step o (.resource options totalRamBytes)) (Host.start store.registry) acts) := by
  have hinv := run_invariant_of_allSteps (I := BudgetInv options totalRamBytes)
    (fun s a hadmits h => h.step hslim (step_stepped o _ s a) hadmits.1 hadmits.2) acts
    (Host.start store.registry) ⟨hstore.ok.ok.devicesOk, Ledger.start _, ?_⟩ hrun
  · rw [WithinBudget, countedBytes_eq _ hinv.ledger]
    exact hinv.limit
  · rw [WithinBudget, countedBytes_eq _ (Ledger.start _)] at hstart
    exact hstart

/-! ### A device that counts twice -/

/-- A simulator takes three bytes, or one when it is slim. -/
def threeBytes : ResourceStrategyOptions := ⟨⟨4, ⟨4, 4⟩, ⟨4, 4⟩⟩, ⟨3, some 1, 3, none⟩⟩

/-- The machine has room for one full simulator. -/
def roomForOne : Nat := osRamReserveBytes + 3

/-- A request plans a simulator and the driver makes it. -/
def registered : List HostAction :=
  [.planProvision iphoneSpec (some "req_1") false true,
    .advance creating (.register "dev_1" "udid_1" 0 iphoneData) 1 true]

theorem registered_admitted :
    AllSteps (Host.step shortRetention (.resource threeBytes roomForOne))
      (fun s a => s.Admits shortRetention a ∧ KeepsSizes threeBytes shortRetention s a)
      (Host.start Registry.empty) registered := by
  refine ⟨⟨trivial, trivial⟩, ⟨?_, ?_⟩, trivial⟩
  · rintro w ⟨⟩
    refine ⟨?_, trivial⟩
    rintro id physical ⟨⟩
    constructor
    · decide +kernel
    · decide +kernel
  · rintro w ⟨⟩
    trivial

theorem ram_within_budget_registered :
    (run (Host.step shortRetention (.resource threeBytes roomForOne)) (Host.start Registry.empty)
      registered).countedBytes threeBytes = 3 ∧
    WithinBudget threeBytes roomForOne
      (run (Host.step shortRetention (.resource threeBytes roomForOne)) (Host.start Registry.empty)
        registered) := by
  refine ⟨by decide +kernel, ?_⟩
  refine ram_within_budget shortRetention threeBytes roomForOne ?_ (Store.create 0)
    ⟨0, [], trivial, rfl⟩ ?_ registered registered_admitted
  · intro platform
    cases platform <;> decide
  · rw [WithinBudget]
    decide +kernel

/-! ### What goes past the budget -/

/-- A device that booted slim is rebooted for a lease and records that it is full. -/
def rebootedFull : List HostAction :=
  [.planProvision iphoneSpec (some "req_1") false true,
    .advance creating (.register "dev_1" "udid_1" 0 iphoneData) 1 true,
    .advance (provisioned .planned) .go 1 true,
    .advance (provisioned .working) (.ready ⟨"udid_1", iphoneData, .slim⟩) 2 true,
    .advance (provisioned .made) .go 2 true,
    .advance handedOff .go 3 true,
    .planProvision iphoneSpec (some "req_2") false true,
    .planReboot "dev_1" "req_3" false true,
    .advance ⟨.reboot, some "req_3", .ios, some ⟨"dev_1", "udid_1"⟩, none, some 7, none, .planned⟩
      .go 4 true,
    .advance ⟨.reboot, some "req_3", .ios, some ⟨"dev_1", "udid_1"⟩, none, some 7, none, .working⟩
      (.ready ⟨"udid_1", iphoneData, .full⟩) 5 true]

/-- Slim devices that are larger than full ones. -/
def largeSlim : ResourceStrategyOptions := ⟨⟨4, ⟨4, 4⟩, ⟨4, 4⟩⟩, ⟨1, some 3, 3, none⟩⟩

def bootedSlim : List HostAction :=
  [.planProvision iphoneSpec (some "req_1") false true,
    .advance creating (.register "dev_1" "udid_1" 0 iphoneData) 1 true,
    .advance (provisioned .planned) .go 1 true,
    .advance (provisioned .working) (.ready ⟨"udid_1", iphoneData, .slim⟩) 2 true]

/-- The device and the reservation that is still held for it come to twice its size; and the three
    runs in which a step without an admission adds bytes. -/
theorem ram_budget_exceeded :
    (AllSteps (Host.step shortRetention (.resource threeBytes roomForOne))
      (fun s a => s.Admits shortRetention a ∧ KeepsSizes threeBytes shortRetention s a)
      (Host.start Registry.empty) registered ∧
    ((Host.start Registry.empty).admissionBytes threeBytes : Int) ≤ limitBytes roomForOne ∧
    ¬ ((run (Host.step shortRetention (.resource threeBytes roomForOne)) (Host.start Registry.empty)
      registered).admissionBytes threeBytes : Int) ≤ limitBytes roomForOne) ∧
    ¬ WithinBudget threeBytes (osRamReserveBytes + 4)
      (run (Host.step shortRetention (.resource threeBytes (osRamReserveBytes + 4)))
        (Host.start Registry.empty) rebootedFull) ∧
    ¬ WithinBudget threeBytes roomForOne
      (run (Host.step shortRetention (.resource threeBytes roomForOne)) (Host.start Registry.empty)
        failedDelete) ∧
    ¬ WithinBudget largeSlim (osRamReserveBytes + 1)
      (run (Host.step shortRetention (.resource largeSlim (osRamReserveBytes + 1)))
        (Host.start Registry.empty) bootedSlim) := by
  refine ⟨⟨registered_admitted, ?_, ?_⟩, ?_, ?_, ?_⟩
  · decide +kernel
  · decide +kernel
  · rw [WithinBudget]
    decide +kernel
  · rw [WithinBudget]
    decide +kernel
  · rw [WithinBudget]
    decide +kernel

end Simlock.Worker
