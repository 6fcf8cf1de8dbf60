import Simlock.Worker.DeviceLimit
import Simlock.Worker.Exclusive

/-! The running limit: the virtual devices that run, with the reservations of devices that do not run
    yet, stay within the limit of each platform and of the worker.

    A slot is admitted by a reservation and taken over by the device when it runs. The measure counts
    every reservation, and every running device that none is held for; a boot moves a device into the
    measure under its own reservation. What does not go through an admission are the devices that enter
    quarantine after their slot was given up, and a shut-down device that doctor finds running. -/

namespace Simlock.Worker

open Simlock.Lib Simlock.Core

/-- A limit is one platform's or the worker's. -/
def covers (scope : Option Platform) (platform : Platform) : Bool := scope.all (platform = ·)

def maxRunning (strategy : CapacityStrategy) (scope : Option Platform) : Nat :=
  (scope.map fun p => (strategy.limits.platform p).maxRunning).getD strategy.limits.maxRunning

/-- The virtual devices that run. -/
def runningCount (r : Registry) (scope : Option Platform) : Nat :=
  (virtualDevices r).countP fun v => isRunning (.registered v.state) && covers scope v.spec.platform

/-- The device is a virtual one that runs. -/
def runs (r : Registry) (deviceId : String) : Bool :=
  (r.device deviceId).any fun
    | .virtual v => isRunning (.registered v.state)
    | .physical _ => false

/-- The boot and provisioning reservations whose device is not itself counted as running. -/
def Host.reservedCount (s : Host) (scope : Option Platform) : Nat :=
  (s.capacity.provisioningReservations.countP fun r =>
      covers scope r.entry.platform && !(s.deviceOf r.token).any (runs s.registry)) +
    s.capacity.runningReservations.countP fun r =>
      covers scope r.entry && !(s.deviceOf r.token).any (runs s.registry)

def WithinRunningLimit (strategy : CapacityStrategy) (s : Host) : Prop :=
  ∀ scope, runningCount s.registry scope + s.reservedCount scope ≤ maxRunning strategy scope

/-! ### The measure -/

/-- The flow holds a reservation for the device. -/
def Flow.reserves (deviceId : String) (f : Flow) : Bool :=
  f.reservation.isSome && f.target.any fun t => t.deviceId = deviceId

/-- Some flow holds a reservation for the device. -/
def reservedBy (flows : List Flow) (deviceId : String) : Bool := flows.any (Flow.reserves deviceId)

/-- The flow holds a reservation in the scope. -/
def Flow.reservesIn (scope : Option Platform) (f : Flow) : Bool :=
  f.reservation.isSome && covers scope f.platform

/-- A running device that no reservation is held for weighs one. -/
def loneWeight (reserves : String → Bool) (scope : Option Platform) : Device → Nat :=
  onVirtual fun v =>
    if isRunning (.registered v.state) && covers scope v.spec.platform && !reserves v.id then 1
    else 0

/-- A device that enters quarantine from `shutdown` or `provisioning`, or that doctor records as
    running, still has its reservation, or there is a free slot for it. -/
def Roomy (strategy : CapacityStrategy) (s : Host) (w : Section) : Prop :=
  match w with
  | .enterQuarantine deviceId _ _ | .enterFromStalledTransition deviceId _ _ _
  | .fixRunning deviceId =>
    ∀ v, s.registry.device deviceId = some (.virtual v) → isRunning (.registered v.state) = false →
      reservedBy s.flows deviceId = true ∨
        s.capacity.canReserveRunning strategy v.spec.platform (capacityDevices s.registry) = none
  | _ => True

/-- Every section of the action that takes a running slot finds one. -/
def KeepsSlots (o : RegistryOptions) (strategy : CapacityStrategy) (s : Host) : HostAction → Prop
  | .advance f m now writable => ∀ w, (f.next o s now writable m).section_ = some w →
    Roomy strategy s w
  | .other w _ _ => Roomy strategy s w
  | _ => True

section Measure

variable {s : Host} {scope : Option Platform}

theorem loneWeight_weighs (reserves : String → Bool) (scope : Option Platform) :
    Weighs (loneWeight reserves scope) := by
  refine weighs_onVirtual (fun v fs hid => ?_) fun v hv => ?_
  · dsimp only
    rw [hid]
  · simp [hv, isRunning]

/-- What the coordinator's admission counts bounds the measure. -/
theorem lone_le_running (r : Registry) (reserves : String → Bool) (scope : Option Platform) :
    total (loneWeight reserves scope) r ≤ runningCount r scope := by
  rw [runningCount, countP_virtualDevices]
  refine total_le fun d _ => ?_
  cases d with
  | physical p => exact Nat.le_refl _
  | virtual v =>
    simp only [loneWeight, onVirtual]
    split
    · rename_i h
      rw [Bool.and_eq_true] at h
      rw [if_pos h.1]
    · exact Nat.zero_le _

/-- A flow is in one of the two lists, and only if it holds a reservation. -/
theorem entry_reservesIn {f : Flow} (hok : FlowOk f) (scope : Option Platform) (q : Nat → Bool) :
    (if (f.provisioningEntry.map fun r => covers scope r.entry.platform && q r.token).getD false
      then 1 else 0) +
      (if (f.runningEntry.map fun r => covers scope r.entry && q r.token).getD false
        then 1 else 0) =
      if f.reservesIn scope && f.reservation.any q then 1 else 0 := by
  cases hr : f.reservation with
  | none =>
    rw [entry_none provisioningEntry_token hr, entry_none runningEntry_token hr, Flow.reservesIn, hr]
    rfl
  | some t =>
    rcases hok.holder (by rw [hr]; rfl) with hp | hb
    · have hboot : f.job ≠ .boot := by
        intro hb
        rw [Flow.provisions, hb] at hp
        cases hp
      simp [Flow.provisioningEntry, Flow.runningEntry, Flow.reservesIn, hp, hr, hboot]
    · have hp : f.provisions = false := by rw [Flow.provisions, hb]
      simp [Flow.provisioningEntry, Flow.runningEntry, Flow.reservesIn, hp, hr, hb]

/-- The two lists of reservations, counted by their flows. -/
theorem entries_count (h : Ledger s) (scope : Option Platform) (q : Nat → Bool) :
    (s.capacity.provisioningReservations.countP fun r =>
        covers scope r.entry.platform && q r.token) +
      (s.capacity.runningReservations.countP fun r => covers scope r.entry && q r.token) =
      s.flows.countP fun f => f.reservesIn scope && f.reservation.any q := by
  rw [h.provisioning.countP_eq, h.running.countP_eq, List.countP_filterMap, List.countP_filterMap]
  have hflows := h.flows
  clear h
  generalize s.flows = flows at hflows ⊢
  induction flows with
  | nil => rfl
  | cons f flows ih =>
    have hone := entry_reservesIn (hflows f List.mem_cons_self) scope q
    have htail := ih fun g hg => hflows g (List.mem_cons_of_mem _ hg)
    rw [List.countP_cons, List.countP_cons, List.countP_cons]
    omega

theorem reservations_count (h : Ledger s) (scope : Option Platform) :
    (s.capacity.allRunningReservations.countP fun p => covers scope p) =
      s.flows.countP (Flow.reservesIn scope) := by
  have hcount := entries_count h scope fun _ => true
  rw [CapacityCoordinator.allRunningReservations, List.countP_append, List.countP_map,
    List.countP_map]
  simp only [Bool.and_true] at hcount
  refine hcount.trans (List.countP_congr fun f _ => ?_)
  cases hr : f.reservation <;> simp [Flow.reservesIn, hr]

/-- What admission found free is free in the measure. -/
theorem room_of_canReserve (h : Ledger s) {strategy : CapacityStrategy} {platform : Platform}
    (hcan : s.capacity.canReserveRunning strategy platform (capacityDevices s.registry) = none)
    (reserves : String → Bool) (hscope : covers scope platform = true) :
    total (loneWeight reserves scope) s.registry + s.flows.countP (Flow.reservesIn scope) <
      maxRunning strategy scope := by
  obtain ⟨hplatform, hglobal⟩ := canReserveRunning_none hcan
  have hlone := lone_le_running s.registry reserves scope
  have hreserved := reservations_count h scope
  rw [runningCount] at hlone
  rw [capacityDevices, List.countP_map] at hplatform hglobal
  cases scope with
  | none =>
    simp only [covers, Option.all_none, Bool.and_true, List.countP_true] at hlone hreserved
    simp only [Function.comp_def, capacityDevice] at hglobal
    simp only [maxRunning, Option.map_none, Option.getD_none]
    omega
  | some p =>
    obtain rfl : platform = p := by simpa [covers] using hscope
    simp only [covers, Option.all_some] at hlone hreserved
    have hrunning : (virtualDevices s.registry).countP ((fun d : CapacityDevice =>
        isRunning d.state && decide (d.platform = platform)) ∘ capacityDevice) =
        (virtualDevices s.registry).countP fun v =>
          isRunning (.registered v.state) && decide (v.spec.platform = platform) := by
      refine List.countP_congr fun v _ => ?_
      simp [capacityDevice]
      exact fun _ => decide_eq_true_iff
    simp only [maxRunning, Option.map_some, Option.getD_some]
    omega

end Measure

/-! ### What a section and a flow change -/

/-- A device of the id that is not of the platform. -/
def strayWeight (deviceId : String) (platform : Platform) : Device → Nat :=
  onVirtual fun v =>
    if v.id = deviceId && v.state ≠ .deleted && v.spec.platform ≠ platform then 1 else 0

section Changes

variable {o : RegistryOptions} {r : Registry} {s : Host} {now : Int} {writable : Bool} {w : Section}
  {scope : Option Platform} {reserves reserves' : String → Bool}

theorem strayWeight_weighs (deviceId : String) (platform : Platform) :
    Weighs (strayWeight deviceId platform) := by
  refine weighs_onVirtual (fun v fs hid => ?_) fun v hv => ?_
  · dsimp only
    rw [hid]
  · simp [hv]

theorem strayWeight_le {d d' : Device} (hstep : DeviceStep d d') (deviceId : String)
    (platform : Platform) : strayWeight deviceId platform d' ≤ strayWeight deviceId platform d := by
  refine step_onVirtual hstep fun v v' _ _ hid hplatform hdeleted => ?_
  rw [hplatform, hid]
  by_cases hv' : v'.state = .deleted
  · simp [hv']
  · have hv : v.state ≠ .deleted := fun hv => hv' (hdeleted hv)
    simp [hv', hv]

/-- A section keeps the platform of every device, and of the one it registers it is the spec's. -/
theorem after_stray (h : DevicesOk r) {deviceId : String} {platform : Platform}
    (hzero : total (strayWeight deviceId platform) r = 0)
    (hregister : ∀ driverDeviceId spec driverData,
      w = .register deviceId driverDeviceId spec driverData → spec.platform = platform) :
    total (strayWeight deviceId platform) (w.after o r now writable) = 0 := by
  rcases @Section.after_total o r now writable h w _ (strayWeight_weighs deviceId platform) with
    hsame | ⟨-, d, d', -, hstep, -, -, -, htotal⟩ | ⟨d, hadds, htotal⟩
  · exact hsame.trans hzero
  · have := strayWeight_le hstep deviceId platform
    omega
  · rw [htotal, hzero, Nat.zero_add]
    cases w with
    | register id driverDeviceId spec driverData =>
      obtain ⟨v, rfl, hid, -, hspec, -⟩ := hadds
      simp only [strayWeight, onVirtual, hid, hspec]
      by_cases hsame : id = deviceId
      · subst hsame
        simp [hregister driverDeviceId spec driverData rfl]
      · simp [hsame]
    | enroll id input =>
      obtain ⟨p, rfl, -⟩ := hadds
      rfl
    | _ => exact absurd hadds id

/-- A device that starts to weigh was started. -/
theorem lone_started (reserves : String → Bool) (scope : Option Platform) {v v' : VirtualDevice}
    (htyped : w.Typed r)
    (hdevice : ∀ id, w.call.device = some id → v.id = id) (hid : v'.id = v.id)
    (hplatform : v'.spec.platform = v.spec.platform)
    (hturns : Turns r (.virtual v) v'.state.toState w.call) :
    loneWeight reserves scope (.virtual v') ≤ loneWeight reserves scope (.virtual v) ∨
      (w.starts = some v.id ∧ isRunning (.registered v.state) = false ∧ reserves v.id = false ∧
        covers scope v.spec.platform = true) := by
  simp only [loneWeight, onVirtual, hplatform, hid]
  by_cases hlone : (isRunning (.registered v'.state) && covers scope v.spec.platform &&
    !reserves v.id) = true
  · simp only [Bool.and_eq_true, Bool.not_eq_true'] at hlone
    obtain ⟨⟨hruns, hcovers⟩, hfree⟩ := hlone
    by_cases hran : isRunning (.registered v.state) = true
    · simp [hran, hcovers, hfree, hruns]
    · have hne : ∀ state, isRunning (.registered state) = false → v'.state.toState ≠ state.toState := by
        intro state hstate he
        rw [toState_injective he, hstate] at hruns
        cases hruns
      rcases turns_started hdevice htyped hturns (hne .shutdown rfl) (hne .deleted rfl) with
        hsame | hran' | hstarts
      · rw [toState_injective hsame] at hruns
        exact absurd hruns hran
      · exact absurd hran' hran
      · exact .inr ⟨hstarts, by simpa using hran, hfree, hcovers⟩
  · rw [if_neg hlone]
    exact .inl (Nat.zero_le _)

theorem loneWeight_le_one (reserves : String → Bool) (scope : Option Platform) (d : Device) :
    loneWeight reserves scope d ≤ 1 := by
  cases d with
  | physical p => exact Nat.zero_le _
  | virtual v =>
    simp only [loneWeight, onVirtual]
    split <;> omega

/-- A section raises the measure by the device it starts, and only if none is held for it. -/
theorem after_lone (o : RegistryOptions) (now : Int) (writable : Bool) (reserves : String → Bool)
    (scope : Option Platform) (h : DevicesOk r) (htyped : w.Typed r) :
    total (loneWeight reserves scope) (w.after o r now writable) ≤
        total (loneWeight reserves scope) r ∨
      ∃ v, r.device v.id = some (.virtual v) ∧ w.starts = some v.id ∧
        isRunning (.registered v.state) = false ∧ reserves v.id = false ∧
        covers scope v.spec.platform = true ∧
        total (loneWeight reserves scope) (w.after o r now writable) ≤
          total (loneWeight reserves scope) r + 1 := by
  rcases @Section.after_total o r now writable h w _ (loneWeight_weighs reserves scope) with
    hsame | ⟨-, d, d', hd, hstep, hdevice, -, hturns, htotal⟩ | ⟨d, hadds, htotal⟩
  · exact .inl (Nat.le_of_eq hsame)
  · cases d with
    | physical p =>
      cases d' with
      | physical p' => exact .inl (Nat.le_of_eq htotal)
      | virtual v' => cases hstep.isPhysical
    | virtual v =>
      obtain ⟨v', rfl, hid, hplatform, -⟩ := step_virtual hstep
      rcases lone_started reserves scope htyped hdevice hid hplatform hturns with
        hle | ⟨hstarts, hran, hfree, hcovers⟩
      · left
        omega
      · have hone := loneWeight_le_one reserves scope (.virtual v')
        refine .inr ⟨v, hd, hstarts, hran, hfree, hcovers, ?_⟩
        omega
  · left
    rw [htotal]
    cases w with
    | register id driverDeviceId spec driverData =>
      obtain ⟨v, rfl, -, -, -, hstate, -⟩ := hadds
      simp [loneWeight, onVirtual, hstate, isRunning]
    | enroll id input =>
      obtain ⟨p, rfl, -⟩ := hadds
      exact Nat.le_refl _
    | _ => exact absurd hadds id

theorem loneWeight_antitone {d : Device} (h : reserves d.id = true → reserves' d.id = true) :
    loneWeight reserves' scope d ≤ loneWeight reserves scope d := by
  cases d with
  | physical p => exact Nat.le_refl _
  | virtual v =>
    have hv : reserves v.id = true → reserves' v.id = true := h
    simp only [loneWeight, onVirtual]
    cases hfree : reserves v.id with
    | true => simp [hv hfree]
    | false =>
      split
      · rename_i hlone
        rw [Bool.and_eq_true] at hlone
        simp [hlone.1]
      · exact Nat.zero_le _

/-- A reservation that is given up leaves its own device alone. -/
theorem lone_given (scope : Option Platform) (h : DevicesOk r) {deviceId : String}
    {platform : Platform} (hstray : total (strayWeight deviceId platform) r = 0)
    (hother : ∀ id, id ≠ deviceId → reserves id = true → reserves' id = true) :
    total (loneWeight reserves' scope) r ≤
      total (loneWeight reserves scope) r + if covers scope platform then 1 else 0 := by
  have hone := total_at_le h.nodup deviceId (if covers scope platform then 1 else 0)
  have hle : total (loneWeight reserves' scope) r ≤ total (fun d =>
      loneWeight reserves scope d +
        if d.id = deviceId then (if covers scope platform then 1 else 0) else 0) r := by
    refine total_le fun d hd => ?_
    cases d with
    | physical p => exact Nat.zero_le _
    | virtual v =>
      by_cases hid : v.id = deviceId
      · -- a device that runs is of the platform
        have hzero := eq_zero_of_total hstray hd
        have hbump : loneWeight reserves' scope (.virtual v) ≤
            if covers scope platform then 1 else 0 := by
          simp only [loneWeight, strayWeight, onVirtual] at hzero ⊢
          split
          · rename_i hlone
            simp only [Bool.and_eq_true] at hlone
            have hdeleted : v.state ≠ .deleted := by
              intro hv
              rw [hv] at hlone
              cases hlone.1.1
            have hplatform : v.spec.platform = platform := by
              by_contra hne
              simp [hid, hdeleted, hne] at hzero
            rw [← hplatform, if_pos hlone.1.2]
          · exact Nat.zero_le _
        have hid' : (Device.virtual v).id = deviceId := hid
        rw [if_pos hid']
        omega
      · have hsame : loneWeight reserves' scope (.virtual v) ≤
            loneWeight reserves scope (.virtual v) := loneWeight_antitone (hother v.id hid)
        omega
  have hsum : total (fun d => loneWeight reserves scope d +
      if d.id = deviceId then (if covers scope platform then 1 else 0) else 0) r =
      total (loneWeight reserves scope) r +
        total (fun d => if d.id = deviceId then (if covers scope platform then 1 else 0) else 0) r :=
    List.sum_map_add
  omega

theorem reservedBy_cons (f : Flow) (flows : List Flow) (deviceId : String) :
    reservedBy (f :: flows) deviceId = (f.reserves deviceId || reservedBy flows deviceId) :=
  List.any_cons

theorem reservedBy_erase {flows : List Flow} {f : Flow} (hf : f ∈ flows) (deviceId : String) :
    reservedBy flows deviceId = (f.reserves deviceId || reservedBy (flows.erase f) deviceId) := by
  rw [← reservedBy_cons]
  exact (List.perm_cons_erase hf).any_eq

/-- The flows after a step: the reservation stays, or frees what it held. -/
theorem flows_lone (h : DevicesOk r) {flows : List Flow} {f : Flow} {n : Next} (hok : FlowOk f)
    (hkeeps : Keeps f n) (hf : f ∈ flows)
    (hstray : ∀ t, f.target = some t → total (strayWeight t.deviceId f.platform) r = 0)
    (scope : Option Platform) :
    total (loneWeight (reservedBy (n.flow.toList ++ flows.erase f)) scope) r +
        (n.flow.toList ++ flows.erase f).countP (Flow.reservesIn scope) ≤
      total (loneWeight (reservedBy flows) scope) r + flows.countP (Flow.reservesIn scope) := by
  rw [(List.perm_cons_erase hf).countP_eq, List.countP_cons]
  have hnone : ∀ {f' : Flow}, f'.reservation = none → f'.reservesIn scope = false ∧
      ∀ id, f'.reserves id = false := by
    intro f' hr
    simp [Flow.reservesIn, Flow.reserves, hr]
  -- the flow goes on with its reservation, or there is none
  have hholds : n.flow.bind Flow.reservation = f.reservation →
      total (loneWeight (reservedBy (n.flow.toList ++ flows.erase f)) scope) r +
          (n.flow.toList ++ flows.erase f).countP (Flow.reservesIn scope) ≤
        total (loneWeight (reservedBy flows) scope) r +
          ((flows.erase f).countP (Flow.reservesIn scope) +
            if f.reservesIn scope = true then 1 else 0) := by
    intro hr
    cases hflow : n.flow with
    | none =>
      rw [hflow] at hr
      obtain ⟨hin, hid⟩ := hnone hr.symm
      have hle : total (loneWeight (reservedBy (flows.erase f)) scope) r ≤
          total (loneWeight (reservedBy flows) scope) r := by
        refine total_le fun d _ => loneWeight_antitone fun hres => ?_
        rwa [reservedBy_erase hf, hid, Bool.false_or] at hres
      rw [hin]
      simp only [Option.toList_none, List.nil_append]
      omega
    | some f' =>
      rw [hflow] at hr
      have hr' : f'.reservation = f.reservation := hr
      obtain ⟨-, hplatform, -⟩ := hkeeps.same f' hflow
      have hin : f'.reservesIn scope = f.reservesIn scope := by
        rw [Flow.reservesIn, Flow.reservesIn, hr', hplatform]
      have hle : total (loneWeight (reservedBy (f' :: flows.erase f)) scope) r ≤
          total (loneWeight (reservedBy flows) scope) r := by
        refine total_le fun d _ => loneWeight_antitone fun hres => ?_
        rw [reservedBy_erase hf, Bool.or_eq_true] at hres
        rw [reservedBy_cons, Bool.or_eq_true]
        refine hres.imp_left fun hown => ?_
        rcases hkeeps.target f' hflow with htarget | ⟨_, _, _, _, _, -, hcreating, -, -⟩
        · rwa [Flow.reserves, htarget, hr']
        · exact absurd hown (by simp [Flow.reserves, (hok.creating hcreating).2])
      simp only [Option.toList_some, List.cons_append, List.nil_append]
      rw [List.countP_cons, hin]
      omega
  rcases hkeeps.reservation with ⟨-, hr⟩ | ⟨-, hr⟩
  · exact hholds hr
  · cases ht : f.reservation with
    | none => exact hholds (hr.trans ht.symm)
    | some token =>
      have hafter : (n.flow.toList ++ flows.erase f).countP (Flow.reservesIn scope) =
          (flows.erase f).countP (Flow.reservesIn scope) := by
        cases hflow : n.flow with
        | none => rfl
        | some f' =>
          rw [hflow] at hr
          rw [Option.toList_some, List.cons_append, List.nil_append, List.countP_cons,
            (hnone hr).1]
          rfl
      have hin : f.reservesIn scope = covers scope f.platform := by simp [Flow.reservesIn, ht]
      rw [hafter, hin]
      have hkept : ∀ id, f.reserves id = false → reservedBy flows id = true →
          reservedBy (n.flow.toList ++ flows.erase f) id = true := by
        intro id hown hres
        rw [reservedBy_erase hf, hown, Bool.false_or] at hres
        rw [reservedBy, List.any_append, Bool.or_eq_true]
        exact .inr hres
      cases htarget : f.target with
      | none =>
        have hle : total (loneWeight (reservedBy (n.flow.toList ++ flows.erase f)) scope) r ≤
            total (loneWeight (reservedBy flows) scope) r := by
          refine total_le fun d _ => loneWeight_antitone fun hres => hkept _ ?_ hres
          simp [Flow.reserves, htarget]
        omega
      | some t =>
        have hle := lone_given scope h (hstray t htarget) fun id hid hres =>
          hkept id (by simp [Flow.reserves, htarget, Ne.symm hid]) hres
        omega

end Changes

/-! ### Steps -/

/-- The measure is within every limit, and every flow is of its device's platform. -/
structure RunningLimitInv (strategy : CapacityStrategy) (s : Host) : Prop where
  devices : DevicesOk s.registry
  ledger : Ledger s
  platforms : ∀ f ∈ s.flows, ∀ t, f.target = some t →
    total (strayWeight t.deviceId f.platform) s.registry = 0
  limit : ∀ scope, total (loneWeight (reservedBy s.flows) scope) s.registry +
    s.flows.countP (Flow.reservesIn scope) ≤ maxRunning strategy scope

section Steps

variable {o : RegistryOptions} {strategy : CapacityStrategy} {s : Host}

/-- A section that finds room keeps the measure within the limits. -/
theorem RunningLimitInv.after (h : RunningLimitInv strategy s) {w : Section} {now : Int}
    {writable : Bool} (htyped : w.Typed s.registry) (hroomy : Roomy strategy s w)
    (hready : ∀ deviceId driverDeviceId expected ready,
      w = .commitReady deviceId driverDeviceId expected ready → reservedBy s.flows deviceId = true)
    (scope : Option Platform) :
    total (loneWeight (reservedBy s.flows) scope) (w.after o s.registry now writable) +
      s.flows.countP (Flow.reservesIn scope) ≤ maxRunning strategy scope := by
  have hlimit := h.limit scope
  rcases after_lone o now writable (reservedBy s.flows) scope h.devices htyped with
    hle | ⟨v, hd, hstarts, hran, hfree, hcovers, hle⟩
  · omega
  · -- the device that starts found a slot
    have hroom : ∀ {deviceId}, v.id = deviceId →
        (∀ u, s.registry.device deviceId = some (.virtual u) → isRunning (.registered u.state) = false →
          reservedBy s.flows deviceId = true ∨ s.capacity.canReserveRunning strategy u.spec.platform
            (capacityDevices s.registry) = none) →
        total (loneWeight (reservedBy s.flows) scope) s.registry +
          s.flows.countP (Flow.reservesIn scope) < maxRunning strategy scope := by
      rintro deviceId rfl hfound
      rcases hfound v hd hran with hres | hcan
      · rw [hfree] at hres
        cases hres
      · exact room_of_canReserve h.ledger hcan _ hcovers
    cases w with
    | commitReady deviceId driverDeviceId expected ready =>
      cases hstarts
      rw [hready _ _ _ _ rfl] at hfree
      cases hfree
    | enterQuarantine deviceId nextRetryAt cause =>
      have := hroom (Option.some.inj hstarts).symm hroomy
      omega
    | enterFromStalledTransition deviceId findingState nextRetryAt cause =>
      have := hroom (Option.some.inj hstarts).symm hroomy
      omega
    | fixRunning deviceId =>
      have := hroom (Option.some.inj hstarts).symm hroomy
      omega
    | _ => cases hstarts

/-- A section adds no device of a flow's id. -/
theorem RunningLimitInv.platforms_after (h : RunningLimitInv strategy s) {w : Section} {now : Int}
    {writable : Bool} (hnew : s.NewIds w) {g : Flow} (hg : g ∈ s.flows) {t : Target}
    (ht : g.target = some t) :
    total (strayWeight t.deviceId g.platform) (w.after o s.registry now writable) = 0 := by
  refine after_stray h.devices (h.platforms g hg t ht) ?_
  rintro driverDeviceId spec driverData rfl
  exact absurd rfl ((hnew _ _ rfl).2 g hg t ht)

theorem stray_of_absent {r : Registry} {deviceId : String} (platform : Platform)
    (h : deviceId ∉ r.devices.map Device.id) : total (strayWeight deviceId platform) r = 0 := by
  refine List.sum_eq_zero_iff_forall_eq_nat.mpr fun k hk => ?_
  obtain ⟨d, hd, rfl⟩ := List.mem_map.mp hk
  cases d with
  | physical p => rfl
  | virtual v =>
    have hne : v.id ≠ deviceId := fun he => h (List.mem_map.mpr ⟨.virtual v, hd, he⟩)
    simp [strayWeight, onVirtual, hne]

/-- The flow a step leaves is of its device's platform. -/
theorem RunningLimitInv.platform_next (h : RunningLimitInv strategy s) {f f' : Flow} {n : Next}
    (hf : f ∈ s.flows) (hkeeps : Keeps f n) (hflow : n.flow = some f') {now : Int} {writable : Bool}
    (hnew : ∀ w, n.section_ = some w → s.NewIds w) {t : Target} (ht : f'.target = some t) :
    total (strayWeight t.deviceId f'.platform) (s.take o f n now writable).registry = 0 := by
  have hok := h.ledger.flows f hf
  obtain ⟨-, hplatform, -⟩ := hkeeps.same f' hflow
  rw [hplatform]
  rcases hkeeps.target f' hflow with htarget | ⟨spec, id, driverDeviceId, version, driverData, hjob, -,
    hsection, htarget⟩
  · rw [htarget] at ht
    cases hsection : n.section_ with
    | none =>
      simp only [Host.take, hsection, Option.map_none, Option.getD_none]
      exact h.platforms f hf t ht
    | some w =>
      simp only [Host.take, hsection, Option.map_some, Option.getD_some]
      exact h.platforms_after (hnew w hsection) hf ht
  · -- the device it has just registered
    rw [htarget] at ht
    cases ht
    simp only [Host.take, hsection, Option.map_some, Option.getD_some]
    refine after_stray h.devices (stray_of_absent _ (hnew _ hsection id false rfl).1) ?_
    rintro _ _ _ ⟨⟩
    exact (hok.platform spec hjob).symm

theorem RunningLimitInv.take (h : RunningLimitInv strategy s) {f : Flow} (hf : f ∈ s.flows)
    {m : Move} {now : Int} {writable : Bool} (hadmits : s.Admits o (.advance f m now writable))
    (hslots : KeepsSlots o strategy s (.advance f m now writable)) :
    RunningLimitInv strategy (s.take o f (f.next o s now writable m) now writable) := by
  have hok := h.ledger.flows f hf
  have hkeeps := next_keeps o s hok now writable m
  have hruns : ∀ w, (f.next o s now writable m).section_ = some w →
      Runs f (f.next o s now writable m) w := fun w hw => next_runs hw
  have hledger := h.ledger.take (o := o) hf hkeeps now writable
  generalize hn : f.next o s now writable m = n at hkeeps hruns hledger
  have hnew : ∀ w, n.section_ = some w → s.NewIds w := fun w hw => (hadmits w (hn ▸ hw)).1
  have hdevices : DevicesOk (s.take o f n now writable).registry := by
    cases hsection : n.section_ with
    | none =>
      simp only [Host.take, hsection, Option.map_none, Option.getD_none]
      exact h.devices
    | some w =>
      simp only [Host.take, hsection, Option.map_some, Option.getD_some]
      exact Section.after_ok h.devices fun id physical hadds => (hnew w hsection id physical hadds).1
  have hplatforms : ∀ g ∈ s.flows, ∀ t, g.target = some t →
      total (strayWeight t.deviceId g.platform) (s.take o f n now writable).registry = 0 := by
    intro g hg t ht
    cases hsection : n.section_ with
    | none =>
      simp only [Host.take, hsection, Option.map_none, Option.getD_none]
      exact h.platforms g hg t ht
    | some w =>
      simp only [Host.take, hsection, Option.map_some, Option.getD_some]
      exact h.platforms_after (hnew w hsection) hg ht
  -- the section under the flows as they were, then the flows
  have hlimit : ∀ scope, total (loneWeight (reservedBy s.flows) scope)
      (s.take o f n now writable).registry + s.flows.countP (Flow.reservesIn scope) ≤
      maxRunning strategy scope := by
    intro scope
    cases hsection : n.section_ with
    | none =>
      simp only [Host.take, hsection, Option.map_none, Option.getD_none]
      exact h.limit scope
    | some w =>
      simp only [Host.take, hsection, Option.map_some, Option.getD_some]
      refine h.after (hadmits w (hn ▸ hsection)).2 (hslots w (hn ▸ hsection)) ?_ scope
      rintro deviceId driverDeviceId expected ready rfl
      cases hruns _ hsection with
      | ready htarget hpoint hjob =>
        refine List.any_eq_true.mpr ⟨f, hf, ?_⟩
        rcases hok.held (hjob.imp And.left And.left) with hsome | hpast
        · simp [Flow.reserves, hsome, htarget]
        · rw [hpoint] at hpast
          cases hpast
  refine ⟨hdevices, hledger, ?_, fun scope => ?_⟩
  · intro g hg t ht
    rcases List.mem_append.mp hg with hg | hg
    · exact h.platform_next hf hkeeps (Option.mem_toList.mp hg) hnew ht
    · exact hplatforms g (List.mem_of_mem_erase hg) t ht
  · exact Nat.le_trans (flows_lone hdevices hok hkeeps hf (hplatforms f hf) scope) (hlimit scope)

/-- A plan of a device in the registry, with a reservation or without. -/
theorem RunningLimitInv.plans (h : RunningLimitInv strategy s) {f : Flow} {s' : Host}
    (hregistry : s'.registry = s.registry) (hflows : s'.flows = f :: s.flows) (hledger : Ledger s')
    (hplatform : ∀ t, f.target = some t →
      total (strayWeight t.deviceId f.platform) s.registry = 0)
    (hroom : f.reservation.isSome → s.capacity.canReserveRunning strategy f.platform
      (capacityDevices s.registry) = none) : RunningLimitInv strategy s' := by
  refine ⟨hregistry ▸ h.devices, hledger, ?_, fun scope => ?_⟩
  · intro g hg t ht
    rw [hregistry]
    rw [hflows] at hg
    rcases List.mem_cons.mp hg with rfl | hg
    · exact hplatform t ht
    · exact h.platforms g hg t ht
  · rw [hregistry, hflows, List.countP_cons]
    have hle : total (loneWeight (reservedBy (f :: s.flows)) scope) s.registry ≤
        total (loneWeight (reservedBy s.flows) scope) s.registry := by
      refine total_le fun d _ => loneWeight_antitone fun hres => ?_
      rw [reservedBy_cons, hres, Bool.or_true]
    have hlimit := h.limit scope
    split
    · rename_i hin
      rw [Flow.reservesIn, Bool.and_eq_true] at hin
      have := room_of_canReserve h.ledger (hroom hin.1) (reservedBy s.flows) hin.2
      omega
    · omega

/-- A device of the registry is of its own platform. -/
theorem stray_self {r : Registry} (h : DevicesOk r) {d : Device} (hd : d ∈ r.devices) :
    total (strayWeight d.id d.platform) r = 0 := by
  refine List.sum_eq_zero_iff_forall_eq_nat.mpr fun k hk => ?_
  obtain ⟨x, hx, rfl⟩ := List.mem_map.mp hk
  cases x with
  | physical p => rfl
  | virtual v =>
    simp only [strayWeight, onVirtual]
    by_cases hid : v.id = d.id
    · have hsame : Device.virtual v = d := List.inj_on_of_nodup_map h.nodup hx hd hid
      rw [← hsame]
      simp [Device.platform]
    · simp [hid]

theorem RunningLimitInv.step (h : RunningLimitInv strategy s) {s' : Host} {a : HostAction}
    (hstep : Stepped o strategy s a s') (hadmits : s.Admits o a) (hslots : KeepsSlots o strategy s a) :
    RunningLimitInv strategy s' := by
  have hledger := h.ledger.step hstep
  cases hstep with
  | idle => exact h
  | @provision spec owner paused capacity hok =>
    obtain ⟨-, -, hcan⟩ := tryReserveProvisioning_ok hok
    refine h.plans rfl rfl hledger ?_ fun _ => hcan
    rintro t ⟨⟩
  | @boot deviceId owner paused v capacity hd hshutdown hfree hok =>
    obtain ⟨-, -, hcan⟩ := tryReserveBoot_ok hok
    refine h.plans rfl rfl hledger ?_ fun _ => hcan
    rintro t ⟨⟩
    exact stray_self h.devices (Registry.device_mem hd).1
  | @claimed a deviceId operation claimOwner job owner d hd hfree hoperation hjob =>
    refine h.plans rfl rfl hledger ?_ ?_
    · rintro t ⟨⟩
      exact stray_self h.devices (Registry.device_mem hd).1
    · rintro ⟨⟩
  | advanced hf => exact h.take hf hadmits hslots
  | @other w now writable hw =>
    refine ⟨Section.after_ok h.devices fun id physical hadds => (hadmits.1 id physical hadds).1,
      hledger, fun g hg t ht => h.platforms_after hadmits.1 hg ht, fun scope => ?_⟩
    refine h.after hadmits.2 hslots ?_ scope
    rintro deviceId driverDeviceId expected ready rfl
    cases hw
  | takes hplanned hfree => exact ⟨h.devices, hledger, h.platforms, h.limit⟩
  | gives hown => exact ⟨h.devices, hledger, h.platforms, h.limit⟩

theorem virtualDevices_nodup {r : Registry} (h : DevicesOk r) :
    ((virtualDevices r).map fun v => v.id).Nodup := by
  refine List.Sublist.nodup ?_ h.nodup
  rw [virtualDevices]
  induction r.devices with
  | nil => exact List.Sublist.refl _
  | cons d ds ih =>
    cases d with
    | virtual v => exact ih.cons_cons v.id
    | physical p => exact ih.cons p.id

/-- A running device that a reservation is held for is that of a flow. -/
theorem reserved_running_le (h : RunningLimitInv strategy s) (scope : Option Platform) :
    ((virtualDevices s.registry).countP fun v => isRunning (.registered v.state) &&
        covers scope v.spec.platform && reservedBy s.flows v.id) ≤
      s.flows.countP fun f => f.reservesIn scope &&
        f.target.any fun t => runs s.registry t.deviceId := by
  rw [List.countP_eq_length_filter, List.countP_eq_length_filter]
  -- different devices are those of different flows
  have hids := (List.filter_sublist (l := virtualDevices s.registry)
    (p := fun v => isRunning (.registered v.state) && covers scope v.spec.platform &&
      reservedBy s.flows v.id)).map fun v => v.id
  have hnodup := hids.nodup (virtualDevices_nodup h.devices)
  have hsubset : ((virtualDevices s.registry).filter fun v => isRunning (.registered v.state) &&
      covers scope v.spec.platform && reservedBy s.flows v.id).map (fun v => v.id) ⊆
      (s.flows.filter fun f => f.reservesIn scope &&
        f.target.any fun t => runs s.registry t.deviceId).filterMap
          fun f => f.target.map Target.deviceId := by
    intro id hid
    obtain ⟨v, hv, rfl⟩ := List.mem_map.mp hid
    obtain ⟨hmem, hruns⟩ := List.mem_filter.mp hv
    simp only [Bool.and_eq_true] at hruns
    obtain ⟨⟨hruns, hcovers⟩, hres⟩ := hruns
    obtain ⟨f, hf, hown⟩ := List.any_eq_true.mp hres
    rw [Flow.reserves, Bool.and_eq_true, Option.any_eq_true] at hown
    obtain ⟨hsome, t, ht, hid⟩ := hown
    have hid : t.deviceId = v.id := of_decide_eq_true hid
    have hd := mem_virtualDevices.mp hmem
    have hdevice := Registry.device_of_mem h.devices.nodup hd
    have hplatform : v.spec.platform = f.platform := by
      have hzero := eq_zero_of_total (h.platforms f hf t ht) hd
      by_contra hne
      have hdeleted : v.state ≠ .deleted := by
        intro hv
        rw [hv] at hruns
        cases hruns
      simp [strayWeight, onVirtual, hid, hdeleted, hne] at hzero
    refine List.mem_filterMap.mpr ⟨f, List.mem_filter.mpr ⟨hf, ?_⟩, ?_⟩
    · have hrun : runs s.registry v.id = true := by
        have hdevice' : s.registry.device v.id = some (.virtual v) := hdevice
        rw [runs, hdevice']
        exact hruns
      simp [Flow.reservesIn, hsome, ht, hid, hrun, ← hplatform, hcovers]
    · rw [ht, Option.map_some, hid]
  have hlength := (List.subperm_of_subset hnodup hsubset).length_le
  rw [List.length_map] at hlength
  exact Nat.le_trans hlength (List.length_filterMap_le _ _)

theorem countP_split {α : Type} (p q : α → Bool) (l : List α) :
    l.countP p = (l.countP fun x => p x && q x) + l.countP fun x => p x && !q x := by
  rw [List.countP_eq_countP_filter_add l p q, List.countP_filter, List.countP_filter]

/-- The measure bounds what runs with what is reserved. -/
theorem RunningLimitInv.within (h : RunningLimitInv strategy s) : WithinRunningLimit strategy s := by
  intro scope
  have hlimit := h.limit scope
  have hnamed := reserved_running_le h scope
  have hrunning := countP_split (fun v : VirtualDevice => isRunning (.registered v.state) &&
    covers scope v.spec.platform) (fun v => reservedBy s.flows v.id) (virtualDevices s.registry)
  have hflows := countP_split (Flow.reservesIn scope)
    (fun f => f.target.any fun t => runs s.registry t.deviceId) s.flows
  have hlone : ((virtualDevices s.registry).countP fun v => isRunning (.registered v.state) &&
      covers scope v.spec.platform && !reservedBy s.flows v.id) =
      total (loneWeight (reservedBy s.flows) scope) s.registry := countP_virtualDevices _ _
  have hreserved : s.reservedCount scope = s.flows.countP fun f => f.reservesIn scope &&
      !f.target.any fun t => runs s.registry t.deviceId := by
    refine (entries_count h.ledger scope fun t => !(s.deviceOf t).any (runs s.registry)).trans
      (List.countP_congr fun f hf => ?_)
    cases hr : f.reservation with
    | none => simp [Flow.reservesIn, hr]
    | some t =>
      rw [Option.any_some, deviceOf_eq h.ledger hf hr]
      cases f.target <;> simp
  rw [runningCount]
  omega

end Steps

/-- From any registry within the limits, in every run whose steps find a slot where they take one
    without a reservation, what runs with what is reserved never is more than a limit. -/
theorem running_within_limit (o : RegistryOptions) (strategy : CapacityStrategy) (store : Store)
    (hstore : store.Reached o)
    (hstart : ∀ scope, runningCount store.registry scope ≤ maxRunning strategy scope)
    (acts : List HostAction)
    (hrun : AllSteps (Host.step o strategy) (fun s a => s.Admits o a ∧ KeepsSlots o strategy s a)
      (Host.start store.registry) acts) :
    WithinRunningLimit strategy (run (Host.step o strategy) (Host.start store.registry) acts) := by
  refine RunningLimitInv.within (run_invariant_of_allSteps (I := RunningLimitInv strategy)
    (fun s a hadmits h => h.step (step_stepped o strategy s a) hadmits.1 hadmits.2) acts
    (Host.start store.registry) ⟨hstore.ok.ok.devicesOk, Ledger.start _, ?_, fun scope => ?_⟩ hrun)
  · rintro f ⟨⟩
  · have hlone := lone_le_running store.registry (reservedBy []) scope
    have := hstart scope
    exact Nat.le_trans hlone this

/-! ### A slot that is taken back -/

/-- One slot and two devices. -/
def oneSlot : CapacityStrategy := .fixed ⟨1, some ⟨some 2, none⟩, none⟩

def provisioned (point : Point) : Flow :=
  { creating with target := some ⟨"dev_1", "udid_1"⟩, claim := some 1, point := point }

def handedOff : Flow := { provisioned .handoff with reservation := none }

/-- A request provisions a device and leases it; after the release it is shut down, which frees the
    slot for the next request. -/
def leaseAndRetire : List HostAction :=
  [.planProvision iphoneSpec (some "req_1") false true,
    .advance creating (.register "dev_1" "udid_1" 0 iphoneData) 1 true,
    .advance (provisioned .planned) .go 1 true,
    .advance (provisioned .working) (.ready ⟨"udid_1", iphoneData, .full⟩) 2 true,
    .advance (provisioned .made) .go 2 true,
    .advance handedOff (.grant "lse_1" (leaseInput "dev_1")) 3 true,
    .other (.beginRelease "lse_1" false) 4 true,
    .other (.retireSpent "dev_1") 5 true,
    .planProvision iphoneSpec (some "req_2") false true]

/-- The delete fails, and the device enters quarantine beside the one the slot was promised to. -/
def failedDelete : List HostAction :=
  leaseAndRetire ++ [.other (.enterQuarantine "dev_1" 9 ⟨.deleteFailed, none, none⟩) 6 true]

theorem leaseAndRetire_admitted :
    AllSteps (Host.step shortRetention oneSlot)
      (fun s a => s.Admits shortRetention a ∧ KeepsSlots shortRetention oneSlot s a)
      (Host.start Registry.empty) leaseAndRetire := by
  have hnone : ∀ {s : Host} {w : Section}, w.call.adds = none → s.NewIds w := by
    intro s w hadds id physical h
    rw [hadds] at h
    cases h
  refine ⟨⟨trivial, trivial⟩, ⟨?_, ?_⟩, ⟨?_, ?_⟩, ⟨?_, ?_⟩, ⟨?_, ?_⟩, ⟨?_, ?_⟩,
    ⟨⟨hnone rfl, trivial⟩, trivial⟩, ⟨⟨hnone rfl, trivial⟩, trivial⟩, ⟨trivial, trivial⟩, trivial⟩
  · rintro w ⟨⟩
    refine ⟨?_, trivial⟩
    rintro id physical ⟨⟩
    constructor
    · decide +kernel
    · decide +kernel
  · rintro w ⟨⟩
    trivial
  · rintro w ⟨⟩
  · rintro w ⟨⟩
  · rintro w ⟨⟩
    exact ⟨hnone rfl, .inl rfl⟩
  · rintro w ⟨⟩
    trivial
  · rintro w ⟨⟩
  · rintro w ⟨⟩
  · rintro w ⟨⟩
    exact ⟨hnone rfl, trivial⟩
  · rintro w ⟨⟩
    trivial

theorem running_within_limit_leaseAndRetire :
    (run (Host.step shortRetention oneSlot) (Host.start Registry.empty) leaseAndRetire).reservedCount
      none = 1 ∧
    WithinRunningLimit oneSlot
      (run (Host.step shortRetention oneSlot) (Host.start Registry.empty) leaseAndRetire) := by
  refine ⟨by decide +kernel, ?_⟩
  refine running_within_limit shortRetention oneSlot (Store.create 0) ⟨0, [], trivial, rfl⟩ ?_
    leaseAndRetire leaseAndRetire_admitted
  intro scope
  exact Nat.zero_le _

/-- Every step is one the worker can take, and yet two devices hold the one slot. -/
theorem failed_delete_exceeds_running_limit :
    AllSteps (Host.step shortRetention oneSlot) (Host.Admits shortRetention)
      (Host.start Registry.empty) failedDelete ∧
    ¬ WithinRunningLimit oneSlot
      (run (Host.step shortRetention oneSlot) (Host.start Registry.empty) failedDelete) := by
  refine ⟨?_, fun h => ?_⟩
  · refine (leaseAndRetire_admitted.mono fun s a h => h.1).append ⟨⟨?_, trivial⟩, trivial⟩
    rintro id physical ⟨⟩
  · have hnone : (runningCount (run (Host.step shortRetention oneSlot) (Host.start Registry.empty)
        failedDelete).registry none + (run (Host.step shortRetention oneSlot)
          (Host.start Registry.empty) failedDelete).reservedCount none ≤ 1) := h none
    revert hnone
    decide +kernel

end Simlock.Worker
