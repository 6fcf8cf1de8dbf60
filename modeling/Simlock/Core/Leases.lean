import Mathlib.Logic.Function.Basic
import Simlock.Core.Store

/-! What a call does to the devices and the leases.

    A workflow looks at three things of a device: its kind, its state, and whether a lease of it has
    ended. `view` is that, by id, with nothing for a device that is deleted; it forgets whether the
    record of a deleted device is still kept, so a commit that purges one does not show in it. Every
    call is then one update of `view` and one of the leases (`Effect`), which is all the proofs about
    whole runs of a worker look at. -/

namespace Simlock.Core

open Simlock.Lib

/-- The registry after a call; `none` when the call throws. -/
def Registry.apply (r : Registry) (o : RegistryOptions) (now : Int) (c : Call) : Option Registry :=
  match r.call o now c with
  | .error _ => none
  | .ok none => some r
  | .ok (some draft) => some (Registry.commit o now draft)

structure DeviceView where
  isPhysical : Bool
  state : DeviceState
  ended : Bool
  deriving DecidableEq, Repr

/-- The device with its state replaced, as the workflows see it. -/
def Device.viewIn (d : Device) (s : DeviceState) : Option DeviceView :=
  if s = .deleted then none else some ⟨d.isPhysical, s, d.fields.lastLeaseEndedAt.isSome⟩

def Device.view (d : Device) : Option DeviceView := d.viewIn d.state

def Registry.view (r : Registry) (deviceId : String) : Option DeviceView :=
  (r.device deviceId).bind Device.view

/-- One record per device, and only deleted devices have a time of deletion. -/
structure DevicesOk (r : Registry) : Prop where
  nodup : (r.devices.map Device.id).Nodup
  stamped : ∀ d ∈ r.devices, d.fields.deletedAt.isSome → d.state = .deleted

theorem RegistryOk.devicesOk {r : Registry} {clock : Int} (h : RegistryOk r clock) : DevicesOk r :=
  ⟨h.keys.devices, fun d hd => (h.devices d hd).stamped.mp⟩

theorem Registry.device_none {r : Registry} {deviceId : String} :
    r.device deviceId = none ↔ deviceId ∉ r.devices.map Device.id := by
  simp only [Registry.device, List.find?_eq_none, decide_eq_true_eq, List.mem_map, not_exists,
    not_and]

/-! ### The devices after a commit -/

/-- What is read of the device of an id. -/
def Registry.shown {β : Type} (r : Registry) (f : Device → Option β) (deviceId : String) : Option β :=
  (r.device deviceId).bind f

/-- A reading that a stamp keeps, and that finds nothing in a deleted device. -/
structure Shows {β : Type} (f : Device → Option β) : Prop where
  stamp : ∀ (now : Int) (x : Obj Device), f (stamp now x).val = f x.val
  deleted : ∀ x : Device, x.state = .deleted → f x = none

/-- Keys of their own, and only deleted devices with a time of deletion: a draft to commit. -/
structure DraftDevicesOk (devices : List (Obj Device)) : Prop where
  nodup : ((vals devices).map Device.id).Nodup
  stamped : ∀ x ∈ vals devices, x.fields.deletedAt.isSome → x.state = .deleted

section View

variable {r : Registry} {o : RegistryOptions} {now : Int}

theorem Stamps.view {x x' : Device} (h : Stamps now x x') : x'.view = x.view := by
  simp only [Device.view, Device.viewIn, h.state, h.isPhysical, h.ended]

theorem shows_view : Shows Device.view where
  stamp now x := (stamp_spec now x).1.view
  deleted x hx := by simp [Device.view, Device.viewIn, hx]

theorem stamp_deletedAt {x : Device} (hx : x.state ≠ .deleted) (hnone : x.fields.deletedAt = none)
    (fresh : Bool) : isExpired now o.deletedRetentionMs (stamp now ⟨x, fresh⟩).val = false := by
  have hs := (stamp_spec now ⟨x, fresh⟩).1.live hx
  rw [isExpired, hs, hnone]

/-- A commit shows the devices of its draft: what it purges is deleted, and shows as nothing. -/
theorem commit_shown {β : Type} {f : Device → Option β} (hf : Shows f) {d : Draft}
    (h : DraftDevicesOk d.devices) (deviceId : String) :
    (Registry.commit o now d).shown f deviceId =
      ((vals d.devices).find? (fun x => x.id = deviceId)).bind f := by
  have hmem : ∀ x' ∈ (Registry.commit o now d).devices, ∃ x ∈ d.devices, (stamp now x).val = x' := by
    intro x' hx'
    obtain ⟨z, hz, rfl⟩ := List.mem_map.mp hx'
    obtain ⟨x, hx, rfl⟩ := List.mem_map.mp (List.mem_filter.mp hz).1
    exact ⟨x, hx, rfl⟩
  cases hfound : (Registry.commit o now d).device deviceId with
  | some x' =>
    obtain ⟨hx', hid⟩ := Registry.device_mem hfound
    obtain ⟨x, hx, rfl⟩ := hmem x' hx'
    have hfind := find_key_eq_some h.nodup (List.mem_map_of_mem hx)
    rw [(stamp_spec now x).1.id.symm.trans hid] at hfind
    rw [Registry.shown, hfound, hfind]
    exact hf.stamp now x
  | none =>
    rw [Registry.shown, hfound]
    cases hfind : (vals d.devices).find? (fun x => x.id = deviceId) with
    | none => rfl
    | some x =>
      have hx := List.mem_of_find?_eq_some hfind
      have hid : x.id = deviceId := by simpa using List.find?_some hfind
      by_cases hdeleted : x.state = .deleted
      · exact (hf.deleted x hdeleted).symm
      · -- a device that is not deleted is committed
        exfalso
        obtain ⟨y, hy, rfl⟩ := List.mem_map.mp hx
        have hnone : y.val.fields.deletedAt = none :=
          Option.not_isSome_iff_eq_none.mp (mt (h.stamped _ hx) hdeleted)
        have hin : (stamp now y).val ∈ (Registry.commit o now d).devices := by
          refine List.mem_map_of_mem (List.mem_filter.mpr ⟨List.mem_map_of_mem hy, ?_⟩)
          rw [stamp_deletedAt hdeleted hnone y.fresh]
          rfl
        refine Registry.device_none.mp hfound (List.mem_map.mpr ⟨_, hin, ?_⟩)
        exact (stamp_spec now y).1.id.trans hid

theorem commit_devicesOk {d : Draft} (h : DraftDevicesOk d.devices) :
    DevicesOk (Registry.commit o now d) := by
  refine ⟨?_, ?_⟩
  · have hids : (vals (d.devices.map (stamp now))).map Device.id = (vals d.devices).map Device.id := by
      rw [vals, vals, List.map_map, List.map_map, List.map_map]
      exact List.map_congr_left fun x _ => (stamp_spec now x).1.id
    have hsub : List.Sublist ((Registry.commit o now d).devices.map Device.id)
        ((vals (d.devices.map (stamp now))).map Device.id) :=
      (List.filter_sublist.map Obj.val).map Device.id
    exact hsub.nodup (hids ▸ h.nodup)
  · intro x' hx' hsome
    obtain ⟨x, hx, hs, -⟩ := mem_settled_devices hx'
    by_contra hlive
    rw [hs.state] at hlive
    rw [hs.live hlive] at hsome
    exact hlive (h.stamped _ (List.mem_map_of_mem hx) hsome)

theorem draftDevicesOk_keep (h : DevicesOk r) : DraftDevicesOk (keep r.devices) := by
  refine ⟨?_, ?_⟩ <;> rw [vals_keep]
  · exact h.nodup
  · exact h.stamped

theorem draftDevicesOk_setDevice (h : DevicesOk r) {d' : Device}
    (hlive : d'.fields.deletedAt = none ∨ d'.state = .deleted) :
    DraftDevicesOk (r.draft.setDevice d').devices := by
  refine ⟨?_, ?_⟩
  · have hids : (vals (r.draft.setDevice d').devices).map Device.id = r.devices.map Device.id := by
      rw [vals, List.map_map]
      refine (map_replaceFirst Device.id fun x _ hp => of_decide_eq_true hp).trans ?_
      simp [Registry.draft, keep, Function.comp_def]
    exact hids ▸ h.nodup
  · intro x hx hsome
    obtain ⟨y, hy, rfl⟩ := List.mem_map.mp hx
    rcases mem_replaceFirst hy with rfl | hy
    · rcases hlive with hnone | hstate
      · rw [hnone] at hsome
        cases hsome
      · exact hstate
    · exact h.stamped _ (mem_keep hy).2 hsome

theorem draftDevicesOk_added (h : DevicesOk r) {d : Device} (hnew : d.id ∉ r.devices.map Device.id)
    (hlive : d.fields.deletedAt = none) : DraftDevicesOk (keep r.devices ++ [⟨d, true⟩]) := by
  have hvals : vals (keep r.devices ++ [⟨d, true⟩]) = r.devices ++ [d] := by
    rw [vals_append, vals_keep]
    rfl
  refine ⟨?_, ?_⟩ <;> rw [hvals]
  · rw [List.map_append, List.nodup_append]
    refine ⟨h.nodup, List.nodup_singleton _, ?_⟩
    intro a ha b hb hab
    rw [List.map_singleton, List.mem_singleton] at hb
    exact hnew (hb ▸ hab ▸ ha)
  · intro x hx hsome
    rw [List.mem_append, List.mem_singleton] at hx
    rcases hx with hx | rfl
    · exact h.stamped x hx hsome
    · rw [hlive] at hsome
      cases hsome

/-- A draft that rewrites one device shows it rewritten. -/
theorem commit_setDevice_shown {β : Type} {f : Device → Option β} (hf : Shows f) (o : RegistryOptions)
    (now : Int) (h : DevicesOk r) {d d' : Device} (hd : r.device d.id = some d)
    (hstep : DeviceStep d d') (hlive : d'.fields.deletedAt = none ∨ d'.state = .deleted) (dr : Draft)
    (hdevices : dr.devices = (r.draft.setDevice d').devices) :
    (Registry.commit o now dr).shown f = Function.update (r.shown f) d.id (f d') := by
  have hold : ∃ x ∈ keep r.devices, x.val.id = d'.id :=
    ⟨⟨d, false⟩, List.mem_map_of_mem (Registry.device_mem hd).1, hstep.id.symm⟩
  funext deviceId
  rw [commit_shown hf (hdevices ▸ draftDevicesOk_setDevice h hlive), hdevices, Draft.setDevice,
    Registry.draft, find_replaceFirst Device.id d' hold, vals_keep]
  by_cases hid : deviceId = d'.id
  · rw [if_pos hid, hid, hstep.id, Function.update_self]
    rfl
  · rw [if_neg hid, Function.update_of_ne (hstep.id ▸ hid)]
    rfl

theorem commit_sameDevices_shown {β : Type} {f : Device → Option β} (hf : Shows f)
    (o : RegistryOptions) (now : Int) (h : DevicesOk r) (dr : Draft)
    (hdevices : dr.devices = keep r.devices) :
    (Registry.commit o now dr).shown f = r.shown f := by
  funext deviceId
  rw [commit_shown hf (hdevices ▸ draftDevicesOk_keep h), hdevices, vals_keep]
  rfl

theorem commit_added_shown {β : Type} {f : Device → Option β} (hf : Shows f) (o : RegistryOptions)
    (now : Int) (h : DevicesOk r) {d : Device} (hnew : d.id ∉ r.devices.map Device.id)
    (hlive : d.fields.deletedAt = none) (dr : Draft)
    (hdevices : dr.devices = keep r.devices ++ [⟨d, true⟩]) :
    (Registry.commit o now dr).shown f = Function.update (r.shown f) d.id (f d) := by
  have hvals : vals dr.devices = r.devices ++ [d] := by
    rw [hdevices, vals_append, vals_keep]
    rfl
  funext deviceId
  rw [commit_shown hf (hdevices ▸ draftDevicesOk_added h hnew hlive), hvals, List.find?_append]
  by_cases hid : deviceId = d.id
  · have hnone : r.devices.find? (fun x => x.id = d.id) = none := Registry.device_none.mpr hnew
    rw [hid, hnone, Function.update_self]
    simp
  · rw [Function.update_of_ne hid, Registry.shown, Registry.device]
    cases r.devices.find? (fun x => x.id = deviceId) with
    | none => simp [Ne.symm hid]
    | some x => rfl

/-- A draft that rewrites one device updates its view. -/
theorem commit_setDevice (o : RegistryOptions) (now : Int) (h : DevicesOk r) {d d' : Device}
    (hd : r.device d.id = some d) (hstep : DeviceStep d d')
    (hlive : d'.fields.deletedAt = none ∨ d'.state = .deleted) (dr : Draft)
    (hdevices : dr.devices = (r.draft.setDevice d').devices) :
    (Registry.commit o now dr).view = Function.update r.view d.id d'.view ∧
      DevicesOk (Registry.commit o now dr) :=
  ⟨commit_setDevice_shown shows_view o now h hd hstep hlive dr hdevices,
    commit_devicesOk (hdevices ▸ draftDevicesOk_setDevice h hlive)⟩

/-- A draft that leaves the devices alone leaves their view. -/
theorem commit_sameDevices (o : RegistryOptions) (now : Int) (h : DevicesOk r) (dr : Draft)
    (hdevices : dr.devices = keep r.devices) :
    (Registry.commit o now dr).view = r.view ∧ DevicesOk (Registry.commit o now dr) :=
  ⟨commit_sameDevices_shown shows_view o now h dr hdevices,
    commit_devicesOk (hdevices ▸ draftDevicesOk_keep h)⟩

/-- A draft that adds a device shows it. -/
theorem commit_added (o : RegistryOptions) (now : Int) (h : DevicesOk r) {d : Device}
    (hnew : d.id ∉ r.devices.map Device.id) (hlive : d.fields.deletedAt = none) (dr : Draft)
    (hdevices : dr.devices = keep r.devices ++ [⟨d, true⟩]) :
    (Registry.commit o now dr).view = Function.update r.view d.id d.view ∧
      DevicesOk (Registry.commit o now dr) :=
  ⟨commit_added_shown shows_view o now h hnew hlive dr hdevices,
    commit_devicesOk (hdevices ▸ draftDevicesOk_added h hnew hlive)⟩

end View

/-! ### Calls -/

/-- The device a call rewrites, other than by granting or ending a lease. -/
def Call.device : Call → Option String
  | .transitionDevice deviceId .. => some deviceId
  | .recordRebootedDevice deviceId .. => some deviceId
  | .completeReclaimWithoutPurge deviceId => some deviceId
  | .enterQuarantine deviceId .. => some deviceId
  | .recordQuarantineRetryFailure deviceId .. => some deviceId
  | .recoverFromQuarantine deviceId _ => some deviceId
  | .strandQuarantine deviceId _ => some deviceId
  | .deleteQuarantined deviceId => some deviceId
  | .markForeignStateDetected deviceId _ => some deviceId
  | .markForeignProvenanceDetected deviceId _ => some deviceId
  | .clearForeignStateDetected deviceId => some deviceId
  | .markRecoveryAttempt deviceId _ => some deviceId
  | .clearRecovery deviceId => some deviceId
  | .markDeviceMissing deviceId => some deviceId
  | .rewriteAbsentReason deviceId _ => some deviceId
  | .reenrollPhysical deviceId _ => some deviceId
  | .unenrollPhysical deviceId => some deviceId
  | _ => none

/-- The lease a call ends. -/
def Call.ends : Call → Option String
  | .endLeaseAndMarkDeviceMissing leaseId => some leaseId
  | .endLeaseAndMarkDeviceAbsent leaseId _ => some leaseId
  | .beginRelease leaseId _ => some leaseId
  | _ => none

/-- The device a call adds, and whether it is physical. -/
def Call.adds : Call → Option (String × Bool)
  | .registerDevice id .. => some (id, false)
  | .enrollPhysical id _ => some (id, true)
  | _ => none

/-- The call grants, ends or renews a lease. -/
def Call.touchesLeases : Call → Bool
  | .createLease .. | .renewLease .. => true
  | c => c.ends.isSome

/-- The states a call moves its device between. -/
def Call.Moves (r : Registry) (d : Device) (s : DeviceState) : Call → Prop
  | .transitionDevice deviceId target event _ => Legal d target ∧ s = target ∧
    (target = .deleted → r.isLeased deviceId = false) ∧
    event.map Registry.RegistryDeviceEvent.event = Registry.eventForTransition d.state target
  | .completeReclaimWithoutPurge _ => d.state = .reclaiming ∧ s = .shutdown
  | .enterQuarantine .. =>
    (d.state = .reclaiming ∨ d.state = .provisioning ∨ d.state = .shutdown) ∧ s = .quarantined
  | .recordQuarantineRetryFailure .. | .strandQuarantine .. =>
    d.state = .quarantined ∧ s = .quarantined
  | .recoverFromQuarantine _ target => d.state = .quarantined ∧ Legal d target ∧ s = target
  | .deleteQuarantined _ => d.state = .quarantined ∧ s = .deleted
  | .markDeviceMissing deviceId =>
    d.isPhysical = false ∧ r.isLeased deviceId = false ∧ s = .deleted
  | .reenrollPhysical .. => d.isPhysical = true ∧ (d.state = .ready ∨ Legal d .ready) ∧ s = .ready
  | .unenrollPhysical _ => d.isPhysical = true ∧ Legal d .deleted ∧ s = .deleted
  | _ => s = d.state

/-- What a call that does not throw makes of the devices and the leases. -/
inductive Effect (r : Registry) (now : Int) (c : Call) (r' : Registry) : Prop
  | records (hc : c.touchesLeases = false) (hview : r'.view = r.view) (hleases : r'.leases = r.leases)
  | added {id : String} {physical : Bool} (hc : c.adds = some (id, physical))
    (hview : r'.view = Function.update r.view id
      (some ⟨physical, if physical then .ready else .provisioning, false⟩))
    (hleases : r'.leases = r.leases)
  | moved {d : Device} {s : DeviceState} (hc : c.device = some d.id) (hd : r.device d.id = some d)
    (hmoves : c.Moves r d s) (hview : r'.view = Function.update r.view d.id (d.viewIn s))
    (hleases : r'.leases = r.leases)
  | granted {generated : String} {input : Registry.CreateLeaseInput} {d : Device}
    (hc : c = .createLease generated input) (hd : r.device input.deviceId = some d)
    (hfree : r.isLeased input.deviceId = false) (hready : d.state = .ready)
    (hview : r'.view = Function.update r.view input.deviceId (d.viewIn .leased))
    (hleases : r'.leases = r.leases ++ [grantedLease now generated input])
  | ended {leaseId : String} {lease : LeaseRecord} {d : Device} {v : Option DeviceView}
    (hc : c.ends = some leaseId) (hl : r.lease leaseId = some lease)
    (hd : r.device lease.deviceId = some d)
    (hv : ∀ v', v = some v' → v'.isPhysical = d.isPhysical ∧ v'.state ≠ .leased ∧ v'.ended = true)
    (hview : r'.view = Function.update r.view lease.deviceId v)
    (hleases : r'.leases = r.leases.filter (fun l => l.id ≠ leaseId))
  | renewed {leaseId : String} {ttlDeadline ttlMs : Int} {lease : LeaseRecord}
    (hc : c = .renewLease leaseId ttlDeadline ttlMs) (hl : r.lease leaseId = some lease)
    (hview : r'.view = r.view)
    (hleases : r'.leases = vals (replaceFirst (fun l => l.id = leaseId)
      { lease with lastRenewedAt := now, ttlDeadline := ttlDeadline, ttlMs := ttlMs }
      (keep r.leases)))

section Effects

variable {r r' : Registry} {o : RegistryOptions} {now : Int} {c : Call}

theorem apply_eq_some : r.apply o now c = some r' ↔ (r.call o now c = .ok none ∧ r' = r) ∨
    ∃ draft, r.call o now c = .ok (some draft) ∧ r' = Registry.commit o now draft := by
  unfold Registry.apply
  cases r.call o now c with
  | error e => simp
  | ok od => cases od <;> simp [eq_comm]

theorem vals_leasesWithout (r : Registry) (leaseId : String) :
    vals (r.leasesWithout leaseId) = r.leases.filter (fun l => l.id ≠ leaseId) := by
  simp [Registry.leasesWithout, keep, vals, List.filter_map, Function.comp_def]

/-- A rewrite of a device that keeps its deletion keeps it well stamped. -/
theorem DeviceStep.live (h : DevicesOk r) {d d' : Device} (hd : d ∈ r.devices)
    (hstep : DeviceStep d d') : d'.fields.deletedAt = none ∨ d'.state = .deleted := by
  cases hdel : d'.fields.deletedAt with
  | none => exact .inl rfl
  | some t =>
    refine .inr (hstep.deleted (h.stamped d hd ?_))
    rw [← hstep.deletedAt, hdel]
    rfl

/-- An operation on one device moves that device. -/
theorem OneDevice.effect (h : DevicesOk r) {deviceId : String} {P : Device → DeviceState → Prop}
    (hone : OneDevice r deviceId P (r.call o now c)) (hc : c.device = some deviceId)
    (htouch : c.touchesLeases = false) (hP : ∀ d s, P d s → c.Moves r d s)
    (happly : r.apply o now c = some r') : Effect r now c r' ∧ DevicesOk r' := by
  rcases apply_eq_some.mp happly with ⟨-, rfl⟩ | ⟨draft, hcall, rfl⟩
  · exact ⟨.records htouch rfl rfl, h⟩
  · rw [hcall] at hone
    obtain ⟨d, d', hd, rfl, hstep, hended, hmove⟩ := hone draft rfl
    obtain ⟨hmem, hid⟩ := Registry.device_mem hd
    rw [← hid] at hd hc
    obtain ⟨hview, hok⟩ := commit_setDevice o now h hd hstep (hstep.live h hmem) _ rfl
    refine ⟨.moved hc hd (hP d d'.state hmove) ?_ (vals_keep _), hok⟩
    rw [hview, Device.view, Device.viewIn, Device.viewIn, hstep.isPhysical, hended]

/-- An operation that ends a lease ends it and moves its device out of it. -/
theorem EndsLease.effect (h : DevicesOk r) {leaseId : String} {P : Device → Device → Prop}
    (hends : EndsLease r leaseId P (r.call o now c)) (hc : c.ends = some leaseId)
    (hP : ∀ d d', P d d' → d'.state = .deleted ∨
      (d'.state ≠ .leased ∧ d'.fields.lastLeaseEndedAt = some now))
    (hnone : r.call o now c ≠ .ok none) (happly : r.apply o now c = some r') :
    Effect r now c r' ∧ DevicesOk r' := by
  rcases apply_eq_some.mp happly with ⟨hcall, -⟩ | ⟨draft, hcall, rfl⟩
  · exact absurd hcall hnone
  · rw [hcall] at hends
    obtain ⟨lease, d, d', hl, hd, rfl, hstep, hmove⟩ := hends draft rfl
    obtain ⟨hmem, hid⟩ := Registry.device_mem hd
    rw [← hid] at hd
    obtain ⟨hview, hok⟩ := commit_setDevice o now h hd hstep (hstep.live h hmem)
      { r.draft.setDevice d' with leases := r.leasesWithout leaseId } rfl
    rw [hid] at hd hview
    refine ⟨.ended hc hl hd ?_ hview ?_, hok⟩
    · intro v' hv'
      rw [Device.view, Device.viewIn] at hv'
      rcases hP d d' hmove with hdeleted | ⟨hstate, hended⟩
      · simp [hdeleted] at hv'
      · split at hv'
        · cases hv'
        · cases hv'
          exact ⟨hstep.isPhysical, hstate, by rw [hended]; rfl⟩
    · exact vals_leasesWithout r leaseId

theorem Legal.ready_of_leased {d : Device} (h : Legal d .leased) : d.state = .ready := by
  cases d with
  | virtual v =>
    obtain ⟨t, ht, hmem⟩ := h
    cases ht
    cases hs : v.state <;> simp_all [legalTransitions, Device.state, VirtualState.toState]
  | physical p =>
    obtain ⟨t, ht, hmem⟩ := h
    cases ht
    cases hs : p.state <;> simp_all [legalPhysicalTransitions, Device.state, PhysicalState.toState]

/-- The operation never finds nothing to commit. -/
def AlwaysCommits (x : Except RegistryError (Option Draft)) : Prop :=
  Yields anyError (fun od => od.isSome = true) x

theorem AlwaysCommits.ne_none {x : Except RegistryError (Option Draft)} (h : AlwaysCommits x) :
    x ≠ .ok none := by
  rintro rfl
  cases h

theorem createLease_commits (generated : String) (input : Registry.CreateLeaseInput) :
    AlwaysCommits (r.createLease now generated input) := by
  refine (requireDeviceRecord_yields r input.deviceId).bind fun d _ => ?_
  split
  · trivial
  · exact (transitioned_yields now d .leased {}).bind fun m _ => rfl

theorem beginRelease_commits (leaseId : String) (deferReclaim : Bool) :
    AlwaysCommits (r.beginRelease now leaseId deferReclaim) := by
  refine (requireLease_yields r leaseId).bind fun lease _ => ?_
  refine (requireDeviceRecord_yields r lease.deviceId).bind fun d _ => ?_
  exact (transitioned_yields now _ .reclaiming {}).bind fun m _ => rfl

theorem endLeaseAndMarkDeviceMissing_commits (leaseId : String) :
    AlwaysCommits (r.endLeaseAndMarkDeviceMissing leaseId) := by
  refine (requireLease_yields r leaseId).bind fun lease _ => ?_
  refine (requireDeviceRecord_yields r lease.deviceId).bind fun d _ => ?_
  exact (missing_yields d _).bind fun draft _ => rfl

theorem endLeaseAndMarkDeviceAbsent_commits (leaseId : String) (absentReason : AbsentReason) :
    AlwaysCommits (r.endLeaseAndMarkDeviceAbsent now leaseId absentReason) := by
  refine (requireLease_yields r leaseId).bind fun lease _ => ?_
  refine (requireDeviceRecord_yields r lease.deviceId).bind fun d _ => ?_
  exact (transitioned_yields now d .absent _).bind fun m _ => rfl

theorem createLease_effect (h : DevicesOk r) {generated : String}
    {input : Registry.CreateLeaseInput}
    (happly : r.apply o now (.createLease generated input) = some r') :
    Effect r now (.createLease generated input) r' ∧ DevicesOk r' := by
  have hyields : Yields anyError _ (r.call o now (.createLease generated input)) :=
    createLease_yields generated input
  rcases apply_eq_some.mp happly with ⟨hcall, -⟩ | ⟨draft, hcall, rfl⟩
  · exact absurd hcall (createLease_commits generated input).ne_none
  · rw [hcall] at hyields
    obtain ⟨d, d', requests, hd, hfree, hm, -, -, rfl⟩ := hyields draft rfl
    obtain ⟨hmem, hid⟩ := Registry.device_mem hd
    rw [← hid] at hd
    obtain ⟨hview, hok⟩ := commit_setDevice o now h hd hm.step (hm.step.live h hmem)
      { r.draft.setDevice d' with
        leases := keep r.leases ++ [⟨grantedLease now generated input, true⟩]
        leaseRequests := requests } rfl
    rw [hid] at hd hview
    refine ⟨.granted rfl hd hfree hm.legal.ready_of_leased ?_ ?_, hok⟩
    · rw [hview, Device.view, Device.viewIn, Device.viewIn, hm.step.isPhysical, hm.ended, hm.state]
    · exact (vals_append _ _).trans (by rw [vals_keep]; rfl)

theorem renewLease_effect (h : DevicesOk r) {leaseId : String} {ttlDeadline ttlMs : Int}
    (happly : r.apply o now (.renewLease leaseId ttlDeadline ttlMs) = some r') :
    Effect r now (.renewLease leaseId ttlDeadline ttlMs) r' ∧ DevicesOk r' := by
  have hyields : Yields anyError (fun od => ∃ lease, r.lease leaseId = some lease ∧
      od = some { r.draft with
        leases := replaceFirst (fun l => l.id = leaseId)
          { lease with lastRenewedAt := now, ttlDeadline := ttlDeadline, ttlMs := ttlMs }
          (keep r.leases) }) (r.call o now (.renewLease leaseId ttlDeadline ttlMs)) :=
    (requireLease_yields r leaseId).bind fun lease hl => ⟨lease, hl, rfl⟩
  rcases apply_eq_some.mp happly with ⟨hcall, -⟩ | ⟨draft, hcall, rfl⟩
  · rw [hcall] at hyields
    obtain ⟨lease, -, hod⟩ := hyields
    cases hod
  · rw [hcall] at hyields
    obtain ⟨lease, hl, hod⟩ := hyields
    cases hod
    obtain ⟨hview, hok⟩ := commit_sameDevices o now h { r.draft with
      leases := replaceFirst (fun l => l.id = leaseId)
        { lease with lastRenewedAt := now, ttlDeadline := ttlDeadline, ttlMs := ttlMs }
        (keep r.leases) } rfl
    exact ⟨.renewed rfl hl hview rfl, hok⟩

/-- A call that adds a device shows it, as it was made. -/
theorem added_effect (h : DevicesOk r) {d : Device} {id : String} {physical : Bool} {draft : Draft}
    (hdevices : draft.devices = keep r.devices ++ [⟨d, true⟩]) (hleases : draft.leases = keep r.leases)
    (hc : c.adds = some (id, physical)) (hid : d.id = id) (hlive : d.fields.deletedAt = none)
    (hview : d.view = some ⟨physical, if physical then .ready else .provisioning, false⟩)
    (hnew : id ∉ r.devices.map Device.id) :
    Effect r now c (Registry.commit o now draft) ∧ DevicesOk (Registry.commit o now draft) := by
  obtain ⟨hshown, hok⟩ := commit_added o now h (hid ▸ hnew) hlive draft hdevices
  refine ⟨.added hc ?_ ((congrArg vals hleases).trans (vals_keep _)), hok⟩
  rw [hshown, hid, hview]

/-- A call that writes neither devices nor leases changes neither. -/
theorem records_effect (h : DevicesOk r) (hc : c.touchesLeases = false)
    (hdraft : ∀ draft, r.call o now c = .ok (some draft) →
      draft.devices = keep r.devices ∧ draft.leases = keep r.leases)
    (happly : r.apply o now c = some r') : Effect r now c r' ∧ DevicesOk r' := by
  rcases apply_eq_some.mp happly with ⟨-, rfl⟩ | ⟨draft, hcall, rfl⟩
  · exact ⟨.records hc rfl rfl, h⟩
  · obtain ⟨hdevices, hleases⟩ := hdraft draft hcall
    obtain ⟨hview, hok⟩ := commit_sameDevices o now h draft hdevices
    refine ⟨.records hc hview ?_, hok⟩
    exact (congrArg vals hleases).trans (vals_keep _)

example : (Registry.empty.call ⟨fun _ => .fresh, 1, 1, 1, by decide, by decide⟩ 0
    (.markDeviceMissing "dev_1")).isOk = false := by decide +kernel

/-- What every call does, and that it leaves the devices well formed. -/
theorem apply_effect (h : DevicesOk r)
    (hnew : ∀ id physical, c.adds = some (id, physical) → id ∉ r.devices.map Device.id)
    (happly : r.apply o now c = some r') : Effect r now c r' ∧ DevicesOk r' := by
  cases c with
  | registerDevice id driverDeviceId spec driverData =>
    rcases apply_eq_some.mp happly with ⟨hcall, -⟩ | ⟨draft, hcall, rfl⟩
    · cases hcall
    · cases hcall
      exact added_effect h rfl rfl rfl rfl rfl rfl (hnew id false rfl)
  | enrollPhysical id input =>
    rcases apply_eq_some.mp happly with ⟨hcall, -⟩ | ⟨draft, hcall, rfl⟩
    · cases hcall
    · cases hcall
      exact added_effect h rfl rfl rfl rfl rfl rfl (hnew id true rfl)
  | transitionDevice deviceId target event update =>
    exact OneDevice.effect h (transitionDevice_one target event update) rfl rfl
      (fun _ _ hP => hP) happly
  | recordRebootedDevice deviceId address driverData mode =>
    exact OneDevice.effect h (recordRebootedDevice_one address driverData mode) rfl rfl
      (fun _ _ hP => hP.2) happly
  | completeReclaimWithoutPurge deviceId =>
    exact OneDevice.effect h completeReclaimWithoutPurge_one rfl rfl (fun _ _ hP => hP) happly
  | enterQuarantine deviceId nextRetryAt cause =>
    exact OneDevice.effect h (enterQuarantine_one nextRetryAt cause) rfl rfl (fun _ _ hP => hP) happly
  | recordQuarantineRetryFailure deviceId attempts nextRetryAt =>
    exact OneDevice.effect h (recordQuarantineRetryFailure_one attempts nextRetryAt) rfl rfl
      (fun _ _ hP => hP) happly
  | recoverFromQuarantine deviceId target =>
    exact OneDevice.effect h (recoverFromQuarantine_one target) rfl rfl (fun _ _ hP => hP) happly
  | strandQuarantine deviceId attempts =>
    exact OneDevice.effect h (strandQuarantine_one attempts) rfl rfl (fun _ _ hP => hP) happly
  | deleteQuarantined deviceId =>
    exact OneDevice.effect h deleteQuarantined_one rfl rfl (fun _ _ hP => hP) happly
  | markForeignStateDetected deviceId at_ =>
    exact OneDevice.effect h (markForeignStateDetected_one at_) rfl rfl (fun _ _ hP => hP) happly
  | markForeignProvenanceDetected deviceId at_ =>
    exact OneDevice.effect h (markForeignProvenanceDetected_one at_) rfl rfl
      (fun _ _ hP => hP) happly
  | clearForeignStateDetected deviceId =>
    exact OneDevice.effect h clearForeignStateDetected_one rfl rfl (fun _ _ hP => hP) happly
  | markRecoveryAttempt deviceId at_ =>
    exact OneDevice.effect h (markRecoveryAttempt_one at_) rfl rfl (fun _ _ hP => hP) happly
  | clearRecovery deviceId =>
    exact OneDevice.effect h clearRecovery_one rfl rfl (fun _ _ hP => hP) happly
  | markDeviceMissing deviceId =>
    exact OneDevice.effect h markDeviceMissing_one rfl rfl
      (fun _ _ hP => ⟨hP.1, hP.2.1, hP.2.2.2⟩) happly
  | rewriteAbsentReason deviceId absentReason =>
    exact OneDevice.effect h (rewriteAbsentReason_one absentReason) rfl rfl (fun _ _ hP => hP) happly
  | reenrollPhysical deviceId input =>
    exact OneDevice.effect h (reenrollPhysical_one input) rfl rfl (fun _ _ hP => hP) happly
  | unenrollPhysical deviceId =>
    exact OneDevice.effect h unenrollPhysical_one rfl rfl (fun _ _ hP => hP) happly
  | endLeaseAndMarkDeviceMissing leaseId =>
    exact EndsLease.effect h (endLeaseAndMarkDeviceMissing_ends leaseId) rfl
      (fun _ _ hP => .inl hP.2) (endLeaseAndMarkDeviceMissing_commits leaseId).ne_none happly
  | endLeaseAndMarkDeviceAbsent leaseId absentReason =>
    refine EndsLease.effect h (endLeaseAndMarkDeviceAbsent_ends leaseId absentReason) rfl
      (fun _ _ hP => .inr ⟨?_, hP.2.2⟩)
      (endLeaseAndMarkDeviceAbsent_commits leaseId absentReason).ne_none happly
    rw [hP.2.1]
    simp
  | beginRelease leaseId deferReclaim =>
    refine EndsLease.effect h (beginRelease_ends leaseId deferReclaim) rfl
      (fun _ _ hP => .inr ⟨?_, hP.2.2⟩) (beginRelease_commits leaseId deferReclaim).ne_none happly
    rw [hP.2.1]
    simp
  | createLease generated input => exact createLease_effect h happly
  | renewLease leaseId ttlDeadline ttlMs => exact renewLease_effect h happly
  | createLeaseRequest input =>
    refine records_effect h rfl (fun draft hcall => ?_) happly
    cases hcall
    exact ⟨rfl, rfl⟩
  | settleLeaseRequest id outcome =>
    refine records_effect h rfl (fun draft hcall => ?_) happly
    obtain ⟨requests, -, rfl⟩ := Option.map_eq_some_iff.mp (Except.ok.inj hcall)
    exact ⟨rfl, rfl⟩
  | failOpenLeaseRequests failure =>
    refine records_effect h rfl (fun draft hcall => ?_) happly
    simp only [Registry.call, Registry.failOpenLeaseRequests] at hcall
    split at hcall
    · cases hcall
    · cases hcall
      exact ⟨rfl, rfl⟩
  | recordComponent record =>
    refine records_effect h rfl (fun draft hcall => ?_) happly
    cases hcall
    exact ⟨rfl, rfl⟩
  | deleteComponent platform version =>
    refine records_effect h rfl (fun draft hcall => ?_) happly
    simp only [Registry.call, Registry.deleteComponent] at hcall
    split at hcall
    · cases hcall
    · cases hcall
      exact ⟨rfl, rfl⟩

/-- A call that does not touch the leases leaves them, whatever the devices are. -/
theorem apply_leases (hc : c.touchesLeases = false) (happly : r.apply o now c = some r') :
    r'.leases = r.leases := by
  rcases apply_eq_some.mp happly with ⟨-, rfl⟩ | ⟨draft, hcall, rfl⟩
  · rfl
  suffices hkeep : draft.leases = keep r.leases from (congrArg vals hkeep).trans (vals_keep _)
  have hone : ∀ {deviceId : String} {P : Device → DeviceState → Prop},
      OneDevice r deviceId P (r.call o now c) → draft.leases = keep r.leases := by
    intro deviceId P h
    rw [hcall] at h
    obtain ⟨d, d', -, rfl, -⟩ := h draft rfl
    rfl
  cases c with
  | registerDevice id driverDeviceId spec driverData => cases hcall; rfl
  | enrollPhysical id input => cases hcall; rfl
  | transitionDevice deviceId target event update =>
    exact hone (transitionDevice_one target event update)
  | recordRebootedDevice deviceId address driverData mode =>
    exact hone (recordRebootedDevice_one address driverData mode)
  | completeReclaimWithoutPurge deviceId => exact hone completeReclaimWithoutPurge_one
  | enterQuarantine deviceId nextRetryAt cause => exact hone (enterQuarantine_one nextRetryAt cause)
  | recordQuarantineRetryFailure deviceId attempts nextRetryAt =>
    exact hone (recordQuarantineRetryFailure_one attempts nextRetryAt)
  | recoverFromQuarantine deviceId target => exact hone (recoverFromQuarantine_one target)
  | strandQuarantine deviceId attempts => exact hone (strandQuarantine_one attempts)
  | deleteQuarantined deviceId => exact hone deleteQuarantined_one
  | markForeignStateDetected deviceId at_ => exact hone (markForeignStateDetected_one at_)
  | markForeignProvenanceDetected deviceId at_ => exact hone (markForeignProvenanceDetected_one at_)
  | clearForeignStateDetected deviceId => exact hone clearForeignStateDetected_one
  | markRecoveryAttempt deviceId at_ => exact hone (markRecoveryAttempt_one at_)
  | clearRecovery deviceId => exact hone clearRecovery_one
  | markDeviceMissing deviceId => exact hone markDeviceMissing_one
  | rewriteAbsentReason deviceId absentReason => exact hone (rewriteAbsentReason_one absentReason)
  | reenrollPhysical deviceId input => exact hone (reenrollPhysical_one input)
  | unenrollPhysical deviceId => exact hone unenrollPhysical_one
  | createLeaseRequest input => cases hcall; rfl
  | settleLeaseRequest id outcome =>
    obtain ⟨requests, -, rfl⟩ := Option.map_eq_some_iff.mp (Except.ok.inj hcall)
    rfl
  | failOpenLeaseRequests failure =>
    simp only [Registry.call, Registry.failOpenLeaseRequests] at hcall
    split at hcall
    · cases hcall
    · cases hcall
      rfl
  | recordComponent record => cases hcall; rfl
  | deleteComponent platform version =>
    simp only [Registry.call, Registry.deleteComponent] at hcall
    split at hcall
    · cases hcall
    · cases hcall
      rfl
  | _ => cases hc

/-- A call that ends a lease leaves the others. -/
theorem apply_ends {leaseId : String} (hc : c.ends = some leaseId)
    (happly : r.apply o now c = some r') : r'.leases = r.leases.filter (fun l => l.id ≠ leaseId) := by
  have hends : ∀ {P : Device → Device → Prop}, EndsLease r leaseId P (r.call o now c) →
      AlwaysCommits (r.call o now c) → r'.leases = r.leases.filter (fun l => l.id ≠ leaseId) := by
    intro P h hcommits
    rcases apply_eq_some.mp happly with ⟨hcall, -⟩ | ⟨draft, hcall, rfl⟩
    · exact absurd hcall hcommits.ne_none
    · rw [hcall] at h
      obtain ⟨lease, d, d', -, -, rfl, -⟩ := h draft rfl
      exact vals_leasesWithout r leaseId
  cases c with
  | endLeaseAndMarkDeviceMissing id =>
    cases hc
    exact hends (endLeaseAndMarkDeviceMissing_ends _) (endLeaseAndMarkDeviceMissing_commits _)
  | endLeaseAndMarkDeviceAbsent id absentReason =>
    cases hc
    exact hends (endLeaseAndMarkDeviceAbsent_ends _ _) (endLeaseAndMarkDeviceAbsent_commits _ _)
  | beginRelease id deferReclaim =>
    cases hc
    exact hends (beginRelease_ends _ _) (beginRelease_commits _ _)
  | _ => cases hc

/-- A grant adds its lease. -/
theorem apply_grants {generated : String} {input : Registry.CreateLeaseInput}
    (happly : r.apply o now (.createLease generated input) = some r') :
    r'.leases = r.leases ++ [grantedLease now generated input] := by
  have hyields : Yields anyError _ (r.call o now (.createLease generated input)) :=
    createLease_yields generated input
  rcases apply_eq_some.mp happly with ⟨hcall, -⟩ | ⟨draft, hcall, rfl⟩
  · exact absurd hcall (createLease_commits generated input).ne_none
  · rw [hcall] at hyields
    obtain ⟨d, d', requests, -, -, -, -, -, rfl⟩ := hyields draft rfl
    exact (vals_append _ _).trans (by rw [vals_keep]; rfl)

/-- A renewal keeps the ids of the leases. -/
theorem apply_renews {leaseId : String} {ttlDeadline ttlMs : Int}
    (happly : r.apply o now (.renewLease leaseId ttlDeadline ttlMs) = some r') :
    r'.leases.map LeaseRecord.id = r.leases.map LeaseRecord.id := by
  have hyields : Yields anyError (fun od => ∀ draft, od = some draft →
      draft.leases.map (fun x => x.val.id) = (keep r.leases).map (fun x => x.val.id))
      (r.call o now (.renewLease leaseId ttlDeadline ttlMs)) := by
    refine (requireLease_yields r leaseId).bind fun lease hl => ?_
    rintro draft ⟨⟩
    exact map_replaceFirst LeaseRecord.id fun x _ hp =>
      (of_decide_eq_true hp).trans (Registry.lease_mem hl).2.symm
  rcases apply_eq_some.mp happly with ⟨-, rfl⟩ | ⟨draft, hcall, rfl⟩
  · rfl
  · rw [hcall] at hyields
    have hids := hyields draft rfl
    change ((draft.leases.map Obj.val).map LeaseRecord.id) = _
    rw [List.map_map]
    refine hids.trans ?_
    simp [keep]

end Effects

end Simlock.Core
