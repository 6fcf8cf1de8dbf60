import Simlock.Core.Capacity
import Simlock.Core.Modes
import Simlock.Worker.Sections
import Mathlib.Algebra.Order.BigOperators.Group.List
import Mathlib.Algebra.Order.Group.Nat

/-! Sums over the devices of a registry.

    The limits of a worker bound sums over its devices: how many there are, how many run, how much
    RAM they take. A commit rewrites one device, adds one, or leaves them all, and drops only deleted
    ones, so a weight that deleted devices do not have changes by that one device. -/

namespace Simlock.Worker

open Simlock.Lib Simlock.Core

/-- The sum of a weight over the devices. -/
def total (w : Device → Nat) (r : Registry) : Nat := (r.devices.map w).sum

def virtualDevices (r : Registry) : List VirtualDevice :=
  r.devices.filterMap fun
    | .virtual v => some v
    | .physical _ => none

theorem mem_virtualDevices {r : Registry} {v : VirtualDevice} :
    v ∈ virtualDevices r ↔ Device.virtual v ∈ r.devices := by
  rw [virtualDevices, List.mem_filterMap]
  constructor
  · rintro ⟨d, hd, he⟩
    cases d with
    | virtual w => exact Option.some.inj he ▸ hd
    | physical q => cases he
  · exact fun hv => ⟨_, hv, rfl⟩

/-- A weight of virtual devices only. -/
def onVirtual (g : VirtualDevice → Nat) : Device → Nat
  | .virtual v => g v
  | .physical _ => 0

/-- A weight that a rewrite of the shared fields keeps and that deleted devices do not have. -/
structure Weighs (w : Device → Nat) : Prop where
  fields : ∀ (d : Device) (fs : DeviceRecordFields), fs.id = d.id → w (d.setFields fs) = w d
  deleted : ∀ d : Device, d.state = .deleted → w d = 0

section Sums

variable {w : Device → Nat} {r : Registry} {o : RegistryOptions} {now : Int}

theorem sum_virtualDevices (r : Registry) (g : VirtualDevice → Nat) :
    ((virtualDevices r).map g).sum = total (onVirtual g) r := by
  rw [virtualDevices, total]
  induction r.devices with
  | nil => rfl
  | cons d ds ih =>
    cases d with
    | virtual v =>
      rw [List.map_cons, List.sum_cons, ← ih]
      rfl
    | physical p =>
      rw [List.map_cons, List.sum_cons, ← ih]
      exact (Nat.zero_add _).symm

theorem countP_virtualDevices (r : Registry) (q : VirtualDevice → Bool) :
    (virtualDevices r).countP q = total (onVirtual fun v => if q v then 1 else 0) r := by
  rw [← sum_virtualDevices]
  induction virtualDevices r with
  | nil => rfl
  | cons v vs ih =>
    rw [List.countP_cons, List.map_cons, List.sum_cons, ih]
    omega

/-- A weight that looks at no shared field but the id. -/
theorem weighs_onVirtual {g : VirtualDevice → Nat}
    (hfields : ∀ (v : VirtualDevice) (fs : DeviceRecordFields), fs.id = v.id →
      g { v with toDeviceRecordFields := fs } = g v)
    (hdeleted : ∀ v : VirtualDevice, v.state = .deleted → g v = 0) : Weighs (onVirtual g) where
  fields d fs hid := by
    cases d with
    | virtual v => exact hfields v fs hid
    | physical p => rfl
  deleted d hd := by
    cases d with
    | virtual v =>
      refine hdeleted v ?_
      cases hv : v.state <;> simp_all [Device.state, VirtualState.toState]
    | physical p => rfl

theorem total_le {w w' : Device → Nat} (h : ∀ d ∈ r.devices, w d ≤ w' d) :
    total w r ≤ total w' r := List.sum_le_sum h

theorem eq_zero_of_total {d : Device} (h : total w r = 0) (hd : d ∈ r.devices) : w d = 0 :=
  List.sum_eq_zero_iff_forall_eq_nat.mp h _ (List.mem_map_of_mem hd)

/-- What one device of an id weighs. -/
theorem total_at_le {r : Registry} (hnodup : (r.devices.map Device.id).Nodup) (deviceId : String)
    (n : Nat) : total (fun d => if d.id = deviceId then n else 0) r ≤ n := by
  rw [total]
  generalize r.devices = ds at hnodup
  induction ds with
  | nil => exact Nat.zero_le _
  | cons d ds ih =>
    rw [List.map_cons, List.nodup_cons] at hnodup
    have htail := ih hnodup.2
    rw [List.map_cons, List.sum_cons]
    by_cases hd : d.id = deviceId
    · have hrest : (ds.map fun d => if d.id = deviceId then n else 0).sum = 0 := by
        refine List.sum_eq_zero fun k hk => ?_
        obtain ⟨x, hx, rfl⟩ := List.mem_map.mp hk
        refine if_neg fun he => hnodup.1 (List.mem_map.mpr ⟨x, hx, he.trans hd.symm⟩)
      rw [if_pos hd, hrest]
      exact Nat.le_refl _
    · rw [if_neg hd]
      omega

theorem Weighs.stamp (hw : Weighs w) (x : Obj Device) : w (stamp now x).val = w x.val := by
  have hcause : w (withoutCauseUnlessQuarantined x).val = w x.val := by
    rw [withoutCauseUnlessQuarantined]
    split
    · rfl
    · exact hw.fields _ _ rfl
  rw [Core.stamp, stampDeleted]
  split
  · rw [← hcause]
    exact hw.fields _ _ rfl
  · exact hcause

/-- What a filter drops weighs nothing. -/
theorem sum_filter_of_zero {α : Type} (f : α → Nat) (p : α → Bool) (l : List α)
    (h : ∀ x ∈ l, p x = false → f x = 0) : ((l.filter p).map f).sum = (l.map f).sum := by
  induction l with
  | nil => rfl
  | cons x l ih =>
    have htail := ih fun y hy => h y (List.mem_cons_of_mem _ hy)
    by_cases hp : p x = true
    · rw [List.filter_cons_of_pos hp, List.map_cons, List.map_cons, List.sum_cons, List.sum_cons,
        htail]
    · rw [List.filter_cons_of_neg hp, List.map_cons, List.sum_cons, htail,
        h x List.mem_cons_self (by simpa using hp), Nat.zero_add]

/-- A commit weighs what its draft weighs. -/
theorem total_commit (hw : Weighs w) {draft : Draft}
    (hstamped : ∀ x ∈ draft.devices, x.val.fields.deletedAt.isSome → x.val.state = .deleted) :
    total w (Registry.commit o now draft) = (draft.devices.map fun x => w x.val).sum := by
  have hdevices : (Registry.commit o now draft).devices =
      (((draft.devices.map (stamp now)).filter
        fun x => !isExpired now o.deletedRetentionMs x.val).map Obj.val) := rfl
  rw [total, hdevices, List.map_map, sum_filter_of_zero]
  · rw [List.map_map]
    congr 1
    refine List.map_congr_left fun x _ => ?_
    exact hw.stamp x
  · intro y hy hexpired
    obtain ⟨x, hx, rfl⟩ := List.mem_map.mp hy
    have hstamp := (stamp_spec now x).1
    refine hw.deleted _ ?_
    rw [hstamp.state]
    rcases hstamp.deletedAt with he | ⟨-, he⟩
    · refine hstamped x hx ?_
      rw [← he]
      cases hat : (Core.stamp now x).val.fields.deletedAt with
      | none => simp [isExpired, hat] at hexpired
      | some at_ => rfl
    · -- what is stamped now has not expired
      have hpos := o.retention_pos
      have hle := o.retention_le
      simp only [isExpired, he, Bool.not_eq_false', decide_eq_true_eq] at hexpired
      omega

theorem sum_keep (w : Device → Nat) (ds : List Device) :
    ((keep ds).map fun x => w x.val).sum = (ds.map w).sum := by
  rw [keep, List.map_map]
  rfl

/-- One device rewritten in a list of different ones. -/
theorem sum_replaceFirst {d d' : Device} {ds : List Device} (hnodup : (ds.map Device.id).Nodup)
    (hd : d ∈ ds) (hid : d'.id = d.id) (w : Device → Nat) :
    ((replaceFirst (fun x : Device => x.id = d'.id) d' (keep ds)).map fun x => w x.val).sum + w d =
      (ds.map w).sum + w d' := by
  induction ds with
  | nil => cases hd
  | cons x ds ih =>
    rw [List.map_cons, List.nodup_cons] at hnodup
    have hkeep : keep (x :: ds) = ⟨x, false⟩ :: keep ds := rfl
    rw [hkeep, replaceFirst]
    by_cases hx : x.id = d'.id
    · have hsame : x = d := by
        rcases List.mem_cons.mp hd with rfl | hmem
        · rfl
        · exact absurd (List.mem_map.mpr ⟨d, hmem, hid.symm.trans hx.symm⟩) hnodup.1
      rw [if_pos (decide_eq_true hx), hsame, List.map_cons, List.map_cons, List.sum_cons,
        List.sum_cons, sum_keep]
      dsimp only
      omega
    · have hmem : d ∈ ds := by
        rcases List.mem_cons.mp hd with rfl | hmem
        · exact absurd hid.symm hx
        · exact hmem
      rw [if_neg (by simpa using hx), List.map_cons, List.map_cons, List.sum_cons, List.sum_cons]
      have htail := ih hnodup.2 hmem
      dsimp only
      omega

end Sums

/-! ### What a call rewrites -/

/-- The state a call leaves a device in, from the one it was in. -/
def Turns (r : Registry) (d : Device) (state : DeviceState) : Call → Prop
  | .createLease .. => d.state = .ready ∧ state = .leased
  | .beginRelease .. => Legal d .reclaiming ∧ state = .reclaiming
  | .endLeaseAndMarkDeviceMissing _ => d.isPhysical = false ∧ state = .deleted
  | .endLeaseAndMarkDeviceAbsent .. => d.isPhysical = true ∧ state = .absent
  | c => c.Moves r d state

/-- A device as a call adds it. -/
def Adds (o : RegistryOptions) (now : Int) (d : Device) : Call → Prop
  | .registerDevice id driverDeviceId spec driverData => ∃ v : VirtualDevice, d = .virtual v ∧
    v.id = id ∧ v.driverDeviceId = driverDeviceId ∧ v.spec = spec ∧ v.state = .provisioning ∧
    v.driverData = driverData ∧ v.mode = .full ∧ v.createdAt = now ∧
    v.leaseIdentity = some (o.leaseIdentity spec.platform)
  | .enrollPhysical id _ => ∃ p : PhysicalDevice, d = .physical p ∧ p.id = id
  | _ => False

/-- What a call makes of the devices: none is changed, one is rewritten, or one is added. -/
inductive Rewrites (r : Registry) (o : RegistryOptions) (now : Int) (c : Call)
    (devices : List (Obj Device)) : Prop
  | none (h : devices = keep r.devices)
  | one {d d' : Device} (hd : r.device d.id = some d) (hstep : DeviceStep d d')
    (hadds : c.adds = .none) (hdevice : ∀ id, c.device = some id → d.id = id) (hturns : Turns r d d'.state c) (h : devices = (r.draft.setDevice d').devices)
  | added {d : Device} (hadds : Adds o now d c) (hlive : d.fields.deletedAt = .none)
    (h : devices = keep r.devices ++ [⟨d, true⟩])

section Calls

variable {r r' : Registry} {o : RegistryOptions} {now : Int} {c : Call} {draft : Draft}

theorem OneDevice.rewrites {deviceId : String} {P : Device → DeviceState → Prop}
    (hone : OneDevice r deviceId P (r.call o now c)) (hdevice : c.device = some deviceId)
    (hP : ∀ d s, P d s → Turns r d s c) (hcall : r.call o now c = .ok (some draft)) : Rewrites r o now c draft.devices := by
  rw [hcall] at hone
  obtain ⟨d, d', hd, rfl, hstep, -, hmoves⟩ := hone draft rfl
  obtain ⟨-, hid⟩ := Registry.device_mem hd
  rw [← hid] at hd
  refine .one hd hstep ?_ (fun id hc => ?_) (hP d _ hmoves) rfl
  · cases c <;> first | rfl | cases hdevice
  · rw [hid]
    exact Option.some.inj (hdevice.symm.trans hc)

theorem EndsLease.rewrites {leaseId : String} {P : Device → Device → Prop}
    (hends : EndsLease r leaseId P (r.call o now c)) (hdevice : c.device = none ∧ c.adds = none)
    (hP : ∀ d d', P d d' → Turns r d d'.state c) (hcall : r.call o now c = .ok (some draft)) : Rewrites r o now c draft.devices := by
  rw [hcall] at hends
  obtain ⟨lease, d, d', -, hd, rfl, hstep, hmoves⟩ := hends draft rfl
  obtain ⟨-, hid⟩ := Registry.device_mem hd
  rw [← hid] at hd
  refine .one hd hstep hdevice.2 (fun id hc => ?_) (hP d d' hmoves) rfl
  cases hdevice.1.symm.trans hc

theorem call_rewrites (hcall : r.call o now c = .ok (some draft)) :
    Rewrites r o now c draft.devices := by
  cases c with
  | registerDevice id driverDeviceId spec driverData =>
    cases hcall
    exact .added ⟨_, rfl, rfl, rfl, rfl, rfl, rfl, rfl, rfl, rfl⟩ rfl rfl
  | enrollPhysical id input =>
    cases hcall
    exact .added ⟨_, rfl, rfl⟩ rfl rfl
  | transitionDevice deviceId target event update =>
    exact OneDevice.rewrites (transitionDevice_one target event update) rfl (fun _ _ hP => hP) hcall
  | recordRebootedDevice deviceId address driverData mode =>
    exact OneDevice.rewrites (recordRebootedDevice_one address driverData mode)
      rfl (fun _ _ hP => hP.2) hcall
  | completeReclaimWithoutPurge deviceId =>
    exact OneDevice.rewrites completeReclaimWithoutPurge_one rfl (fun _ _ hP => hP) hcall
  | enterQuarantine deviceId nextRetryAt cause =>
    exact OneDevice.rewrites (enterQuarantine_one nextRetryAt cause) rfl (fun _ _ hP => hP) hcall
  | recordQuarantineRetryFailure deviceId attempts nextRetryAt =>
    exact OneDevice.rewrites (recordQuarantineRetryFailure_one attempts nextRetryAt)
      rfl (fun _ _ hP => hP) hcall
  | recoverFromQuarantine deviceId target =>
    exact OneDevice.rewrites (recoverFromQuarantine_one target) rfl (fun _ _ hP => hP) hcall
  | strandQuarantine deviceId attempts =>
    exact OneDevice.rewrites (strandQuarantine_one attempts) rfl (fun _ _ hP => hP) hcall
  | deleteQuarantined deviceId =>
    exact OneDevice.rewrites deleteQuarantined_one rfl (fun _ _ hP => hP) hcall
  | markForeignStateDetected deviceId at_ =>
    exact OneDevice.rewrites (markForeignStateDetected_one at_) rfl (fun _ _ hP => hP) hcall
  | markForeignProvenanceDetected deviceId at_ =>
    exact OneDevice.rewrites (markForeignProvenanceDetected_one at_) rfl (fun _ _ hP => hP) hcall
  | clearForeignStateDetected deviceId =>
    exact OneDevice.rewrites clearForeignStateDetected_one rfl (fun _ _ hP => hP) hcall
  | markRecoveryAttempt deviceId at_ =>
    exact OneDevice.rewrites (markRecoveryAttempt_one at_) rfl (fun _ _ hP => hP) hcall
  | clearRecovery deviceId =>
    exact OneDevice.rewrites clearRecovery_one rfl (fun _ _ hP => hP) hcall
  | markDeviceMissing deviceId =>
    exact OneDevice.rewrites markDeviceMissing_one rfl (fun _ _ hP => ⟨hP.1, hP.2.1, hP.2.2.2⟩) hcall
  | rewriteAbsentReason deviceId absentReason =>
    exact OneDevice.rewrites (rewriteAbsentReason_one absentReason) rfl (fun _ _ hP => hP) hcall
  | reenrollPhysical deviceId input =>
    exact OneDevice.rewrites (reenrollPhysical_one input) rfl (fun _ _ hP => hP) hcall
  | unenrollPhysical deviceId =>
    exact OneDevice.rewrites unenrollPhysical_one rfl (fun _ _ hP => hP) hcall
  | endLeaseAndMarkDeviceMissing leaseId =>
    exact EndsLease.rewrites (endLeaseAndMarkDeviceMissing_ends leaseId) ⟨rfl, rfl⟩ (fun _ _ hP => hP) hcall
  | endLeaseAndMarkDeviceAbsent leaseId absentReason =>
    exact EndsLease.rewrites (endLeaseAndMarkDeviceAbsent_ends leaseId absentReason)
      ⟨rfl, rfl⟩ (fun _ _ hP => ⟨hP.1, hP.2.1⟩) hcall
  | beginRelease leaseId deferReclaim =>
    exact EndsLease.rewrites (beginRelease_ends leaseId deferReclaim)
      ⟨rfl, rfl⟩ (fun _ _ hP => ⟨hP.1, hP.2.1⟩) hcall
  | createLease generated input =>
    have hyields := @createLease_yields r now generated input
    have hsome : r.createLease now generated input = .ok (some draft) := hcall
    rw [hsome] at hyields
    obtain ⟨d, d', requests, hd, -, hm, -, -, rfl⟩ := hyields draft rfl
    obtain ⟨-, hid⟩ := Registry.device_mem hd
    rw [← hid] at hd
    exact .one hd hm.step rfl (fun _ hc => by cases hc) ⟨Legal.ready_of_leased hm.legal, hm.state⟩ rfl
  | renewLease leaseId ttlDeadline ttlMs =>
    simp only [Registry.call, Registry.renewLease] at hcall
    cases hl : r.requireLease leaseId with
    | error e => rw [hl] at hcall; cases hcall
    | ok lease =>
      rw [hl] at hcall
      cases hcall
      exact .none rfl
  | createLeaseRequest input =>
    cases hcall
    exact .none rfl
  | settleLeaseRequest id outcome =>
    simp only [Registry.call, Registry.settleLeaseRequest, Except.ok.injEq,
      Option.map_eq_some_iff] at hcall
    obtain ⟨requests, -, rfl⟩ := hcall
    exact .none rfl
  | failOpenLeaseRequests failure =>
    simp only [Registry.call, Registry.failOpenLeaseRequests] at hcall
    split at hcall <;> cases hcall
    exact .none rfl
  | recordComponent record =>
    cases hcall
    exact .none rfl
  | deleteComponent platform version =>
    simp only [Registry.call, Registry.deleteComponent] at hcall
    split at hcall <;> cases hcall
    exact .none rfl

/-- The mode of the device a call rewrites. -/
theorem rewritten_mode (hadds : c.adds = none) (hcall : r.call o now c = .ok (some draft))
    {d d' : Device} (hdevices : draft.devices = (r.draft.setDevice d').devices)
    (hd : r.device d.id = some d) (hid : d'.id = d.id) : ModeFrom (newMode c) d d' := by
  have hrecords := call_records o r now c hadds
  rw [hcall] at hrecords
  have hmem : ⟨d', true⟩ ∈ draft.devices := by
    rw [hdevices]
    obtain ⟨hin, -⟩ := Registry.device_mem hd
    exact mem_replaceFirst_self ⟨⟨d, false⟩, List.mem_map_of_mem hin, by simp [hid]⟩
  obtain ⟨x, hx, hmode⟩ := hrecords draft rfl _ hmem rfl
  rw [hid, hd] at hx
  cases hx
  exact hmode

/-- What a call that goes through makes of a sum over the devices. -/
theorem apply_total (h : DevicesOk r) (happly : r.apply o now c = some r') {w : Device → Nat}
    (hw : Weighs w) :
    total w r' = total w r ∨
      (∃ d d', r.device d.id = some d ∧ DeviceStep d d' ∧ (∀ id, c.device = some id → d.id = id) ∧
        ModeFrom (newMode c) d d' ∧ Turns r d d'.state c ∧
        total w r' + w d = total w r + w d') ∨
      ∃ d, Adds o now d c ∧ total w r' = total w r + w d := by
  rcases apply_eq_some.mp happly with ⟨-, rfl⟩ | ⟨draft, hcall, rfl⟩
  · exact .inl rfl
  · have hkept : ∀ x ∈ keep r.devices, x.val.fields.deletedAt.isSome → x.val.state = .deleted :=
      fun x hx => h.stamped x.val (mem_keep hx).2
    cases call_rewrites hcall with
    | none hdevices =>
      left
      rw [total_commit hw (hdevices ▸ hkept), hdevices, sum_keep]
      rfl
    | @one d d' hd hstep hadds hdevice hturns hdevices =>
      obtain ⟨hmem, -⟩ := Registry.device_mem hd
      have hmode := rewritten_mode hadds hcall hdevices hd hstep.id
      refine .inr (.inl ⟨d, d', hd, hstep, hdevice, hmode, hturns, ?_⟩)
      rw [total_commit hw, hdevices]
      · exact sum_replaceFirst h.nodup hmem hstep.id w
      · intro x hx
        rw [hdevices] at hx
        rcases mem_replaceFirst hx with rfl | hx
        · intro hsome
          rcases hstep.live h hmem with hnone | hdeleted
          · rw [hnone] at hsome
            cases hsome
          · exact hdeleted
        · exact hkept x hx
    | @added d hadds hlive hdevices =>
      refine .inr (.inr ⟨d, hadds, ?_⟩)
      rw [total_commit hw, hdevices, List.map_append, List.sum_append, sum_keep]
      · simp [total]
      · intro x hx
        rw [hdevices, List.mem_append, List.mem_singleton] at hx
        rcases hx with hx | rfl
        · exact hkept x hx
        · simp [hlive]

/-! ### Where a device comes from -/

theorem virtualSpec_setFields (d : Device) (fs : DeviceRecordFields) :
    virtualSpec (d.setFields fs) = virtualSpec d := by cases d <;> rfl

theorem virtualSpec_stamp (now : Int) (x : Obj Device) :
    virtualSpec (stamp now x).val = virtualSpec x.val := by
  have hcause : virtualSpec (withoutCauseUnlessQuarantined x).val = virtualSpec x.val := by
    rw [withoutCauseUnlessQuarantined]
    split
    · rfl
    · exact virtualSpec_setFields _ _
  rw [Core.stamp, stampDeleted]
  split
  · rw [← hcause]
    exact virtualSpec_setFields _ _
  · exact hcause

theorem mem_commit_devices {d' : Device} (hd : d' ∈ (Registry.commit o now draft).devices) :
    ∃ x ∈ draft.devices, d'.id = x.val.id ∧ virtualSpec d' = virtualSpec x.val ∧
      d'.state = x.val.state := by
  obtain ⟨y, hy, rfl⟩ := List.mem_map.mp hd
  obtain ⟨x, hx, rfl⟩ := List.mem_map.mp (List.mem_filter.mp hy).1
  have hstamp := (stamp_spec now x).1
  exact ⟨x, hx, hstamp.id, virtualSpec_stamp now x, hstamp.state⟩

/-- What a device of a registry is after a commit: the same, and still deleted if it was. -/
structure Stays (d d' : Device) : Prop where
  id : d'.id = d.id
  spec : virtualSpec d' = virtualSpec d
  deleted : d.state = .deleted → d'.state = .deleted

/-- A device after a call was there before it, or is the one the call adds. -/
theorem apply_device_from (happly : r.apply o now c = some r') {d' : Device}
    (hd : d' ∈ r'.devices) :
    (∃ d ∈ r.devices, Stays d d') ∨ ∃ d, Adds o now d c ∧ Stays d d' := by
  rcases apply_eq_some.mp happly with ⟨-, rfl⟩ | ⟨draft, hcall, rfl⟩
  · exact .inl ⟨d', hd, rfl, rfl, id⟩
  · obtain ⟨x, hx, hid, hspec, hstate⟩ := mem_commit_devices hd
    have hstays : Stays x.val d' := ⟨hid, hspec, fun hdel => hstate.trans hdel⟩
    have hkept : x ∈ keep r.devices → ∃ d ∈ r.devices, Stays d d' :=
      fun hx => ⟨x.val, (mem_keep hx).2, hstays⟩
    cases call_rewrites hcall with
    | none hdevices => exact .inl (hkept (hdevices ▸ hx))
    | @one d d' hd hstep _ _ _ hdevices =>
      rw [hdevices] at hx
      rcases mem_replaceFirst hx with rfl | hx
      · exact .inl ⟨d, (Registry.device_mem hd).1, hid.trans hstep.id, hspec.trans hstep.spec,
          fun hdel => hstate.trans (hstep.deleted hdel)⟩
      · exact .inl (hkept hx)
    | @added d hadds _ hdevices =>
      rw [hdevices, List.mem_append, List.mem_singleton] at hx
      rcases hx with hx | rfl
      · exact .inl (hkept hx)
      · exact .inr ⟨d, hadds, hstays⟩

theorem toState_injective {a b : VirtualState} (h : a.toState = b.toState) : a = b := by
  cases a <;> cases b <;> first | rfl | cases h

theorem Stays.virtual {d : Device} {v' : VirtualDevice} (h : Stays d (.virtual v')) :
    ∃ v, d = .virtual v ∧ v'.id = v.id ∧ v'.spec = v.spec ∧
      (v.state = .deleted → v'.state = .deleted) := by
  cases d with
  | virtual v =>
    exact ⟨v, rfl, h.id, Option.some.inj h.spec, fun hdel =>
      toState_injective (h.deleted (congrArg VirtualState.toState hdel))⟩
  | physical q => cases h.spec

/-! ### Virtual devices -/

/-- A rewrite of a virtual device. -/
theorem step_virtual {v : VirtualDevice} {d' : Device} (h : DeviceStep (.virtual v) d') :
    ∃ v' : VirtualDevice, d' = .virtual v' ∧ v'.id = v.id ∧ v'.spec.platform = v.spec.platform ∧
      (v.state = .deleted → v'.state = .deleted) := by
  cases d' with
  | physical p => cases h.isPhysical
  | virtual v' =>
    refine ⟨v', rfl, h.id, h.platform, fun hv => ?_⟩
    have hdeleted : v'.state.toState = .deleted := h.deleted (by rw [Device.state, hv]; rfl)
    exact toState_injective hdeleted

/-- A weight of virtual devices, over a rewrite. -/
theorem step_onVirtual {d d' : Device} (h : DeviceStep d d') {g g' : VirtualDevice → Nat}
    (hg : ∀ v v' : VirtualDevice, d = .virtual v → d' = .virtual v' → v'.id = v.id →
      v'.spec.platform = v.spec.platform → (v.state = .deleted → v'.state = .deleted) →
      g' v' ≤ g v) : onVirtual g' d' ≤ onVirtual g d := by
  cases d with
  | physical p =>
    cases d' with
    | physical p' => exact Nat.le_refl _
    | virtual v' => cases h.isPhysical
  | virtual v =>
    obtain ⟨v', rfl, hid, hplatform, hdeleted⟩ := step_virtual h
    exact hg v v' rfl rfl hid hplatform hdeleted

/-! ### Devices that start -/

/-- The device a section may take up from `shutdown`, or out of `provisioning`. -/
def Section.starts : Section → Option String
  | .commitReady deviceId .. | .enterQuarantine deviceId .. | .enterFromStalledTransition deviceId ..
  | .fixRunning deviceId => some deviceId
  | _ => none

/-- Nothing goes back to `provisioning`. -/
theorem turns_provisioning {v : VirtualDevice} (h : Turns r (.virtual v) .provisioning c) :
    v.state = .provisioning := by
  have hlegal : ¬ Legal (.virtual v) .provisioning := by
    rintro ⟨t, ht, hmem⟩
    cases ht
    cases hv : v.state <;> simp [hv, legalTransitions] at hmem
  have hsame : DeviceState.provisioning = v.state.toState → v.state = .provisioning :=
    fun he => toState_injective he.symm
  cases c with
  | transitionDevice deviceId target event update =>
    obtain ⟨hl, rfl, -⟩ := h
    exact absurd hl hlegal
  | recoverFromQuarantine deviceId target =>
    obtain ⟨-, hl, rfl⟩ := h
    exact absurd hl hlegal
  | createLease generated input => cases h.2
  | beginRelease leaseId deferReclaim => cases h.2
  | endLeaseAndMarkDeviceMissing leaseId => cases h.2
  | endLeaseAndMarkDeviceAbsent leaseId absentReason => cases h.2
  | completeReclaimWithoutPurge deviceId => cases h.2
  | enterQuarantine deviceId nextRetryAt cause => cases h.2
  | recordQuarantineRetryFailure deviceId attempts nextRetryAt => cases h.2
  | strandQuarantine deviceId attempts => cases h.2
  | deleteQuarantined deviceId => cases h.2
  | markDeviceMissing deviceId => cases h.2.2
  | reenrollPhysical deviceId input => cases h.1
  | unenrollPhysical deviceId => cases h.1
  | _ => exact hsame h

/-- What is neither shut down nor deleted after a section kept its state, was running, or was
    started by the section. -/
theorem turns_started {w : Section} {v : VirtualDevice} {state : DeviceState}
    (hdevice : ∀ id, w.call.device = some id → v.id = id) (htyped : w.Typed r)
    (hturns : Turns r (.virtual v) state w.call) (hshutdown : state ≠ .shutdown)
    (hdeleted : state ≠ .deleted) :
    state = v.state.toState ∨ isRunning (.registered v.state) = true ∨ w.starts = some v.id := by
  have hleased : ∀ {target}, Legal (.virtual v) target → target = .reclaiming →
      isRunning (.registered v.state) = true := by
    rintro target ⟨t, ht, hmem⟩ rfl
    cases ht
    cases hv : v.state <;> rw [hv] at hmem <;> simp [legalTransitions] at hmem <;> rfl
  have habsent : ∀ {target}, Legal (.virtual v) target → target ≠ .absent := by
    rintro target ⟨t, ht, -⟩ rfl
    cases ht
  cases w with
  | commitReady deviceId => exact .inr (.inr (by rw [hdevice deviceId rfl]; rfl))
  | enterQuarantine deviceId => exact .inr (.inr (by rw [hdevice deviceId rfl]; rfl))
  | enterFromStalledTransition deviceId => exact .inr (.inr (by rw [hdevice deviceId rfl]; rfl))
  | fixRunning deviceId => exact .inr (.inr (by rw [hdevice deviceId rfl]; rfl))
  | commitShutdown deviceId => exact absurd hturns.2.1 hshutdown
  | fixStopped deviceId => exact absurd hturns.2.1 hshutdown
  | recoverInterrupted deviceId => exact absurd hturns.2 hshutdown
  | retireSpent deviceId => exact absurd hturns.2 hshutdown
  | commitDeleted deviceId => exact absurd hturns.2.1 hdeleted
  | deleteSpent deviceId => exact absurd hturns.2.1 hdeleted
  | deleteQuarantined deviceId => exact absurd hturns.2 hdeleted
  | fixMissingDevice deviceId => exact absurd hturns.2.2 hdeleted
  | endForMissingDevice leaseId => exact absurd hturns.2 hdeleted
  | purged deviceId target =>
    -- only a reclaiming device gives this event
    refine .inr (.inl ?_)
    obtain ⟨-, rfl, -, hevent⟩ := hturns
    have hreclaiming : v.state = .reclaiming := by
      rcases htyped with rfl | rfl
      · cases hv : v.state <;> simp [Registry.eventForTransition, Device.state, hv,
          VirtualState.toState] at hevent ⊢
      · exact absurd rfl hshutdown
    rw [hreclaiming]
    rfl
  | beginReturned deviceId osVersion => exact .inr (.inl (hleased hturns.1 rfl))
  | absentAfterFailure deviceId absentReason => exact absurd rfl (habsent hturns.1)
  | markAbsent deviceId absentReason => exact absurd rfl (habsent hturns.1)
  | beginRelease leaseId deferReclaim => exact .inr (.inl (hleased hturns.1 rfl))
  | grant generated input =>
    refine .inr (.inl ?_)
    have hready : v.state.toState = .ready := hturns.1
    cases hv : v.state <;> rw [hv] at hready <;> simp [VirtualState.toState] at hready <;> rfl
  | recovered deviceId target =>
    refine .inr (.inl ?_)
    have hquarantined : v.state.toState = .quarantined := hturns.1
    cases hv : v.state <;> rw [hv] at hquarantined <;> simp [VirtualState.toState] at hquarantined <;>
      rfl
  | retryFailed deviceId attempts nextRetryAt => exact .inl (hturns.2.trans hturns.1.symm)
  | stranded deviceId attempts => exact .inl (hturns.2.trans hturns.1.symm)
  | reenroll deviceId input => exact absurd hturns.1 (by simp [Device.isPhysical])
  | unenroll deviceId => exact absurd hturns.1 (by simp [Device.isPhysical])
  | endForAbsentDevice leaseId absentReason => exact absurd hturns.1 (by simp [Device.isPhysical])
  | _ => exact .inl hturns

end Calls

end Simlock.Worker
