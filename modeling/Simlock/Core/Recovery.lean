import Simlock.Core.Leases

/-! What a call does to the recovery attempts a device's record counts.

    `markRecoveryAttempt` alone adds one, and it and `clearRecovery` are the calls of the health
    monitor. Every other call leaves the count of a record as it was or takes the recovery marks off,
    and the record of a new device has none. -/

namespace Simlock.Core

open Simlock.Lib

/-- `recoveryAttempts ?? 0`. -/
def Device.recoveryCount (d : Device) : Int := d.fields.recoveryAttempts.getD 0

/-- The call writes the recovery marks of a device, and nothing else. -/
def Call.marksRecovery : Call → Bool
  | .markRecoveryAttempt .. | .clearRecovery _ => true
  | _ => false

/-- The record keeps its attempts, or counts none. -/
structure KeepsCount (d d' : Device) : Prop where
  id : d'.id = d.id
  count : d'.recoveryCount = 0 ∨ d'.recoveryCount = d.recoveryCount

section Recovery

variable {r r' : Registry} {o : RegistryOptions} {now : Int} {deviceId : String} {d : Device}

theorem KeepsCount.refl (d : Device) : KeepsCount d d := ⟨rfl, .inr rfl⟩

theorem KeepsCount.trans {d' d'' : Device} (h : KeepsCount d d') (h' : KeepsCount d' d'') :
    KeepsCount d d'' :=
  ⟨h'.id.trans h.id, h'.count.elim .inl fun heq => heq ▸ h.count⟩

theorem KeepsCount.setFields (d : Device) (fs : DeviceRecordFields) (hid : fs.id = d.fields.id)
    (hcount : fs.recoveryAttempts = d.fields.recoveryAttempts) : KeepsCount d (d.setFields fs) := by
  refine ⟨?_, .inr ?_⟩
  · rw [Device.id, Device.fields_setFields, hid, Device.id]
  · rw [Device.recoveryCount, Device.fields_setFields, hcount, Device.recoveryCount]

theorem KeepsCount.withoutRecovery (d : Device) :
    KeepsCount d (d.setFields d.fields.withoutRecovery) := by
  refine ⟨?_, .inl ?_⟩
  · rw [Device.id, Device.fields_setFields]
    rfl
  · rw [Device.recoveryCount, Device.fields_setFields]
    rfl

/-! ### Moves -/

theorem transitionVirtual_keepsCount {v v' : VirtualDevice} {t : VirtualState}
    {update : DeviceTransitionUpdate} (h : transitionVirtual v t update = some v') :
    KeepsCount (.virtual v) (.virtual v') := by
  refine ⟨(transitionVirtual_spec h).2.2.2.1, .inr ?_⟩
  rw [transitionVirtual] at h
  split at h
  · cases h
  · cases h
    by_cases hs : t = .shutdown <;>
      simp [hs, Device.recoveryCount, Device.fields, DeviceRecordFields.moved]

theorem transitionPhysical_keepsCount {p p' : PhysicalDevice} {t : PhysicalState}
    {update : DeviceTransitionUpdate} (h : transitionPhysical p t update = some p') :
    KeepsCount (.physical p) (.physical p') := by
  refine ⟨(transitionPhysical_spec h).2.2.2.1, .inr ?_⟩
  rw [transitionPhysical] at h
  split at h
  · cases h
  · cases h
    rfl

theorem transition_keepsCount {d' : Device} {target : DeviceState} {update : DeviceTransitionUpdate}
    (h : transition d target update = some d') : KeepsCount d d' := by
  cases d with
  | virtual v =>
    simp only [transition, Option.map_eq_some_iff, Option.bind_eq_some_iff] at h
    obtain ⟨v', ⟨t, -, hv⟩, rfl⟩ := h
    exact transitionVirtual_keepsCount hv
  | physical p =>
    simp only [transition, Option.map_eq_some_iff, Option.bind_eq_some_iff] at h
    obtain ⟨p', ⟨t, -, hp⟩, rfl⟩ := h
    exact transitionPhysical_keepsCount hp

theorem transitioned_keepsCount (now : Int) (d : Device) (target : DeviceState)
    (update : DeviceTransitionUpdate) :
    Yields anyError (KeepsCount d) (Registry.transitioned now d target update) := by
  rw [Registry.transitioned]
  generalize (if target = .ready then _ else _ : DeviceTransitionUpdate) = update'
  cases h : transition d target update' with
  | none => trivial
  | some d' => exact transition_keepsCount h

/-! ### Calls that are not of recovery -/

/-- The operation commits, if anything, one device rewritten, with its attempts kept or taken off. -/
def OneKeepsCount (r : Registry) (x : Except RegistryError (Option Draft)) : Prop :=
  Yields anyError (fun od => ∀ draft, od = some draft → ∃ d ∈ r.devices, ∃ d',
    draft.devices = (r.draft.setDevice d').devices ∧ KeepsCount d d') x

theorem OneKeepsCount.nothing : OneKeepsCount r (.ok none) := by
  rintro draft ⟨⟩

theorem OneKeepsCount.of {d' : Device} {draft : Draft} (hd : r.device deviceId = some d)
    (hdevices : draft.devices = (r.draft.setDevice d').devices) (h : KeepsCount d d') :
    OneKeepsCount r (.ok (some draft)) := by
  rintro _ ⟨⟩
  exact ⟨d, (Registry.device_mem hd).1, d', hdevices, h⟩

theorem OneKeepsCount.bind {α : Type} {post : α → Prop} {x : Except RegistryError α}
    {f : α → Except RegistryError (Option Draft)} (h : Yields anyError post x)
    (hf : ∀ a, post a → OneKeepsCount r (f a)) : OneKeepsCount r (x >>= f) := Yields.bind h hf

theorem transitionDevice_keepsCount (target : DeviceState)
    (event : Option Registry.RegistryDeviceEvent) (update : DeviceTransitionUpdate) :
    OneKeepsCount r (r.transitionDevice now deviceId target event update) := by
  refine OneKeepsCount.bind (requireDeviceRecord_yields r deviceId) fun d hd => ?_
  split
  · trivial
  · refine OneKeepsCount.bind (assertTransitionEvent_yields d target event) fun _ _ => ?_
    refine OneKeepsCount.bind (transitioned_keepsCount now d target update) fun d' hkeeps => ?_
    exact OneKeepsCount.of hd rfl hkeeps

theorem recordRebootedDevice_keepsCount (address : String) (driverData : DriverData)
    (mode : DeviceMode) :
    OneKeepsCount r (r.recordRebootedDevice deviceId address driverData mode) := by
  refine OneKeepsCount.bind (requireDeviceRecord_yields r deviceId) fun d hd => ?_
  cases d with
  | physical p => trivial
  | virtual v =>
    simp only
    split
    · exact OneKeepsCount.of hd rfl ⟨rfl, .inr rfl⟩
    · trivial

theorem completeReclaimWithoutPurge_keepsCount :
    OneKeepsCount r (r.completeReclaimWithoutPurge now deviceId) := by
  refine OneKeepsCount.bind (requireDeviceRecord_yields r deviceId) fun d hd => ?_
  split
  · trivial
  · refine OneKeepsCount.bind (transitioned_keepsCount now d .shutdown {}) fun d' hkeeps => ?_
    exact OneKeepsCount.of hd rfl hkeeps

theorem enterQuarantine_keepsCount (nextRetryAt : Int) (cause : QuarantineCause) :
    OneKeepsCount r (r.enterQuarantine now deviceId nextRetryAt cause) := by
  refine OneKeepsCount.bind (requireDeviceRecord_yields r deviceId) fun d hd => ?_
  split
  · trivial
  · refine OneKeepsCount.bind (transitioned_keepsCount now d .quarantined {}) fun d' hkeeps => ?_
    exact OneKeepsCount.of hd rfl (hkeeps.trans (KeepsCount.setFields d' _ rfl rfl))

theorem recordQuarantineRetryFailure_keepsCount (attempts nextRetryAt : Int) :
    OneKeepsCount r (r.recordQuarantineRetryFailure deviceId attempts nextRetryAt) := by
  refine OneKeepsCount.bind (requireQuarantined_yields r deviceId) fun d hd => ?_
  exact OneKeepsCount.of hd.1 rfl (KeepsCount.setFields d _ rfl rfl)

theorem strandQuarantine_keepsCount (attempts : Int) :
    OneKeepsCount r (r.strandQuarantine deviceId attempts) := by
  refine OneKeepsCount.bind (requireQuarantined_yields r deviceId) fun d hd => ?_
  exact OneKeepsCount.of hd.1 rfl (KeepsCount.setFields d _ rfl rfl)

theorem recoverFromQuarantine_keepsCount (target : DeviceState) :
    OneKeepsCount r (r.recoverFromQuarantine now deviceId target) := by
  refine OneKeepsCount.bind (requireQuarantined_yields r deviceId) fun d hd => ?_
  refine OneKeepsCount.bind (transitioned_keepsCount now d target {}) fun d' hkeeps => ?_
  exact OneKeepsCount.of hd.1 rfl (hkeeps.trans (KeepsCount.setFields d' _ rfl rfl))

theorem deleteQuarantined_keepsCount : OneKeepsCount r (r.deleteQuarantined now deviceId) := by
  refine OneKeepsCount.bind (requireQuarantined_yields r deviceId) fun d hd => ?_
  refine OneKeepsCount.bind (transitioned_keepsCount now d .deleted {}) fun d' hkeeps => ?_
  exact OneKeepsCount.of hd.1 rfl (hkeeps.trans (KeepsCount.setFields d' _ rfl rfl))

theorem markForeignStateDetected_keepsCount (at_ : Int) :
    OneKeepsCount r (r.markForeignStateDetected deviceId at_) := by
  refine OneKeepsCount.bind (requireDeviceRecord_yields r deviceId) fun d hd => ?_
  split
  · exact OneKeepsCount.nothing
  · exact OneKeepsCount.of hd rfl (KeepsCount.setFields d _ rfl rfl)

theorem markForeignProvenanceDetected_keepsCount (at_ : Int) :
    OneKeepsCount r (r.markForeignProvenanceDetected deviceId at_) := by
  refine OneKeepsCount.bind (requireDeviceRecord_yields r deviceId) fun d hd => ?_
  split
  · exact OneKeepsCount.nothing
  · exact OneKeepsCount.of hd rfl (KeepsCount.setFields d _ rfl rfl)

theorem clearForeignStateDetected_keepsCount :
    OneKeepsCount r (r.clearForeignStateDetected deviceId) := by
  refine OneKeepsCount.bind (requireDeviceRecord_yields r deviceId) fun d hd => ?_
  split
  · exact OneKeepsCount.nothing
  · exact OneKeepsCount.of hd rfl (KeepsCount.setFields d _ rfl rfl)

/-- A device that is missing is deleted with its recovery marks taken off. -/
theorem missing_keepsCount (d : Device) (leases : List (Obj LeaseRecord)) :
    Yields anyError (fun draft => ∃ d', draft.devices = (r.draft.setDevice d').devices ∧
      KeepsCount d d') (r.missing d leases) := by
  cases d with
  | physical p => trivial
  | virtual v => exact ⟨_, rfl, rfl, .inl rfl⟩

theorem markDeviceMissing_keepsCount : OneKeepsCount r (r.markDeviceMissing deviceId) := by
  refine OneKeepsCount.bind (requireDeviceRecord_yields r deviceId) fun d hd => ?_
  split
  · trivial
  · split
    · exact OneKeepsCount.nothing
    · refine OneKeepsCount.bind (missing_keepsCount d _) fun draft hdraft => ?_
      obtain ⟨d', hdevices, hkeeps⟩ := hdraft
      exact OneKeepsCount.of hd hdevices hkeeps

theorem endLeaseAndMarkDeviceMissing_keepsCount (leaseId : String) :
    OneKeepsCount r (r.endLeaseAndMarkDeviceMissing leaseId) := by
  refine OneKeepsCount.bind (requireLease_yields r leaseId) fun lease _ => ?_
  refine OneKeepsCount.bind (requireDeviceRecord_yields r lease.deviceId) fun d hd => ?_
  refine OneKeepsCount.bind (missing_keepsCount d _) fun draft hdraft => ?_
  obtain ⟨d', hdevices, hkeeps⟩ := hdraft
  exact OneKeepsCount.of hd hdevices hkeeps

theorem endLeaseAndMarkDeviceAbsent_keepsCount (leaseId : String) (absentReason : AbsentReason) :
    OneKeepsCount r (r.endLeaseAndMarkDeviceAbsent now leaseId absentReason) := by
  refine OneKeepsCount.bind (requireLease_yields r leaseId) fun lease _ => ?_
  refine OneKeepsCount.bind (requireDeviceRecord_yields r lease.deviceId) fun d hd => ?_
  refine OneKeepsCount.bind (transitioned_keepsCount now d .absent _) fun d' hkeeps => ?_
  exact OneKeepsCount.of hd rfl (hkeeps.trans (KeepsCount.setFields d' _ rfl rfl))

theorem rewriteAbsentReason_keepsCount (absentReason : AbsentReason) :
    OneKeepsCount r (r.rewriteAbsentReason deviceId absentReason) := by
  refine OneKeepsCount.bind (requireDeviceRecord_yields r deviceId) fun d hd => ?_
  cases d with
  | virtual v => trivial
  | physical p =>
    simp only
    split
    · exact OneKeepsCount.of hd rfl ⟨rfl, .inr rfl⟩
    · trivial

theorem reenrollPhysical_keepsCount (input : Registry.PhysicalEnrollmentInput) :
    OneKeepsCount r (r.reenrollPhysical now deviceId input) := by
  refine OneKeepsCount.bind (requireDeviceRecord_yields r deviceId) fun d hd => ?_
  cases d with
  | virtual v => trivial
  | physical p =>
    simp only
    by_cases hready : p.state = .ready
    · simp only [hready, if_true]
      exact OneKeepsCount.of hd rfl ⟨rfl, .inr rfl⟩
    · simp only [hready, if_false]
      split
      · trivial
      · rename_i settled hsettled
        have hkeeps := transitionPhysical_keepsCount hsettled
        exact OneKeepsCount.of hd rfl ⟨hkeeps.id, hkeeps.count⟩

theorem unenrollPhysical_keepsCount : OneKeepsCount r (r.unenrollPhysical deviceId) := by
  refine OneKeepsCount.bind (requireDeviceRecord_yields r deviceId) fun d hd => ?_
  cases d with
  | virtual v => trivial
  | physical p =>
    simp only
    split
    · trivial
    · rename_i updated hupdated
      have hkeeps := transitionPhysical_keepsCount hupdated
      exact OneKeepsCount.of hd rfl ⟨hkeeps.id, hkeeps.count⟩

theorem createLease_keepsCount (generated : String) (input : Registry.CreateLeaseInput) :
    OneKeepsCount r (r.createLease now generated input) := by
  refine OneKeepsCount.bind (requireDeviceRecord_yields r input.deviceId) fun d hd => ?_
  split
  · trivial
  · refine OneKeepsCount.bind (transitioned_keepsCount now d .leased {}) fun m hkeeps => ?_
    refine OneKeepsCount.of hd rfl (hkeeps.trans ⟨?_, .inr ?_⟩)
    · rw [Device.id, withExcept_fields, Device.id]
    · rw [Device.recoveryCount, withExcept_fields, Device.recoveryCount]

theorem beginRelease_keepsCount (leaseId : String) (deferReclaim : Bool) :
    OneKeepsCount r (r.beginRelease now leaseId deferReclaim) := by
  refine OneKeepsCount.bind (requireLease_yields r leaseId) fun lease _ => ?_
  refine OneKeepsCount.bind (requireDeviceRecord_yields r lease.deviceId) fun d hd => ?_
  refine OneKeepsCount.bind (transitioned_keepsCount now _ .reclaiming {}) fun m hkeeps => ?_
  exact OneKeepsCount.of hd rfl (((KeepsCount.withoutRecovery d).trans hkeeps).trans
    (KeepsCount.setFields m _ rfl rfl))

/-! ### The counts after a call -/

/-- The devices of the draft of a call that is not of recovery. -/
inductive DraftKeepsCount (r : Registry) (devices : List (Obj Device)) : Prop
  | same (hdevices : devices = keep r.devices)
  | one {d d' : Device} (hd : d ∈ r.devices) (hdevices : devices = (r.draft.setDevice d').devices)
    (hkeeps : KeepsCount d d')
  | added {d : Device} (hdevices : devices = keep r.devices ++ [⟨d, true⟩])
    (hcount : d.recoveryCount = 0)

theorem OneKeepsCount.draft {x : Except RegistryError (Option Draft)} {draft : Draft}
    (h : OneKeepsCount r x) (hx : x = .ok (some draft)) : DraftKeepsCount r draft.devices := by
  subst hx
  obtain ⟨d, hd, d', hdevices, hkeeps⟩ := h draft rfl
  exact .one hd hdevices hkeeps

theorem call_keepsCount {c : Call} {draft : Draft} (hc : c.marksRecovery = false)
    (hcall : r.call o now c = .ok (some draft)) : DraftKeepsCount r draft.devices := by
  cases c with
  | registerDevice id driverDeviceId spec driverData =>
    cases hcall
    exact .added rfl rfl
  | enrollPhysical id input =>
    cases hcall
    exact .added rfl rfl
  | transitionDevice deviceId target event update =>
    exact (transitionDevice_keepsCount target event update).draft hcall
  | recordRebootedDevice deviceId address driverData mode =>
    exact (recordRebootedDevice_keepsCount address driverData mode).draft hcall
  | completeReclaimWithoutPurge deviceId => exact completeReclaimWithoutPurge_keepsCount.draft hcall
  | enterQuarantine deviceId nextRetryAt cause =>
    exact (enterQuarantine_keepsCount nextRetryAt cause).draft hcall
  | recordQuarantineRetryFailure deviceId attempts nextRetryAt =>
    exact (recordQuarantineRetryFailure_keepsCount attempts nextRetryAt).draft hcall
  | recoverFromQuarantine deviceId target =>
    exact (recoverFromQuarantine_keepsCount target).draft hcall
  | strandQuarantine deviceId attempts => exact (strandQuarantine_keepsCount attempts).draft hcall
  | deleteQuarantined deviceId => exact deleteQuarantined_keepsCount.draft hcall
  | markForeignStateDetected deviceId at_ =>
    exact (markForeignStateDetected_keepsCount at_).draft hcall
  | markForeignProvenanceDetected deviceId at_ =>
    exact (markForeignProvenanceDetected_keepsCount at_).draft hcall
  | clearForeignStateDetected deviceId => exact clearForeignStateDetected_keepsCount.draft hcall
  | markDeviceMissing deviceId => exact markDeviceMissing_keepsCount.draft hcall
  | endLeaseAndMarkDeviceMissing leaseId =>
    exact (endLeaseAndMarkDeviceMissing_keepsCount leaseId).draft hcall
  | endLeaseAndMarkDeviceAbsent leaseId absentReason =>
    exact (endLeaseAndMarkDeviceAbsent_keepsCount leaseId absentReason).draft hcall
  | rewriteAbsentReason deviceId absentReason =>
    exact (rewriteAbsentReason_keepsCount absentReason).draft hcall
  | reenrollPhysical deviceId input => exact (reenrollPhysical_keepsCount input).draft hcall
  | unenrollPhysical deviceId => exact unenrollPhysical_keepsCount.draft hcall
  | createLease generated input => exact (createLease_keepsCount generated input).draft hcall
  | beginRelease leaseId deferReclaim =>
    exact (beginRelease_keepsCount leaseId deferReclaim).draft hcall
  | renewLease leaseId ttlDeadline ttlMs =>
    have hyields : Yields anyError (fun od => ∀ draft, od = some draft →
        draft.devices = keep r.devices) (r.call o now (.renewLease leaseId ttlDeadline ttlMs)) := by
      refine (requireLease_yields r leaseId).bind fun lease hl => ?_
      rintro draft ⟨⟩
      rfl
    rw [hcall] at hyields
    exact .same (hyields draft rfl)
  | createLeaseRequest input =>
    cases hcall
    exact .same rfl
  | settleLeaseRequest id outcome =>
    obtain ⟨requests, -, rfl⟩ := Option.map_eq_some_iff.mp (Except.ok.inj hcall)
    exact .same rfl
  | failOpenLeaseRequests failure =>
    simp only [Registry.call, Registry.failOpenLeaseRequests] at hcall
    split at hcall
    · cases hcall
    · cases hcall
      exact .same rfl
  | recordComponent record =>
    cases hcall
    exact .same rfl
  | deleteComponent platform version =>
    simp only [Registry.call, Registry.deleteComponent] at hcall
    split at hcall
    · cases hcall
    · cases hcall
      exact .same rfl
  | markRecoveryAttempt deviceId at_ => cases hc
  | clearRecovery deviceId => cases hc

theorem withoutCause_keepsCount (x : Obj Device) :
    KeepsCount x.val (withoutCauseUnlessQuarantined x).val := by
  rw [withoutCauseUnlessQuarantined]
  split
  · exact KeepsCount.refl _
  · exact KeepsCount.setFields _ _ rfl rfl

theorem stamp_keepsCount (now : Int) (x : Obj Device) : KeepsCount x.val (stamp now x).val := by
  refine (withoutCause_keepsCount x).trans ?_
  rw [stamp, stampDeleted]
  split
  · exact KeepsCount.setFields _ _ rfl rfl
  · exact KeepsCount.refl _

/-- A device of a commit is a device of its draft, stamped. -/
theorem mem_commit_keepsCount {draft : Draft} {d' : Device}
    (hd : d' ∈ (Registry.commit o now draft).devices) :
    ∃ x ∈ draft.devices, KeepsCount x.val d' := by
  obtain ⟨y, hy, rfl⟩ := List.mem_map.mp hd
  obtain ⟨x, hx, rfl⟩ := List.mem_map.mp (List.mem_filter.mp hy).1
  exact ⟨x, hx, stamp_keepsCount now x⟩

/-- After a call that is not of recovery a record counts what it counted, or nothing. -/
theorem apply_keepsCount {c : Call} (hc : c.marksRecovery = false)
    (happly : r.apply o now c = some r') {d' : Device} (hd : d' ∈ r'.devices) :
    d'.recoveryCount = 0 ∨
      ∃ d ∈ r.devices, d'.id = d.id ∧ d'.recoveryCount = d.recoveryCount := by
  have hof : ∀ d ∈ r.devices, KeepsCount d d' → d'.recoveryCount = 0 ∨
      ∃ d ∈ r.devices, d'.id = d.id ∧ d'.recoveryCount = d.recoveryCount :=
    fun d hd h => h.count.imp_right fun heq => ⟨d, hd, h.id, heq⟩
  rcases apply_eq_some.mp happly with ⟨-, rfl⟩ | ⟨draft, hcall, rfl⟩
  · exact .inr ⟨d', hd, rfl, rfl⟩
  · obtain ⟨x, hx, hstamp⟩ := mem_commit_keepsCount hd
    cases call_keepsCount hc hcall with
    | same hdevices => exact hof x.val (mem_keep (hdevices ▸ hx)).2 hstamp
    | @one d d₁ hd hdevices hkeeps =>
      rw [hdevices] at hx
      rcases mem_replaceFirst hx with rfl | hx
      · exact hof d hd (hkeeps.trans hstamp)
      · exact hof x.val (mem_keep hx).2 hstamp
    | @added d hdevices hcount =>
      rw [hdevices, List.mem_append, List.mem_singleton] at hx
      rcases hx with hx | rfl
      · exact hof x.val (mem_keep hx).2 hstamp
      · exact .inl (hstamp.count.elim id fun heq => heq.trans hcount)

/-! ### The two calls of recovery -/

/-- After a commit that rewrites one device, the device of its id is the rewritten one. -/
theorem mem_commit_setDevice (h : DevicesOk r) {d' x' : Device} (hd : d ∈ r.devices)
    (hstep : DeviceStep d d')
    (hx' : x' ∈ (Registry.commit o now (r.draft.setDevice d')).devices) :
    KeepsCount d' x' ∨ ∃ x ∈ r.devices, x.id ≠ d.id ∧ KeepsCount x x' := by
  obtain ⟨x, hx, hstamp⟩ := mem_commit_keepsCount hx'
  by_cases hid : x.val.id = d.id
  · have hself : (⟨d', true⟩ : Obj Device) ∈ (r.draft.setDevice d').devices := by
      refine mem_replaceFirst_self ⟨⟨d, false⟩, List.mem_map_of_mem hd, ?_⟩
      exact decide_eq_true hstep.id.symm
    have hnodup := (draftDevicesOk_setDevice h (hstep.live h hd)).nodup
    have hsame : x.val = d' := List.inj_on_of_nodup_map hnodup (List.mem_map_of_mem hx)
      (List.mem_map_of_mem hself) (hid.trans hstep.id.symm)
    exact .inl (hsame ▸ hstamp)
  · rcases mem_replaceFirst hx with rfl | hx
    · exact absurd hstep.id hid
    · exact .inr ⟨x.val, (mem_keep hx).2, hid, hstamp⟩

/-- The record `markRecoveryAttempt` found counts one more after it. -/
theorem apply_markRecoveryAttempt (h : DevicesOk r) {at_ : Int} (hd : r.device deviceId = some d)
    (happly : r.apply o now (.markRecoveryAttempt deviceId at_) = some r') {d' : Device}
    (hd' : d' ∈ r'.devices) :
    d'.recoveryCount = 0 ∨ (d'.id = deviceId ∧ d'.recoveryCount = d.recoveryCount + 1) ∨
      ∃ x ∈ r.devices, d'.id = x.id ∧ d'.recoveryCount = x.recoveryCount := by
  obtain ⟨hmem, hid⟩ := Registry.device_mem hd
  have hcalled : r.call o now (.markRecoveryAttempt deviceId at_) =
      .ok (some (r.draft.setDevice (d.setFields { d.fields with
        recoveringSince := some (d.fields.recoveringSince.getD at_)
        recoveryAttempts := some (d.fields.recoveryAttempts.getD 0 + 1) }))) := by
    simp only [Registry.call, Registry.markRecoveryAttempt, Registry.requireDeviceRecord, hd]
    rfl
  rcases apply_eq_some.mp happly with ⟨hcall, -⟩ | ⟨draft, hcall, rfl⟩
  · rw [hcalled] at hcall
    cases hcall
  · rw [hcalled] at hcall
    cases hcall
    have hstep := DeviceStep.setFields d { d.fields with
      recoveringSince := some (d.fields.recoveringSince.getD at_)
      recoveryAttempts := some (d.fields.recoveryAttempts.getD 0 + 1) } rfl rfl fun h => h
    rcases mem_commit_setDevice h hmem hstep hd' with hkeeps | ⟨x, hx, -, hkeeps⟩
    · refine hkeeps.count.imp_right fun hcount => .inl ⟨?_, ?_⟩
      · rw [hkeeps.id, hstep.id, hid]
      · rw [hcount, Device.recoveryCount, Device.fields_setFields, Option.getD_some,
          Device.recoveryCount]
    · exact hkeeps.count.imp_right fun hcount => .inr ⟨x, hx, hkeeps.id, hcount⟩

/-- The record of the device counts no attempt after `clearRecovery`. -/
theorem apply_clearRecovery (h : DevicesOk r)
    (happly : r.apply o now (.clearRecovery deviceId) = some r') {d' : Device}
    (hd' : d' ∈ r'.devices) :
    d'.recoveryCount = 0 ∨ ∃ x ∈ r.devices, x.id ≠ deviceId ∧ d'.id = x.id ∧
      d'.recoveryCount = x.recoveryCount := by
  have hcalled : Yields anyError (fun od => ∃ d, r.device deviceId = some d ∧
      (od = none ∧ d.recoveryCount = 0 ∨
        od = some (r.draft.setDevice (d.setFields d.fields.withoutRecovery))))
      (r.call o now (.clearRecovery deviceId)) := by
    refine Yields.bind (requireDeviceRecord_yields r deviceId) fun d hd => ?_
    split
    · rename_i hnone
      simp only [Bool.and_eq_true, Option.isNone_iff_eq_none] at hnone
      exact ⟨d, hd, .inl ⟨rfl, by rw [Device.recoveryCount, hnone.2, Option.getD_none]⟩⟩
    · exact ⟨d, hd, .inr rfl⟩
  rcases apply_eq_some.mp happly with ⟨hcall, rfl⟩ | ⟨draft, hcall, rfl⟩
  · rw [hcall] at hcalled
    obtain ⟨d, hd, ⟨-, hcount⟩ | hsome⟩ := hcalled
    · by_cases hid : d'.id = deviceId
      · have hsame := Registry.device_of_mem h.nodup hd'
        rw [hid, hd] at hsame
        exact .inl (Option.some.inj hsame ▸ hcount)
      · exact .inr ⟨d', hd', hid, rfl, rfl⟩
    · cases hsome
  · rw [hcall] at hcalled
    obtain ⟨d, hd, ⟨hnone, -⟩ | hsome⟩ := hcalled
    · cases hnone
    · cases hsome
      obtain ⟨hmem, hid⟩ := Registry.device_mem hd
      have hstep : DeviceStep d (d.setFields d.fields.withoutRecovery) :=
        DeviceStep.setFields d d.fields.withoutRecovery rfl rfl fun h => h
      rcases mem_commit_setDevice h hmem hstep hd' with hkeeps | ⟨x, hx, hne, hkeeps⟩
      · refine .inl (hkeeps.count.elim (fun hzero => hzero) fun hcount => ?_)
        rw [hcount, Device.recoveryCount, Device.fields_setFields]
        rfl
      · exact hkeeps.count.imp_right fun hcount => ⟨x, hx, hid ▸ hne, hkeeps.id, hcount⟩

end Recovery

end Simlock.Core
