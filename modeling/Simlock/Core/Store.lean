import Simlock.Core.Changes
import Simlock.Core.Commit
import Simlock.Lib.Run

/-! A registry on its database, and the runs of its operations.

    A step is one call at one time of the clock: it commits its draft, or fails and leaves the
    records and the tables as they were, or it is a restart that opens a new registry on the tables.
    `RegistryOk` is what every commit keeps of the records themselves: one record per key, requests
    that agree with their state, and for every grant a device that outlives it.

        draft ──settled──▶ committed lists ──commitRows──▶ tables ──load──▶ records -/

namespace Simlock.Core

open Simlock.Lib

/-- A call of an operation, with the ids the generator gives it. -/
inductive Call where
  | registerDevice (id driverDeviceId : String) (spec : VirtualSpec) (driverData : DriverData)
  | transitionDevice (deviceId : String) (target : DeviceState)
    (event : Option Registry.RegistryDeviceEvent) (update : DeviceTransitionUpdate)
  | recordRebootedDevice (deviceId address : String) (driverData : DriverData) (mode : DeviceMode)
  | completeReclaimWithoutPurge (deviceId : String)
  | enterQuarantine (deviceId : String) (nextRetryAt : Int) (cause : QuarantineCause)
  | recordQuarantineRetryFailure (deviceId : String) (attempts nextRetryAt : Int)
  | recoverFromQuarantine (deviceId : String) (target : DeviceState)
  | strandQuarantine (deviceId : String) (attempts : Int)
  | deleteQuarantined (deviceId : String)
  | markForeignStateDetected (deviceId : String) (at_ : Int)
  | markForeignProvenanceDetected (deviceId : String) (at_ : Int)
  | clearForeignStateDetected (deviceId : String)
  | markRecoveryAttempt (deviceId : String) (at_ : Int)
  | clearRecovery (deviceId : String)
  | markDeviceMissing (deviceId : String)
  | endLeaseAndMarkDeviceMissing (leaseId : String)
  | endLeaseAndMarkDeviceAbsent (leaseId : String) (absentReason : AbsentReason)
  | rewriteAbsentReason (deviceId : String) (absentReason : AbsentReason)
  | enrollPhysical (id : String) (input : Registry.PhysicalEnrollmentInput)
  | reenrollPhysical (deviceId : String) (input : Registry.PhysicalEnrollmentInput)
  | unenrollPhysical (deviceId : String)
  | createLease (generated : String) (input : Registry.CreateLeaseInput)
  | beginRelease (leaseId : String) (deferReclaim : Bool)
  | renewLease (leaseId : String) (ttlDeadline ttlMs : Int)
  | createLeaseRequest (input : NewLeaseRequest)
  | settleLeaseRequest (id : String) (outcome : LeaseRequestOutcome)
  | failOpenLeaseRequests (failure : LeaseRequestFailure)
  | recordComponent (record : ComponentRecord)
  | deleteComponent (platform : Platform) (version : String)

/-- The draft of a call at `now`. -/
def Registry.call (r : Registry) (o : RegistryOptions) (now : Int) :
    Call → Except RegistryError (Option Draft)
  | .registerDevice id driverDeviceId spec driverData =>
    r.registerDevice o now id driverDeviceId spec driverData
  | .transitionDevice deviceId target event update =>
    r.transitionDevice now deviceId target event update
  | .recordRebootedDevice deviceId address driverData mode =>
    r.recordRebootedDevice deviceId address driverData mode
  | .completeReclaimWithoutPurge deviceId => r.completeReclaimWithoutPurge now deviceId
  | .enterQuarantine deviceId nextRetryAt cause => r.enterQuarantine now deviceId nextRetryAt cause
  | .recordQuarantineRetryFailure deviceId attempts nextRetryAt =>
    r.recordQuarantineRetryFailure deviceId attempts nextRetryAt
  | .recoverFromQuarantine deviceId target => r.recoverFromQuarantine now deviceId target
  | .strandQuarantine deviceId attempts => r.strandQuarantine deviceId attempts
  | .deleteQuarantined deviceId => r.deleteQuarantined now deviceId
  | .markForeignStateDetected deviceId at_ => r.markForeignStateDetected deviceId at_
  | .markForeignProvenanceDetected deviceId at_ => r.markForeignProvenanceDetected deviceId at_
  | .clearForeignStateDetected deviceId => r.clearForeignStateDetected deviceId
  | .markRecoveryAttempt deviceId at_ => r.markRecoveryAttempt deviceId at_
  | .clearRecovery deviceId => r.clearRecovery deviceId
  | .markDeviceMissing deviceId => r.markDeviceMissing deviceId
  | .endLeaseAndMarkDeviceMissing leaseId => r.endLeaseAndMarkDeviceMissing leaseId
  | .endLeaseAndMarkDeviceAbsent leaseId absentReason =>
    r.endLeaseAndMarkDeviceAbsent now leaseId absentReason
  | .rewriteAbsentReason deviceId absentReason => r.rewriteAbsentReason deviceId absentReason
  | .enrollPhysical id input => r.enrollPhysical now id input
  | .reenrollPhysical deviceId input => r.reenrollPhysical now deviceId input
  | .unenrollPhysical deviceId => r.unenrollPhysical deviceId
  | .createLease generated input => r.createLease now generated input
  | .beginRelease leaseId deferReclaim => r.beginRelease now leaseId deferReclaim
  | .renewLease leaseId ttlDeadline ttlMs => r.renewLease now leaseId ttlDeadline ttlMs
  | .createLeaseRequest input => r.createLeaseRequest o now input
  | .settleLeaseRequest id outcome => r.settleLeaseRequest now id outcome
  | .failOpenLeaseRequests failure => r.failOpenLeaseRequests now failure
  | .recordComponent record => r.recordComponent record
  | .deleteComponent platform version => r.deleteComponent platform version

/-- What a call can rely on: the generator gives ids that are not in use, a requester's own lease id
    is not that of an active lease, and a grant is written with its lease, so that a later settle
    with a grant finds the request settled. -/
def Call.Fits (r : Registry) : Call → Prop
  | .registerDevice id _ _ _ => id ∉ r.devices.map Device.id
  | .enrollPhysical id _ => id ∉ r.devices.map Device.id
  | .createLease generated input => input.leaseId.getD generated ∉ r.leases.map LeaseRecord.id
  | .createLeaseRequest input => input.id ∉ r.leaseRequests.map LeaseRequestRecord.id
  | .settleLeaseRequest id (.granted _) => ∀ q ∈ r.leaseRequests, q.id = id → isSettled q
  | _ => True

/-! ### The records of every commit -/

/-- A device's marks agree with its state. -/
structure DeviceOk (d : Device) : Prop where
  stamped : d.fields.deletedAt.isSome ↔ d.state = .deleted
  cause : d.state ≠ .quarantined → d.fields.quarantineCause = none

/-- What holds of the records after every commit. -/
structure RegistryOk (r : Registry) (clock : Int) : Prop where
  keys : Keys r
  devices : ∀ d ∈ r.devices, DeviceOk d
  requests : ∀ q ∈ r.leaseRequests, RequestOk q
  settled : ∀ q ∈ r.leaseRequests, ∀ t, q.settledAt = some t → t ≤ clock
  named : ∀ q ∈ r.leaseRequests, ∀ g, q.grant = some g → ∃ d ∈ r.devices, d.id = g.device.id ∧
    ∀ t t', d.fields.deletedAt = some t → q.settledAt = some t' → t' ≤ t

theorem Registry.device_mem {r : Registry} {deviceId : String} {d : Device}
    (h : r.device deviceId = some d) : d ∈ r.devices ∧ d.id = deviceId :=
  ⟨List.mem_of_find?_eq_some h, by simpa using List.find?_some h⟩

theorem Registry.lease_mem {r : Registry} {leaseId : String} {l : LeaseRecord}
    (h : r.lease leaseId = some l) : l ∈ r.leases ∧ l.id = leaseId :=
  ⟨List.mem_of_find?_eq_some h, by simpa using List.find?_some h⟩

theorem Registry.device_of_mem {r : Registry} {d : Device} (hk : (r.devices.map Device.id).Nodup)
    (h : d ∈ r.devices) : r.device d.id = some d := find_key_eq_some hk h

section Changes

variable {r : Registry} {o : RegistryOptions} {now clock : Int}

/-- An operation that rewrites one device commits a rewrite. -/
theorem OneDevice.change {deviceId : String} {P : Device → DeviceState → Prop}
    {x : Except RegistryError (Option Draft)} (h : OneDevice r deviceId P x) :
    Yields anyError (fun od => ∀ draft, od = some draft → Change r now draft) x := by
  refine Yields.mono h fun od hod draft hdraft => ?_
  obtain ⟨d, d', hd, rfl, hstep, -⟩ := hod draft hdraft
  exact .rewrite ((Registry.device_mem hd).2 ▸ hd) hstep

theorem EndsLease.change {leaseId : String} {P : Device → Device → Prop}
    {x : Except RegistryError (Option Draft)} (h : EndsLease r leaseId P x) :
    Yields anyError (fun od => ∀ draft, od = some draft → Change r now draft) x := by
  refine Yields.mono h fun od hod draft hdraft => ?_
  obtain ⟨lease, d, d', -, hd, rfl, hstep, -⟩ := hod draft hdraft
  exact .endLease ((Registry.device_mem hd).2 ▸ hd) hstep

theorem evictSettled_sublist (maxRecords fuel : Nat) (kept : List (Obj LeaseRequestRecord)) :
    List.Sublist (evictSettled maxRecords fuel kept) kept := by
  induction fuel generalizing kept with
  | zero => exact List.Sublist.refl _
  | succ fuel ih =>
    rw [evictSettled]
    split
    · exact List.Sublist.refl _
    · split
      · exact List.Sublist.refl _
      · rename_i i _
        exact (ih _).trans (List.eraseIdx_sublist kept i)

theorem newLeaseRequestRecord_ok (input : NewLeaseRequest) (now : Int) :
    RequestOk (newLeaseRequestRecord input now) := by
  refine ⟨by simp [newLeaseRequestRecord], ?_, ?_⟩
  · intro h
    simp [isSettled, newLeaseRequestRecord] at h
  · intro g hg
    cases hg

theorem createLeaseRequest_change (input : NewLeaseRequest)
    (hnew : input.id ∉ r.leaseRequests.map LeaseRequestRecord.id) :
    RequestsStep r (keep r.devices) now
      (withNewLeaseRequest (keep r.leaseRequests) (newLeaseRequestRecord input now) now o) := by
  have hsub : List.Sublist (evictSettled o.maxRecords
      (retainedLeaseRequests (keep r.leaseRequests) now o.retentionMs).length
      (retainedLeaseRequests (keep r.leaseRequests) now o.retentionMs)) (keep r.leaseRequests) :=
    (evictSettled_sublist ..).trans List.filter_sublist
  have hkept := (RequestsStep.keep r (keep r.devices) now).sublist hsub
  have hnot : input.id ∉ (vals (evictSettled o.maxRecords
      (retainedLeaseRequests (keep r.leaseRequests) now o.retentionMs).length
      (retainedLeaseRequests (keep r.leaseRequests) now o.retentionMs))).map
      LeaseRequestRecord.id := by
    intro hmem
    have := ((hsub.map Obj.val).map LeaseRequestRecord.id).subset hmem
    rw [show (keep r.leaseRequests).map Obj.val = r.leaseRequests from vals_keep _] at this
    exact hnew this
  rw [withNewLeaseRequest]
  refine ⟨hkept.follows.snoc hnew hnot, ?_, ?_, ?_, ?_⟩
  · intro x hx hfresh
    rcases List.mem_append.mp hx with hx | hx
    · exact hkept.ok x hx hfresh
    · rw [List.mem_singleton.mp hx]
      exact newLeaseRequestRecord_ok input now
  · intro x hx hfresh t ht
    rcases List.mem_append.mp hx with hx | hx
    · exact hkept.settled x hx hfresh t ht
    · rw [List.mem_singleton.mp hx] at ht
      cases ht
  · intro x hx hfresh q hq hid
    rcases List.mem_append.mp hx with hx | hx
    · exact hkept.replaced x hx hfresh q hq hid
    · rw [List.mem_singleton.mp hx] at hid
      have hmem := List.mem_map_of_mem (f := LeaseRequestRecord.id) hq
      rw [hid] at hmem
      exact absurd hmem hnew
  · intro x hx hfresh g hg
    rcases List.mem_append.mp hx with hx | hx
    · exact hkept.named x hx hfresh g hg
    · rw [List.mem_singleton.mp hx] at hg
      cases hg

/-- Failing one open request after the other keeps the list one to commit. -/
theorem failOpen_step (h : RegistryOk r clock) (failure : LeaseRequestFailure) (ids : List String)
    (requests : List (Obj LeaseRequestRecord))
    (hr : RequestsStep r (keep r.devices) now requests) :
    RequestsStep r (keep r.devices) now (Registry.failOpen now failure ids requests) := by
  induction ids generalizing requests with
  | nil => exact hr
  | cons id ids ih =>
    rw [Registry.failOpen]
    refine ih _ ?_
    cases hs : withSettledLeaseRequest requests id (.failed failure) now with
    | none => exact hr
    | some requests' =>
      exact hr.settle h.requests h.keys.requests (fun g hg => by cases hg) hs

theorem settleLeaseRequest_change (h : RegistryOk r clock) (id : String)
    (outcome : LeaseRequestOutcome)
    (hfits : Call.Fits r (.settleLeaseRequest id outcome)) :
    Yields anyError (fun od => ∀ draft, od = some draft → Change r now draft)
      (r.settleLeaseRequest now id outcome) := by
  intro draft hdraft
  obtain ⟨requests, hs, rfl⟩ := Option.map_eq_some_iff.mp hdraft
  refine .requests ?_
  refine (RequestsStep.keep r (keep r.devices) now).settle h.requests h.keys.requests ?_ hs
  -- a grant settles nothing here: the record is settled already
  rintro g rfl
  obtain ⟨x, hx, hid, hopen, -⟩ := find_withSettled hs
  rw [hfits x.val (mem_keep hx).2 hid] at hopen
  cases hopen

theorem componentsWithout_eq (r : Registry) (platform : Platform) (version : String) :
    r.componentsWithout platform version = keep (r.components.filter
      (fun c => c.platform ≠ platform || c.version ≠ version)) := by
  rw [Registry.componentsWithout, keep, List.filter_map]
  rfl

/-- The requests of a grant are ones to commit with the device it grants. -/
theorem GrantsRequest.step (h : RegistryOk r clock) {deviceId : String} {d d' : Device}
    {request : Option Registry.GrantedRequest} {lease : LeaseRecord}
    {requests : List (Obj LeaseRequestRecord)} (hd : r.device deviceId = some d)
    (hm : Moved d d' .leased) (hlease : lease.deviceId = deviceId)
    (hreq : GrantsRequest r now request d' lease requests) :
    RequestsStep r (r.draft.setDevice d').devices now requests := by
  obtain ⟨hmem, hid⟩ := Registry.device_mem hd
  have hlive : d'.fields.deletedAt = none := by
    rw [hm.step.deletedAt]
    exact Option.not_isSome_iff_eq_none.mp (mt (h.devices d hmem).stamped.mp hm.legal.not_deleted)
  have hset : d' ∈ vals (r.draft.setDevice d').devices := by
    refine List.mem_map.mpr ⟨⟨d', true⟩, mem_replaceFirst_self ?_, rfl⟩
    exact ⟨⟨d, false⟩, List.mem_map_of_mem hmem, by simp [hm.step.id]⟩
  rcases hreq with rfl | ⟨q, -, hs⟩
  · exact RequestsStep.keep ..
  · refine (RequestsStep.keep r _ now).settle h.requests h.keys.requests ?_ hs
    rintro g ⟨⟩
    exact ⟨hlease.trans (hid.symm.trans hm.step.id.symm), d', hset, rfl, hlive⟩

theorem createLease_change (h : RegistryOk r clock) (generated : String)
    (input : Registry.CreateLeaseInput)
    (hnew : input.leaseId.getD generated ∉ r.leases.map LeaseRecord.id) :
    Yields anyError (fun od => ∀ draft, od = some draft → Change r now draft)
      (r.createLease now generated input) := by
  refine (createLease_yields generated input).mono fun od hod draft hdraft => ?_
  obtain ⟨d, d', requests, hd, -, hm, -, hreq, rfl⟩ := hod draft hdraft
  have hstep := hreq.step h hd hm rfl
  obtain ⟨-, hid⟩ := Registry.device_mem hd
  rw [← hid] at hd
  exact .grant hd hm.step hnew hstep

/-- Every call commits one of the shapes of `Change`. -/
theorem call_change (h : RegistryOk r clock) (c : Call) (hfits : c.Fits r) :
    Yields anyError (fun od => ∀ draft, od = some draft → Change r now draft)
      (r.call o now c) := by
  cases c with
  | registerDevice id driverDeviceId spec driverData =>
    rintro draft ⟨⟩
    exact .add hfits rfl
  | transitionDevice deviceId target event update =>
    exact (transitionDevice_one target event update).change
  | recordRebootedDevice deviceId address driverData mode =>
    exact (recordRebootedDevice_one address driverData mode).change
  | completeReclaimWithoutPurge deviceId => exact completeReclaimWithoutPurge_one.change
  | enterQuarantine deviceId nextRetryAt cause =>
    exact (enterQuarantine_one nextRetryAt cause).change
  | recordQuarantineRetryFailure deviceId attempts nextRetryAt =>
    exact (recordQuarantineRetryFailure_one attempts nextRetryAt).change
  | recoverFromQuarantine deviceId target => exact (recoverFromQuarantine_one target).change
  | strandQuarantine deviceId attempts => exact (strandQuarantine_one attempts).change
  | deleteQuarantined deviceId => exact deleteQuarantined_one.change
  | markForeignStateDetected deviceId at_ => exact (markForeignStateDetected_one at_).change
  | markForeignProvenanceDetected deviceId at_ =>
    exact (markForeignProvenanceDetected_one at_).change
  | clearForeignStateDetected deviceId => exact clearForeignStateDetected_one.change
  | markRecoveryAttempt deviceId at_ => exact (markRecoveryAttempt_one at_).change
  | clearRecovery deviceId => exact clearRecovery_one.change
  | markDeviceMissing deviceId => exact markDeviceMissing_one.change
  | endLeaseAndMarkDeviceMissing leaseId =>
    exact (endLeaseAndMarkDeviceMissing_ends leaseId).change
  | endLeaseAndMarkDeviceAbsent leaseId absentReason =>
    exact (endLeaseAndMarkDeviceAbsent_ends leaseId absentReason).change
  | rewriteAbsentReason deviceId absentReason =>
    exact (rewriteAbsentReason_one absentReason).change
  | enrollPhysical id input =>
    rintro draft ⟨⟩
    exact .add hfits rfl
  | reenrollPhysical deviceId input => exact (reenrollPhysical_one input).change
  | unenrollPhysical deviceId => exact unenrollPhysical_one.change
  | createLease generated input => exact createLease_change h generated input hfits
  | beginRelease leaseId deferReclaim => exact (beginRelease_ends leaseId deferReclaim).change
  | renewLease leaseId ttlDeadline ttlMs =>
    refine (requireLease_yields r leaseId).bind fun lease hl => ?_
    rintro draft ⟨⟩
    rw [← (Registry.lease_mem hl).2]
    exact .renew rfl
  | createLeaseRequest input =>
    rintro draft ⟨⟩
    exact .requests (createLeaseRequest_change input hfits)
  | settleLeaseRequest id outcome => exact settleLeaseRequest_change h id outcome hfits
  | failOpenLeaseRequests failure =>
    simp only [Registry.call, Registry.failOpenLeaseRequests]
    split
    · rintro draft ⟨⟩
    · rintro draft ⟨⟩
      exact .requests (failOpen_step h failure _ _ (RequestsStep.keep ..))
  | recordComponent record =>
    rintro draft ⟨⟩
    refine .components _ [⟨record, true⟩] (by rw [componentsWithout_eq]) List.filter_sublist
      (by simp) (by simp) ?_
    intro x hx c hc hsame
    rw [List.mem_singleton.mp hx] at hsame
    have hne := (List.mem_filter.mp hc).2
    simp [hsame.1, hsame.2] at hne
  | deleteComponent platform version =>
    simp only [Registry.call, Registry.deleteComponent]
    split
    · rintro draft ⟨⟩
    · rintro draft ⟨⟩
      refine .components _ [] (by rw [componentsWithout_eq, List.append_nil]) List.filter_sublist
        (by simp) (by simp) (by simp)

/-! ### What a commit makes of a draft -/

/-- What every shape of draft has in common: no device goes, a device that was there keeps its
    deletion, a new one is not deleted. -/
structure DraftOk (r : Registry) (now : Int) (d : Draft) : Prop where
  devices : Follows Device.id r.devices d.devices
  stay : ∀ x ∈ r.devices, ∃ y ∈ vals d.devices, DeviceStep x y
  known : ∀ y ∈ vals d.devices, (∃ x ∈ r.devices, DeviceStep x y) ∨ y.fields.deletedAt = none
  leases : Follows LeaseRecord.id r.leases d.leases
  requests : RequestsStep r d.devices now d.leaseRequests
  components : Reordered componentKey r.components d.components

theorem reordered_keep (hk : Keys r) : Reordered componentKey r.components (keep r.components) :=
  ⟨r.components, [], by simp, List.Sublist.refl _, by simp, by simpa using hk.components⟩

theorem mem_vals_keep {α : Type} {xs : List α} {x : α} : x ∈ vals (keep xs) ↔ x ∈ xs := by
  rw [vals_keep]

/-- The devices of a draft that rewrites one of them. -/
theorem setDevice_devices (hk : Keys r) {x x' : Device} (hx : r.device x.id = some x)
    (hstep : DeviceStep x x') :
    Follows Device.id r.devices (r.draft.setDevice x').devices ∧
      (∀ y ∈ r.devices, ∃ y' ∈ vals (r.draft.setDevice x').devices, DeviceStep y y') ∧
      (∀ y' ∈ vals (r.draft.setDevice x').devices, ∃ y ∈ r.devices, DeviceStep y y') := by
  have hmem := (Registry.device_mem hx).1
  refine ⟨?_, ?_, ?_⟩
  · exact (Follows.keep Device.id r.devices).replaceFirst fun o _ hp => of_decide_eq_true hp
  · intro y hy
    by_cases hid : y.id = x.id
    · obtain rfl := List.inj_on_of_nodup_map hk.devices hy hmem hid
      refine ⟨x', List.mem_map.mpr ⟨⟨x', true⟩, mem_replaceFirst_self ?_, rfl⟩, hstep⟩
      exact ⟨⟨y, false⟩, List.mem_map_of_mem hy, by simp [hstep.id]⟩
    · refine ⟨y, List.mem_map.mpr ⟨⟨y, false⟩, ?_, rfl⟩, DeviceStep.refl y⟩
      refine mem_replaceFirst_of_not (List.mem_map_of_mem hy) ?_
      simpa [hstep.id] using hid
  · intro y' hy'
    obtain ⟨o, ho, rfl⟩ := List.mem_map.mp hy'
    rcases mem_replaceFirst ho with rfl | ho
    · exact ⟨x, hmem, hstep⟩
    · exact ⟨o.val, (mem_keep ho).2, DeviceStep.refl _⟩

theorem Change.draftOk {d : Draft} (hk : Keys r) (h : Change r now d) : DraftOk r now d := by
  have hdevices : Follows Device.id r.devices (keep r.devices) := Follows.keep ..
  have hstay : ∀ x ∈ r.devices, ∃ y ∈ vals (keep r.devices), DeviceStep x y :=
    fun x hx => ⟨x, mem_vals_keep.mpr hx, DeviceStep.refl x⟩
  have hknown : ∀ y ∈ vals (keep r.devices), (∃ x ∈ r.devices, DeviceStep x y) ∨
      y.fields.deletedAt = none :=
    fun y hy => .inl ⟨y, mem_vals_keep.mp hy, DeviceStep.refl y⟩
  have hleases : Follows LeaseRecord.id r.leases (keep r.leases) := Follows.keep ..
  have hcomponents := reordered_keep hk
  cases h with
  | rewrite hd hstep =>
    obtain ⟨hf, hs, hn⟩ := setDevice_devices hk hd hstep
    exact ⟨hf, hs, fun y hy => .inl (hn y hy), hleases, RequestsStep.keep .., hcomponents⟩
  | @add x hnew hlive =>
    refine ⟨?_, ?_, ?_, hleases, RequestsStep.keep .., hcomponents⟩
    · exact hdevices.snoc hnew (by rwa [vals_keep])
    · intro y hy
      refine ⟨y, ?_, DeviceStep.refl y⟩
      rw [vals_append, List.mem_append, vals_keep]
      exact .inl hy
    · intro y hy
      rw [vals_append, List.mem_append] at hy
      rcases hy with hy | hy
      · exact hknown y hy
      · rw [List.mem_singleton.mp hy]
        exact .inr hlive
  | grant hd hstep hnew hrequests =>
    obtain ⟨hf, hs, hn⟩ := setDevice_devices hk hd hstep
    exact ⟨hf, hs, fun y hy => .inl (hn y hy), hleases.snoc hnew (by rwa [vals_keep]), hrequests,
      hcomponents⟩
  | endLease hd hstep =>
    obtain ⟨hf, hs, hn⟩ := setDevice_devices hk hd hstep
    exact ⟨hf, hs, fun y hy => .inl (hn y hy), hleases.sublist List.filter_sublist,
      RequestsStep.keep .., hcomponents⟩
  | renew hid =>
    refine ⟨hdevices, hstay, hknown, ?_, RequestsStep.keep .., hcomponents⟩
    exact hleases.replaceFirst fun o _ hp => (of_decide_eq_true hp).trans hid.symm
  | requests hrequests => exact ⟨hdevices, hstay, hknown, hleases, hrequests, hcomponents⟩
  | components old new hc hold hfresh hone hnew =>
    refine ⟨hdevices, hstay, hknown, hleases, RequestsStep.keep .., old, new, hc, hold, hfresh, ?_⟩
    rw [hc, vals_append, vals_keep, List.map_append, List.nodup_append]
    refine ⟨(hold.map componentKey).nodup hk.components, ?_, ?_⟩
    · match new, hone with
      | [], _ => exact List.nodup_nil
      | [x], _ => exact List.nodup_singleton _
    · intro a ha b hb hab
      obtain ⟨c, hcold, rfl⟩ := List.mem_map.mp ha
      obtain ⟨c', hc', rfl⟩ := List.mem_map.mp hb
      obtain ⟨x, hx, rfl⟩ := List.mem_map.mp hc'
      obtain ⟨hp, hv⟩ := Prod.mk.inj ((componentKey_eq_iff c x.val).mp hab)
      exact hnew x hx c hcold ⟨platforms.injective _ _ hp, hv⟩

/-- The entry `#commit` stores for a device of the draft. -/
def stamp (now : Int) (x : Obj Device) : Obj Device :=
  stampDeleted now (withoutCauseUnlessQuarantined x)

theorem withoutCause_spec (x : Obj Device) :
    (withoutCauseUnlessQuarantined x).val.id = x.val.id ∧
      (withoutCauseUnlessQuarantined x).val.state = x.val.state ∧
      (withoutCauseUnlessQuarantined x).val.fields.deletedAt = x.val.fields.deletedAt ∧
      (withoutCauseUnlessQuarantined x).val.fields.lastLeaseEndedAt = x.val.fields.lastLeaseEndedAt ∧
      (withoutCauseUnlessQuarantined x).val.isPhysical = x.val.isPhysical ∧
      (x.val.state ≠ .quarantined →
        (withoutCauseUnlessQuarantined x).val.fields.quarantineCause = none) ∧
      (withoutCauseUnlessQuarantined x = x ∨ (withoutCauseUnlessQuarantined x).fresh = true) := by
  unfold withoutCauseUnlessQuarantined
  split
  · rename_i h
    refine ⟨rfl, rfl, rfl, rfl, rfl, fun hq => ?_, .inl rfl⟩
    simpa [hq] using h
  · simp [Device.id]

/-- What a stamp does: the id, the kind, the state and the end of the last lease stay; a deleted
    device gets a time of deletion if it has none. -/
structure Stamps (now : Int) (x x' : Device) : Prop where
  id : x'.id = x.id
  state : x'.state = x.state
  isPhysical : x'.isPhysical = x.isPhysical
  ended : x'.fields.lastLeaseEndedAt = x.fields.lastLeaseEndedAt
  deletedAt : x'.fields.deletedAt = x.fields.deletedAt ∨
    (x.fields.deletedAt = none ∧ x'.fields.deletedAt = some now)
  deleted : x'.state = .deleted → x'.fields.deletedAt.isSome
  cause : x'.state ≠ .quarantined → x'.fields.quarantineCause = none
  live : x.state ≠ .deleted → x'.fields.deletedAt = x.fields.deletedAt

theorem stamp_spec (now : Int) (x : Obj Device) :
    Stamps now x.val (stamp now x).val ∧ (stamp now x = x ∨ (stamp now x).fresh = true) := by
  obtain ⟨hid, hstate, hdel, hended, hphys, hcause, hfresh⟩ := withoutCause_spec x
  rw [stamp, stampDeleted]
  generalize withoutCauseUnlessQuarantined x = y at *
  by_cases hs : (y.val.state = .deleted && y.val.fields.deletedAt.isNone) = true
  · rw [if_pos hs]
    rw [Bool.and_eq_true, decide_eq_true_eq, Option.isNone_iff_eq_none] at hs
    refine ⟨⟨by simpa [Device.id] using hid, by simpa using hstate, by simpa using hphys,
      by simpa using hended, .inr ⟨hdel ▸ hs.2, by simp⟩, by simp, ?_, ?_⟩, .inr rfl⟩
    · intro hq
      simpa using hcause (by simpa [hstate] using hq)
    · intro hlive
      exact absurd (hstate ▸ hs.1) hlive
  · rw [if_neg hs]
    refine ⟨⟨hid, hstate, hphys, hended, .inl hdel, ?_, ?_, fun _ => hdel⟩, hfresh⟩
    · intro hd
      rw [Bool.and_eq_true, decide_eq_true_eq, Option.isNone_iff_eq_none, not_and] at hs
      exact Option.isSome_iff_ne_none.mpr (hs hd)
    · intro hq
      exact hcause (hstate ▸ hq)

theorem settled_devices (o : RegistryOptions) (now : Int) (d : Draft) :
    (d.settled o now).devices = (d.devices.map (stamp now)).filter
      (fun x => !isExpired now o.deletedRetentionMs x.val) := rfl

/-- A committed device is one of the draft, stamped. -/
theorem mem_settled_devices {d : Draft} {x' : Device}
    (h : x' ∈ (d.settled o now).registry.devices) :
    ∃ x ∈ d.devices, Stamps now x.val x' ∧ isExpired now o.deletedRetentionMs x' = false := by
  obtain ⟨z, hz, rfl⟩ := List.mem_map.mp h
  rw [settled_devices] at hz
  obtain ⟨hmem, hlive⟩ := List.mem_filter.mp hz
  obtain ⟨x, hx, rfl⟩ := List.mem_map.mp hmem
  exact ⟨x, hx, (stamp_spec now x).1, by simpa using hlive⟩

theorem settled_requests_sublist (o : RegistryOptions) (now : Int) (d : Draft) :
    List.Sublist (d.settled o now).leaseRequests d.leaseRequests := by
  simp only [Draft.settled]
  split
  · exact List.filter_sublist
  · exact List.Sublist.refl _

/-- When a device is purged, every request that stays is one within its retention. -/
theorem retained_of_purged {d : Draft} {x : Obj Device} (hx : x ∈ d.devices)
    (hexpired : isExpired now o.deletedRetentionMs (stamp now x).val = true)
    {y : Obj LeaseRequestRecord} (hy : y ∈ (d.settled o now).leaseRequests) :
    isRetained now o.retentionMs y.val = true := by
  have hlt : ((d.devices.map (stamp now)).filter
      (fun x => !isExpired now o.deletedRetentionMs x.val)).length <
      (d.devices.map (stamp now)).length := by
    refine List.length_filter_lt_length_iff_exists.mpr ⟨stamp now x, List.mem_map_of_mem hx, ?_⟩
    simp [hexpired]
  have hrequests : (d.settled o now).leaseRequests =
      retainedLeaseRequests d.leaseRequests now o.retentionMs := if_pos hlt
  rw [hrequests] at hy
  exact (List.mem_filter.mp hy).2

/-- A deletion that is no earlier than a settle within its retention has not expired. -/
theorem not_expired_of_retained {x : Device} {q : LeaseRequestRecord} (hq : RequestOk q)
    (hgrant : q.grant.isSome) (hretained : isRetained now o.retentionMs q = true)
    (hlater : ∀ t t', x.fields.deletedAt = some t → q.settledAt = some t' → t' ≤ t) :
    isExpired now o.deletedRetentionMs x = false := by
  have hset : isSettled q = true := by
    rw [isSettled, hq.granted.mpr hgrant]
    rfl
  obtain ⟨t', ht'⟩ := Option.isSome_iff_exists.mp (hq.settled hset)
  have hwithin : now < t' + o.retentionMs := by simpa [isRetained, hset, ht'] using hretained
  have hle := o.retention_le
  unfold isExpired
  split
  · rfl
  · rename_i t ht
    have := hlater t t' ht ht'
    simp only [decide_eq_false_iff_not, Int.not_lt]
    omega

/-- Every grant of the committed requests names a device that is committed with it. -/
theorem settled_named {d : Draft} (h : RegistryOk r clock) (hle : clock ≤ now)
    (hd : DraftOk r now d) {y : Obj LeaseRequestRecord} (hy : y ∈ (d.settled o now).leaseRequests)
    {g : LeaseGrant} (hg : y.val.grant = some g) :
    ∃ x' ∈ vals (d.settled o now).devices, x'.id = g.device.id ∧
      ∀ t t', x'.fields.deletedAt = some t → y.val.settledAt = some t' → t' ≤ t := by
  have hy' := (settled_requests_sublist o now d).subset hy
  -- the device of the draft, the request's check and the time it settled
  obtain ⟨x, hx, hid, hlater, hok, hpast⟩ : ∃ x ∈ d.devices, x.val.id = g.device.id ∧
      (∀ t t', x.val.fields.deletedAt = some t → y.val.settledAt = some t' → t' ≤ t) ∧
      RequestOk y.val ∧ ∀ t', y.val.settledAt = some t' → t' ≤ now := by
    cases hfresh : y.fresh with
    | true =>
      obtain ⟨v, hv, hid, hlive⟩ := hd.requests.named y hy' hfresh g hg
      obtain ⟨x, hx, rfl⟩ := List.mem_map.mp hv
      refine ⟨x, hx, hid, fun t t' ht _ => ?_, hd.requests.ok y hy' hfresh, fun t' ht' => ?_⟩
      · rw [hlive] at ht
        cases ht
      · exact Int.le_of_eq (hd.requests.settled y hy' hfresh t' ht')
    | false =>
      have hmem := hd.requests.follows.kept_mem hy' hfresh
      obtain ⟨w, hw, hid, hlater⟩ := h.named y.val hmem g hg
      obtain ⟨v, hv, hstep⟩ := hd.stay w hw
      obtain ⟨x, hx, rfl⟩ := List.mem_map.mp hv
      refine ⟨x, hx, hstep.id.trans hid, fun t t' ht => hlater t t' (hstep.deletedAt ▸ ht),
        h.requests _ hmem, fun t' ht' => Int.le_trans (h.settled _ hmem t' ht') hle⟩
  obtain ⟨hstamp, -⟩ := stamp_spec now x
  have hlater' : ∀ t t', (stamp now x).val.fields.deletedAt = some t →
      y.val.settledAt = some t' → t' ≤ t := by
    intro t t' ht ht'
    rcases hstamp.deletedAt with he | ⟨-, he⟩
    · exact hlater t t' (he ▸ ht) ht'
    · rw [he] at ht
      cases ht
      exact hpast t' ht'
  refine ⟨(stamp now x).val, ?_, hstamp.id.trans hid, hlater'⟩
  refine List.mem_map_of_mem (List.mem_filter.mpr ⟨List.mem_map_of_mem hx, ?_⟩)
  by_contra hexpired
  rw [Bool.not_eq_true', Bool.not_eq_false] at hexpired
  have hretained := retained_of_purged hx hexpired hy
  rw [not_expired_of_retained hok (by rw [hg]; rfl) hretained hlater'] at hexpired
  cases hexpired

/-- A commit of a draft of an operation can be stored, and leaves the records well formed. -/
theorem settled_ok {d : Draft} (h : RegistryOk r clock) (hle : clock ≤ now) (hd : DraftOk r now d) :
    Storable r (d.settled o now) ∧ RegistryOk (d.settled o now).registry now := by
  have hsub := settled_requests_sublist o now d
  have hrequests := hd.requests.sublist hsub
  have hdevices : Follows Device.id r.devices (d.settled o now).devices := by
    refine Follows.sublist (hd.devices.map (stamp now) fun x => ?_) List.filter_sublist
    exact ⟨(stamp_spec now x).1.id, (stamp_spec now x).2⟩
  have hstorable : Storable r (d.settled o now) := by
    refine ⟨hdevices, hd.leases, hrequests.follows, hd.components, ?_, ?_⟩
    · intro y hy hfresh q hq hid
      have hopen := hrequests.replaced y hy hfresh q hq hid
      have hstate : q.state ≠ .granted := by
        intro hs
        simp [isSettled, hs] at hopen
      exact Option.not_isSome_iff_eq_none.mp (mt (h.requests q hq).granted.mpr hstate)
    · intro q hq g hg
      obtain ⟨y, hy, rfl⟩ := List.mem_map.mp hq
      obtain ⟨x', hx', hid, -⟩ := settled_named h hle hd hy hg
      exact hid ▸ List.mem_map_of_mem hx'
  refine ⟨hstorable, ⟨?_, ?_, ?_, ?_⟩, ?_, ?_, ?_, ?_⟩
  · exact hdevices.nodup h.keys.devices
  · exact hd.leases.nodup h.keys.leases
  · exact hrequests.follows.nodup h.keys.requests
  · obtain ⟨-, -, -, -, -, hnodup⟩ := hd.components
    exact hnodup
  · intro x' hx'
    obtain ⟨x, hx, hstamp, -⟩ := mem_settled_devices hx'
    refine ⟨⟨fun hsome => ?_, hstamp.deleted⟩, hstamp.cause⟩
    by_contra hne
    rw [hstamp.state] at hne
    rw [hstamp.live hne] at hsome
    rcases hd.known x.val (List.mem_map_of_mem hx) with ⟨w, hw, hstep⟩ | hnone
    · rw [hstep.deletedAt] at hsome
      exact hne (hstep.deleted ((h.devices w hw).stamped.mp hsome))
    · rw [hnone] at hsome
      cases hsome
  · intro q hq
    obtain ⟨y, hy, rfl⟩ := List.mem_map.mp hq
    cases hfresh : y.fresh with
    | true => exact hrequests.ok y hy hfresh
    | false => exact h.requests _ (hrequests.follows.kept_mem hy hfresh)
  · intro q hq t ht
    obtain ⟨y, hy, rfl⟩ := List.mem_map.mp hq
    cases hfresh : y.fresh with
    | true => exact Int.le_of_eq (hrequests.settled y hy hfresh t ht)
    | false => exact Int.le_trans (h.settled _ (hrequests.follows.kept_mem hy hfresh) t ht) hle
  · intro q hq g hg
    obtain ⟨y, hy, rfl⟩ := List.mem_map.mp hq
    exact settled_named h hle hd hy hg

end Changes

end Simlock.Core
