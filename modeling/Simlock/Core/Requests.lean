import Simlock.Core.Atomicity

/-! What a call does to the lease requests.

    A record is written at most twice: when the request is stored, and when it settles. Every call
    therefore leaves each record as it was, or settles one that was open, or adds a new one, and a
    restart settles what is open; records also go, when their retention has run out or the list is
    at its cap. A grant is stored with the id of its device, and `stored` is what of a record stays
    when it is read back: all of it but the rest of that device. -/

namespace Simlock.Core

open Simlock.Lib

/-- A grant as it is stored: its device by id. -/
def LeaseGrant.named (g : LeaseGrant) : String × Entries × LeaseRecord × LeaseTiming :=
  (g.device.id, g.environment, g.lease, g.timing)

def LeaseRequestRecord.stored (q : LeaseRequestRecord) :
    LeaseRequestRecord × Option (String × Entries × LeaseRecord × LeaseTiming) :=
  ({ q with grant := none }, q.grant.map LeaseGrant.named)

/-- The calls that write a request. -/
def Call.writesRequests : Call → Bool
  | .createLease .. | .createLeaseRequest _ | .settleLeaseRequest .. | .failOpenLeaseRequests _ => true
  | _ => false

/-- The record is written by `#settle`: it is open and gets its result at `now`. -/
structure SettledAs (now : Int) (x : LeaseRequestOutcome) (q q' : LeaseRequestRecord) : Prop where
  wasOpen : isSettled q = false
  eq : q' = x.settle q now

section Stored

variable {q q' : LeaseRequestRecord}

theorem stored_fields (h : q'.stored = q.stored) :
    q'.id = q.id ∧ q'.requesterId = q.requesterId ∧ q'.idempotencyKey = q.idempotencyKey ∧
      q'.state = q.state ∧ q'.settledAt = q.settledAt ∧ q'.failure = q.failure := by
  have hrest : { q' with grant := none } = { q with grant := none } := congrArg Prod.fst h
  obtain ⟨hid, hrequester, -, hkey, -, -, -, -, hstate, hsettled, -, hfailure⟩ :=
    LeaseRequestRecord.mk.inj hrest
  exact ⟨hid, hrequester, hkey, hstate, hsettled, hfailure⟩

theorem isSettled_of_stored (h : q'.stored = q.stored) : isSettled q' = isSettled q := by
  rw [isSettled, isSettled, (stored_fields h).2.2.2.1]

theorem withCurrentDevice_stored (r : Registry) (q : LeaseRequestRecord) :
    (r.withCurrentDevice q).stored = q.stored := by
  unfold Registry.withCurrentDevice
  split
  · rfl
  · rename_i g hg
    split
    · rfl
    · rename_i d hd
      simp [LeaseRequestRecord.stored, LeaseGrant.named, hg, (Registry.device_mem hd).2]

@[simp] theorem isSettled_settle (q : LeaseRequestRecord) (now : Int) (x : LeaseRequestOutcome) :
    isSettled (x.settle q now) = true := by cases x <;> rfl

theorem settle_key (q : LeaseRequestRecord) (now : Int) (x : LeaseRequestOutcome) :
    (x.settle q now).requesterId = q.requesterId ∧
      (x.settle q now).idempotencyKey = q.idempotencyKey := by cases x <;> exact ⟨rfl, rfl⟩

end Stored

section Calls

variable {r : Registry} {o : RegistryOptions} {now clock : Int} {draft : Draft}

/-- A commit keeps requests of its draft, and writes none. -/
theorem mem_commit_requests {q : LeaseRequestRecord}
    (h : q ∈ (Registry.commit o now draft).leaseRequests) : q ∈ vals draft.leaseRequests :=
  ((settled_requests_sublist o now draft).map Obj.val).subset h

/-- A call that writes no request hands on the records it found. -/
theorem call_keeps_requests {c : Call} (hc : c.writesRequests = false)
    (hcall : r.call o now c = .ok (some draft)) : draft.leaseRequests = keep r.leaseRequests := by
  have hone : ∀ {deviceId : String} {P : Device → DeviceState → Prop},
      OneDevice r deviceId P (r.call o now c) → draft.leaseRequests = keep r.leaseRequests := by
    intro deviceId P h
    rw [hcall] at h
    obtain ⟨d, d', -, rfl, -⟩ := h draft rfl
    rfl
  have hends : ∀ {leaseId : String} {P : Device → Device → Prop},
      EndsLease r leaseId P (r.call o now c) → draft.leaseRequests = keep r.leaseRequests := by
    intro leaseId P h
    rw [hcall] at h
    obtain ⟨lease, d, d', -, -, rfl, -⟩ := h draft rfl
    rfl
  cases c with
  | registerDevice id driverDeviceId spec driverData => cases hcall; rfl
  | enrollPhysical id input => cases hcall; rfl
  | transitionDevice deviceId target event update =>
    exact hone (transitionDevice_one target event update)
  | recordRebootedDevice deviceId address driverData mode =>
    exact hone (recordRebootedDevice_one address driverData mode)
  | completeReclaimWithoutPurge deviceId => exact hone completeReclaimWithoutPurge_one
  | enterQuarantine deviceId nextRetryAt cause => exact hone (enterQuarantine_one nextRetryAt cause)
  | recordQuarantineRetryFailure deviceId attempts nextRetryAt =>
    exact hone (recordQuarantineRetryFailure_one attempts nextRetryAt)
  | recoverFromQuarantine deviceId target => exact hone (recoverFromQuarantine_one target)
  | strandQuarantine deviceId attempts => exact hone (strandQuarantine_one attempts)
  | deleteQuarantined deviceId => exact hone deleteQuarantined_one
  | markForeignStateDetected deviceId at_ => exact hone (markForeignStateDetected_one at_)
  | markForeignProvenanceDetected deviceId at_ => exact hone (markForeignProvenanceDetected_one at_)
  | clearForeignStateDetected deviceId => exact hone clearForeignStateDetected_one
  | markRecoveryAttempt deviceId at_ => exact hone (markRecoveryAttempt_one at_)
  | clearRecovery deviceId => exact hone clearRecovery_one
  | markDeviceMissing deviceId => exact hone markDeviceMissing_one
  | endLeaseAndMarkDeviceMissing leaseId => exact hends (endLeaseAndMarkDeviceMissing_ends leaseId)
  | endLeaseAndMarkDeviceAbsent leaseId absentReason =>
    exact hends (endLeaseAndMarkDeviceAbsent_ends leaseId absentReason)
  | beginRelease leaseId deferReclaim => exact hends (beginRelease_ends leaseId deferReclaim)
  | rewriteAbsentReason deviceId absentReason => exact hone (rewriteAbsentReason_one absentReason)
  | reenrollPhysical deviceId input => exact hone (reenrollPhysical_one input)
  | unenrollPhysical deviceId => exact hone unenrollPhysical_one
  | renewLease leaseId ttlDeadline ttlMs =>
    have hyields : Yields anyError (fun od => ∀ draft, od = some draft →
        draft.leaseRequests = keep r.leaseRequests)
        (r.call o now (.renewLease leaseId ttlDeadline ttlMs)) := by
      refine (requireLease_yields r leaseId).bind fun lease _ => ?_
      rintro draft ⟨⟩
      rfl
    rw [hcall] at hyields
    exact hyields draft rfl
  | recordComponent record => cases hcall; rfl
  | deleteComponent platform version =>
    simp only [Registry.call, Registry.deleteComponent] at hcall
    split at hcall
    · cases hcall
    · cases hcall
      rfl
  | _ => cases hc

/-- Settling a request replaces the open record of its id and no other. -/
theorem mem_withSettled {requests requests' : List (Obj LeaseRequestRecord)} {id : String}
    {x : LeaseRequestOutcome} (hnodup : ((vals requests).map LeaseRequestRecord.id).Nodup)
    (h : withSettledLeaseRequest requests id x now = some requests') :
    ((vals requests').map LeaseRequestRecord.id).Nodup ∧
      ∀ q' ∈ vals requests', ∃ q ∈ vals requests, q'.id = q.id ∧
        (q.id ≠ id → q' = q) ∧ (q.id = id → SettledAs now x q q') := by
  obtain ⟨o, ho, rfl, hopen, rfl⟩ := find_withSettled h
  have hmem : o.val ∈ vals requests := List.mem_map_of_mem ho
  have hids : (vals (replaceFirst (fun r => r.id = o.val.id) (x.settle o.val now) requests)).map
      LeaseRequestRecord.id = (vals requests).map LeaseRequestRecord.id := by
    rw [vals, vals, List.map_map, List.map_map]
    exact map_replaceFirst LeaseRequestRecord.id fun y _ hp => by simpa using hp
  refine ⟨hids ▸ hnodup, ?_⟩
  intro q' hq'
  have hnew : (x.settle o.val now) ∈
      vals (replaceFirst (fun r => r.id = o.val.id) (x.settle o.val now) requests) :=
    List.mem_map.mpr ⟨_, mem_replaceFirst_self ⟨o, ho, by simp⟩, rfl⟩
  by_cases hid : q'.id = o.val.id
  · -- one record per id: it is the one that was put in
    have heq : q' = x.settle o.val now :=
      List.inj_on_of_nodup_map (hids ▸ hnodup) hq' hnew (hid.trans (settle_id _ _ _).symm)
    exact ⟨o.val, hmem, hid, fun hne => absurd rfl hne, fun _ => ⟨hopen, heq⟩⟩
  · obtain ⟨y, hy, rfl⟩ := List.mem_map.mp hq'
    rcases mem_replaceFirst hy with rfl | hy
    · exact absurd (settle_id _ _ _) hid
    · exact ⟨y.val, List.mem_map_of_mem hy, rfl, fun _ => rfl, fun heq => absurd heq hid⟩

theorem vals_nodup (hk : Keys r) :
    ((vals (keep r.leaseRequests)).map LeaseRequestRecord.id).Nodup := by
  rw [vals_keep]
  exact hk.requests

/-- Storing a request adds its record, open. -/
theorem createLeaseRequest_requests {input : NewLeaseRequest}
    (hcall : r.call o now (.createLeaseRequest input) = .ok (some draft)) :
    ∀ q ∈ vals draft.leaseRequests, q ∈ r.leaseRequests ∨ q = newLeaseRequestRecord input now := by
  cases hcall
  intro q hq
  obtain ⟨x, hx, rfl⟩ := List.mem_map.mp hq
  rcases List.mem_append.mp hx with hx | hx
  · have hkept := (evictSettled_sublist _ _ _).subset hx
    exact .inl (mem_keep (List.mem_filter.mp hkept).1).2
  · rw [List.mem_singleton.mp hx]
    exact .inr rfl

/-- What a settle leaves: the open record of its id has the result, every other one is as it was. -/
theorem settleLeaseRequest_requests (hk : Keys r) {id : String} {x : LeaseRequestOutcome}
    (hcall : r.call o now (.settleLeaseRequest id x) = .ok (some draft)) :
    ∀ q' ∈ vals draft.leaseRequests, ∃ q ∈ r.leaseRequests, q'.id = q.id ∧
      (q.id ≠ id → q' = q) ∧ (q.id = id → SettledAs now x q q') := by
  obtain ⟨requests, hs, rfl⟩ := Option.map_eq_some_iff.mp (Except.ok.inj hcall)
  intro q' hq'
  obtain ⟨q, hq, hrest⟩ := (mem_withSettled (vals_nodup hk) hs).2 q' hq'
  rw [vals_keep] at hq
  exact ⟨q, hq, hrest⟩

/-- A settle that finds nothing to write finds no open record of its id. -/
theorem settled_of_none {requests : List (Obj LeaseRequestRecord)} {id : String}
    {x : LeaseRequestOutcome} (hnodup : ((vals requests).map LeaseRequestRecord.id).Nodup)
    (h : withSettledLeaseRequest requests id x now = none) :
    ∀ q ∈ vals requests, q.id = id → isSettled q = true := by
  rintro q hq rfl
  have hfind := find_key_eq_some hnodup hq
  rw [vals, List.find?_map] at hfind
  obtain ⟨o, ho, rfl⟩ := Option.map_eq_some_iff.mp hfind
  have ho' : requests.find? (fun y => y.val.id = o.val.id) = some o := ho
  rw [withSettledLeaseRequest, ho'] at h
  simp only at h
  split at h
  · assumption
  · cases h

theorem settleLeaseRequest_none (hk : Keys r) {id : String} {x : LeaseRequestOutcome}
    (hcall : r.call o now (.settleLeaseRequest id x) = .ok none) :
    ∀ q ∈ r.leaseRequests, q.id = id → isSettled q = true := by
  have hnone := Option.map_eq_none_iff.mp (Except.ok.inj hcall)
  intro q hq
  exact settled_of_none (vals_nodup hk) hnone q (by rwa [vals_keep])

/-- What a grant makes of the requests: it settles the one it answers, if that is open. -/
theorem createLease_settles (generated : String) (input : Registry.CreateLeaseInput)
    {request : Registry.GrantedRequest} (hrequest : input.request = some request) :
    Yields anyError (fun od => ∀ draft, od = some draft → ∃ device, device.id = input.deviceId ∧
      draft.leaseRequests = (withSettledLeaseRequest (keep r.leaseRequests) request.id
        (.granted ⟨device, request.environment, grantedLease now generated input, request.timing⟩)
        now).getD (keep r.leaseRequests)) (r.createLease now generated input) := by
  refine (requireDeviceRecord_yields r input.deviceId).bind fun d hd => ?_
  split
  · trivial
  · refine (transitioned_leased now d).bind fun m ⟨hm, _⟩ => ?_
    rintro draft ⟨⟩
    have hstep := hm.step.trans (DeviceStep.withExcept input.except_ m)
    refine ⟨Registry.withExcept input.except_ m, hstep.id.trans (Registry.device_mem hd).2, ?_⟩
    simp only [hrequest]
    rfl

/-- After a grant the request it answers has the grant or the result it had. -/
theorem createLease_requests (hk : Keys r) {generated : String} {input : Registry.CreateLeaseInput}
    {request : Registry.GrantedRequest} (hrequest : input.request = some request)
    (hcall : r.call o now (.createLease generated input) = .ok (some draft)) :
    ∃ device, device.id = input.deviceId ∧
      ∀ q' ∈ vals draft.leaseRequests, ∃ q ∈ r.leaseRequests, q'.id = q.id ∧
        (q.id ≠ request.id → q' = q) ∧
        (q.id = request.id → (isSettled q = true ∧ q' = q) ∨
          SettledAs now (.granted ⟨device, request.environment, grantedLease now generated input,
            request.timing⟩) q q') := by
  have hyields : Yields anyError _ (r.call o now (.createLease generated input)) :=
    createLease_settles generated input hrequest
  rw [hcall] at hyields
  obtain ⟨device, hdevice, hrequests⟩ := hyields draft rfl
  refine ⟨device, hdevice, ?_⟩
  rw [hrequests]
  intro q' hq'
  cases hs : withSettledLeaseRequest (keep r.leaseRequests) request.id
      (.granted ⟨device, request.environment, grantedLease now generated input, request.timing⟩)
      now with
  | some requests =>
    rw [hs] at hq'
    obtain ⟨q, hq, hid, hother, hsame⟩ := (mem_withSettled (vals_nodup hk) hs).2 q' hq'
    rw [vals_keep] at hq
    exact ⟨q, hq, hid, hother, fun h => .inr (hsame h)⟩
  | none =>
    rw [hs, Option.getD_none, vals_keep] at hq'
    refine ⟨q', hq', rfl, fun _ => rfl, fun hid => .inl ⟨?_, rfl⟩⟩
    exact settled_of_none (vals_nodup hk) hs q' (by rwa [vals_keep]) hid

/-- The device a grant leases is one of the commit. -/
theorem createLease_found (h : RegistryOk r clock) {generated : String}
    {input : Registry.CreateLeaseInput}
    (hcall : r.call o now (.createLease generated input) = .ok (some draft)) :
    ∃ d, (Registry.commit o now draft).device input.deviceId = some d := by
  have hyields : Yields anyError _ (r.call o now (.createLease generated input)) :=
    createLease_yields generated input
  rw [hcall] at hyields
  obtain ⟨d, d', requests, hd, -, hm, -, -, rfl⟩ := hyields draft rfl
  obtain ⟨hmem, hid⟩ := Registry.device_mem hd
  have hlive := live_of_not_deleted now (o := o) h hmem hm.legal.not_deleted
  have hnew : (⟨d', true⟩ : Obj Device) ∈ (r.draft.setDevice d').devices :=
    mem_replaceFirst_self ⟨⟨d, false⟩, List.mem_map_of_mem hmem, by simp [hm.step.id]⟩
  have hlive' : isExpired now o.deletedRetentionMs d' = false := by
    rw [isExpired, hm.step.deletedAt]
    exact hlive
  obtain ⟨x, hx⟩ := commit_device now { r.draft.setDevice d' with
      leases := keep r.leases ++ [⟨grantedLease now generated input, true⟩]
      leaseRequests := requests } (o := o) hnew hlive'
  rw [show d'.id = input.deviceId from hm.step.id.trans hid] at hx
  exact ⟨x, hx⟩

/-- Failing the open requests one by one leaves none open whose id is in the list. -/
theorem mem_failOpen (failure : LeaseRequestFailure) (ids : List String)
    (records : List (Obj LeaseRequestRecord))
    (hnodup : ((vals records).map LeaseRequestRecord.id).Nodup) :
    ∀ q' ∈ vals (Registry.failOpen now failure ids records), ∃ q ∈ vals records, q'.id = q.id ∧
      ((q' = q ∧ (isSettled q = true ∨ q.id ∉ ids)) ∨ SettledAs now (.failed failure) q q') := by
  induction ids generalizing records with
  | nil => exact fun q hq => ⟨q, hq, rfl, .inl ⟨rfl, .inr List.not_mem_nil⟩⟩
  | cons id ids ih =>
    rw [Registry.failOpen]
    cases hs : withSettledLeaseRequest records id (.failed failure) now with
    | none =>
      rw [Option.getD_none]
      intro q' hq'
      obtain ⟨q, hq, hid, hsame | hset⟩ := ih records hnodup q' hq'
      · refine ⟨q, hq, hid, .inl ⟨hsame.1, ?_⟩⟩
        rcases hsame.2 with hsettled | hnot
        · exact .inl hsettled
        · by_cases hhead : q.id = id
          · exact .inl (settled_of_none hnodup hs q hq hhead)
          · exact .inr (by simp [hhead, hnot])
      · exact ⟨q, hq, hid, .inr hset⟩
    | some records' =>
      rw [Option.getD_some]
      obtain ⟨hnodup', hmem⟩ := mem_withSettled hnodup hs
      intro q' hq'
      obtain ⟨p, hp, hid', hcase⟩ := ih records' hnodup' q' hq'
      obtain ⟨q, hq, hid, hother, hsame⟩ := hmem p hp
      refine ⟨q, hq, hid'.trans hid, ?_⟩
      by_cases hhead : q.id = id
      · have hset := hsame hhead
        have hsettled : isSettled p = true := by rw [hset.eq]; exact isSettled_settle ..
        rcases hcase with ⟨rfl, -⟩ | hfail
        · exact .inr hset
        · rw [hfail.wasOpen] at hsettled
          cases hsettled
      · rw [hother hhead] at hcase
        rcases hcase with ⟨rfl, hsettled | hnot⟩ | hfail
        · exact .inl ⟨rfl, .inl hsettled⟩
        · exact .inl ⟨rfl, .inr (by simp [hhead, hnot])⟩
        · exact .inr hfail

/-- After a start has failed the open requests, each record is as it was or failed by it. -/
theorem failOpenLeaseRequests_requests (hk : Keys r) {failure : LeaseRequestFailure}
    (hcall : r.call o now (.failOpenLeaseRequests failure) = .ok (some draft)) :
    ∀ q' ∈ vals draft.leaseRequests, ∃ q ∈ r.leaseRequests, q'.id = q.id ∧
      ((isSettled q = true ∧ q' = q) ∨ SettledAs now (.failed failure) q q') := by
  simp only [Registry.call, Registry.failOpenLeaseRequests] at hcall
  split at hcall
  · cases hcall
  · cases hcall
    intro q' hq'
    obtain ⟨q, hq, hid, hsame | hset⟩ := mem_failOpen failure _ _ (vals_nodup hk) q' hq'
    · rw [vals_keep] at hq
      refine ⟨q, hq, hid, .inl ⟨?_, hsame.1⟩⟩
      rcases hsame.2 with hsettled | hnot
      · exact hsettled
      · by_contra hopen
        exact hnot (List.mem_map_of_mem (List.mem_filter.mpr ⟨hq, by simpa using hopen⟩))
    · rw [vals_keep] at hq
      exact ⟨q, hq, hid, .inr hset⟩

theorem failOpenLeaseRequests_none {failure : LeaseRequestFailure}
    (hcall : r.call o now (.failOpenLeaseRequests failure) = .ok none) :
    ∀ q ∈ r.leaseRequests, isSettled q = true := by
  simp only [Registry.call, Registry.failOpenLeaseRequests] at hcall
  split at hcall
  · rename_i hempty
    intro q hq
    by_contra hopen
    rw [List.isEmpty_iff, List.map_eq_nil_iff, List.filter_eq_nil_iff] at hempty
    exact hempty q hq (by simpa using hopen)
  · cases hcall

/-- What is opened has the requests as they were stored. -/
theorem load_requests {db db' : Database} {r' : Registry} (h : RegistryOk r clock)
    (hs : Stored r db) (hload : Registry.load o now db = .ok (r', db')) :
    ∀ q' ∈ r'.leaseRequests, ∃ q ∈ r.leaseRequests, q'.stored = q.stored := by
  have hmem : ∀ q' ∈ r.reloaded.leaseRequests, ∃ q ∈ r.leaseRequests, q'.stored = q.stored := by
    intro q' hq'
    obtain ⟨q, hq, rfl⟩ := List.mem_map.mp hq'
    exact ⟨q, hq, withCurrentDevice_stored r q⟩
  rw [Registry.load, loadRegistryRows_stored h hs] at hload
  change (if r.devices.any (fun d => d.state = .deleted) = true then
    Except.mapError OpenError.commit
      (commitRows r.reloaded (r.reloaded.draft.settled o now) db) >>= _ else _) = _ at hload
  split at hload
  · cases hc : commitRows r.reloaded (r.reloaded.draft.settled o now) db with
    | error e =>
      rw [hc] at hload
      cases hload
    | ok db₁ =>
      rw [hc] at hload
      cases hload
      intro q' hq'
      refine hmem q' ?_
      have := mem_commit_requests hq'
      rwa [show r.reloaded.draft.leaseRequests = keep r.reloaded.leaseRequests from rfl,
        vals_keep] at this
  · cases hload
    exact hmem

end Calls

/-! ### A call the disk may refuse -/

/-- The store after a call; `writable` is whether the disk takes the transaction. -/
def Store.attempted (o : RegistryOptions) (s : Store) (c : Call) (now : Int) (writable : Bool) :
    Store :=
  ⟨(s.attempt o c now writable).registry, (s.attempt o c now writable).database, now⟩

/-- The call did not throw. -/
def Store.returns (o : RegistryOptions) (s : Store) (c : Call) (now : Int) (writable : Bool) : Bool :=
  (s.attempt o c now writable).threw.isNone

theorem StoreOk.later {s : Store} {now : Int} (h : StoreOk s) (hle : s.clock ≤ now) :
    StoreOk { s with clock := now } := ⟨h.ok.later hle, h.stored⟩

/-- A call that does not return leaves the records; one that returns commits, or finds nothing to. -/
theorem attempted_spec (writable : Bool) {o : RegistryOptions} {s : Store} {c : Call} {now : Int}
    (h : StoreOk s) (hle : s.clock ≤ now) (hfits : c.Fits s.registry) :
    StoreOk (s.attempted o c now writable) ∧
      ((s.attempted o c now writable).registry = s.registry ∧
          (s.returns o c now writable = true → s.registry.call o now c = .ok none) ∨
        (c.readsBack s.registry = none → s.returns o c now writable = true) ∧
          ∃ draft, s.registry.call o now c = .ok (some draft) ∧
            (s.attempted o c now writable).registry = Registry.commit o now draft) := by
  have hsame := h.later hle
  unfold Store.attempted Store.returns Store.attempt
  cases hcall : s.registry.call o now c with
  | error e => exact ⟨hsame, .inl ⟨rfl, fun hreturns => by cases hreturns⟩⟩
  | ok od =>
    cases od with
    | none => exact ⟨hsame, .inl ⟨rfl, fun _ => rfl⟩⟩
    | some draft =>
      cases writable with
      | false => exact ⟨hsame, .inl ⟨rfl, fun hreturns => by cases hreturns⟩⟩
      | true =>
        obtain ⟨hyields, hok⟩ := commit_yields h ⟨hle, hfits⟩ hcall
        cases hrows : commitRows s.registry (draft.settled o now) s.database with
        | error e =>
          simp only [if_true, hrows]
          exact ⟨hsame, .inl ⟨trivial, fun hreturns => by cases hreturns⟩⟩
        | ok db =>
          rw [hrows] at hyields
          simp only [if_true, hrows]
          refine ⟨⟨hok, hyields⟩, .inr ⟨fun hreads => ?_, draft, rfl, rfl⟩⟩
          rw [hreads]
          rfl

/-- The records a call leaves: each comes from the one of its id, unchanged if that was settled, or
    is the new one of an admission. -/
def ComesFrom (r : Registry) (q' : LeaseRequestRecord) : Prop :=
  ∃ q ∈ r.leaseRequests, q'.id = q.id ∧ (isSettled q = true → q' = q)

theorem ComesFrom.of_settled {r : Registry} {now : Int} {x : LeaseRequestOutcome}
    {q q' : LeaseRequestRecord} (hq : q ∈ r.leaseRequests) (h : SettledAs now x q q') :
    ComesFrom r q' := by
  refine ⟨q, hq, h.eq ▸ settle_id .., fun hsettled => ?_⟩
  rw [h.wasOpen] at hsettled
  cases hsettled

theorem call_comesFrom {r : Registry} {o : RegistryOptions} {now : Int} {draft : Draft} {c : Call}
    (hk : Keys r) (hcall : r.call o now c = .ok (some draft)) :
    ∀ q' ∈ vals draft.leaseRequests, ComesFrom r q' ∨
      ∃ input, c = .createLeaseRequest input ∧ q'.id = input.id := by
  intro q' hq'
  have hkept : ∀ {id : String} {x : LeaseRequestOutcome} {q : LeaseRequestRecord},
      q ∈ r.leaseRequests → q'.id = q.id → (q.id ≠ id → q' = q) →
      (q.id = id → SettledAs now x q q') → ComesFrom r q' := by
    intro id x q hq hid hother hset
    by_cases hne : q.id = id
    · exact .of_settled hq (hset hne)
    · exact ⟨q, hq, hid, fun _ => hother hne⟩
  by_cases hc : c.writesRequests = false
  · rw [call_keeps_requests hc hcall, vals_keep] at hq'
    exact .inl ⟨q', hq', rfl, fun _ => rfl⟩
  cases c with
  | createLeaseRequest input =>
    rcases createLeaseRequest_requests hcall q' hq' with hold | rfl
    · exact .inl ⟨q', hold, rfl, fun _ => rfl⟩
    · exact .inr ⟨input, rfl, rfl⟩
  | settleLeaseRequest id x =>
    obtain ⟨q, hq, hid, hother, hset⟩ := settleLeaseRequest_requests hk hcall q' hq'
    exact .inl (hkept hq hid hother hset)
  | failOpenLeaseRequests failure =>
    obtain ⟨q, hq, hid, ⟨-, rfl⟩ | hset⟩ := failOpenLeaseRequests_requests hk hcall q' hq'
    · exact .inl ⟨q', hq, rfl, fun _ => rfl⟩
    · exact .inl (.of_settled hq hset)
  | createLease generated input =>
    have hyields : Yields anyError _ (r.call o now (.createLease generated input)) :=
      createLease_yields generated input
    rw [hcall] at hyields
    obtain ⟨d, d', requests, -, -, -, -, hreq, rfl⟩ := hyields draft rfl
    rcases hreq with rfl | ⟨request, -, hs⟩
    · rw [vals_keep] at hq'
      exact .inl ⟨q', hq', rfl, fun _ => rfl⟩
    · obtain ⟨q, hq, hid, hother, hset⟩ := (mem_withSettled (vals_nodup hk) hs).2 q' hq'
      rw [vals_keep] at hq
      exact .inl (hkept hq hid hother hset)
  | _ => exact absurd rfl hc

theorem attempted_comesFrom {o : RegistryOptions} {s : Store} {c : Call} {now : Int}
    {writable : Bool} (h : StoreOk s) (hle : s.clock ≤ now) (hfits : c.Fits s.registry)
    {q' : LeaseRequestRecord} (hq' : q' ∈ (s.attempted o c now writable).registry.leaseRequests) :
    ComesFrom s.registry q' ∨ ∃ input, c = .createLeaseRequest input ∧ q'.id = input.id := by
  obtain ⟨-, hsame | ⟨-, draft, hcall, hcommit⟩⟩ :=
    attempted_spec writable (o := o) h hle hfits
  · rw [hsame.1] at hq'
    exact .inl ⟨q', hq', rfl, fun _ => rfl⟩
  · rw [hcommit] at hq'
    exact call_comesFrom h.ok.keys hcall q' (mem_commit_requests hq')

end Simlock.Core
