import Simlock.Core.Leases
import Simlock.Core.Requests

/-! What a call does to the quarantine of a device.

    `standing` is what the retries of a quarantined device look at: its kind, its platform, and while
    it is quarantined the attempts counted and when the next one is due. A device that was stranded
    has no next one. Only the five operations of quarantine write these marks; every other call keeps
    them or takes the device out. -/

namespace Simlock.Core

open Simlock.Lib

structure Quarantine where
  attempts : Int
  nextRetryAt : Option Int
  deriving DecidableEq, Repr

structure Standing where
  isPhysical : Bool
  platform : Platform
  quarantine : Option Quarantine
  deriving DecidableEq, Repr

/-- `quarantineAttempts ?? 0`. -/
def Device.attempts (d : Device) : Int := d.fields.quarantineAttempts.getD 0

def Device.quarantine (d : Device) : Option Quarantine :=
  if d.state = .quarantined then some ⟨d.attempts, d.fields.quarantineNextRetryAt⟩ else none

def Device.standing (d : Device) : Option Standing :=
  if d.state = .deleted then none else some ⟨d.isPhysical, d.platform, d.quarantine⟩

def Registry.standing (r : Registry) : String → Option Standing := r.shown Device.standing

/-- The call is one of quarantine, or a transition into it. -/
def Call.quarantines : Call → Bool
  | .enterQuarantine .. | .recordQuarantineRetryFailure .. | .recoverFromQuarantine ..
  | .strandQuarantine .. | .deleteQuarantined _ => true
  | .transitionDevice _ target _ _ => target = .quarantined
  | _ => false

/-- The kind stays, and the quarantine stays or is over. -/
structure Rests (x x' : Standing) : Prop where
  isPhysical : x'.isPhysical = x.isPhysical
  platform : x'.platform = x.platform
  quarantine : x'.quarantine = none ∨ x'.quarantine = x.quarantine

theorem Rests.refl (x : Standing) : Rests x x := ⟨rfl, rfl, .inr rfl⟩

/-! ### The standing after a commit -/

section Standing

variable {r r' : Registry} {o : RegistryOptions} {now : Int} {deviceId : String}

theorem quarantine_setFields (d : Device) (fs : DeviceRecordFields)
    (hattempts : fs.quarantineAttempts = d.fields.quarantineAttempts)
    (hnext : fs.quarantineNextRetryAt = d.fields.quarantineNextRetryAt) :
    (d.setFields fs).quarantine = d.quarantine := by
  simp only [Device.quarantine, Device.attempts, Device.state_setFields, Device.fields_setFields,
    hattempts, hnext]

theorem quarantine_of_state {d : Device} (h : d.state ≠ .quarantined) : d.quarantine = none :=
  if_neg h

theorem standing_setFields (d : Device) (fs : DeviceRecordFields)
    (hattempts : fs.quarantineAttempts = d.fields.quarantineAttempts)
    (hnext : fs.quarantineNextRetryAt = d.fields.quarantineNextRetryAt) :
    (d.setFields fs).standing = d.standing := by
  simp only [Device.standing, Device.state_setFields, Device.isPhysical_setFields,
    Device.platform_setFields, quarantine_setFields d fs hattempts hnext]

theorem shows_standing : Shows Device.standing where
  stamp now x := by
    have hcause : (withoutCauseUnlessQuarantined x).val.standing = x.val.standing := by
      rw [withoutCauseUnlessQuarantined]
      split
      · rfl
      · exact standing_setFields _ _ rfl rfl
    rw [stamp, stampDeleted]
    split
    · refine Eq.trans ?_ hcause
      exact standing_setFields _ _ rfl rfl
    · exact hcause
  deleted x hx := if_pos hx

theorem standing_of_device {d : Device} (hd : r.device deviceId = some d) :
    r.standing deviceId = d.standing := by
  rw [Registry.standing, Registry.shown, hd]
  rfl

theorem standing_eq_some {x : Standing} : r.standing deviceId = some x ↔
    ∃ d, r.device deviceId = some d ∧ d.state ≠ .deleted ∧
      x = ⟨d.isPhysical, d.platform, d.quarantine⟩ := by
  rw [Registry.standing, Registry.shown]
  cases r.device deviceId with
  | none => simp
  | some d =>
    by_cases hd : d.state = .deleted
    · simp [Device.standing, hd]
    · simp [Device.standing, hd, eq_comm (b := x)]

/-- A quarantined device, as it stands. -/
theorem standing_quarantined {d : Device} (hd : r.device deviceId = some d)
    (hq : d.state = .quarantined) :
    r.standing deviceId = some ⟨d.isPhysical, d.platform,
      some ⟨d.attempts, d.fields.quarantineNextRetryAt⟩⟩ := by
  rw [standing_of_device hd, Device.standing, if_neg (by rw [hq]; simp), Device.quarantine, if_pos hq]

theorem quarantined_of_standing {x : Standing} {q : Quarantine}
    (hx : r.standing deviceId = some x) (hq : x.quarantine = some q) :
    ∃ d, r.device deviceId = some d ∧ d.state = .quarantined ∧ x.isPhysical = d.isPhysical ∧
      x.platform = d.platform ∧ q = ⟨d.attempts, d.fields.quarantineNextRetryAt⟩ := by
  obtain ⟨d, hd, -, rfl⟩ := standing_eq_some.mp hx
  rw [Device.quarantine] at hq
  split at hq
  · rename_i hs
    exact ⟨d, hd, hs, rfl, rfl, (Option.some.inj hq).symm⟩
  · cases hq

/-! ### Calls that are not of quarantine -/

/-- The operation commits, if anything, one device rewritten, with its quarantine kept or over. -/
def OneRests (r : Registry) (x : Except RegistryError (Option Draft)) : Prop :=
  Yields anyError (fun od => ∀ draft, od = some draft → ∃ d d', r.device d.id = some d ∧
    draft.devices = (r.draft.setDevice d').devices ∧ DeviceStep d d' ∧
    (d'.quarantine = none ∨ d'.quarantine = d.quarantine)) x

theorem OneDevice.rests {P : Device → DeviceState → Prop} {x : Except RegistryError (Option Draft)}
    (h : OneDevice r deviceId P x) (hP : ∀ d s, P d s → s ≠ .quarantined) : OneRests r x := by
  refine h.mono fun od hod draft hdraft => ?_
  obtain ⟨d, d', hd, rfl, hstep, -, hmove⟩ := hod draft hdraft
  exact ⟨d, d', (Registry.device_mem hd).2 ▸ hd, rfl, hstep,
    .inl (quarantine_of_state (hP d _ hmove))⟩

theorem EndsLease.rests {leaseId : String} {P : Device → Device → Prop}
    {x : Except RegistryError (Option Draft)} (h : EndsLease r leaseId P x)
    (hP : ∀ d d', P d d' → d'.state ≠ .quarantined) : OneRests r x := by
  refine h.mono fun od hod draft hdraft => ?_
  obtain ⟨lease, d, d', -, hd, rfl, hstep, hmove⟩ := hod draft hdraft
  exact ⟨d, d', (Registry.device_mem hd).2 ▸ hd, rfl, hstep,
    .inl (quarantine_of_state (hP d d' hmove))⟩

theorem OneRests.nothing : OneRests r (.ok none) := by
  rintro draft ⟨⟩

/-- A rewrite of other marks. -/
theorem OneRests.marks {d : Device} (hd : r.device deviceId = some d) (fs : DeviceRecordFields)
    (hid : fs.id = d.fields.id) (hdeleted : fs.deletedAt = d.fields.deletedAt)
    (hended : fs.lastLeaseEndedAt = d.fields.lastLeaseEndedAt)
    (hattempts : fs.quarantineAttempts = d.fields.quarantineAttempts)
    (hnext : fs.quarantineNextRetryAt = d.fields.quarantineNextRetryAt) :
    OneRests r (.ok (some (r.draft.setDevice (d.setFields fs)))) := by
  rintro draft ⟨⟩
  refine ⟨d, d.setFields fs, (Registry.device_mem hd).2 ▸ hd, rfl, ?_,
    .inr (quarantine_setFields d fs hattempts hnext)⟩
  exact DeviceStep.setFields d fs hid hdeleted fun h => (congrArg Option.isSome hended).trans h

theorem OneRests.bind {α : Type} {post : α → Prop} {x : Except RegistryError α}
    {f : α → Except RegistryError (Option Draft)} (h : Yields anyError post x)
    (hf : ∀ a, post a → OneRests r (f a)) : OneRests r (x >>= f) := Yields.bind h hf

theorem markForeignStateDetected_rests (at_ : Int) :
    OneRests r (r.markForeignStateDetected deviceId at_) := by
  refine OneRests.bind (requireDeviceRecord_yields r deviceId) fun d hd => ?_
  split
  · exact OneRests.nothing
  · exact OneRests.marks hd _ rfl rfl rfl rfl rfl

theorem markForeignProvenanceDetected_rests (at_ : Int) :
    OneRests r (r.markForeignProvenanceDetected deviceId at_) := by
  refine OneRests.bind (requireDeviceRecord_yields r deviceId) fun d hd => ?_
  split
  · exact OneRests.nothing
  · exact OneRests.marks hd _ rfl rfl rfl rfl rfl

theorem clearForeignStateDetected_rests : OneRests r (r.clearForeignStateDetected deviceId) := by
  refine OneRests.bind (requireDeviceRecord_yields r deviceId) fun d hd => ?_
  split
  · exact OneRests.nothing
  · exact OneRests.marks hd _ rfl rfl rfl rfl rfl

theorem markRecoveryAttempt_rests (at_ : Int) : OneRests r (r.markRecoveryAttempt deviceId at_) := by
  refine OneRests.bind (requireDeviceRecord_yields r deviceId) fun d hd => ?_
  exact OneRests.marks hd _ rfl rfl rfl rfl rfl

theorem clearRecovery_rests : OneRests r (r.clearRecovery deviceId) := by
  refine OneRests.bind (requireDeviceRecord_yields r deviceId) fun d hd => ?_
  split
  · exact OneRests.nothing
  · exact OneRests.marks hd _ rfl rfl rfl rfl rfl

theorem rewriteAbsentReason_rests (absentReason : AbsentReason) :
    OneRests r (r.rewriteAbsentReason deviceId absentReason) := by
  refine OneRests.bind (requireDeviceRecord_yields r deviceId) fun d hd => ?_
  cases d with
  | virtual v => trivial
  | physical p =>
    simp only
    split
    · rintro draft ⟨⟩
      exact ⟨.physical p, _, (Registry.device_mem hd).2 ▸ hd, rfl,
        ⟨rfl, rfl, rfl, rfl, rfl, fun h => h, fun h => h⟩, .inr rfl⟩
    · trivial

/-- The devices of the draft of a call that is not of quarantine. -/
inductive DraftRests (r : Registry) (c : Call) (devices : List (Obj Device)) : Prop
  | same (hdevices : devices = keep r.devices)
  | one {d d' : Device} (hd : r.device d.id = some d)
    (hdevices : devices = (r.draft.setDevice d').devices) (hstep : DeviceStep d d')
    (hquarantine : d'.quarantine = none ∨ d'.quarantine = d.quarantine)
  | added {d : Device} {physical : Bool} (hc : c.adds = some (d.id, physical))
    (hdevices : devices = keep r.devices ++ [⟨d, true⟩]) (hlive : d.fields.deletedAt = none)
    (hquarantine : d.quarantine = none)

theorem OneRests.draft {c : Call} {draft : Draft} (h : OneRests r (r.call o now c))
    (hcall : r.call o now c = .ok (some draft)) : DraftRests r c draft.devices := by
  rw [hcall] at h
  obtain ⟨d, d', hd, hdevices, hstep, hq⟩ := h draft rfl
  exact .one hd hdevices hstep hq

theorem call_rests {c : Call} {draft : Draft} (hc : c.quarantines = false)
    (hcall : r.call o now c = .ok (some draft)) : DraftRests r c draft.devices := by
  cases c with
  | registerDevice id driverDeviceId spec driverData =>
    cases hcall
    exact .added rfl rfl rfl rfl
  | enrollPhysical id input =>
    cases hcall
    exact .added rfl rfl rfl rfl
  | transitionDevice deviceId target event update =>
    refine OneRests.draft ((transitionDevice_one target event update).rests fun d s hP => ?_) hcall
    rw [hP.2.1]
    simpa [Call.quarantines] using hc
  | recordRebootedDevice deviceId address driverData mode =>
    refine OneRests.draft ((recordRebootedDevice_one address driverData mode).rests
      fun d s hP => ?_) hcall
    rw [hP.2, hP.1]
    simp
  | completeReclaimWithoutPurge deviceId =>
    refine OneRests.draft (completeReclaimWithoutPurge_one.rests fun d s hP => ?_) hcall
    rw [hP.2]
    simp
  | markForeignStateDetected deviceId at_ =>
    exact OneRests.draft (markForeignStateDetected_rests at_) hcall
  | markForeignProvenanceDetected deviceId at_ =>
    exact OneRests.draft (markForeignProvenanceDetected_rests at_) hcall
  | clearForeignStateDetected deviceId => exact OneRests.draft clearForeignStateDetected_rests hcall
  | markRecoveryAttempt deviceId at_ => exact OneRests.draft (markRecoveryAttempt_rests at_) hcall
  | clearRecovery deviceId => exact OneRests.draft clearRecovery_rests hcall
  | markDeviceMissing deviceId =>
    refine OneRests.draft (markDeviceMissing_one.rests fun d s hP => ?_) hcall
    rw [hP.2.2.2]
    simp
  | endLeaseAndMarkDeviceMissing leaseId =>
    refine OneRests.draft ((endLeaseAndMarkDeviceMissing_ends leaseId).rests fun d d' hP => ?_) hcall
    rw [hP.2]
    simp
  | endLeaseAndMarkDeviceAbsent leaseId absentReason =>
    refine OneRests.draft ((endLeaseAndMarkDeviceAbsent_ends leaseId absentReason).rests
      fun d d' hP => ?_) hcall
    rw [hP.2.1]
    simp
  | rewriteAbsentReason deviceId absentReason =>
    exact OneRests.draft (rewriteAbsentReason_rests absentReason) hcall
  | reenrollPhysical deviceId input =>
    refine OneRests.draft ((reenrollPhysical_one input).rests fun d s hP => ?_) hcall
    rw [hP.2.2]
    simp
  | unenrollPhysical deviceId =>
    refine OneRests.draft (unenrollPhysical_one.rests fun d s hP => ?_) hcall
    rw [hP.2.2]
    simp
  | beginRelease leaseId deferReclaim =>
    refine OneRests.draft ((beginRelease_ends leaseId deferReclaim).rests fun d d' hP => ?_) hcall
    rw [hP.2.1]
    simp
  | createLease generated input =>
    have hyields : Yields anyError _ (r.call o now (.createLease generated input)) :=
      createLease_yields generated input
    rw [hcall] at hyields
    obtain ⟨d, d', requests, hd, -, hm, -, -, rfl⟩ := hyields draft rfl
    exact .one ((Registry.device_mem hd).2 ▸ hd) rfl hm.step
      (.inl (quarantine_of_state (by rw [hm.state]; simp)))
  | renewLease leaseId ttlDeadline ttlMs =>
    have hyields : Yields anyError (fun od => ∀ draft, od = some draft →
        draft.devices = keep r.devices) (r.call o now (.renewLease leaseId ttlDeadline ttlMs)) := by
      refine (requireLease_yields r leaseId).bind fun lease hl => ?_
      rintro draft ⟨⟩
      rfl
    rw [hcall] at hyields
    exact .same (hyields draft rfl)
  | createLeaseRequest input =>
    cases hcall
    exact .same rfl
  | settleLeaseRequest id outcome =>
    obtain ⟨requests, -, rfl⟩ := Option.map_eq_some_iff.mp (Except.ok.inj hcall)
    exact .same rfl
  | failOpenLeaseRequests failure =>
    simp only [Registry.call, Registry.failOpenLeaseRequests] at hcall
    split at hcall
    · cases hcall
    · cases hcall
      exact .same rfl
  | recordComponent record =>
    cases hcall
    exact .same rfl
  | deleteComponent platform version =>
    simp only [Registry.call, Registry.deleteComponent] at hcall
    split at hcall
    · cases hcall
    · cases hcall
      exact .same rfl
  | _ => cases hc

/-- What the other calls leave of a device's standing: the device is as it was, or is out of
    quarantine, or is new. -/
theorem commit_rests (h : DevicesOk r) {c : Call} {draft : Draft}
    (hnew : ∀ id physical, c.adds = some (id, physical) → id ∉ r.devices.map Device.id)
    (hc : c.quarantines = false) (hcall : r.call o now c = .ok (some draft)) {x' : Standing}
    (hx' : (Registry.commit o now draft).standing deviceId = some x') :
    (∃ x, r.standing deviceId = some x ∧ Rests x x') ∨
      ∃ physical, c.adds = some (deviceId, physical) ∧ x'.quarantine = none := by
  cases call_rests hc hcall with
  | same hdevices =>
    rw [Registry.standing, commit_sameDevices_shown shows_standing o now h draft hdevices] at hx'
    exact .inl ⟨x', hx', Rests.refl x'⟩
  | @one d d' hd hdevices hstep hquarantine =>
    rw [Registry.standing, commit_setDevice_shown shows_standing o now h hd hstep
      (hstep.live h (Registry.device_mem hd).1) draft hdevices] at hx'
    by_cases hid : deviceId = d.id
    · rw [hid, Function.update_self, Device.standing] at hx'
      split at hx'
      · cases hx'
      · rename_i hlive
        cases hx'
        refine .inl ⟨⟨d.isPhysical, d.platform, d.quarantine⟩, ?_, hstep.isPhysical, hstep.platform,
          hquarantine⟩
        rw [hid, standing_of_device hd, Device.standing, if_neg fun hdel => hlive (hstep.deleted hdel)]
    · rw [Function.update_of_ne hid] at hx'
      exact .inl ⟨x', hx', Rests.refl x'⟩
  | @added d physical hadds hdevices hlive hquarantine =>
    rw [Registry.standing, commit_added_shown shows_standing o now h (hnew _ _ hadds) hlive draft
      hdevices] at hx'
    by_cases hid : deviceId = d.id
    · rw [hid, Function.update_self, Device.standing] at hx'
      split at hx'
      · cases hx'
      · cases hx'
        exact .inr ⟨physical, hid ▸ hadds, hquarantine⟩
    · rw [Function.update_of_ne hid] at hx'
      exact .inl ⟨x', hx', Rests.refl x'⟩

/-! ### The calls of quarantine -/

/-- The operation commits, if anything, the device with the quarantine `q'`, from one that met `P`. -/
def OneQuarantine (r : Registry) (deviceId : String) (P : Option Quarantine → Prop)
    (q' : Option Quarantine) (x : Except RegistryError (Option Draft)) : Prop :=
  Yields anyError (fun od => ∃ d d', od = some (r.draft.setDevice d') ∧
    r.device deviceId = some d ∧ d.state ≠ .deleted ∧ DeviceStep d d' ∧ P d.quarantine ∧
    d'.quarantine = q') x

/-- The commit of a draft rewrites one device, from a quarantine that meets `P` to `q'`. -/
def WritesQuarantine (r : Registry) (o : RegistryOptions) (now : Int) (draft : Draft)
    (deviceId : String) (P : Option Quarantine → Prop) (q' : Option Quarantine) : Prop :=
  ∃ x, r.standing deviceId = some x ∧ P x.quarantine ∧
    ∃ v, (Registry.commit o now draft).standing = Function.update r.standing deviceId v ∧
      ∀ x', v = some x' → x' = { x with quarantine := q' }

theorem OneQuarantine.bind {α : Type} {post : α → Prop} {P : Option Quarantine → Prop}
    {q' : Option Quarantine} {x : Except RegistryError α}
    {f : α → Except RegistryError (Option Draft)} (h : Yields anyError post x)
    (hf : ∀ a, post a → OneQuarantine r deviceId P q' (f a)) :
    OneQuarantine r deviceId P q' (x >>= f) := Yields.bind h hf

theorem OneQuarantine.writes (h : DevicesOk r) {c : Call} {draft : Draft}
    {P : Option Quarantine → Prop} {q' : Option Quarantine}
    (hone : OneQuarantine r deviceId P q' (r.call o now c))
    (hcall : r.call o now c = .ok (some draft)) :
    WritesQuarantine r o now draft deviceId P q' := by
  rw [hcall] at hone
  obtain ⟨d, d', hdraft, hd, hlive, hstep, hP, rfl⟩ := hone
  cases hdraft
  obtain ⟨hmem, hid⟩ := Registry.device_mem hd
  refine ⟨⟨d.isPhysical, d.platform, d.quarantine⟩, standing_eq_some.mpr ⟨d, hd, hlive, rfl⟩, hP,
    d'.standing, ?_, fun x' hx' => ?_⟩
  · rw [Registry.standing, commit_setDevice_shown shows_standing o now h (hid.symm ▸ hd) hstep
      (hstep.live h hmem) _ rfl, hid]
    rfl
  · rw [Device.standing] at hx'
    split at hx'
    · cases hx'
    · cases hx'
      rw [hstep.isPhysical, hstep.platform]

theorem enterQuarantine_quarantine (nextRetryAt : Int) (cause : QuarantineCause) :
    OneQuarantine r deviceId (· = none) (some ⟨0, some nextRetryAt⟩)
      (r.enterQuarantine now deviceId nextRetryAt cause) := by
  refine OneQuarantine.bind (requireDeviceRecord_yields r deviceId) fun d hd => ?_
  split
  · trivial
  · rename_i hs
    refine OneQuarantine.bind (transitioned_yields now d .quarantined {}) fun m hm => ?_
    have hm' := hm.setFields { m.fields with
      quarantineAttempts := some 0
      quarantineNextRetryAt := some nextRetryAt
      quarantinedAt := some now
      quarantineCause := some cause } rfl rfl rfl
    refine ⟨d, _, rfl, hd, hm.legal.not_deleted, hm'.step, quarantine_of_state ?_, ?_⟩
    · intro hq
      simp [hq] at hs
    · rw [Device.quarantine, if_pos hm'.state, Device.attempts, Device.fields_setFields]
      rfl

/-- A rewrite of the marks of a quarantined device. -/
theorem OneQuarantine.marks {d : Device} (hd : r.device deviceId = some d)
    (hq : d.state = .quarantined) (fs : DeviceRecordFields) (hid : fs.id = d.fields.id)
    (hdeleted : fs.deletedAt = d.fields.deletedAt)
    (hended : fs.lastLeaseEndedAt = d.fields.lastLeaseEndedAt) :
    OneQuarantine r deviceId (· ≠ none)
      (some ⟨fs.quarantineAttempts.getD 0, fs.quarantineNextRetryAt⟩)
      (.ok (some (r.draft.setDevice (d.setFields fs)))) := by
  refine ⟨d, d.setFields fs, rfl, hd, by rw [hq]; simp, ?_, ?_, ?_⟩
  · exact DeviceStep.setFields d fs hid hdeleted fun h => (congrArg Option.isSome hended).trans h
  · rw [Device.quarantine, if_pos hq]
    simp
  · rw [Device.quarantine, if_pos (by simpa using hq), Device.attempts, Device.fields_setFields]

theorem recordQuarantineRetryFailure_quarantine (attempts nextRetryAt : Int) :
    OneQuarantine r deviceId (· ≠ none) (some ⟨attempts, some nextRetryAt⟩)
      (r.recordQuarantineRetryFailure deviceId attempts nextRetryAt) := by
  refine OneQuarantine.bind (requireQuarantined_yields r deviceId) fun d hd => ?_
  exact OneQuarantine.marks hd.1 hd.2 _ rfl rfl rfl

theorem strandQuarantine_quarantine (attempts : Int) :
    OneQuarantine r deviceId (· ≠ none) (some ⟨attempts, none⟩)
      (r.strandQuarantine deviceId attempts) := by
  refine OneQuarantine.bind (requireQuarantined_yields r deviceId) fun d hd => ?_
  exact OneQuarantine.marks hd.1 hd.2 _ rfl rfl rfl

/-- A move out of quarantine, with the marks taken off. -/
theorem OneQuarantine.leaves {d m : Device} {target : DeviceState} (hd : r.device deviceId = some d)
    (hq : d.state = .quarantined) (hm : Moved d m target) (hne : target ≠ .quarantined) :
    OneQuarantine r deviceId (· ≠ none) none
      (.ok (some (r.draft.setDevice (m.setFields m.fields.withoutQuarantine)))) := by
  have hm' := hm.setFields m.fields.withoutQuarantine rfl rfl rfl
  refine ⟨d, _, rfl, hd, by rw [hq]; simp, hm'.step, ?_, ?_⟩
  · rw [Device.quarantine, if_pos hq]
    simp
  · exact quarantine_of_state (by rw [hm'.state]; exact hne)

/-- No move leads from quarantine to itself. -/
theorem Legal.leaves_quarantine {d : Device} {target : DeviceState} (h : Legal d target)
    (hq : d.state = .quarantined) : target ≠ .quarantined := by
  rintro rfl
  cases d with
  | virtual v =>
    obtain ⟨t, ht, hmem⟩ := h
    cases ht
    cases hs : v.state <;> simp_all [Device.state, VirtualState.toState, legalTransitions]
  | physical p =>
    obtain ⟨t, ht, hmem⟩ := h
    cases ht
    cases hs : p.state <;> simp_all [Device.state, PhysicalState.toState, legalPhysicalTransitions]

theorem recoverFromQuarantine_quarantine (target : DeviceState) :
    OneQuarantine r deviceId (· ≠ none) none (r.recoverFromQuarantine now deviceId target) := by
  refine OneQuarantine.bind (requireQuarantined_yields r deviceId) fun d hd => ?_
  refine OneQuarantine.bind (transitioned_yields now d target {}) fun m hm => ?_
  exact OneQuarantine.leaves hd.1 hd.2 hm (hm.legal.leaves_quarantine hd.2)

theorem deleteQuarantined_quarantine :
    OneQuarantine r deviceId (· ≠ none) none (r.deleteQuarantined now deviceId) := by
  refine OneQuarantine.bind (requireQuarantined_yields r deviceId) fun d hd => ?_
  refine OneQuarantine.bind (transitioned_yields now d .deleted {}) fun m hm => ?_
  exact OneQuarantine.leaves hd.1 hd.2 hm (by simp)

/-! ### What a quarantined device admits -/

theorem transition_of_legal {d : Device} {target : DeviceState} (h : Legal d target)
    (update : DeviceTransitionUpdate) : (transition d target update).isSome := by
  cases d with
  | virtual v =>
    obtain ⟨t, ht, hmem⟩ := h
    rw [transition, ht, Option.bind_some, transitionVirtual, if_neg (not_not.mpr hmem)]
    rfl
  | physical p =>
    obtain ⟨t, ht, hmem⟩ := h
    rw [transition, ht, Option.bind_some, transitionPhysical, if_neg (not_not.mpr hmem)]
    rfl

/-- A move that brings no driver data keeps the device's. -/
theorem transition_foreign {d m : Device} {target : DeviceState} {update : DeviceTransitionUpdate}
    (h : transition d target update = some m) (hnone : update.driverData = none) :
    ForeignData m → ForeignData d := by
  cases d with
  | physical p =>
    obtain ⟨p', -, rfl⟩ := Option.map_eq_some_iff.mp h
    exact id
  | virtual v =>
    obtain ⟨v', hv, rfl⟩ := Option.map_eq_some_iff.mp h
    obtain ⟨t, -, hv⟩ := Option.bind_eq_some_iff.mp hv
    rw [transitionVirtual] at hv
    split at hv
    · cases hv
    · cases hv
      simp [ForeignData, hnone]

/-- `#transitioned` adds times to what it is given, and no driver data. -/
theorem transitioned_eq (now : Int) (d : Device) (target : DeviceState) :
    ∃ update : DeviceTransitionUpdate, update.driverData = none ∧
      Registry.transitioned now d target {} = match transition d target update with
        | none => .error (.illegalTransition d.state target)
        | some m => .ok m := by
  refine ⟨_, ?_, rfl⟩
  dsimp only
  split
  · rfl
  · split
    · rfl
    · split <;> rfl

theorem transitioned_of_legal {d : Device} {target : DeviceState} (h : Legal d target) (now : Int) :
    ∃ m, Registry.transitioned now d target {} = .ok m ∧ (ForeignData m → ForeignData d) := by
  obtain ⟨update, hnone, heq⟩ := transitioned_eq now d target
  obtain ⟨m, hm⟩ := Option.isSome_iff_exists.mp (transition_of_legal h update)
  rw [hm] at heq
  exact ⟨m, heq, transition_foreign hm hnone⟩

/-- Both kinds may go from quarantine to `ready` and to `deleted`. -/
theorem legal_of_quarantined {d : Device} (hq : d.state = .quarantined) {target : DeviceState}
    (htarget : target = .ready ∨ target = .deleted) : Legal d target := by
  cases d with
  | virtual v =>
    have hv : v.state = .quarantined := by
      cases hv : v.state <;> simp_all [Device.state, VirtualState.toState]
    rcases htarget with rfl | rfl
    · exact ⟨.ready, rfl, by simp [hv, legalTransitions]⟩
    · exact ⟨.deleted, rfl, by simp [hv, legalTransitions]⟩
  | physical p =>
    have hp : p.state = .quarantined := by
      cases hp : p.state <;> simp_all [Device.state, PhysicalState.toState]
    rcases htarget with rfl | rfl
    · exact ⟨.ready, rfl, by simp [hp, legalPhysicalTransitions]⟩
    · exact ⟨.deleted, rfl, by simp [hp, legalPhysicalTransitions]⟩

/-- A call of quarantine that a quarantined device admits. -/
def Call.Retires (deviceId : String) : Call → Prop
  | .recordQuarantineRetryFailure id _ _ | .strandQuarantine id _ | .deleteQuarantined id =>
    id = deviceId
  | .recoverFromQuarantine id target => id = deviceId ∧ target = .ready
  | _ => False

variable (now) in
/-- The draft of such a call rewrites the device, and leaves its driver data. -/
theorem retires_call {c : Call} (hc : c.Retires deviceId) {x : Standing}
    (hx : r.standing deviceId = some x) (hq : x.quarantine ≠ none)
    (hown : ∀ d ∈ r.devices, ¬ ForeignData d) :
    ∃ d', r.call o now c = .ok (some (r.draft.setDevice d')) ∧ ¬ ForeignData d' := by
  obtain ⟨q, hq⟩ := Option.ne_none_iff_exists'.mp hq
  obtain ⟨d, hd, hs, -⟩ := quarantined_of_standing hx hq
  have hnot := hown d (Registry.device_mem hd).1
  have hrequire : r.requireQuarantined deviceId = .ok d := by
    simp only [Registry.requireQuarantined, Registry.requireDeviceRecord, hd]
    simp [bind, Except.bind, hs, pure, Except.pure]
  cases c with
  | recordQuarantineRetryFailure id attempts nextRetryAt =>
    cases hc
    refine ⟨d.setFields { d.fields with
      quarantineAttempts := some attempts
      quarantineNextRetryAt := some nextRetryAt }, ?_, mt (foreignData_setFields _ d).mp hnot⟩
    simp only [Registry.call, Registry.recordQuarantineRetryFailure, hrequire]
    rfl
  | strandQuarantine id attempts =>
    cases hc
    refine ⟨d.setFields { d.fields with
      quarantineNextRetryAt := none
      quarantineAttempts := some attempts }, ?_, mt (foreignData_setFields _ d).mp hnot⟩
    simp only [Registry.call, Registry.strandQuarantine, hrequire]
    rfl
  | deleteQuarantined id =>
    cases hc
    obtain ⟨m, hm, hforeign⟩ := transitioned_of_legal (legal_of_quarantined hs (.inr rfl)) now
    refine ⟨m.setFields m.fields.withoutQuarantine, ?_, mt (foreignData_setFields _ m).mp
      (mt hforeign hnot)⟩
    simp only [Registry.call, Registry.deleteQuarantined, hrequire, bind, Except.bind, hm]
    rfl
  | recoverFromQuarantine id target =>
    obtain ⟨rfl, rfl⟩ := hc
    obtain ⟨m, hm, hforeign⟩ := transitioned_of_legal (legal_of_quarantined hs (.inl rfl)) now
    refine ⟨m.setFields m.fields.withoutQuarantine, ?_, mt (foreignData_setFields _ m).mp
      (mt hforeign hnot)⟩
    simp only [Registry.call, Registry.recoverFromQuarantine, hrequire, bind, Except.bind, hm]
    rfl
  | _ => cases hc

/-- A call the disk takes commits its draft of one device. -/
theorem attempted_commits {s : Store} {c : Call} {d' : Device} (h : StoreOk s)
    (hle : s.clock ≤ now) (hfits : c.Fits s.registry)
    (hcall : s.registry.call o now c = .ok (some (s.registry.draft.setDevice d')))
    (hown : ¬ ForeignData d') :
    (s.attempted o c now true).registry =
        Registry.commit o now (s.registry.draft.setDevice d') ∧
      (c.readsBack s.registry = none → s.returns o c now true = true) := by
  obtain ⟨hyields, -⟩ := commit_yields h ⟨hle, hfits⟩ hcall
  unfold Store.attempted Store.returns Store.attempt
  simp only [hcall, if_true]
  cases hrows : commitRows s.registry ((s.registry.draft.setDevice d').settled o now) s.database with
  | error e =>
    rw [hrows] at hyields
    obtain ⟨⟨x, hx, hbad⟩, -⟩ := hyields
    rw [changed_setDevice h.ok rfl hx, foreignData_stamp] at hbad
    exact absurd hbad hown
  | ok db =>
    refine ⟨rfl, fun hreads => ?_⟩
    simp only [hreads]
    rfl

end Standing

end Simlock.Core
