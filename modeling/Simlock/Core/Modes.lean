import Simlock.Core.Leases

/-! The mode of a virtual device: full or slim.

    The mode is what the RAM of a device is counted by. It is recorded by a boot, with the move to
    `ready`, and by a reboot; every other call keeps it. -/

namespace Simlock.Core

open Simlock.Lib

/-- The recorded mode of a virtual device. -/
def modeOf : Device → Option DeviceMode
  | .virtual v => some v.mode
  | .physical _ => none

@[simp] theorem modeOf_setFields (fs : DeviceRecordFields) (d : Device) :
    modeOf (d.setFields fs) = modeOf d := by cases d <;> rfl

/-- The mode a call records. -/
def newMode : Call → Option DeviceMode
  | .transitionDevice _ _ _ update => update.mode
  | .recordRebootedDevice _ _ _ mode => some mode
  | _ => none

/-- `d'` has the mode of `d`, or the one that is recorded. -/
def ModeFrom (mode : Option DeviceMode) (d d' : Device) : Prop :=
  modeOf d' = modeOf d ∨ ∃ m, mode = some m ∧ modeOf d' = some m

/-- What the operation rewrites has the mode of its record, or the one that is recorded. -/
def Records (r : Registry) (mode : Option DeviceMode) (x : Except RegistryError (Option Draft)) :
    Prop :=
  Yields anyError (fun od => ∀ draft, od = some draft → ∀ o ∈ draft.devices, o.fresh = true →
    ∃ d, r.device o.val.id = some d ∧ ModeFrom mode d o.val) x

section Operations

variable {r : Registry} {now : Int} {deviceId : String} {mode : Option DeviceMode}

theorem Records.bind {α : Type} {post : α → Prop} {x : Except RegistryError α}
    {f : α → Except RegistryError (Option Draft)} (h : Yields anyError post x)
    (hf : ∀ a, post a → Records r mode (f a)) : Records r mode (x >>= f) := Yields.bind h hf

theorem Records.nothing : Records r mode (.ok none) := by
  rintro draft ⟨⟩

/-- A draft that keeps the devices. -/
theorem Records.kept {draft : Draft} (h : draft.devices = keep r.devices) :
    Records r mode (.ok (some draft)) := by
  rintro _ ⟨⟩ o ho hfresh
  rw [h] at ho
  rw [(mem_keep ho).1] at hfresh
  cases hfresh

/-- A draft with one device rewritten. -/
theorem Records.of {d d' : Device} {draft : Draft} (hd : r.device deviceId = some d)
    (h : draft.devices = (r.draft.setDevice d').devices) (hid : d'.id = d.id)
    (hmode : ModeFrom mode d d') : Records r mode (.ok (some draft)) := by
  rintro _ ⟨⟩ o ho hfresh
  rw [h] at ho
  rcases mem_replaceFirst ho with rfl | ho
  · refine ⟨d, ?_, hmode⟩
    rw [hid, (Registry.device_mem hd).2]
    exact hd
  · rw [(mem_keep ho).1] at hfresh
    cases hfresh

/-- A transition records the mode it is given, if any. -/
theorem transitioned_mode (now : Int) (d : Device) (target : DeviceState)
    (update : DeviceTransitionUpdate) :
    Yields anyError (fun d' => d'.id = d.id ∧ ModeFrom update.mode d d')
      (Registry.transitioned now d target update) := by
  rw [Registry.transitioned]
  generalize hupdate : (if target = .ready then _ else _ : DeviceTransitionUpdate) = update'
  have hmode : update'.mode = update.mode := by
    rw [← hupdate]
    split
    · rfl
    · split
      · rfl
      · split <;> rfl
  cases h : transition d target update' with
  | none => trivial
  | some d' =>
    refine ⟨(transition_moved h).step.id, ?_⟩
    cases d with
    | physical p =>
      simp only [transition, Option.map_eq_some_iff, Option.bind_eq_some_iff] at h
      obtain ⟨p', -, rfl⟩ := h
      exact .inl rfl
    | virtual v =>
      simp only [transition, Option.map_eq_some_iff, Option.bind_eq_some_iff] at h
      obtain ⟨v', ⟨t, -, hv⟩, rfl⟩ := h
      unfold transitionVirtual at hv
      split at hv
      · cases hv
      · cases hv
        rw [ModeFrom, ← hmode]
        cases update'.mode with
        | none => exact .inl rfl
        | some m => exact .inr ⟨m, rfl, rfl⟩

/-- A transition that records no mode. -/
theorem transitioned_kept (now : Int) (d : Device) (target : DeviceState)
    {update : DeviceTransitionUpdate} (hnone : update.mode = none) :
    Yields anyError (fun d' => d'.id = d.id ∧ modeOf d' = modeOf d)
      (Registry.transitioned now d target update) := by
  refine (transitioned_mode now d target update).mono fun d' ⟨hid, hmode⟩ => ⟨hid, ?_⟩
  rcases hmode with hsame | ⟨m, hm, -⟩
  · exact hsame
  · rw [hnone] at hm
    cases hm

/-- A rewrite of the shared fields. -/
theorem Records.marks {d : Device} (hd : r.device deviceId = some d) (fs : DeviceRecordFields)
    (hid : fs.id = d.fields.id) :
    Records r mode (.ok (some (r.draft.setDevice (d.setFields fs)))) :=
  Records.of hd rfl (by simpa [Device.id] using hid) (.inl (by simp))

/-- A move and a rewrite of the shared fields after it. -/
theorem Records.moves {d : Device} {target : DeviceState} {update : DeviceTransitionUpdate}
    (hd : r.device deviceId = some d) (hnone : update.mode = none) (fs : Device → DeviceRecordFields)
    (hfs : ∀ m, (fs m).id = m.id) :
    Records r mode (Registry.transitioned now d target update >>= fun m =>
      .ok (some (r.draft.setDevice (m.setFields (fs m))))) := by
  refine Records.bind (transitioned_kept now d target hnone) fun m hm => ?_
  obtain ⟨hid, hmode⟩ := hm
  refine Records.of hd rfl ?_ (.inl ((modeOf_setFields _ _).trans hmode))
  simpa [Device.id] using (hfs m).trans hid

theorem missing_records {d : Device} {leases : List (Obj LeaseRecord)}
    (hd : r.device deviceId = some d) :
    Records r mode (r.missing d leases >>= fun draft => .ok (some draft)) := by
  cases d with
  | physical p => trivial
  | virtual v => exact Records.of hd rfl rfl (.inl rfl)

/-- A call that adds no device records no mode but its own. -/
theorem call_records (o : RegistryOptions) (r : Registry) (now : Int) (c : Call)
    (hadds : c.adds = none) : Records r (newMode c) (r.call o now c) := by
  have hdevice := requireDeviceRecord_yields r
  have hquarantined := fun id => (requireQuarantined_yields r id).mono fun _ h => h.1
  cases c with
  | registerDevice id driverDeviceId spec driverData => cases hadds
  | enrollPhysical id input => cases hadds
  | transitionDevice deviceId target event update =>
    refine Records.bind (hdevice deviceId) fun d hd => ?_
    split
    · trivial
    · refine Records.bind (assertTransitionEvent_yields d target event) fun _ _ => ?_
      refine Records.bind (transitioned_mode now d target update) fun d' hm => ?_
      obtain ⟨hid, hmode⟩ := hm
      exact Records.of hd rfl hid hmode
  | recordRebootedDevice deviceId address driverData mode =>
    refine Records.bind (hdevice deviceId) fun d hd => ?_
    cases d with
    | physical p => trivial
    | virtual v =>
      simp only
      split
      · exact Records.of hd rfl rfl (.inr ⟨mode, rfl, rfl⟩)
      · trivial
  | completeReclaimWithoutPurge deviceId =>
    refine Records.bind (hdevice deviceId) fun d hd => ?_
    split
    · trivial
    · refine Records.bind (transitioned_kept now d .shutdown rfl) fun d' hm => ?_
      obtain ⟨hid, hmode⟩ := hm
      exact Records.of hd rfl hid (.inl hmode)
  | enterQuarantine deviceId nextRetryAt cause =>
    refine Records.bind (hdevice deviceId) fun d hd => ?_
    split
    · trivial
    · exact Records.moves hd rfl _ fun _ => rfl
  | recordQuarantineRetryFailure deviceId attempts nextRetryAt =>
    exact Records.bind (hquarantined deviceId) fun d hd => Records.marks hd _ rfl
  | recoverFromQuarantine deviceId target =>
    exact Records.bind (hquarantined deviceId) fun d hd => Records.moves hd rfl _ fun _ => rfl
  | strandQuarantine deviceId attempts =>
    exact Records.bind (hquarantined deviceId) fun d hd => Records.marks hd _ rfl
  | deleteQuarantined deviceId =>
    exact Records.bind (hquarantined deviceId) fun d hd => Records.moves hd rfl _ fun _ => rfl
  | markForeignStateDetected deviceId at_ =>
    refine Records.bind (hdevice deviceId) fun d hd => ?_
    split
    · exact Records.nothing
    · exact Records.marks hd _ rfl
  | markForeignProvenanceDetected deviceId at_ =>
    refine Records.bind (hdevice deviceId) fun d hd => ?_
    split
    · exact Records.nothing
    · exact Records.marks hd _ rfl
  | clearForeignStateDetected deviceId =>
    refine Records.bind (hdevice deviceId) fun d hd => ?_
    split
    · exact Records.nothing
    · exact Records.marks hd _ rfl
  | markRecoveryAttempt deviceId at_ =>
    exact Records.bind (hdevice deviceId) fun d hd => Records.marks hd _ rfl
  | clearRecovery deviceId =>
    refine Records.bind (hdevice deviceId) fun d hd => ?_
    split
    · exact Records.nothing
    · exact Records.marks hd _ rfl
  | markDeviceMissing deviceId =>
    refine Records.bind (hdevice deviceId) fun d hd => ?_
    split
    · trivial
    · split
      · exact Records.nothing
      · exact missing_records hd
  | rewriteAbsentReason deviceId absentReason =>
    refine Records.bind (hdevice deviceId) fun d hd => ?_
    cases d with
    | virtual v => trivial
    | physical p =>
      simp only
      split
      · exact Records.of hd rfl rfl (.inl rfl)
      · trivial
  | reenrollPhysical deviceId input =>
    refine Records.bind (hdevice deviceId) fun d hd => ?_
    cases d with
    | virtual v => trivial
    | physical p =>
      simp only
      split
      · trivial
      · rename_i settled hsettled
        refine Records.of hd rfl ?_ (.inl rfl)
        split at hsettled
        · cases hsettled
          rfl
        · exact (transitionPhysical_spec hsettled).2.2.2.1
  | unenrollPhysical deviceId =>
    refine Records.bind (hdevice deviceId) fun d hd => ?_
    cases d with
    | virtual v => trivial
    | physical p =>
      simp only
      split
      · trivial
      · rename_i updated hupdated
        exact Records.of hd rfl (transitionPhysical_spec hupdated).2.2.2.1 (.inl rfl)
  | endLeaseAndMarkDeviceMissing leaseId =>
    refine Records.bind (requireLease_yields r leaseId) fun lease _ => ?_
    exact Records.bind (hdevice lease.deviceId) fun d hd => missing_records hd
  | endLeaseAndMarkDeviceAbsent leaseId absentReason =>
    refine Records.bind (requireLease_yields r leaseId) fun lease _ => ?_
    refine Records.bind (hdevice lease.deviceId) fun d hd => ?_
    refine Records.bind (transitioned_kept now d .absent rfl) fun m hm => ?_
    obtain ⟨hid, hmode⟩ := hm
    refine Records.of hd rfl ?_ (.inl ((modeOf_setFields _ _).trans hmode))
    simpa [Device.id] using hid
  | beginRelease leaseId deferReclaim =>
    refine Records.bind (requireLease_yields r leaseId) fun lease _ => ?_
    refine Records.bind (hdevice lease.deviceId) fun d hd => ?_
    refine Records.bind (transitioned_kept now (d.setFields d.fields.withoutRecovery) .reclaiming rfl)
      fun m hm => ?_
    obtain ⟨hid, hmode⟩ := hm
    refine Records.of hd rfl ?_ (.inl ?_)
    · rw [Device.id, Device.id] at hid
      simpa [Device.id, DeviceRecordFields.withoutRecovery] using hid
    · rw [modeOf_setFields, hmode, modeOf_setFields]
  | createLease generated input =>
    refine Records.bind (hdevice input.deviceId) fun d hd => ?_
    split
    · trivial
    · refine Records.bind (transitioned_kept now d .leased rfl) fun m hm => ?_
      obtain ⟨hid, hmode⟩ := hm
      refine Records.of hd rfl ?_ (.inl ?_)
      · exact (DeviceStep.withExcept input.except_ m).id.trans hid
      · rw [← hmode]
        cases m <;> rfl
  | renewLease leaseId ttlDeadline ttlMs =>
    exact Records.bind (requireLease_yields r leaseId) fun lease _ => Records.kept rfl
  | createLeaseRequest input => exact Records.kept rfl
  | settleLeaseRequest id outcome =>
    simp only [Registry.call, Registry.settleLeaseRequest]
    cases withSettledLeaseRequest (keep r.leaseRequests) id outcome now with
    | none => exact Records.nothing
    | some requests => exact Records.kept rfl
  | failOpenLeaseRequests failure =>
    simp only [Registry.call, Registry.failOpenLeaseRequests]
    split
    · exact Records.nothing
    · exact Records.kept rfl
  | recordComponent record => exact Records.kept rfl
  | deleteComponent platform version =>
    simp only [Registry.call, Registry.deleteComponent]
    split
    · exact Records.nothing
    · exact Records.kept rfl

end Operations

end Simlock.Core
