import Simlock.Worker.Sections

/-! The marks of a device agree with its state.

    Some fields belong to one state: the marks of quarantine to `quarantined`, the reason of an
    absence to `absent`, a put-off reclaim to `reclaiming`, the marks of a recovery boot to `leased`,
    the time of deletion to `deleted`; and nothing listens at the address of a virtual device that is
    shut down. Every exit from a state takes its marks off by hand. Two writers miss one: a device
    that is marked missing keeps its quarantine, and a recovery attempt is marked on a device whose
    lease has ended since. -/

namespace Simlock.Worker

open Simlock.Lib Simlock.Core

def absentReason : Device → Option AbsentReason
  | .virtual _ => none
  | .physical p => p.absentReason

/-- The record agrees with the state. -/
structure RecordOk (d : Device) : Prop where
  quarantine : d.state ≠ .quarantined → d.fields.quarantinedAt = none ∧
    d.fields.quarantineAttempts = none ∧ d.fields.quarantineNextRetryAt = none ∧
    d.fields.quarantineCause = none
  absent : d.state ≠ .absent → absentReason d = none
  deferred : d.state ≠ .reclaiming → d.fields.deferredReclaimLeaseId = none
  recovery : d.state ≠ .leased → d.fields.recoveringSince = none ∧ d.fields.recoveryAttempts = none
  address : d.isPhysical = false → d.state = .shutdown → d.fields.address = none
  deleted : d.fields.deletedAt.isSome ↔ d.state = .deleted

/-- A device that is marked missing is not quarantined, and one that is marked for recovery is
    leased. -/
def KeepsMarks (s : Store) : Action → Prop
  | .section_ (.fixMissingDevice deviceId) _ => isIn s.registry deviceId .quarantined = false
  | .section_ (.endForMissingDevice leaseId) _ => ∀ lease, s.registry.lease leaseId = some lease →
    isIn s.registry lease.deviceId .quarantined = false
  | .section_ (.markRecoveryAttempt deviceId _) _ => ∀ d, s.registry.device deviceId = some d →
    d.state = .leased
  | _ => True

/-! ### The marks a commit does not set itself -/

/-- What the operations keep, with the marks of recovery on virtual devices only. -/
structure MarksOk (d : Device) : Prop where
  quarantine : d.state ≠ .quarantined → d.fields.quarantinedAt = none ∧
    d.fields.quarantineAttempts = none ∧ d.fields.quarantineNextRetryAt = none
  absent : d.state ≠ .absent → absentReason d = none
  deferred : d.state ≠ .reclaiming → d.fields.deferredReclaimLeaseId = none
  recovery : d.state ≠ .leased ∨ d.isPhysical = true →
    d.fields.recoveringSince = none ∧ d.fields.recoveryAttempts = none
  address : d.isPhysical = false → d.state = .shutdown → d.fields.address = none

theorem MarksOk.recordOk {d : Device} (h : MarksOk d) (hd : DeviceOk d) : RecordOk d :=
  ⟨fun hs => ⟨(h.quarantine hs).1, (h.quarantine hs).2.1, (h.quarantine hs).2.2, hd.cause hs⟩,
    h.absent, h.deferred, fun hs => h.recovery (.inl hs), h.address, hd.stamped⟩

/-- Fields that are rewritten so that the marks still agree with the state. -/
theorem marksOk_setFields {d : Device} {fs : DeviceRecordFields}
    (habsent : d.state ≠ .absent → absentReason d = none)
    (hquarantine : d.state ≠ .quarantined → fs.quarantinedAt = none ∧
      fs.quarantineAttempts = none ∧ fs.quarantineNextRetryAt = none)
    (hdeferred : d.state ≠ .reclaiming → fs.deferredReclaimLeaseId = none)
    (hrecovery : d.state ≠ .leased ∨ d.isPhysical = true →
      fs.recoveringSince = none ∧ fs.recoveryAttempts = none)
    (haddress : d.isPhysical = false → d.state = .shutdown → fs.address = none) :
    MarksOk (d.setFields fs) := by
  have hreason : absentReason (d.setFields fs) = absentReason d := by cases d <;> rfl
  refine ⟨?_, ?_, ?_, ?_, ?_⟩ <;>
    simp only [Device.fields_setFields, Device.state_setFields, Device.isPhysical_setFields, hreason]
  · exact hquarantine
  · exact habsent
  · exact hdeferred
  · exact hrecovery
  · exact haddress

theorem MarksOk.stamp {x : Obj Device} (h : MarksOk x.val) (now : Int) :
    MarksOk (stamp now x).val := by
  have hcause : MarksOk (withoutCauseUnlessQuarantined x).val := by
    unfold withoutCauseUnlessQuarantined
    split
    · exact h
    · exact marksOk_setFields h.absent h.quarantine h.deferred h.recovery h.address
  rw [Core.stamp, stampDeleted]
  split
  · exact marksOk_setFields hcause.absent hcause.quarantine hcause.deferred hcause.recovery
      hcause.address
  · exact hcause

/-- What a move carries over of the marks. -/
structure Carried (d m : Device) (target : DeviceState) (update : DeviceTransitionUpdate) :
    Prop where
  state : m.state = target
  isPhysical : m.isPhysical = d.isPhysical
  quarantine : m.fields.quarantinedAt = d.fields.quarantinedAt ∧
    m.fields.quarantineAttempts = d.fields.quarantineAttempts ∧
    m.fields.quarantineNextRetryAt = d.fields.quarantineNextRetryAt
  deferred : m.fields.deferredReclaimLeaseId = none
  recovery : m.fields.recoveringSince = d.fields.recoveringSince ∧
    m.fields.recoveryAttempts = d.fields.recoveryAttempts
  absent : target ≠ .absent → absentReason m = none
  address : d.isPhysical = false → target = .shutdown → m.fields.address = update.address

theorem transitionVirtual_carried {v v' : VirtualDevice} {t : VirtualState}
    {update : DeviceTransitionUpdate} (h : transitionVirtual v t update = some v') :
    Carried (.virtual v) (.virtual v') t.toState update := by
  rw [transitionVirtual] at h
  split at h
  · cases h
  · cases h
    refine ⟨rfl, rfl, ?_, rfl, ?_, fun _ => rfl, fun _ ht => ?_⟩
    · dsimp only [Device.fields, DeviceRecordFields.moved]
      split <;> exact ⟨rfl, rfl, rfl⟩
    · dsimp only [Device.fields, DeviceRecordFields.moved]
      split <;> exact ⟨rfl, rfl⟩
    · have hs : t = .shutdown := by cases t <;> simp_all [VirtualState.toState]
      dsimp only [Device.fields, DeviceRecordFields.moved]
      rw [if_pos hs]
      cases update.address <;> rfl

theorem transitionPhysical_carried {p p' : PhysicalDevice} {t : PhysicalState}
    {update : DeviceTransitionUpdate} (h : transitionPhysical p t update = some p') :
    Carried (.physical p) (.physical p') t.toState update := by
  rw [transitionPhysical] at h
  split at h
  · cases h
  · cases h
    refine ⟨rfl, rfl, ⟨rfl, rfl, rfl⟩, rfl, ⟨rfl, rfl⟩, fun hne => ?_, fun hv => ?_⟩
    · have ht : t ≠ .absent := by
        rintro rfl
        exact hne rfl
      simp [absentReason, ht]
    · cases hv

theorem transitioned_carried (now : Int) (d : Device) (target : DeviceState)
    (update : DeviceTransitionUpdate) :
    Yields anyError (fun m => Carried d m target update)
      (Registry.transitioned now d target update) := by
  -- the times `#transitioned` adds are no marks
  have hgen : ∀ update' : DeviceTransitionUpdate, update'.address = update.address →
      ∀ m, transition d target update' = some m → Carried d m target update := by
    intro update' haddress m hm
    cases d with
    | virtual v =>
      simp only [transition, Option.map_eq_some_iff, Option.bind_eq_some_iff] at hm
      obtain ⟨v', ⟨t, ht, hv⟩, rfl⟩ := hm
      have hc := transitionVirtual_carried hv
      rw [asVirtual_toState ht] at hc
      exact ⟨hc.state, hc.isPhysical, hc.quarantine, hc.deferred, hc.recovery, hc.absent,
        fun hp ht => (hc.address hp ht).trans haddress⟩
    | physical p =>
      simp only [transition, Option.map_eq_some_iff, Option.bind_eq_some_iff] at hm
      obtain ⟨p', ⟨t, ht, hp⟩, rfl⟩ := hm
      have hc := transitionPhysical_carried hp
      rw [asPhysical_toState ht] at hc
      exact ⟨hc.state, hc.isPhysical, hc.quarantine, hc.deferred, hc.recovery, hc.absent,
        fun hp ht => (hc.address hp ht).trans haddress⟩
  simp only [Registry.transitioned]
  split
  · trivial
  · rename_i m hm
    refine hgen _ ?_ m hm
    split
    · rfl
    · split
      · rfl
      · split <;> rfl

/-- A move from a state whose marks are off keeps the marks in step. -/
theorem Carried.marks {d m : Device} {target : DeviceState} {update : DeviceTransitionUpdate}
    (h : Carried d m target update) (hmarks : MarksOk d)
    (hquarantine : d.state ≠ .quarantined ∨ target = .quarantined)
    (hrecovery : d.state ≠ .leased ∨ d.isPhysical = true)
    (haddress : update.address = none ∨ target ≠ .shutdown) : MarksOk m := by
  refine ⟨?_, ?_, ?_, ?_, ?_⟩
  · intro hs
    rw [h.state] at hs
    rw [h.quarantine.1, h.quarantine.2.1, h.quarantine.2.2]
    exact hmarks.quarantine (hquarantine.resolve_right hs)
  · intro hs
    rw [h.state] at hs
    exact h.absent hs
  · exact fun _ => h.deferred
  · intro _
    rw [h.recovery.1, h.recovery.2]
    exact hmarks.recovery hrecovery
  · intro hp hs
    rw [h.state] at hs
    rw [h.isPhysical] at hp
    rw [h.address hp hs]
    exact haddress.resolve_right (not_not_intro hs)

/-! ### One lemma per operation -/

/-- The operation writes, if anything, one device whose marks agree with its state. -/
def Marked (r : Registry) (x : Except RegistryError (Option Draft)) : Prop :=
  Yields anyError (fun od => ∀ draft, od = some draft → ∃ d',
    draft.devices = (r.draft.setDevice d').devices ∧ MarksOk d') x

section Operations

variable {r : Registry} {o : RegistryOptions} {now : Int} {deviceId : String}

theorem Marked.of (d' : Device) (h : MarksOk d') {draft : Draft}
    (hdraft : draft.devices = (r.draft.setDevice d').devices) : Marked r (.ok (some draft)) := by
  rintro draft' ⟨⟩
  exact ⟨d', hdraft, h⟩

theorem Marked.bind {α : Type} {post : α → Prop} {x : Except RegistryError α}
    {f : α → Except RegistryError (Option Draft)} (h : Yields anyError post x)
    (hf : ∀ a, post a → Marked r (f a)) : Marked r (x >>= f) := Yields.bind h hf

theorem Marked.nothing : Marked r (.ok none) := by
  rintro draft ⟨⟩

variable (hmarks : ∀ d ∈ r.devices, MarksOk d)

include hmarks

theorem transitionDevice_marked {target : DeviceState}
    {event : Option Registry.RegistryDeviceEvent} {update : DeviceTransitionUpdate}
    (hsource : ∀ d, r.device deviceId = some d → Legal d target →
      event.map Registry.RegistryDeviceEvent.event = Registry.eventForTransition d.state target →
      d.state ≠ .quarantined ∧ (d.state ≠ .leased ∨ d.isPhysical = true))
    (haddress : update.address = none ∨ target ≠ .shutdown) :
    Marked r (r.transitionDevice now deviceId target event update) := by
  refine Marked.bind (requireDeviceRecord_yields r deviceId) fun d hd => ?_
  split
  · trivial
  · refine Marked.bind (assertTransitionEvent_yields d target event) fun _ he => ?_
    refine Marked.bind ((transitioned_yields now d target update).and
      (transitioned_carried now d target update)) fun m ⟨hm, hc⟩ => ?_
    obtain ⟨hquarantine, hrecovery⟩ := hsource d hd hm.legal he
    exact Marked.of m (hc.marks (hmarks d (Registry.device_mem hd).1) (.inl hquarantine) hrecovery
      haddress) rfl

theorem recordRebootedDevice_marked (address : String) (driverData : DriverData)
    (mode : DeviceMode) :
    Marked r (r.recordRebootedDevice deviceId address driverData mode) := by
  refine Marked.bind (requireDeviceRecord_yields r deviceId) fun d hd => ?_
  cases d with
  | physical p => trivial
  | virtual v =>
    simp only
    split
    · rename_i hready
      have hv := hmarks _ (Registry.device_mem hd).1
      refine Marked.of (.virtual { v with
        address := some address, driverData := driverData, mode := mode }) ?_ rfl
      refine ⟨hv.quarantine, fun _ => rfl, hv.deferred, hv.recovery, fun _ hs => ?_⟩
      simp [Device.state, hready, VirtualState.toState] at hs
    · trivial

theorem completeReclaimWithoutPurge_marked :
    Marked r (r.completeReclaimWithoutPurge now deviceId) := by
  refine Marked.bind (requireDeviceRecord_yields r deviceId) fun d hd => ?_
  split
  · trivial
  · rename_i hs
    have hs : d.state = .reclaiming := by simpa using hs
    refine Marked.bind (transitioned_carried now d .shutdown {}) fun m hc => ?_
    refine Marked.of m (hc.marks (hmarks d (Registry.device_mem hd).1) (.inl ?_) (.inl ?_) (.inl rfl))
      rfl <;> rw [hs] <;> simp

theorem enterQuarantine_marked (nextRetryAt : Int) (cause : QuarantineCause) :
    Marked r (r.enterQuarantine now deviceId nextRetryAt cause) := by
  refine Marked.bind (requireDeviceRecord_yields r deviceId) fun d hd => ?_
  split
  · trivial
  · rename_i hs
    have hs : d.state ≠ .leased := by
      intro hleased
      simp [hleased] at hs
    refine Marked.bind (transitioned_carried now d .quarantined {}) fun m hc => ?_
    have hm := hc.marks (hmarks d (Registry.device_mem hd).1) (.inr rfl) (.inl hs) (.inl rfl)
    refine Marked.of _ ?_ rfl
    exact marksOk_setFields hm.absent (fun hs => absurd hc.state hs) hm.deferred hm.recovery hm.address

theorem recordQuarantineRetryFailure_marked (attempts nextRetryAt : Int) :
    Marked r (r.recordQuarantineRetryFailure deviceId attempts nextRetryAt) := by
  refine Marked.bind (requireQuarantined_yields r deviceId) fun d ⟨hd, hs⟩ => ?_
  have hm := hmarks d (Registry.device_mem hd).1
  refine Marked.of _ ?_ rfl
  exact marksOk_setFields hm.absent (fun hne => absurd hs hne) hm.deferred hm.recovery hm.address

theorem strandQuarantine_marked (attempts : Int) :
    Marked r (r.strandQuarantine deviceId attempts) := by
  refine Marked.bind (requireQuarantined_yields r deviceId) fun d ⟨hd, hs⟩ => ?_
  have hm := hmarks d (Registry.device_mem hd).1
  refine Marked.of _ ?_ rfl
  exact marksOk_setFields hm.absent (fun hne => absurd hs hne) hm.deferred hm.recovery hm.address

omit hmarks in
/-- An exit from quarantine takes its marks off. -/
theorem Carried.leaves_quarantine {d m : Device} {target : DeviceState}
    (h : Carried d m target {}) (hd : MarksOk d) (hs : d.state = .quarantined) :
    MarksOk (m.setFields m.fields.withoutQuarantine) := by
  have hrecovery : m.fields.recoveringSince = none ∧ m.fields.recoveryAttempts = none := by
    rw [h.recovery.1, h.recovery.2]
    exact hd.recovery (.inl (by rw [hs]; simp))
  refine marksOk_setFields ?_ (fun _ => ⟨rfl, rfl, rfl⟩) (fun _ => h.deferred) (fun _ => hrecovery) ?_
  · rw [h.state]
    exact h.absent
  · rw [h.state, h.isPhysical]
    exact h.address

theorem recoverFromQuarantine_marked (target : DeviceState) :
    Marked r (r.recoverFromQuarantine now deviceId target) := by
  refine Marked.bind (requireQuarantined_yields r deviceId) fun d ⟨hd, hs⟩ => ?_
  refine Marked.bind (transitioned_carried now d target {}) fun m hc => ?_
  exact Marked.of _ (hc.leaves_quarantine (hmarks d (Registry.device_mem hd).1) hs) rfl

theorem deleteQuarantined_marked : Marked r (r.deleteQuarantined now deviceId) := by
  refine Marked.bind (requireQuarantined_yields r deviceId) fun d ⟨hd, hs⟩ => ?_
  refine Marked.bind (transitioned_carried now d .deleted {}) fun m hc => ?_
  exact Marked.of _ (hc.leaves_quarantine (hmarks d (Registry.device_mem hd).1) hs) rfl

theorem markForeignStateDetected_marked (at_ : Int) :
    Marked r (r.markForeignStateDetected deviceId at_) := by
  refine Marked.bind (requireDeviceRecord_yields r deviceId) fun d hd => ?_
  have hm := hmarks d (Registry.device_mem hd).1
  split
  · exact Marked.nothing
  · refine Marked.of _ ?_ rfl
    exact marksOk_setFields hm.absent hm.quarantine hm.deferred hm.recovery hm.address

theorem markForeignProvenanceDetected_marked (at_ : Int) :
    Marked r (r.markForeignProvenanceDetected deviceId at_) := by
  refine Marked.bind (requireDeviceRecord_yields r deviceId) fun d hd => ?_
  have hm := hmarks d (Registry.device_mem hd).1
  split
  · exact Marked.nothing
  · refine Marked.of _ ?_ rfl
    exact marksOk_setFields hm.absent hm.quarantine hm.deferred hm.recovery hm.address

theorem clearForeignStateDetected_marked : Marked r (r.clearForeignStateDetected deviceId) := by
  refine Marked.bind (requireDeviceRecord_yields r deviceId) fun d hd => ?_
  have hm := hmarks d (Registry.device_mem hd).1
  split
  · exact Marked.nothing
  · refine Marked.of _ ?_ rfl
    exact marksOk_setFields hm.absent hm.quarantine hm.deferred hm.recovery hm.address

theorem markRecoveryAttempt_marked (at_ : Int)
    (hleased : ∀ d, r.device deviceId = some d → d.state = .leased ∧ d.isPhysical = false) :
    Marked r (r.markRecoveryAttempt deviceId at_) := by
  refine Marked.bind (requireDeviceRecord_yields r deviceId) fun d hd => ?_
  have hm := hmarks d (Registry.device_mem hd).1
  obtain ⟨hs, hv⟩ := hleased d hd
  refine Marked.of _ ?_ rfl
  refine marksOk_setFields hm.absent hm.quarantine hm.deferred (fun hne => ?_) hm.address
  rcases hne with hne | hp
  · exact absurd hs hne
  · rw [hv] at hp
    cases hp

theorem clearRecovery_marked : Marked r (r.clearRecovery deviceId) := by
  refine Marked.bind (requireDeviceRecord_yields r deviceId) fun d hd => ?_
  have hm := hmarks d (Registry.device_mem hd).1
  split
  · exact Marked.nothing
  · refine Marked.of _ ?_ rfl
    exact marksOk_setFields hm.absent hm.quarantine hm.deferred (fun _ => ⟨rfl, rfl⟩) hm.address

omit hmarks in
/-- A device that was not quarantined is marked missing with no mark left. -/
theorem missing_marked {d : Device} (hm : MarksOk d) (hs : d.state ≠ .quarantined)
    (leases : List (Obj LeaseRecord)) :
    Yields anyError (fun draft => ∃ d', draft.devices = (r.draft.setDevice d').devices ∧ MarksOk d')
      (r.missing d leases) := by
  cases d with
  | physical p => trivial
  | virtual v =>
    refine ⟨_, rfl, fun _ => hm.quarantine hs, fun _ => rfl, fun _ => rfl, fun _ => ⟨rfl, rfl⟩, ?_⟩
    intro _ hd
    cases hd

theorem markDeviceMissing_marked
    (hquarantine : ∀ d, r.device deviceId = some d → d.state ≠ .quarantined) :
    Marked r (r.markDeviceMissing deviceId) := by
  refine Marked.bind (requireDeviceRecord_yields r deviceId) fun d hd => ?_
  split
  · trivial
  · split
    · exact Marked.nothing
    · refine Marked.bind (missing_marked (hmarks d (Registry.device_mem hd).1) (hquarantine d hd) _)
        fun draft ⟨d', hdraft, hd'⟩ => ?_
      exact Marked.of d' hd' hdraft

theorem endLeaseAndMarkDeviceMissing_marked {leaseId : String}
    (hquarantine : ∀ lease d, r.lease leaseId = some lease → r.device lease.deviceId = some d →
      d.state ≠ .quarantined) : Marked r (r.endLeaseAndMarkDeviceMissing leaseId) := by
  refine Marked.bind (requireLease_yields r leaseId) fun lease hl => ?_
  refine Marked.bind (requireDeviceRecord_yields r lease.deviceId) fun d hd => ?_
  refine Marked.bind (missing_marked (hmarks d (Registry.device_mem hd).1) (hquarantine lease d hl hd)
    _) fun draft ⟨d', hdraft, hd'⟩ => ?_
  exact Marked.of d' hd' hdraft

omit hmarks in
theorem isPhysical_of_legal_absent {d : Device} (h : Legal d .absent) : d.isPhysical = true := by
  cases d with
  | physical p => rfl
  | virtual v =>
    obtain ⟨t, ht, -⟩ := h
    cases ht

omit hmarks in
theorem not_quarantined_of_legal_absent {d : Device} (h : Legal d .absent) :
    d.state ≠ .quarantined := by
  intro hs
  cases d with
  | physical p =>
    obtain ⟨t, ht, hmem⟩ := h
    cases ht
    cases hp : p.state <;> simp_all [Device.state, PhysicalState.toState, legalPhysicalTransitions]
  | virtual v =>
    obtain ⟨t, ht, -⟩ := h
    cases ht

theorem endLeaseAndMarkDeviceAbsent_marked (leaseId : String) (absentReason : AbsentReason) :
    Marked r (r.endLeaseAndMarkDeviceAbsent now leaseId absentReason) := by
  refine Marked.bind (requireLease_yields r leaseId) fun lease hl => ?_
  refine Marked.bind (requireDeviceRecord_yields r lease.deviceId) fun d hd => ?_
  refine Marked.bind ((transitioned_yields now d .absent _).and
    (transitioned_carried now d .absent _)) fun m ⟨hm, hc⟩ => ?_
  have hmarked := hc.marks (hmarks d (Registry.device_mem hd).1)
    (.inl (not_quarantined_of_legal_absent hm.legal)) (.inr (isPhysical_of_legal_absent hm.legal))
    (.inl rfl)
  refine Marked.of _ ?_ rfl
  exact marksOk_setFields hmarked.absent hmarked.quarantine hmarked.deferred hmarked.recovery
    hmarked.address

omit hmarks in
/-- Only a device that is leased or absent begins to be reclaimed. -/
theorem Legal.of_reclaiming {d : Device} (h : Legal d .reclaiming) :
    d.state = .leased ∨ d.state = .absent := by
  cases d with
  | virtual v =>
    obtain ⟨t, ht, hmem⟩ := h
    cases ht
    cases hv : v.state <;> simp_all [Device.state, VirtualState.toState, legalTransitions]
  | physical p =>
    obtain ⟨t, ht, hmem⟩ := h
    cases ht
    cases hp : p.state <;> simp_all [Device.state, PhysicalState.toState, legalPhysicalTransitions]

theorem beginRelease_marked (leaseId : String) (deferReclaim : Bool) :
    Marked r (r.beginRelease now leaseId deferReclaim) := by
  refine Marked.bind (requireLease_yields r leaseId) fun lease hl => ?_
  refine Marked.bind (requireDeviceRecord_yields r lease.deviceId) fun d hd => ?_
  refine Marked.bind ((transitioned_yields now _ .reclaiming _).and
    (transitioned_carried now _ .reclaiming _)) fun m ⟨hm, hc⟩ => ?_
  have hd := hmarks d (Registry.device_mem hd).1
  have hquarantine : d.state ≠ .quarantined := by
    have hfrom := Legal.of_reclaiming hm.legal
    rw [Device.state_setFields] at hfrom
    rcases hfrom with hs | hs <;> rw [hs] <;> simp
  refine Marked.of _ ?_ rfl
  refine marksOk_setFields (by rw [hc.state]; exact hc.absent) (fun _ => ?_)
    (fun hs => absurd hc.state hs) (fun _ => ?_) (fun _ hs => ?_)
  · rw [hc.quarantine.1, hc.quarantine.2.1, hc.quarantine.2.2, Device.fields_setFields]
    exact hd.quarantine hquarantine
  · rw [hc.recovery.1, hc.recovery.2, Device.fields_setFields]
    exact ⟨rfl, rfl⟩
  · rw [hc.state] at hs
    cases hs

theorem rewriteAbsentReason_marked (absentReason : AbsentReason) :
    Marked r (r.rewriteAbsentReason deviceId absentReason) := by
  refine Marked.bind (requireDeviceRecord_yields r deviceId) fun d hd => ?_
  cases d with
  | virtual v => trivial
  | physical p =>
    simp only
    split
    · rename_i habsent
      have hp := hmarks _ (Registry.device_mem hd).1
      refine Marked.of (.physical { p with absentReason := some absentReason }) ?_ rfl
      refine ⟨hp.quarantine, fun hs => absurd ?_ hs, hp.deferred, hp.recovery, hp.address⟩
      simp [Device.state, habsent, PhysicalState.toState]
    · trivial

theorem reenrollPhysical_marked (input : Registry.PhysicalEnrollmentInput) :
    Marked r (r.reenrollPhysical now deviceId input) := by
  refine Marked.bind (requireDeviceRecord_yields r deviceId) fun d hd => ?_
  cases d with
  | virtual v => trivial
  | physical p =>
    have hp := hmarks _ (Registry.device_mem hd).1
    simp only
    split
    · trivial
    · rename_i settled hsettled
      split at hsettled
      · -- a device that is ready keeps its state
        rename_i hready
        cases hsettled
        refine Marked.of _ ?_ rfl
        refine ⟨fun _ => ⟨rfl, rfl, rfl⟩, fun _ => ?_, fun _ => rfl, fun _ => ?_, fun h => by cases h⟩
        · exact hp.absent (by simp [Device.state, hready, PhysicalState.toState])
        · exact hp.recovery (.inr rfl)
      · have hc := transitionPhysical_carried hsettled
        refine Marked.of _ ?_ rfl
        refine ⟨fun _ => hc.quarantine, fun hs => ?_, fun _ => hc.deferred, fun _ => ?_,
          fun h => by cases h⟩
        · exact hc.absent (by simp [PhysicalState.toState])
        · have hrecovery := hp.recovery (.inr rfl)
          exact ⟨hc.recovery.1.trans hrecovery.1, hc.recovery.2.trans hrecovery.2⟩

theorem unenrollPhysical_marked : Marked r (r.unenrollPhysical deviceId) := by
  refine Marked.bind (requireDeviceRecord_yields r deviceId) fun d hd => ?_
  cases d with
  | virtual v => trivial
  | physical p =>
    have hp := hmarks _ (Registry.device_mem hd).1
    simp only
    split
    · trivial
    · rename_i updated hupdated
      have hc := transitionPhysical_carried hupdated
      refine Marked.of _ ?_ rfl
      refine ⟨fun _ => hc.quarantine, fun _ => ?_, fun _ => hc.deferred, fun _ => ?_,
        fun h => by cases h⟩
      · exact hc.absent (by simp [PhysicalState.toState])
      · have hrecovery := hp.recovery (.inr rfl)
        exact ⟨hc.recovery.1.trans hrecovery.1, hc.recovery.2.trans hrecovery.2⟩

theorem createLease_marked (generated : String) (input : Registry.CreateLeaseInput) :
    Marked r (r.createLease now generated input) := by
  refine Marked.bind (requireDeviceRecord_yields r input.deviceId) fun d hd => ?_
  split
  · trivial
  · refine Marked.bind ((transitioned_yields now d .leased _).and
      (transitioned_carried now d .leased _)) fun m ⟨hm, hc⟩ => ?_
    have hready : d.state = .ready := Legal.ready_of_leased hm.legal
    have hmarked := hc.marks (hmarks d (Registry.device_mem hd).1) (.inl (by rw [hready]; simp))
      (.inl (by rw [hready]; simp)) (.inl rfl)
    refine Marked.of (Registry.withExcept input.except_ m) ?_ rfl
    cases m with
    | virtual v => exact ⟨hmarked.quarantine, hmarked.absent, hmarked.deferred, hmarked.recovery,
        hmarked.address⟩
    | physical p => exact hmarked

theorem Marked.draft {x : Except RegistryError (Option Draft)} (h : Marked r x) {draft : Draft}
    (hx : x = .ok (some draft)) : ∀ y ∈ draft.devices, MarksOk y.val := by
  subst hx
  obtain ⟨d', hdraft, hd'⟩ := h draft rfl
  intro y hy
  rw [hdraft] at hy
  rcases mem_replaceFirst hy with rfl | hy
  · exact hd'
  · exact hmarks _ (mem_keep hy).2

/-- A new device has no mark. -/
theorem added_marked {d' : Device} {draft : Draft}
    (hdraft : draft.devices = keep r.devices ++ [⟨d', true⟩]) (h : MarksOk d') :
    ∀ y ∈ draft.devices, MarksOk y.val := by
  intro y hy
  rw [hdraft, List.mem_append, List.mem_singleton] at hy
  rcases hy with hy | rfl
  · exact hmarks _ (mem_keep hy).2
  · exact h

theorem same_marked {draft : Draft} (hdraft : draft.devices = keep r.devices) :
    ∀ y ∈ draft.devices, MarksOk y.val := by
  intro y hy
  rw [hdraft] at hy
  exact hmarks _ (mem_keep hy).2

end Operations

/-! ### Sections -/

section Sections

variable {r r' : Registry} {o : RegistryOptions} {now : Int} {deviceId driverDeviceId : String}

theorem registeredTarget_state {expected : List VirtualState}
    (h : registeredTarget r deviceId driverDeviceId expected = true) {d : Device}
    (hd : r.device deviceId = some d) : ∃ v, d = .virtual v ∧ v.state ∈ expected := by
  rw [registeredTarget, hd] at h
  cases d with
  | physical p => cases h
  | virtual v =>
    simp only [Bool.and_eq_true, List.contains_iff_mem] at h
    exact ⟨v, rfl, h.1.2⟩

theorem unleasedDevice_state {state : VirtualState} (h : unleasedDevice r deviceId state = true)
    {d : Device} (hd : r.device deviceId = some d) : ∃ v, d = .virtual v ∧ v.state = state := by
  rw [unleasedDevice, hd] at h
  cases d with
  | physical p => cases h
  | virtual v =>
    simp only [Bool.and_eq_true, decide_eq_true_eq] at h
    exact ⟨v, rfl, h.1⟩

theorem isIn_state {state : DeviceState} (h : isIn r deviceId state = true) {d : Device}
    (hd : r.device deviceId = some d) : d.state = state := by
  rw [isIn, hd] at h
  simpa using h

/-- The moves of the workflows are not from quarantine, and not from the lease of a virtual device. -/
theorem Section.source {w : Section} {deviceId : String} {target : DeviceState}
    {event : Registry.RegistryDeviceEvent} {update : DeviceTransitionUpdate}
    (hcall : w.call = .transitionDevice deviceId target (some event) update)
    (hchecks : w.checks r = true) (htyped : w.Typed r) {d : Device}
    (hd : r.device deviceId = some d) (hlegal : Legal d target)
    (hevent : some event.event = Registry.eventForTransition d.state target) :
    d.state ≠ .quarantined ∧ (d.state ≠ .leased ∨ d.isPhysical = true) := by
  have hvirtual : ∀ {v : VirtualDevice}, v.state = .ready ∨ v.state = .provisioning ∨
      v.state = .shutdown → d = .virtual v →
      d.state ≠ .quarantined ∧ (d.state ≠ .leased ∨ d.isPhysical = true) := by
    rintro v (hv | hv | hv) rfl <;> simp [Device.state, hv, VirtualState.toState]
  cases w with
  | commitReady deviceId driverDeviceId expected ready =>
    cases hcall
    obtain ⟨v, hv, hs⟩ := registeredTarget_state hchecks hd
    rw [List.mem_singleton] at hs
    rcases htyped with rfl | rfl
    · exact hvirtual (.inr (.inl hs)) hv
    · exact hvirtual (.inr (.inr hs)) hv
  | commitShutdown deviceId driverDeviceId =>
    cases hcall
    obtain ⟨v, hv, hs⟩ := registeredTarget_state hchecks hd
    exact hvirtual (.inl (List.mem_singleton.mp hs)) hv
  | commitDeleted deviceId driverDeviceId =>
    cases hcall
    obtain ⟨v, hv, hs⟩ := registeredTarget_state hchecks hd
    simp only [List.mem_cons, List.not_mem_nil, or_false] at hs
    exact hvirtual (.inr hs) hv
  | purged deviceId target =>
    cases hcall
    -- only the end of a reclaim is announced so
    have hs : d.state = .reclaiming := by
      rcases htyped with rfl | rfl <;> cases hs : d.state <;>
        simp [hs, Registry.eventForTransition] at hevent <;> rfl
    rw [hs]
    simp
  | deleteSpent deviceId =>
    cases hcall
    obtain ⟨v, hv, hs⟩ := unleasedDevice_state hchecks hd
    exact hvirtual (.inr (.inr hs)) hv
  | fixStopped deviceId =>
    cases hcall
    obtain ⟨v, hv, hs⟩ := unleasedDevice_state hchecks hd
    exact hvirtual (.inl hs) hv
  | fixRunning deviceId =>
    cases hcall
    obtain ⟨v, hv, hs⟩ := unleasedDevice_state ((Bool.and_eq_true _ _).mp hchecks).1 hd
    exact hvirtual (.inr (.inr hs)) hv
  | beginReturned deviceId osVersion =>
    cases hcall
    rw [isIn_state hchecks hd]
    simp
  | markAbsent deviceId absentReason =>
    cases hcall
    rw [isIn_state hchecks hd]
    simp
  | absentAfterFailure deviceId absentReason =>
    cases hcall
    exact ⟨not_quarantined_of_legal_absent hlegal, .inr (isPhysical_of_legal_absent hlegal)⟩
  | _ => cases hcall

/-- A section that moves a device leaves the marks in step. -/
theorem Section.moves_marked {w : Section} {deviceId : String} {target : DeviceState}
    {event : Registry.RegistryDeviceEvent} {update : DeviceTransitionUpdate}
    (hmarks : ∀ d ∈ r.devices, MarksOk d)
    (hcall : w.call = .transitionDevice deviceId target (some event) update)
    (hchecks : w.checks r = true) (htyped : w.Typed r)
    (haddress : update.address = none ∨ target ≠ .shutdown) :
    Marked r (r.transitionDevice now deviceId target (some event) update) :=
  transitionDevice_marked hmarks
    (fun _ hd hlegal hevent => Section.source hcall hchecks htyped hd hlegal hevent) haddress

/-- Every device a section hands to the commit has its marks in step. -/
theorem Section.marks {s : Store} {w : Section} {draft : Draft}
    (hmarks : ∀ d ∈ s.registry.devices, MarksOk d) (hchecks : w.checks s.registry = true)
    (htyped : w.Typed s.registry) (hkeeps : KeepsMarks s (.section_ w now))
    (hcall : s.registry.call o now w.call = .ok (some draft)) :
    ∀ y ∈ draft.devices, MarksOk y.val := by
  cases w with
  | register id driverDeviceId spec driverData =>
    cases hcall
    refine added_marked hmarks rfl ⟨fun _ => ⟨rfl, rfl, rfl⟩, fun _ => rfl, fun _ => rfl,
      fun _ => ⟨rfl, rfl⟩, fun _ _ => rfl⟩
  | enroll id input =>
    cases hcall
    refine added_marked hmarks rfl ⟨fun _ => ⟨rfl, rfl, rfl⟩, fun _ => rfl, fun _ => rfl,
      fun _ => ⟨rfl, rfl⟩, fun _ _ => rfl⟩
  | commitReady deviceId driverDeviceId expected ready =>
    exact (moves_marked hmarks rfl hchecks htyped (.inr (by simp))).draft hmarks hcall
  | commitShutdown deviceId driverDeviceId =>
    exact (moves_marked hmarks rfl hchecks htyped (.inl rfl)).draft hmarks hcall
  | commitDeleted deviceId driverDeviceId =>
    exact (moves_marked hmarks rfl hchecks htyped (.inl rfl)).draft hmarks hcall
  | purged deviceId target =>
    exact (moves_marked hmarks rfl hchecks htyped (.inl rfl)).draft hmarks hcall
  | deleteSpent deviceId =>
    exact (moves_marked hmarks rfl hchecks htyped (.inl rfl)).draft hmarks hcall
  | beginReturned deviceId osVersion =>
    exact (moves_marked hmarks rfl hchecks htyped (.inl rfl)).draft hmarks hcall
  | absentAfterFailure deviceId absentReason =>
    exact (moves_marked hmarks rfl hchecks htyped (.inl rfl)).draft hmarks hcall
  | markAbsent deviceId absentReason =>
    exact (moves_marked hmarks rfl hchecks htyped (.inl rfl)).draft hmarks hcall
  | fixStopped deviceId =>
    exact (moves_marked hmarks rfl hchecks htyped (.inl rfl)).draft hmarks hcall
  | fixRunning deviceId =>
    exact (moves_marked hmarks rfl hchecks htyped (.inl rfl)).draft hmarks hcall
  | commitReboot deviceId driverDeviceId ready =>
    exact (recordRebootedDevice_marked hmarks _ _ _).draft hmarks hcall
  | recoverInterrupted deviceId =>
    exact (completeReclaimWithoutPurge_marked hmarks).draft hmarks hcall
  | retireSpent deviceId => exact (completeReclaimWithoutPurge_marked hmarks).draft hmarks hcall
  | enterQuarantine deviceId nextRetryAt cause =>
    exact (enterQuarantine_marked hmarks _ _).draft hmarks hcall
  | enterFromStalledTransition deviceId findingState nextRetryAt cause =>
    exact (enterQuarantine_marked hmarks _ _).draft hmarks hcall
  | retryFailed deviceId attempts nextRetryAt =>
    exact (recordQuarantineRetryFailure_marked hmarks _ _).draft hmarks hcall
  | recovered deviceId target => exact (recoverFromQuarantine_marked hmarks _).draft hmarks hcall
  | stranded deviceId attempts => exact (strandQuarantine_marked hmarks _).draft hmarks hcall
  | deleteQuarantined deviceId => exact (deleteQuarantined_marked hmarks).draft hmarks hcall
  | fixMissingDevice deviceId =>
    refine (markDeviceMissing_marked hmarks fun d hd hs => ?_).draft hmarks hcall
    have hin : isIn s.registry deviceId .quarantined = true := isIn_eq_true.mpr ⟨d, hd, hs⟩
    exact Bool.false_ne_true (hkeeps.symm.trans hin)
  | endForMissingDevice leaseId =>
    refine (endLeaseAndMarkDeviceMissing_marked hmarks fun lease d hl hd hs => ?_).draft hmarks hcall
    have hin : isIn s.registry lease.deviceId .quarantined = true := isIn_eq_true.mpr ⟨d, hd, hs⟩
    exact Bool.false_ne_true ((hkeeps lease hl).symm.trans hin)
  | markRecoveryAttempt deviceId at_ =>
    refine (markRecoveryAttempt_marked hmarks at_ fun d hd => ?_).draft hmarks hcall
    exact ⟨hkeeps d hd, htyped d hd⟩
  | clearForeignState deviceId =>
    exact (clearForeignStateDetected_marked hmarks).draft hmarks hcall
  | markForeignState deviceId at_ =>
    exact (markForeignStateDetected_marked hmarks _).draft hmarks hcall
  | markForeignProvenance deviceId at_ =>
    exact (markForeignProvenanceDetected_marked hmarks _).draft hmarks hcall
  | clearRecovery deviceId => exact (clearRecovery_marked hmarks).draft hmarks hcall
  | rewriteReason deviceId absentReason =>
    exact (rewriteAbsentReason_marked hmarks _).draft hmarks hcall
  | endForAbsentDevice leaseId absentReason =>
    exact (endLeaseAndMarkDeviceAbsent_marked hmarks _ _).draft hmarks hcall
  | reenroll deviceId input => exact (reenrollPhysical_marked hmarks _).draft hmarks hcall
  | unenroll deviceId => exact (unenrollPhysical_marked hmarks).draft hmarks hcall
  | grant generated input => exact (createLease_marked hmarks _ _).draft hmarks hcall
  | beginRelease leaseId deferReclaim => exact (beginRelease_marked hmarks _ _).draft hmarks hcall
  | renew leaseId ttlDeadline ttlMs =>
    have h := requireLease_yields s.registry leaseId
    simp only [Section.call, Registry.call, Registry.renewLease] at hcall
    cases hl : s.registry.requireLease leaseId with
    | error e => rw [hl] at hcall; cases hcall
    | ok lease =>
      rw [hl] at hcall
      cases hcall
      exact same_marked hmarks rfl
  | createLeaseRequest input =>
    cases hcall
    exact same_marked hmarks rfl
  | settleLeaseRequest id outcome =>
    simp only [Section.call, Registry.call, Registry.settleLeaseRequest, Except.ok.injEq,
      Option.map_eq_some_iff] at hcall
    obtain ⟨requests, -, rfl⟩ := hcall
    exact same_marked hmarks rfl
  | failOpenLeaseRequests failure =>
    simp only [Section.call, Registry.call, Registry.failOpenLeaseRequests] at hcall
    split at hcall <;> cases hcall
    exact same_marked hmarks rfl
  | recordComponent record =>
    cases hcall
    exact same_marked hmarks rfl
  | deleteComponent platform version =>
    simp only [Section.call, Registry.call, Registry.deleteComponent] at hcall
    split at hcall <;> cases hcall
    exact same_marked hmarks rfl

/-- A step keeps the marks of every device in step. -/
theorem marks_step {s : Store} {a : Action} (hok : StoreOk s) (hadmits : Admits s a)
    (hkeeps : KeepsMarks s a) (hmarks : ∀ d ∈ s.registry.devices, MarksOk d) :
    ∀ d ∈ (step o s a).registry.devices, MarksOk d := by
  rcases step_cases (o := o) hok hadmits with hsame | ⟨w, now, rfl, hchecks, happly⟩ | ⟨now, rfl, hopened⟩
  · rw [hsame]
    exact hmarks
  · rcases apply_eq_some.mp happly with ⟨-, hr⟩ | ⟨draft, hcall, hr⟩
    · rw [hr]
      exact hmarks
    · rw [hr]
      intro d hd
      obtain ⟨x, hx, hd⟩ := List.mem_map.mp hd
      obtain ⟨y, hy, rfl⟩ := List.mem_map.mp (List.mem_filter.mp hx).1
      rw [← hd]
      exact (Section.marks hmarks hchecks hadmits.2.2 hkeeps hcall y hy).stamp now
  · intro d hd
    rw [hopened.devices] at hd
    exact hmarks d (List.mem_filter.mp hd).1

end Sections

/-- In every run in which no quarantined device is marked missing and only a leased device is marked
    for recovery, the record of every device agrees with its state. -/
theorem records_agree_with_states (o : RegistryOptions) (start : Int) (acts : List Action)
    (hrun : AllSteps (step o) (fun s a => Admits s a ∧ KeepsMarks s a) (Store.create start) acts) :
    ∀ d ∈ (run (step o) (Store.create start) acts).registry.devices, RecordOk d := by
  have hinv := run_invariant_of_allSteps
    (I := fun s => StoreOk s ∧ ∀ d ∈ s.registry.devices, MarksOk d)
    (fun s a hok h => ⟨step_ok h.1 hok.1, marks_step h.1 hok.1 hok.2 h.2⟩) acts (Store.create start)
    ⟨create_ok start, fun d hd => by cases hd⟩ hrun
  exact fun d hd => (hinv.2 d hd).recordOk (hinv.1.ok.devices d hd)

/-! ### A quarantined device that goes missing -/

/-- The first boot of a new device fails, and so does its delete: the device is quarantined. -/
def failedProvision : List Action :=
  [.section_ (.register "dev_1" "udid_1" iphoneSpec iphoneData) 1,
    .section_ (.enterQuarantine "dev_1" 5 ⟨.deleteFailed, none, none⟩) 2]

theorem failedProvision_admitted :
    AllSteps (step shortRetention) (fun s a => Admits s a ∧ KeepsMarks s a) (Store.create 0)
      failedProvision := by
  refine ⟨⟨⟨by decide, ?_, trivial⟩, trivial⟩, ⟨⟨by decide +kernel, trivial, trivial⟩, trivial⟩,
    trivial⟩
  show "dev_1" ∉ _
  decide +kernel

theorem records_agree_with_states_failedProvision :
    (run (step shortRetention) (Store.create 0) failedProvision).registry.devices.map
      (fun d => (d.state, d.fields.quarantinedAt)) = [(.quarantined, some 2)] ∧
    ∀ d ∈ (run (step shortRetention) (Store.create 0) failedProvision).registry.devices,
      RecordOk d :=
  ⟨by decide +kernel, records_agree_with_states shortRetention 0 _ failedProvision_admitted⟩

/-- The driver no longer lists the device, and `doctor --fix` marks it missing: the deleted record
    still says when it was quarantined. -/
theorem missing_device_keeps_its_quarantine :
    ¬ ∀ (o : RegistryOptions) (start : Int) (acts : List Action),
      AllSteps (step o) Admits (Store.create start) acts →
      ∀ d ∈ (run (step o) (Store.create start) acts).registry.devices, RecordOk d := by
  intro h
  have hadmitted : AllSteps (step shortRetention) Admits (Store.create 0)
      (failedProvision ++ [.section_ (.fixMissingDevice "dev_1") 3]) := by
    refine (failedProvision_admitted.mono fun _ _ h => h.1).append ⟨⟨?_, trivial, trivial⟩, trivial⟩
    decide +kernel
  have hmarks : (run (step shortRetention) (Store.create 0)
      (failedProvision ++ [.section_ (.fixMissingDevice "dev_1") 3])).registry.devices.map
      (fun d => (d.state, d.fields.quarantinedAt)) = [(.deleted, some 2)] := by decide +kernel
  obtain ⟨d, hd, hpair⟩ := List.mem_map.mp (hmarks ▸ List.mem_singleton_self
    ((DeviceState.deleted, some 2) : DeviceState × Option Int))
  obtain ⟨hs, hat⟩ := Prod.mk.inj hpair
  have hnone := ((h shortRetention 0 _ hadmitted d hd).quarantine (by rw [hs]; simp)).1
  rw [hat] at hnone
  cases hnone

end Simlock.Worker
