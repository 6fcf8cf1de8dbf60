import Simlock.Core.Registry
import Simlock.Lib.Program

/-! What the registry's operations can change.

    Every operation commits one of a few shapes of draft (`Change`): one device rewritten, one
    device added, a lease granted, ended or renewed, requests stored or settled, components. One
    lemma per operation says which, with the states a device moves between; an invariant of the
    registry is then a case analysis over `Change` and never opens an operation again. -/

namespace Simlock.Core

open Simlock.Lib

/-- Any outcome: what is proved of the drafts does not depend on the errors. -/
def anyError {ε : Type} (_ : ε) : Prop := True

/-! ### Rewritten devices -/

/-- The spec of a virtual device. -/
def virtualSpec : Device → Option VirtualSpec
  | .virtual v => some v.spec
  | .physical _ => none

/-- What every rewrite of a device's record keeps. -/
structure DeviceStep (d d' : Device) : Prop where
  id : d'.id = d.id
  isPhysical : d'.isPhysical = d.isPhysical
  platform : d'.platform = d.platform
  spec : virtualSpec d' = virtualSpec d
  deletedAt : d'.fields.deletedAt = d.fields.deletedAt
  ended : d.fields.lastLeaseEndedAt.isSome → d'.fields.lastLeaseEndedAt.isSome
  deleted : d.state = .deleted → d'.state = .deleted

theorem DeviceStep.refl (d : Device) : DeviceStep d d :=
  ⟨rfl, rfl, rfl, rfl, rfl, fun h => h, fun h => h⟩

theorem DeviceStep.trans {a b c : Device} (h : DeviceStep a b) (h' : DeviceStep b c) :
    DeviceStep a c where
  id := h'.id.trans h.id
  isPhysical := h'.isPhysical.trans h.isPhysical
  platform := h'.platform.trans h.platform
  spec := h'.spec.trans h.spec
  deletedAt := h'.deletedAt.trans h.deletedAt
  ended hs := h'.ended (h.ended hs)
  deleted hs := h'.deleted (h.deleted hs)

/-- A rewrite of the shared fields that keeps the id, the deletion and the end of a lease. -/
theorem DeviceStep.setFields (d : Device) (fs : DeviceRecordFields) (hid : fs.id = d.id)
    (hdeleted : fs.deletedAt = d.fields.deletedAt)
    (hended : d.fields.lastLeaseEndedAt.isSome → fs.lastLeaseEndedAt.isSome) :
    DeviceStep d (d.setFields fs) where
  id := by simpa [Device.id] using hid
  isPhysical := by simp
  platform := by simp
  spec := by cases d <;> rfl
  deletedAt := by simpa using hdeleted
  ended := by simpa using hended
  deleted hs := by simpa using hs

/-- The move is in the table of the device's kind. -/
def Legal (d : Device) (target : DeviceState) : Prop :=
  match d with
  | .virtual v => ∃ t, target.asVirtual = some t ∧ t ∈ legalTransitions v.state
  | .physical p => ∃ t, target.asPhysical = some t ∧ t ∈ legalPhysicalTransitions p.state

/-- `d'` is `d` moved to `target`. -/
structure Moved (d d' : Device) (target : DeviceState) : Prop where
  step : DeviceStep d d'
  legal : Legal d target
  state : d'.state = target
  ended : d'.fields.lastLeaseEndedAt = d.fields.lastLeaseEndedAt

theorem asVirtual_toState {target : DeviceState} {t : VirtualState} (h : target.asVirtual = some t) :
    t.toState = target := by
  cases target <;> cases h <;> rfl

theorem asPhysical_toState {target : DeviceState} {t : PhysicalState}
    (h : target.asPhysical = some t) : t.toState = target := by
  cases target <;> cases h <;> rfl

theorem transitionVirtual_spec {v v' : VirtualDevice} {t : VirtualState}
    {update : DeviceTransitionUpdate} (h : transitionVirtual v t update = some v') :
    t ∈ legalTransitions v.state ∧ v'.state = t ∧ v'.spec = v.spec ∧ v'.id = v.id ∧
      v'.deletedAt = v.deletedAt ∧ v'.lastLeaseEndedAt = v.lastLeaseEndedAt := by
  unfold transitionVirtual at h
  split at h
  · cases h
  · rename_i hlegal
    refine ⟨not_not.mp hlegal, ?_⟩
    cases h
    by_cases hs : t = .shutdown <;> simp [hs, DeviceRecordFields.moved]

theorem transitionPhysical_spec {p p' : PhysicalDevice} {t : PhysicalState}
    {update : DeviceTransitionUpdate} (h : transitionPhysical p t update = some p') :
    t ∈ legalPhysicalTransitions p.state ∧ p'.state = t ∧ p'.spec.platform = p.spec.platform ∧
      p'.id = p.id ∧ p'.deletedAt = p.deletedAt ∧ p'.lastLeaseEndedAt = p.lastLeaseEndedAt := by
  unfold transitionPhysical at h
  split at h
  · cases h
  · rename_i hlegal
    refine ⟨not_not.mp hlegal, ?_⟩
    cases h
    simp [DeviceRecordFields.moved]

/-- Nothing leaves `deleted`. -/
theorem Legal.not_deleted {d : Device} {target : DeviceState} (h : Legal d target) :
    d.state ≠ .deleted := by
  intro hd
  cases d with
  | virtual v =>
    obtain ⟨t, -, ht⟩ := h
    cases hs : v.state <;> simp_all [Device.state, VirtualState.toState, legalTransitions]
  | physical p =>
    obtain ⟨t, -, ht⟩ := h
    cases hs : p.state <;> simp_all [Device.state, PhysicalState.toState, legalPhysicalTransitions]

theorem transition_moved {d d' : Device} {target : DeviceState} {update : DeviceTransitionUpdate}
    (h : transition d target update = some d') : Moved d d' target := by
  cases d with
  | virtual v =>
    simp only [transition, Option.map_eq_some_iff, Option.bind_eq_some_iff] at h
    obtain ⟨v', ⟨t, ht, hv⟩, rfl⟩ := h
    obtain ⟨hlegal, hstate, hspec, hid, hdel, hended⟩ := transitionVirtual_spec hv
    have hl : Legal (.virtual v) target := ⟨t, ht, hlegal⟩
    refine ⟨⟨hid, rfl, congrArg VirtualSpec.platform hspec, congrArg some hspec, hdel, ?_, ?_⟩, hl, ?_, hended⟩
    · exact fun hs => (congrArg Option.isSome hended).trans hs
    · exact fun hs => absurd hs hl.not_deleted
    · exact (congrArg VirtualState.toState hstate).trans (asVirtual_toState ht)
  | physical p =>
    simp only [transition, Option.map_eq_some_iff, Option.bind_eq_some_iff] at h
    obtain ⟨p', ⟨t, ht, hp⟩, rfl⟩ := h
    obtain ⟨hlegal, hstate, hspec, hid, hdel, hended⟩ := transitionPhysical_spec hp
    have hl : Legal (.physical p) target := ⟨t, ht, hlegal⟩
    refine ⟨⟨hid, rfl, hspec, rfl, hdel, ?_, ?_⟩, hl, ?_, hended⟩
    · exact fun hs => (congrArg Option.isSome hended).trans hs
    · exact fun hs => absurd hs hl.not_deleted
    · exact (congrArg PhysicalState.toState hstate).trans (asPhysical_toState ht)

theorem transitioned_yields (now : Int) (d : Device) (target : DeviceState)
    (update : DeviceTransitionUpdate) :
    Yields anyError (fun d' => Moved d d' target) (Registry.transitioned now d target update) := by
  rw [Registry.transitioned]
  generalize (if target = .ready then _ else _ : DeviceTransitionUpdate) = update'
  cases h : transition d target update' with
  | none => trivial
  | some d' => exact transition_moved h

/-- A grant's move leaves the device's driver data. -/
theorem transitioned_leased (now : Int) (d : Device) :
    Yields anyError (fun d' => Moved d d' .leased ∧ (ForeignData d' → ForeignData d))
      (Registry.transitioned now d .leased {}) := by
  cases h : transition d .leased {} with
  | none =>
    have hthrows : Registry.transitioned now d .leased {} =
        .error (.illegalTransition d.state .leased) := by simp [Registry.transitioned, h]
    rw [hthrows]
    trivial
  | some d' =>
    have hreturns : Registry.transitioned now d .leased {} = .ok d' := by
      simp [Registry.transitioned, h]
    rw [hreturns]
    refine ⟨transition_moved h, ?_⟩
    cases d with
    | physical p =>
      obtain ⟨p', -, rfl⟩ := Option.map_eq_some_iff.mp h
      exact id
    | virtual v =>
      obtain ⟨v', hv, rfl⟩ := Option.map_eq_some_iff.mp h
      simp only [DeviceState.asVirtual, Option.bind_some, transitionVirtual] at hv
      split at hv
      · cases hv
      · cases hv
        exact id

/-! ### Requests -/

/-- A request's fields agree with its state. -/
structure RequestOk (q : LeaseRequestRecord) : Prop where
  granted : q.state = .granted ↔ q.grant.isSome
  settled : isSettled q → q.settledAt.isSome
  lease : ∀ g, q.grant = some g → g.lease.deviceId = g.device.id

/-- The requests of a commit at `now`: entries may go, an open one may be settled, and a grant names
    a device of the commit that is not deleted. -/
structure RequestsStep (r : Registry) (devices : List (Obj Device)) (now : Int)
    (requests : List (Obj LeaseRequestRecord)) : Prop where
  follows : Follows LeaseRequestRecord.id r.leaseRequests requests
  ok : ∀ o ∈ requests, o.fresh = true → RequestOk o.val
  settled : ∀ o ∈ requests, o.fresh = true → ∀ t, o.val.settledAt = some t → t = now
  replaced : ∀ o ∈ requests, o.fresh = true →
    ∀ q ∈ r.leaseRequests, q.id = o.val.id → isSettled q = false
  named : ∀ o ∈ requests, o.fresh = true → ∀ g, o.val.grant = some g →
    ∃ d ∈ vals devices, d.id = g.device.id ∧ d.fields.deletedAt = none

theorem RequestsStep.keep (r : Registry) (devices : List (Obj Device)) (now : Int) :
    RequestsStep r devices now (keep r.leaseRequests) := by
  have hnone : ∀ o ∈ Lib.keep r.leaseRequests, o.fresh ≠ true := by
    intro o ho
    rw [(mem_keep ho).1]
    simp
  exact ⟨Follows.keep .., fun o ho h => absurd h (hnone o ho), fun o ho h => absurd h (hnone o ho),
    fun o ho h => absurd h (hnone o ho), fun o ho h => absurd h (hnone o ho)⟩

theorem RequestsStep.sublist {r : Registry} {devices : List (Obj Device)} {now : Int}
    {requests requests' : List (Obj LeaseRequestRecord)} (h : RequestsStep r devices now requests)
    (hs : List.Sublist requests' requests) : RequestsStep r devices now requests' where
  follows := h.follows.sublist hs
  ok o ho := h.ok o (hs.subset ho)
  settled o ho := h.settled o (hs.subset ho)
  replaced o ho := h.replaced o (hs.subset ho)
  named o ho := h.named o (hs.subset ho)

/-- The record a settle writes agrees with its state. -/
theorem settle_ok {q : LeaseRequestRecord} (hq : RequestOk q) (hopen : isSettled q = false)
    (now : Int) (outcome : LeaseRequestOutcome)
    (hgrant : ∀ g, outcome = .granted g → g.lease.deviceId = g.device.id) :
    RequestOk (outcome.settle q now) := by
  have hgrantless : q.grant = none := by
    have hstate : q.state ≠ .granted := by
      intro hs
      simp [isSettled, hs] at hopen
    exact Option.not_isSome_iff_eq_none.mp (mt hq.granted.mpr hstate)
  cases outcome with
  | granted g =>
    refine ⟨by simp [LeaseRequestOutcome.settle], fun _ => rfl, fun g' hg' => ?_⟩
    cases hg'
    exact hgrant g rfl
  | failed f =>
    refine ⟨by simp [LeaseRequestOutcome.settle, hgrantless], fun _ => rfl, fun g' hg' => ?_⟩
    simp [LeaseRequestOutcome.settle, hgrantless] at hg'
  | cancelled =>
    refine ⟨by simp [LeaseRequestOutcome.settle, hgrantless], fun _ => rfl, fun g' hg' => ?_⟩
    simp [LeaseRequestOutcome.settle, hgrantless] at hg'

theorem find_withSettled {requests requests' : List (Obj LeaseRequestRecord)} {id : String}
    {outcome : LeaseRequestOutcome} {now : Int}
    (h : withSettledLeaseRequest requests id outcome now = some requests') :
    ∃ o ∈ requests, o.val.id = id ∧ isSettled o.val = false ∧
      requests' = replaceFirst (fun r => r.id = id) (outcome.settle o.val now) requests := by
  unfold withSettledLeaseRequest at h
  split at h
  · cases h
  · rename_i o ho
    split at h
    · cases h
    · rename_i hopen
      refine ⟨o, List.mem_of_find?_eq_some ho, ?_, by simpa using hopen, (Option.some.inj h).symm⟩
      simpa using List.find?_some ho

@[simp] theorem settle_id (q : LeaseRequestRecord) (now : Int) (outcome : LeaseRequestOutcome) :
    (outcome.settle q now).id = q.id := by cases outcome <;> rfl

@[simp] theorem settle_settledAt (q : LeaseRequestRecord) (now : Int)
    (outcome : LeaseRequestOutcome) : (outcome.settle q now).settledAt = some now := by
  cases outcome <;> rfl

/-- Settling an open record of the list keeps it a list to commit. -/
theorem RequestsStep.settle {r : Registry} {devices : List (Obj Device)} {now : Int}
    {requests requests' : List (Obj LeaseRequestRecord)} {id : String}
    {outcome : LeaseRequestOutcome} (h : RequestsStep r devices now requests)
    (hok : ∀ q ∈ r.leaseRequests, RequestOk q)
    (hnodup : (r.leaseRequests.map LeaseRequestRecord.id).Nodup)
    (hgrant : ∀ g, outcome = .granted g → g.lease.deviceId = g.device.id ∧
      ∃ d ∈ vals devices, d.id = g.device.id ∧ d.fields.deletedAt = none)
    (hs : withSettledLeaseRequest requests id outcome now = some requests') :
    RequestsStep r devices now requests' := by
  obtain ⟨o, ho, hid, hopen, rfl⟩ := find_withSettled hs
  have hq : RequestOk o.val := by
    cases hfresh : o.fresh with
    | true => exact h.ok o ho hfresh
    | false => exact hok _ (h.follows.kept_mem ho hfresh)
  have hgrantless : o.val.grant = none := by
    have hstate : o.val.state ≠ .granted := by
      intro hs
      simp [isSettled, hs] at hopen
    exact Option.not_isSome_iff_eq_none.mp (mt hq.granted.mpr hstate)
  refine ⟨?_, ?_, ?_, ?_, ?_⟩
  · refine h.follows.replaceFirst fun o' _ hp => ?_
    rw [settle_id, hid]
    exact of_decide_eq_true hp
  · intro o' ho' hfresh
    rcases mem_replaceFirst ho' with rfl | ho'
    · exact settle_ok hq hopen now outcome fun g hg => (hgrant g hg).1
    · exact h.ok o' ho' hfresh
  · intro o' ho' hfresh t ht
    rcases mem_replaceFirst ho' with rfl | ho'
    · rw [settle_settledAt] at ht
      exact (Option.some.inj ht).symm
    · exact h.settled o' ho' hfresh t ht
  · intro o' ho' hfresh q hq' hid'
    rcases mem_replaceFirst ho' with rfl | ho'
    · rw [settle_id] at hid'
      cases hfresh' : o.fresh with
      | true => exact h.replaced o ho hfresh' q hq' hid'
      | false =>
        rw [List.inj_on_of_nodup_map hnodup hq' (h.follows.kept_mem ho hfresh') hid']
        exact hopen
    · exact h.replaced o' ho' hfresh q hq' hid'
  · intro o' ho' hfresh g hg
    rcases mem_replaceFirst ho' with rfl | ho'
    · cases outcome with
      | granted g' =>
        obtain rfl : g' = g := Option.some.inj hg
        exact (hgrant g' rfl).2
      | failed f => simp [LeaseRequestOutcome.settle, hgrantless] at hg
      | cancelled => simp [LeaseRequestOutcome.settle, hgrantless] at hg
    · exact h.named o' ho' hfresh g hg

/-- What an operation can commit. -/
inductive Change (r : Registry) (now : Int) : Draft → Prop
  | rewrite {d d' : Device} (hd : r.device d.id = some d) (hstep : DeviceStep d d') :
    Change r now (r.draft.setDevice d')
  | add {d : Device} (hnew : d.id ∉ r.devices.map Device.id) (hlive : d.fields.deletedAt = none) :
    Change r now { r.draft with devices := keep r.devices ++ [⟨d, true⟩] }
  | grant {d d' : Device} {lease : LeaseRecord} {requests : List (Obj LeaseRequestRecord)}
    (hd : r.device d.id = some d) (hstep : DeviceStep d d')
    (hnew : lease.id ∉ r.leases.map LeaseRecord.id)
    (hrequests : RequestsStep r (r.draft.setDevice d').devices now requests) :
    Change r now { r.draft.setDevice d' with
      leases := keep r.leases ++ [⟨lease, true⟩]
      leaseRequests := requests }
  | endLease {d d' : Device} {leaseId : String} (hd : r.device d.id = some d)
    (hstep : DeviceStep d d') :
    Change r now { r.draft.setDevice d' with leases := r.leasesWithout leaseId }
  | renew {lease lease' : LeaseRecord} (hid : lease'.id = lease.id) :
    Change r now { r.draft with
      leases := replaceFirst (fun l => l.id = lease.id) lease' (keep r.leases) }
  | requests {requests : List (Obj LeaseRequestRecord)}
    (hrequests : RequestsStep r (keep r.devices) now requests) :
    Change r now { r.draft with leaseRequests := requests }
  | components {components : List (Obj ComponentRecord)} (old : List ComponentRecord)
    (new : List (Obj ComponentRecord)) (hcomponents : components = keep old ++ new)
    (hold : List.Sublist old r.components) (hfresh : ∀ o ∈ new, o.fresh = true) (hone : new.length ≤ 1)
    (hnew : ∀ o ∈ new, ∀ c ∈ old, ¬ (c.platform = o.val.platform ∧ c.version = o.val.version)) :
    Change r now { r.draft with components := components }

/-! ### One lemma per operation -/

/-- The operation commits, if anything, the one device rewritten; `P` says in what record and to what
    state. The end of its last lease stays what it was. -/
def OneDevice (r : Registry) (deviceId : String) (P : Device → DeviceState → Prop)
    (x : Except RegistryError (Option Draft)) : Prop :=
  Yields anyError (fun od => ∀ draft, od = some draft → ∃ d d', r.device deviceId = some d ∧
    draft = r.draft.setDevice d' ∧ DeviceStep d d' ∧
    d'.fields.lastLeaseEndedAt = d.fields.lastLeaseEndedAt ∧ P d d'.state) x

section Operations

variable {r : Registry} {now : Int} {deviceId : String}

theorem requireDeviceRecord_yields (r : Registry) (deviceId : String) :
    Yields anyError (fun d => r.device deviceId = some d) (r.requireDeviceRecord deviceId) := by
  unfold Registry.requireDeviceRecord
  split
  · trivial
  · rename_i d hd
    exact hd

theorem requireLease_yields (r : Registry) (leaseId : String) :
    Yields anyError (fun l => r.lease leaseId = some l) (r.requireLease leaseId) := by
  unfold Registry.requireLease
  split
  · trivial
  · rename_i l hl
    exact hl

theorem requireQuarantined_yields (r : Registry) (deviceId : String) :
    Yields anyError (fun d => r.device deviceId = some d ∧ d.state = .quarantined)
      (r.requireQuarantined deviceId) := by
  refine (requireDeviceRecord_yields r deviceId).bind fun d hd => ?_
  split
  · trivial
  · rename_i hq
    exact ⟨hd, not_not.mp hq⟩

/-- A draft of one device, from what was rewritten. -/
theorem OneDevice.of {P : Device → DeviceState → Prop} {d d' : Device}
    (hd : r.device deviceId = some d) (hstep : DeviceStep d d')
    (hended : d'.fields.lastLeaseEndedAt = d.fields.lastLeaseEndedAt) (hP : P d d'.state) :
    OneDevice r deviceId P (.ok (some (r.draft.setDevice d'))) := by
  intro draft hdraft
  cases hdraft
  exact ⟨d, d', hd, rfl, hstep, hended, hP⟩

theorem OneDevice.bind {α : Type} {P : Device → DeviceState → Prop} {post : α → Prop}
    {x : Except RegistryError α} {f : α → Except RegistryError (Option Draft)}
    (h : Yields anyError post x) (hf : ∀ a, post a → OneDevice r deviceId P (f a)) :
    OneDevice r deviceId P (x >>= f) := Yields.bind h hf

theorem OneDevice.nothing {P : Device → DeviceState → Prop} :
    OneDevice r deviceId P (.ok none) := by
  intro draft hdraft
  cases hdraft

/-- A transition is called with the event its move needs. -/
theorem assertTransitionEvent_yields (d : Device) (target : DeviceState)
    (event : Option Registry.RegistryDeviceEvent) :
    Yields anyError (fun _ => event.map Registry.RegistryDeviceEvent.event =
      Registry.eventForTransition d.state target)
      (Registry.assertTransitionEvent d target event) := by
  unfold Registry.assertTransitionEvent
  by_cases he : event.map Registry.RegistryDeviceEvent.event =
      Registry.eventForTransition d.state target
  · simp only [he, ne_eq, not_true_eq_false, if_false]
    split
    · split <;> trivial
    · trivial
  · simp only [ne_eq, he, not_false_eq_true, if_true]
    trivial

theorem transitionDevice_one (target : DeviceState) (event : Option Registry.RegistryDeviceEvent)
    (update : DeviceTransitionUpdate) :
    OneDevice r deviceId (fun d s => Legal d target ∧ s = target ∧
      (target = .deleted → r.isLeased deviceId = false) ∧
      event.map Registry.RegistryDeviceEvent.event = Registry.eventForTransition d.state target)
      (r.transitionDevice now deviceId target event update) := by
  refine OneDevice.bind (requireDeviceRecord_yields r deviceId) fun d hd => ?_
  split
  · trivial
  · rename_i hleased
    refine OneDevice.bind (assertTransitionEvent_yields d target event) fun _ he => ?_
    refine OneDevice.bind (transitioned_yields now d target update) fun d' hm => ?_
    refine OneDevice.of hd hm.step hm.ended ⟨hm.legal, hm.state, fun ht => ?_, he⟩
    by_contra hl
    simp [ht, hl] at hleased

theorem recordRebootedDevice_one (address : String) (driverData : DriverData) (mode : DeviceMode) :
    OneDevice r deviceId (fun d s => d.state = .ready ∧ s = d.state)
      (r.recordRebootedDevice deviceId address driverData mode) := by
  refine OneDevice.bind (requireDeviceRecord_yields r deviceId) fun d hd => ?_
  cases d with
  | physical p => trivial
  | virtual v =>
    simp only
    split
    · rename_i hready
      refine OneDevice.of hd ⟨rfl, rfl, rfl, rfl, rfl, fun h => h, fun h => h⟩ rfl ⟨?_, rfl⟩
      rw [Device.state, hready]
      rfl
    · trivial

theorem completeReclaimWithoutPurge_one :
    OneDevice r deviceId (fun d s => d.state = .reclaiming ∧ s = .shutdown)
      (r.completeReclaimWithoutPurge now deviceId) := by
  refine OneDevice.bind (requireDeviceRecord_yields r deviceId) fun d hd => ?_
  split
  · trivial
  · rename_i hr
    refine OneDevice.bind (transitioned_yields now d .shutdown {}) fun d' hm => ?_
    exact OneDevice.of hd hm.step hm.ended ⟨not_not.mp hr, hm.state⟩

/-- A move and then a rewrite of fields it does not look at. -/
theorem Moved.setFields {d m : Device} {target : DeviceState} (hm : Moved d m target)
    (fs : DeviceRecordFields) (hid : fs.id = m.fields.id)
    (hdeleted : fs.deletedAt = m.fields.deletedAt)
    (hended : fs.lastLeaseEndedAt = m.fields.lastLeaseEndedAt) :
    Moved d (m.setFields fs) target where
  step := hm.step.trans (DeviceStep.setFields m fs hid hdeleted
    fun h => (congrArg Option.isSome hended).trans h)
  legal := hm.legal
  state := by simpa using hm.state
  ended := by simpa using hended.trans hm.ended

theorem enterQuarantine_one (nextRetryAt : Int) (cause : QuarantineCause) :
    OneDevice r deviceId (fun d s => (d.state = .reclaiming ∨ d.state = .provisioning ∨
      d.state = .shutdown) ∧ s = .quarantined)
      (r.enterQuarantine now deviceId nextRetryAt cause) := by
  refine OneDevice.bind (requireDeviceRecord_yields r deviceId) fun d hd => ?_
  split
  · trivial
  · rename_i hs
    refine OneDevice.bind (transitioned_yields now d .quarantined {}) fun d' hm => ?_
    have hm' := hm.setFields { d'.fields with
      quarantineAttempts := some 0
      quarantineNextRetryAt := some nextRetryAt
      quarantinedAt := some now
      quarantineCause := some cause } rfl rfl rfl
    refine OneDevice.of hd hm'.step hm'.ended ⟨?_, hm'.state⟩
    by_contra hne
    simp only [not_or] at hne
    simp [hne.1, hne.2.1, hne.2.2] at hs

theorem recordQuarantineRetryFailure_one (attempts nextRetryAt : Int) :
    OneDevice r deviceId (fun d s => d.state = .quarantined ∧ s = .quarantined)
      (r.recordQuarantineRetryFailure deviceId attempts nextRetryAt) := by
  refine OneDevice.bind (requireQuarantined_yields r deviceId) fun d hd => ?_
  exact OneDevice.of hd.1 (DeviceStep.setFields d _ rfl rfl fun h => h) (by simp)
    ⟨hd.2, by simpa using hd.2⟩

theorem recoverFromQuarantine_one (target : DeviceState) :
    OneDevice r deviceId (fun d s => d.state = .quarantined ∧ Legal d target ∧ s = target)
      (r.recoverFromQuarantine now deviceId target) := by
  refine OneDevice.bind (requireQuarantined_yields r deviceId) fun d hd => ?_
  refine OneDevice.bind (transitioned_yields now d target {}) fun d' hm => ?_
  have hm' := hm.setFields d'.fields.withoutQuarantine rfl rfl rfl
  exact OneDevice.of hd.1 hm'.step hm'.ended ⟨hd.2, hm'.legal, hm'.state⟩

theorem strandQuarantine_one (attempts : Int) :
    OneDevice r deviceId (fun d s => d.state = .quarantined ∧ s = .quarantined)
      (r.strandQuarantine deviceId attempts) := by
  refine OneDevice.bind (requireQuarantined_yields r deviceId) fun d hd => ?_
  exact OneDevice.of hd.1 (DeviceStep.setFields d _ rfl rfl fun h => h) (by simp)
    ⟨hd.2, by simpa using hd.2⟩

theorem deleteQuarantined_one :
    OneDevice r deviceId (fun d s => d.state = .quarantined ∧ s = .deleted)
      (r.deleteQuarantined now deviceId) := by
  refine OneDevice.bind (requireQuarantined_yields r deviceId) fun d hd => ?_
  refine OneDevice.bind (transitioned_yields now d .deleted {}) fun d' hm => ?_
  have hm' := hm.setFields d'.fields.withoutQuarantine rfl rfl rfl
  exact OneDevice.of hd.1 hm'.step hm'.ended ⟨hd.2, hm'.state⟩

/-- A rewrite of marks leaves the state. -/
theorem OneDevice.marks {d : Device} (hd : r.device deviceId = some d) (fs : DeviceRecordFields)
    (hid : fs.id = d.fields.id) (hdeleted : fs.deletedAt = d.fields.deletedAt)
    (hended : fs.lastLeaseEndedAt = d.fields.lastLeaseEndedAt) :
    OneDevice r deviceId (fun d s => s = d.state)
      (.ok (some (r.draft.setDevice (d.setFields fs)))) :=
  OneDevice.of hd (DeviceStep.setFields d fs hid hdeleted
    fun h => (congrArg Option.isSome hended).trans h) (by simpa using hended) (by simp)

theorem markForeignStateDetected_one (at_ : Int) :
    OneDevice r deviceId (fun d s => s = d.state) (r.markForeignStateDetected deviceId at_) := by
  refine OneDevice.bind (requireDeviceRecord_yields r deviceId) fun d hd => ?_
  split
  · exact OneDevice.nothing
  · exact OneDevice.marks hd _ rfl rfl rfl

theorem markForeignProvenanceDetected_one (at_ : Int) :
    OneDevice r deviceId (fun d s => s = d.state)
      (r.markForeignProvenanceDetected deviceId at_) := by
  refine OneDevice.bind (requireDeviceRecord_yields r deviceId) fun d hd => ?_
  split
  · exact OneDevice.nothing
  · exact OneDevice.marks hd _ rfl rfl rfl

theorem clearForeignStateDetected_one :
    OneDevice r deviceId (fun d s => s = d.state) (r.clearForeignStateDetected deviceId) := by
  refine OneDevice.bind (requireDeviceRecord_yields r deviceId) fun d hd => ?_
  split
  · exact OneDevice.nothing
  · exact OneDevice.marks hd _ rfl rfl rfl

theorem markRecoveryAttempt_one (at_ : Int) :
    OneDevice r deviceId (fun d s => s = d.state) (r.markRecoveryAttempt deviceId at_) := by
  refine OneDevice.bind (requireDeviceRecord_yields r deviceId) fun d hd => ?_
  exact OneDevice.marks hd _ rfl rfl rfl

theorem clearRecovery_one :
    OneDevice r deviceId (fun d s => s = d.state) (r.clearRecovery deviceId) := by
  refine OneDevice.bind (requireDeviceRecord_yields r deviceId) fun d hd => ?_
  split
  · exact OneDevice.nothing
  · exact OneDevice.marks hd _ rfl rfl rfl

/-- What `#commitMissing` makes of a device. -/
theorem missing_yields (d : Device) (leases : List (Obj LeaseRecord)) :
    Yields anyError (fun draft => ∃ d', draft = { r.draft.setDevice d' with leases := leases } ∧
      DeviceStep d d' ∧ d'.fields.lastLeaseEndedAt = d.fields.lastLeaseEndedAt ∧
      d.isPhysical = false ∧ d'.state = .deleted) (r.missing d leases) := by
  cases d with
  | physical p => trivial
  | virtual v =>
    exact ⟨_, rfl, ⟨rfl, rfl, rfl, rfl, rfl, fun h => h, fun _ => rfl⟩, rfl, rfl, rfl⟩

theorem markDeviceMissing_one :
    OneDevice r deviceId (fun d s => d.isPhysical = false ∧ r.isLeased deviceId = false ∧
      d.state ≠ .deleted ∧ s = .deleted) (r.markDeviceMissing deviceId) := by
  refine OneDevice.bind (requireDeviceRecord_yields r deviceId) fun d hd => ?_
  split
  · trivial
  · rename_i hleased
    split
    · exact OneDevice.nothing
    · rename_i hlive
      refine OneDevice.bind (missing_yields d _) fun draft hdraft => ?_
      obtain ⟨d', rfl, hstep, hended, hphysical, hstate⟩ := hdraft
      exact OneDevice.of hd hstep hended ⟨hphysical, by simpa using hleased, hlive, hstate⟩

theorem rewriteAbsentReason_one (absentReason : AbsentReason) :
    OneDevice r deviceId (fun d s => s = d.state)
      (r.rewriteAbsentReason deviceId absentReason) := by
  refine OneDevice.bind (requireDeviceRecord_yields r deviceId) fun d hd => ?_
  cases d with
  | virtual v => trivial
  | physical p =>
    simp only
    split
    · exact OneDevice.of hd ⟨rfl, rfl, rfl, rfl, rfl, fun h => h, fun h => h⟩ rfl rfl
    · trivial

/-- Only a ready device, or one that may move to `ready`, is re-enrolled. -/
theorem reenrollPhysical_one (input : Registry.PhysicalEnrollmentInput) :
    OneDevice r deviceId (fun d s => d.isPhysical = true ∧ (d.state = .ready ∨ Legal d .ready) ∧
      s = .ready) (r.reenrollPhysical now deviceId input) := by
  refine OneDevice.bind (requireDeviceRecord_yields r deviceId) fun d hd => ?_
  cases d with
  | virtual v => trivial
  | physical p =>
    simp only
    by_cases hready : p.state = .ready
    · simp only [hready, if_true]
      refine OneDevice.of hd ⟨rfl, rfl, rfl, rfl, rfl, fun h => h, fun h => ?_⟩ rfl
        ⟨rfl, .inl (by rw [Device.state, hready]; rfl), ?_⟩
      · rw [Device.state, hready] at h
        cases h
      · rfl
    · simp only [hready, if_false]
      split
      · trivial
      · rename_i settled hsettled
        obtain ⟨hlegal, hstate, hplatform, hid, hdeleted, hended⟩ :=
          transitionPhysical_spec hsettled
        have hl : Legal (.physical p) .ready := ⟨.ready, rfl, hlegal⟩
        refine OneDevice.of hd ⟨hid, rfl, rfl, rfl, hdeleted, fun h => ?_, fun h => ?_⟩ hended
          ⟨rfl, .inr hl, ?_⟩
        · exact (congrArg Option.isSome hended).trans h
        · exact absurd h hl.not_deleted
        · simp only [Device.state, hstate]
          rfl

theorem unenrollPhysical_one :
    OneDevice r deviceId (fun d s => d.isPhysical = true ∧ Legal d .deleted ∧ s = .deleted)
      (r.unenrollPhysical deviceId) := by
  refine OneDevice.bind (requireDeviceRecord_yields r deviceId) fun d hd => ?_
  cases d with
  | virtual v => trivial
  | physical p =>
    simp only
    split
    · trivial
    · rename_i updated hupdated
      obtain ⟨hlegal, hstate, hplatform, hid, hdeleted, hended⟩ := transitionPhysical_spec hupdated
      have hl : Legal (.physical p) .deleted := ⟨.deleted, rfl, hlegal⟩
      refine OneDevice.of hd ⟨hid, rfl, hplatform, rfl, hdeleted, fun h => ?_, fun h => ?_⟩ hended
        ⟨rfl, hl, ?_⟩
      · exact (congrArg Option.isSome hended).trans h
      · exact absurd h hl.not_deleted
      · simp only [Device.state, hstate]
        rfl

/-- The operation commits, if anything, the end of the lease with its device rewritten. -/
def EndsLease (r : Registry) (leaseId : String) (P : Device → Device → Prop)
    (x : Except RegistryError (Option Draft)) : Prop :=
  Yields anyError (fun od => ∀ draft, od = some draft → ∃ lease d d', r.lease leaseId = some lease ∧
    r.device lease.deviceId = some d ∧
    draft = { r.draft.setDevice d' with leases := r.leasesWithout leaseId } ∧ DeviceStep d d' ∧
    P d d') x

theorem EndsLease.bind {α : Type} {leaseId : String} {P : Device → Device → Prop} {post : α → Prop}
    {x : Except RegistryError α} {f : α → Except RegistryError (Option Draft)}
    (h : Yields anyError post x) (hf : ∀ a, post a → EndsLease r leaseId P (f a)) :
    EndsLease r leaseId P (x >>= f) := Yields.bind h hf

theorem EndsLease.of {leaseId : String} {P : Device → Device → Prop} {lease : LeaseRecord}
    {d d' : Device} (hl : r.lease leaseId = some lease) (hd : r.device lease.deviceId = some d)
    (hstep : DeviceStep d d') (hP : P d d') :
    EndsLease r leaseId P
      (.ok (some { r.draft.setDevice d' with leases := r.leasesWithout leaseId })) := by
  intro draft hdraft
  cases hdraft
  exact ⟨lease, d, d', hl, hd, rfl, hstep, hP⟩

/-- A lease that ends with its device missing: the device is virtual and is deleted. -/
theorem endLeaseAndMarkDeviceMissing_ends (leaseId : String) :
    EndsLease r leaseId (fun d d' => d.isPhysical = false ∧ d'.state = .deleted)
      (r.endLeaseAndMarkDeviceMissing leaseId) := by
  refine EndsLease.bind (requireLease_yields r leaseId) fun lease hl => ?_
  refine EndsLease.bind (requireDeviceRecord_yields r lease.deviceId) fun d hd => ?_
  refine EndsLease.bind (missing_yields d _) fun draft hdraft => ?_
  obtain ⟨d', rfl, hstep, -, hphysical, hstate⟩ := hdraft
  exact EndsLease.of hl hd hstep ⟨hphysical, hstate⟩

/-- Fields rewritten after a move, with the end of the lease set. -/
theorem Moved.ends {d m : Device} {target : DeviceState} (hm : Moved d m target)
    (fs : DeviceRecordFields) (hid : fs.id = m.fields.id)
    (hdeleted : fs.deletedAt = m.fields.deletedAt) (hended : fs.lastLeaseEndedAt = some now) :
    DeviceStep d (m.setFields fs) ∧ (m.setFields fs).state = target ∧
      (m.setFields fs).fields.lastLeaseEndedAt = some now := by
  refine ⟨?_, by simpa using hm.state, by simpa using hended⟩
  exact hm.step.trans (DeviceStep.setFields m fs hid hdeleted fun _ => by rw [hended]; rfl)

theorem endLeaseAndMarkDeviceAbsent_ends (leaseId : String) (absentReason : AbsentReason) :
    EndsLease r leaseId (fun d d' => d.isPhysical = true ∧ d'.state = .absent ∧
      d'.fields.lastLeaseEndedAt = some now)
      (r.endLeaseAndMarkDeviceAbsent now leaseId absentReason) := by
  refine EndsLease.bind (requireLease_yields r leaseId) fun lease hl => ?_
  refine EndsLease.bind (requireDeviceRecord_yields r lease.deviceId) fun d hd => ?_
  refine EndsLease.bind (transitioned_yields now d .absent _) fun m hm => ?_
  obtain ⟨hstep, hstate, hended⟩ := hm.ends { m.fields with lastLeaseEndedAt := some now }
    rfl rfl rfl
  refine EndsLease.of hl hd hstep ⟨?_, hstate, hended⟩
  cases d with
  | physical p => rfl
  | virtual v =>
    obtain ⟨t, ht, -⟩ := hm.legal
    cases ht

theorem beginRelease_ends (leaseId : String) (deferReclaim : Bool) :
    EndsLease r leaseId (fun d d' => Legal d .reclaiming ∧ d'.state = .reclaiming ∧
      d'.fields.lastLeaseEndedAt = some now) (r.beginRelease now leaseId deferReclaim) := by
  refine EndsLease.bind (requireLease_yields r leaseId) fun lease hl => ?_
  refine EndsLease.bind (requireDeviceRecord_yields r lease.deviceId) fun d hd => ?_
  refine EndsLease.bind (transitioned_yields now _ .reclaiming {}) fun m hm => ?_
  obtain ⟨hstep, hstate, hended⟩ := hm.ends { m.fields with
    lastLeaseEndedAt := some now
    deferredReclaimLeaseId :=
      if deferReclaim then some leaseId else m.fields.deferredReclaimLeaseId } rfl rfl rfl
  have hclear : DeviceStep d (d.setFields d.fields.withoutRecovery) :=
    DeviceStep.setFields d _ rfl rfl fun h => h
  refine EndsLease.of hl hd (hclear.trans hstep) ⟨?_, hstate, hended⟩
  cases d with
  | virtual v => exact hm.legal
  | physical p => exact hm.legal

@[simp] theorem withExcept_fields (e : Option ExceptList) (d : Device) :
    (Registry.withExcept e d).fields = d.fields := by cases d <;> rfl

@[simp] theorem withExcept_state (e : Option ExceptList) (d : Device) :
    (Registry.withExcept e d).state = d.state := by cases d <;> rfl

theorem DeviceStep.withExcept (e : Option ExceptList) (d : Device) :
    DeviceStep d (Registry.withExcept e d) := by
  refine ⟨by simp [Device.id], by cases d <;> rfl, by cases d <;> rfl, by cases d <;> rfl, by simp,
    by simp, by simp⟩

/-- The lease a grant writes. -/
def grantedLease (now : Int) (generated : String) (input : Registry.CreateLeaseInput) :
    LeaseRecord where
  id := input.leaseId.getD generated
  deviceId := input.deviceId
  requesterId := input.requesterId
  ownerId := input.ownerId
  grantedAt := now
  ttlMs := input.ttlMs
  ttlDeadline := input.ttlDeadline
  lastRenewedAt := now
  idChosenByRequester := input.leaseId.isSome

/-- The requests a grant commits: the one it answers settled, if that one is still open. -/
def GrantsRequest (r : Registry) (now : Int) (request : Option Registry.GrantedRequest)
    (device : Device) (lease : LeaseRecord) (requests : List (Obj LeaseRequestRecord)) : Prop :=
  requests = keep r.leaseRequests ∨ ∃ q, request = some q ∧
    withSettledLeaseRequest (keep r.leaseRequests) q.id
      (.granted ⟨device, q.environment, lease, q.timing⟩) now = some requests

/-- What `createLease` commits. -/
theorem createLease_yields (generated : String) (input : Registry.CreateLeaseInput) :
    Yields anyError (fun od => ∀ draft, od = some draft → ∃ d d' requests,
      r.device input.deviceId = some d ∧ r.isLeased input.deviceId = false ∧ Moved d d' .leased ∧
      (ForeignData d' → ForeignData d) ∧
      GrantsRequest r now input.request d' (grantedLease now generated input) requests ∧
      draft = { r.draft.setDevice d' with
        leases := keep r.leases ++ [⟨grantedLease now generated input, true⟩]
        leaseRequests := requests }) (r.createLease now generated input) := by
  refine (requireDeviceRecord_yields r input.deviceId).bind fun d hd => ?_
  split
  · trivial
  · rename_i hleased
    refine (transitioned_leased now d).bind fun m ⟨hm, hforeign⟩ => ?_
    intro draft hdraft
    cases hdraft
    have hstep := DeviceStep.withExcept input.except_ m
    refine ⟨d, Registry.withExcept input.except_ m, _, hd, by simpa using hleased,
      ⟨hm.step.trans hstep, hm.legal, by simpa using hm.state, by simpa using hm.ended⟩, ?_, ?_, rfl⟩
    · intro hf
      refine hforeign ?_
      cases m with
      | virtual v => exact hf
      | physical p => exact hf
    cases hq : input.request with
    | none => exact .inl rfl
    | some q =>
      simp only
      cases hset : withSettledLeaseRequest (keep r.leaseRequests) q.id _ now with
      | none => exact .inl rfl
      | some requests => exact .inr ⟨q, rfl, hset⟩

end Operations

end Simlock.Core
