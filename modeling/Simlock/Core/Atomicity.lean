import Simlock.Core.Leases
import Simlock.Core.Persistence

/-! A call changes the records and the tables together, or neither.

    `attempt` is one call as its caller sees it: the checks of the operation, the transaction, the
    assignments that follow it, and for some operations a last read of the device they wrote. A
    transaction that fails is rolled back and the records are not touched.

        checks ──▶ transaction ──▶ records ──▶ read the device back
          │throw      │throw                      │throw, with both changed

    Two calls break the rule. A lease ended on a deleted device purges the device when its retention
    has run out, and the read that follows throws. A grant under the id of an active lease adds a
    record, where the table has one row per id. -/

namespace Simlock.Core

open Simlock.Lib

/-- Why a call threw. -/
inductive CallError where
  | registry (e : RegistryError)
  | commit (e : CommitError)
  | disk
  deriving DecidableEq, Repr

/-- What a call leaves behind. -/
structure Attempt where
  threw : Option CallError
  registry : Registry
  database : Database

/-- The device an operation reads with `#committed` once its commit is through. -/
def Call.readsBack (r : Registry) : Call → Option String
  | .transitionDevice deviceId .. => some deviceId
  | .recordRebootedDevice deviceId .. => some deviceId
  | .recoverFromQuarantine deviceId _ => some deviceId
  | .deleteQuarantined deviceId => some deviceId
  | .markDeviceMissing deviceId => some deviceId
  | .endLeaseAndMarkDeviceMissing leaseId => (r.lease leaseId).map LeaseRecord.deviceId
  | .reenrollPhysical deviceId _ => some deviceId
  | .unenrollPhysical deviceId => some deviceId
  | _ => none

/-- `#committed`, where the operation has it. -/
def Registry.readBack (r : Registry) : Option String → Option CallError
  | none => none
  | some deviceId =>
    match r.requireDeviceRecord deviceId with
    | .error e => some (.registry e)
    | .ok _ => none

/-- One call; `writable` is whether the disk takes the transaction. -/
def Store.attempt (o : RegistryOptions) (s : Store) (c : Call) (now : Int) (writable : Bool) :
    Attempt :=
  match s.registry.call o now c with
  | .error e => ⟨some (.registry e), s.registry, s.database⟩
  | .ok none => ⟨none, s.registry, s.database⟩
  | .ok (some draft) =>
    if writable then
      match commitRows s.registry (draft.settled o now) s.database with
      | .error e => ⟨some (.commit e), s.registry, s.database⟩
      | .ok db =>
        let r := Registry.commit o now draft
        ⟨r.readBack (c.readsBack s.registry), r, db⟩
    else ⟨some .disk, s.registry, s.database⟩

/-- A call that throws leaves the records and the tables as they were; one that returns leaves the
    tables holding the records. -/
def Atomic (o : RegistryOptions) (s : Store) (c : Call) (now : Int) : Prop :=
  ∀ writable,
    ((s.attempt o c now writable).threw.isSome →
      (s.attempt o c now writable).registry = s.registry ∧
        (s.attempt o c now writable).database = s.database) ∧
    ((s.attempt o c now writable).threw = none →
      Stored (s.attempt o c now writable).registry (s.attempt o c now writable).database)

/-- The ids a call is handed: the generator gives ones that are not in use, and a grant is written
    with its lease, so that a later settle with a grant finds the request settled. -/
def Call.FreshIds (r : Registry) : Call → Prop
  | .registerDevice id _ _ _ => id ∉ r.devices.map Device.id
  | .enrollPhysical id _ => id ∉ r.devices.map Device.id
  | .createLease generated input =>
    input.leaseId = none → generated ∉ r.leases.map LeaseRecord.id
  | .createLeaseRequest input => input.id ∉ r.leaseRequests.map LeaseRequestRecord.id
  | .settleLeaseRequest id (.granted _) => ∀ q ∈ r.leaseRequests, q.id = id → isSettled q
  | _ => True

/-- The call ends a lease whose virtual device is deleted, with its retention run out. -/
def Call.endsOnExpired (o : RegistryOptions) (r : Registry) (now : Int) : Call → Bool
  | .endLeaseAndMarkDeviceMissing leaseId =>
    (r.lease leaseId).any fun lease => (r.device lease.deviceId).any fun d =>
      !d.isPhysical && isExpired now o.deletedRetentionMs d
  | _ => false

/-- The call grants a free device under the id of an active lease. -/
def Call.grantsTakenId (r : Registry) : Call → Bool
  | .createLease generated input =>
    (r.lease (input.leaseId.getD generated)).isSome && !r.isLeased input.deviceId &&
      (r.device input.deviceId).any fun d => d.state = .ready
  | _ => false

section Reads

variable {r : Registry} {o : RegistryOptions} {now clock : Int}

variable (now) in
/-- A device of the draft that has not expired is one of the commit. -/
theorem commit_device (dr : Draft) {x : Obj Device} (hx : x ∈ dr.devices)
    (hlive : isExpired now o.deletedRetentionMs x.val = false) :
    ∃ d, (Registry.commit o now dr).device x.val.id = some d := by
  have hstamp := (stamp_spec now x).1
  have hpos := o.retention_pos
  have hle := o.retention_le
  have hkept : isExpired now o.deletedRetentionMs (stamp now x).val = false := by
    rcases hstamp.deletedAt with he | ⟨-, he⟩
    · rw [isExpired, he]
      exact hlive
    · rw [isExpired, he]
      simp only [decide_eq_false_iff_not, Int.not_lt]
      omega
  have hmem : (stamp now x).val ∈ (Registry.commit o now dr).devices :=
    List.mem_map_of_mem (List.mem_filter.mpr ⟨List.mem_map_of_mem hx, by simp [hkept]⟩)
  cases hfound : (Registry.commit o now dr).device x.val.id with
  | some d => exact ⟨d, rfl⟩
  | none =>
    exact absurd (List.mem_map.mpr ⟨_, hmem, hstamp.id⟩) (Registry.device_none.mp hfound)

/-- A commit that rewrites a device has it, unless its retention has run out. -/
theorem commit_setDevice_found {d d' : Device} (hd : r.device d.id = some d)
    (hstep : DeviceStep d d') (hlive : isExpired now o.deletedRetentionMs d = false) {dr : Draft}
    (hdevices : dr.devices = (r.draft.setDevice d').devices) :
    (Registry.commit o now dr).readBack (some d.id) = none := by
  have hmem : (⟨d', true⟩ : Obj Device) ∈ dr.devices := by
    rw [hdevices]
    refine mem_replaceFirst_self ⟨⟨d, false⟩, ?_, by simp [hstep.id]⟩
    exact List.mem_map_of_mem (Registry.device_mem hd).1
  have hlive' : isExpired now o.deletedRetentionMs d' = false := by
    rw [isExpired, hstep.deletedAt]
    exact hlive
  obtain ⟨x, hx⟩ := commit_device _ _ hmem hlive'
  rw [Registry.readBack, Registry.requireDeviceRecord, ← hstep.id, hx]

variable (now) in
theorem live_of_not_deleted (h : RegistryOk r clock) {d : Device} (hd : d ∈ r.devices)
    (hstate : d.state ≠ .deleted) : isExpired now o.deletedRetentionMs d = false := by
  have hnone : d.fields.deletedAt = none :=
    Option.not_isSome_iff_eq_none.mp (mt (h.devices d hd).stamped.mp hstate)
  rw [isExpired, hnone]

/-- An operation that reads its one device back finds it. -/
theorem OneDevice.readBack {deviceId : String} {P : Device → DeviceState → Prop} {draft : Draft}
    {x : Except RegistryError (Option Draft)} (hone : OneDevice r deviceId P x)
    (h : RegistryOk r clock) (hx : x = .ok (some draft)) (hP : ∀ d s, P d s → d.state ≠ .deleted) :
    (Registry.commit o now draft).readBack (some deviceId) = none := by
  rw [hx] at hone
  obtain ⟨d, d', hd, rfl, hstep, -, hmove⟩ := hone draft rfl
  obtain ⟨hmem, rfl⟩ := Registry.device_mem hd
  exact commit_setDevice_found hd hstep (live_of_not_deleted _ h hmem (hP _ _ hmove)) rfl

/-- What an operation reads back is there, but for a lease that ends on an expired device. -/
theorem call_readBack (h : RegistryOk r clock) {c : Call} {draft : Draft}
    (hcall : r.call o now c = .ok (some draft)) (hexpired : c.endsOnExpired o r now = false) :
    (Registry.commit o now draft).readBack (c.readsBack r) = none := by
  cases c with
  | transitionDevice deviceId target event update =>
    exact (transitionDevice_one target event update).readBack h hcall fun d s hP => hP.1.not_deleted
  | recordRebootedDevice deviceId address driverData mode =>
    refine (recordRebootedDevice_one address driverData mode).readBack h hcall fun d s hP => ?_
    rw [hP.1]
    simp
  | recoverFromQuarantine deviceId target =>
    exact (recoverFromQuarantine_one target).readBack h hcall fun d s hP => hP.2.1.not_deleted
  | deleteQuarantined deviceId =>
    refine deleteQuarantined_one.readBack h hcall fun d s hP => ?_
    rw [hP.1]
    simp
  | markDeviceMissing deviceId =>
    exact markDeviceMissing_one.readBack h hcall fun d s hP => hP.2.2.1
  | reenrollPhysical deviceId input =>
    refine (reenrollPhysical_one input).readBack h hcall fun d s hP => ?_
    rcases hP.2.1 with hready | hlegal
    · rw [hready]
      simp
    · exact hlegal.not_deleted
  | unenrollPhysical deviceId =>
    exact unenrollPhysical_one.readBack h hcall fun d s hP => hP.2.1.not_deleted
  | endLeaseAndMarkDeviceMissing leaseId =>
    have hends : EndsLease r leaseId (fun d d' => d.isPhysical = false ∧ d'.state = .deleted)
        (r.call o now (.endLeaseAndMarkDeviceMissing leaseId)) :=
      endLeaseAndMarkDeviceMissing_ends leaseId
    rw [hcall] at hends
    obtain ⟨lease, d, d', hl, hd, rfl, hstep, hphysical, -⟩ := hends draft rfl
    have hlive : isExpired now o.deletedRetentionMs d = false := by
      simpa [Call.endsOnExpired, hl, hd, hphysical] using hexpired
    obtain ⟨-, hid⟩ := Registry.device_mem hd
    rw [Call.readsBack, hl, Option.map_some, ← hid]
    rw [← hid] at hd
    exact commit_setDevice_found hd hstep hlive rfl
  | _ => rfl

/-- A device whose retention has run out stays so when it is rewritten and stamped. -/
theorem expired_of_step {d d' x : Device} (hstep : DeviceStep d d') (hstamp : Stamps now d' x)
    (hexp : isExpired now o.deletedRetentionMs d = true) :
    isExpired now o.deletedRetentionMs x = true := by
  have hsome : d'.fields.deletedAt ≠ none := by
    intro hnone
    rw [hstep.deletedAt] at hnone
    rw [isExpired, hnone] at hexp
    cases hexp
  rcases hstamp.deletedAt with he | ⟨hnone, -⟩
  · rw [isExpired, he, hstep.deletedAt]
    exact hexp
  · exact absurd hnone hsome

/-- A commit that rewrites an expired device purges it, and writes no device. -/
theorem commit_purges (h : RegistryOk r clock) {d d' : Device} (hd : r.device d.id = some d)
    (hstep : DeviceStep d d') (hexp : isExpired now o.deletedRetentionMs d = true) (dr : Draft)
    (hdevices : dr.devices = (r.draft.setDevice d').devices) :
    (Registry.commit o now dr).device d.id = none ∧ changed (dr.settled o now).devices = [] := by
  obtain ⟨hmem, -⟩ := Registry.device_mem hd
  constructor
  · cases hfound : (Registry.commit o now dr).device d.id with
    | none => rfl
    | some x =>
      obtain ⟨hx, hid⟩ := Registry.device_mem hfound
      obtain ⟨y, hy, hstamp, hlive⟩ := mem_settled_devices hx
      rw [hdevices] at hy
      rcases mem_replaceFirst hy with rfl | hy
      · rw [expired_of_step hstep hstamp hexp] at hlive
        cases hlive
      · have hsame : y.val = d := List.inj_on_of_nodup_map h.keys.devices (mem_keep hy).2 hmem
          (hstamp.id.symm.trans hid)
        rw [hsame] at hstamp
        rw [expired_of_step (DeviceStep.refl d) hstamp hexp] at hlive
        cases hlive
  · have hold : ∀ x ∈ (dr.settled o now).devices, ¬ x.fresh = true := by
      intro x hx
      rw [settled_devices] at hx
      obtain ⟨hx, hlive⟩ := List.mem_filter.mp hx
      obtain ⟨y, hy, rfl⟩ := List.mem_map.mp hx
      rw [hdevices] at hy
      rcases mem_replaceFirst hy with rfl | hy
      · rw [expired_of_step hstep (stamp_spec now ⟨d', true⟩).1 hexp] at hlive
        cases hlive
      · obtain ⟨hfresh, hy⟩ := mem_keep hy
        obtain ⟨v, f⟩ := y
        obtain rfl : f = false := hfresh
        rw [stamp_of_ok (h.devices v hy) now]
        simp
    rw [changed, List.filter_eq_nil_iff.mpr hold]
    rfl

/-- A lease that ends on an expired device: its commit goes through and changes the records, and
    the read that follows finds no device. -/
theorem endsOnExpired_spec (h : RegistryOk r clock) {c : Call} (hexpired : c.endsOnExpired o r now = true) :
    ∃ draft, r.call o now c = .ok (some draft) ∧ c.Fits r ∧
      ((Registry.commit o now draft).readBack (c.readsBack r)).isSome ∧
      changed (draft.settled o now).devices = [] ∧ Registry.commit o now draft ≠ r := by
  cases c with
  | endLeaseAndMarkDeviceMissing leaseId =>
    obtain ⟨lease, hl, hexpired⟩ := (Option.any_eq_true _ _).mp hexpired
    obtain ⟨d, hd, hexpired⟩ := (Option.any_eq_true _ _).mp hexpired
    rw [Bool.and_eq_true, Bool.not_eq_true'] at hexpired
    obtain ⟨hphysical, hexp⟩ := hexpired
    obtain ⟨draft, hcall⟩ : ∃ draft,
        r.call o now (.endLeaseAndMarkDeviceMissing leaseId) = .ok (some draft) := by
      cases d with
      | physical p => cases hphysical
      | virtual v =>
        simp only [Registry.call, Registry.endLeaseAndMarkDeviceMissing, Registry.requireLease,
          Registry.requireDeviceRecord, hl, hd, Registry.missing, ok_bind, pure_eq_ok]
        exact ⟨_, rfl⟩
    have hends : EndsLease r leaseId (fun d d' => d.isPhysical = false ∧ d'.state = .deleted)
        (r.call o now (.endLeaseAndMarkDeviceMissing leaseId)) :=
      endLeaseAndMarkDeviceMissing_ends leaseId
    rw [hcall] at hends
    obtain ⟨lease', d₀, d', hl', hd', hdraft, hstep, -⟩ := hends draft rfl
    obtain rfl : lease = lease' := Option.some.inj (hl.symm.trans hl')
    obtain rfl : d = d₀ := Option.some.inj (hd.symm.trans hd')
    obtain ⟨-, hid⟩ := Registry.device_mem hd
    rw [← hid] at hd
    obtain ⟨hnone, hchanged⟩ := commit_purges h hd hstep hexp draft (by rw [hdraft])
    refine ⟨draft, hcall, trivial, ?_, hchanged, ?_⟩
    · rw [Call.readsBack, hl, Option.map_some, ← hid, Registry.readBack,
        Registry.requireDeviceRecord, hnone]
      rfl
    · intro hsame
      rw [hsame, hd] at hnone
      cases hnone
  | _ => cases hexpired

/-- A ready device moves to `leased`. -/
theorem transitioned_ready {d : Device} (hready : d.state = .ready) (now : Int) :
    ∃ m, Registry.transitioned now d .leased {} = .ok m := by
  obtain ⟨m, hm⟩ : ∃ m, transition d .leased {} = some m := by
    cases d with
    | virtual v =>
      have hs : v.state = .ready := by
        cases hs : v.state <;> simp_all [Device.state, VirtualState.toState]
      simp only [transition, DeviceState.asVirtual, Option.bind_some, transitionVirtual, hs]
      exact ⟨_, rfl⟩
    | physical p =>
      have hs : p.state = .ready := by
        cases hs : p.state <;> simp_all [Device.state, PhysicalState.toState]
      simp only [transition, DeviceState.asPhysical, Option.bind_some, transitionPhysical, hs]
      exact ⟨_, rfl⟩
  exact ⟨m, by simp [Registry.transitioned, hm]⟩

theorem createLease_ready {generated : String} {input : Registry.CreateLeaseInput} {d : Device}
    (hd : r.device input.deviceId = some d) (hfree : r.isLeased input.deviceId = false)
    (hready : d.state = .ready) :
    ∃ draft, r.call o now (.createLease generated input) = .ok (some draft) := by
  obtain ⟨m, hm⟩ := transitioned_ready hready now
  simp only [Registry.call, Registry.createLease, Registry.requireDeviceRecord, hd, ok_bind, hfree,
    Bool.false_eq_true, if_false, hm, pure_eq_ok]
  exact ⟨_, rfl⟩

/-- A device that a commit of one rewritten device writes is that one, stamped. -/
theorem changed_setDevice (h : RegistryOk r clock) {d' x : Device} {dr : Draft}
    (hdevices : dr.devices = (r.draft.setDevice d').devices)
    (hx : x ∈ changed (dr.settled o now).devices) : x = (stamp now ⟨d', true⟩).val := by
  obtain ⟨y, hy, rfl⟩ := List.mem_map.mp hx
  obtain ⟨hy, hfresh⟩ := List.mem_filter.mp hy
  rw [settled_devices] at hy
  obtain ⟨z, hz, rfl⟩ := List.mem_map.mp (List.mem_filter.mp hy).1
  rw [hdevices] at hz
  rcases mem_replaceFirst hz with rfl | hz
  · rfl
  · obtain ⟨hold, hz⟩ := mem_keep hz
    obtain ⟨v, f⟩ := z
    obtain rfl : f = false := hold
    rw [stamp_of_ok (h.devices v hz) now] at hfresh
    cases hfresh

theorem foreignData_setFields (fs : DeviceRecordFields) (d : Device) :
    ForeignData (d.setFields fs) ↔ ForeignData d := by cases d <;> rfl

theorem foreignData_stamp (x : Obj Device) : ForeignData (stamp now x).val ↔ ForeignData x.val := by
  have hcause : ForeignData (withoutCauseUnlessQuarantined x).val ↔ ForeignData x.val := by
    unfold withoutCauseUnlessQuarantined
    split
    · exact Iff.rfl
    · exact foreignData_setFields _ _
  rw [stamp, stampDeleted]
  split
  · exact (foreignData_setFields _ _).trans hcause
  · exact hcause

/-- A second record under an id that is in the table is written over the first. -/
theorem leasesWritten_taken {leases : List LeaseRecord} (lease : LeaseRecord)
    (htaken : lease.id ∈ leases.map LeaseRecord.id) :
    (leasesWritten leases (keep leases ++ [⟨lease, true⟩])).length = leases.length := by
  have hchanged : changed (keep leases ++ [⟨lease, true⟩]) = [lease] := by
    have hnone : (keep leases).filter Obj.fresh = [] :=
      List.filter_eq_nil_iff.mpr fun x hx => by simp [(mem_keep hx).1]
    rw [changed, List.filter_append, hnone]
    rfl
  have hremoved : removed LeaseRecord.id leases (keep leases ++ [⟨lease, true⟩]) = [] := by
    refine List.filter_eq_nil_iff.mpr fun id hid => ?_
    rw [vals_append, vals_keep, List.map_append, decide_eq_true_eq, not_not]
    exact List.mem_append_left _ hid
  rw [leasesWritten, hchanged, hremoved, deleteKeys_nil]
  exact length_upsert_of_mem htaken

/-- A grant under a taken id: its commit goes through, and the table lacks one of the two leases. -/
theorem grantsTakenId_spec {s : Store} (h : StoreOk s) (hle : s.clock ≤ now) {c : Call}
    (htaken : c.grantsTakenId s.registry = true) :
    ∃ draft db, s.registry.call o now c = .ok (some draft) ∧
      commitRows s.registry (draft.settled o now) s.database = .ok db ∧
      c.readsBack s.registry = none ∧ ¬ Stored (Registry.commit o now draft) db := by
  cases c with
  | createLease generated input =>
    simp only [Call.grantsTakenId, Bool.and_eq_true, Bool.not_eq_true', Option.any_eq_true,
      Option.isSome_iff_exists, decide_eq_true_eq] at htaken
    obtain ⟨⟨⟨lease, hlease⟩, hfree⟩, d, hd, hready⟩ := htaken
    obtain ⟨hmemLease, hidLease⟩ := Registry.lease_mem hlease
    have htaken : input.leaseId.getD generated ∈ s.registry.leases.map LeaseRecord.id :=
      List.mem_map.mpr ⟨lease, hmemLease, hidLease⟩
    obtain ⟨draft, hcall⟩ := createLease_ready (o := o) hd hfree hready
    have hyields : Yields anyError _ (s.registry.call o now (.createLease generated input)) :=
      createLease_yields generated input
    rw [hcall] at hyields
    obtain ⟨d₀, d', requests, hd₀, -, hm, hforeign, hreq, hdraft⟩ := hyields draft rfl
    obtain rfl : d = d₀ := Option.some.inj (hd.symm.trans hd₀)
    have hrequests := hreq.step h.ok hd hm rfl
    obtain ⟨hmem, hid⟩ := Registry.device_mem hd
    rw [← hid] at hd
    -- but for the lease, the draft is one to store
    have hrest : Storable s.registry
        { draft.settled o now with leases := keep s.registry.leases } := by
      obtain ⟨hfollows, hstay, hknown⟩ := setDevice_devices h.ok.keys hd hm.step
      have hdraftOk : DraftOk s.registry now { draft with leases := keep s.registry.leases } := by
        rw [hdraft]
        exact ⟨hfollows, hstay, fun y hy => .inl (hknown y hy), Follows.keep .., hrequests,
          reordered_keep h.ok.keys⟩
      exact (settled_ok (o := o) h.ok hle hdraftOk).1
    have htables := commitRows_tables h.ok.keys h.stored hrest
    cases hrows : commitRows s.registry (draft.settled o now) s.database with
    | error e =>
      rw [hrows] at htables
      obtain ⟨⟨x, hx, hbad⟩, -⟩ := htables
      rw [changed_setDevice h.ok (by rw [hdraft]) hx, foreignData_stamp] at hbad
      exact absurd (hforeign hbad) (h.stored.devices.not_foreign hmem)
    | ok db =>
      rw [hrows] at htables
      refine ⟨draft, db, hcall, hrows, rfl, fun hstored => ?_⟩
      have hleases : (draft.settled o now).leases =
          keep s.registry.leases ++ [⟨grantedLease now generated input, true⟩] := by rw [hdraft]; rfl
      have hcommitted : (Registry.commit o now draft).leases.length =
          s.registry.leases.length + 1 := by
        change (vals (draft.settled o now).leases).length = _
        rw [hleases, vals_append, vals_keep, List.length_append]
        rfl
      have hwritten := congrArg List.length (htables.2.1.symm.trans hstored.leases)
      rw [List.length_map, List.length_map, hcommitted, hleases,
        leasesWritten_taken (grantedLease now generated input) htaken] at hwritten
      omega
  | _ => cases htaken

/-- A call with fresh ids that grants under no taken id fits. -/
theorem fits_of_committing {c : Call} {draft : Draft} (hids : c.FreshIds r)
    (htaken : c.grantsTakenId r = false) (hcall : r.call o now c = .ok (some draft)) : c.Fits r := by
  cases c with
  | createLease generated input =>
    intro hmem
    have hyields : Yields anyError _ (r.call o now (.createLease generated input)) :=
      createLease_yields generated input
    rw [hcall] at hyields
    obtain ⟨d, d', requests, hd, hfree, hm, -⟩ := hyields draft rfl
    have hready := hm.legal.ready_of_leased
    have hfound : (r.lease (input.leaseId.getD generated)).isSome := by
      obtain ⟨lease, hlease, hid⟩ := List.mem_map.mp hmem
      exact List.find?_isSome.mpr ⟨lease, hlease, by simpa using hid⟩
    simp [Call.grantsTakenId, hfound, hfree, hd, hready] at htaken
  | registerDevice id driverDeviceId spec driverData => exact hids
  | enrollPhysical id input => exact hids
  | createLeaseRequest input => exact hids
  | settleLeaseRequest id outcome =>
    cases outcome with
    | granted grant => exact hids
    | failed failure => trivial
    | cancelled => trivial
  | _ => trivial

end Reads

section Attempts

variable {o : RegistryOptions} {s : Store} {c : Call} {now : Int}

theorem atomic_of_unchanged {e : Option CallError} (hs : Stored s.registry s.database)
    {a : Attempt} (ha : a = ⟨e, s.registry, s.database⟩) :
    (a.threw.isSome → a.registry = s.registry ∧ a.database = s.database) ∧
      (a.threw = none → Stored a.registry a.database) := by
  subst ha
  exact ⟨fun _ => ⟨rfl, rfl⟩, fun _ => hs⟩

theorem attempt_committed {draft : Draft} {db : Database}
    (hcall : s.registry.call o now c = .ok (some draft))
    (hrows : commitRows s.registry (draft.settled o now) s.database = .ok db) :
    s.attempt o c now true =
      ⟨(Registry.commit o now draft).readBack (c.readsBack s.registry),
        Registry.commit o now draft, db⟩ := by
  simp only [Store.attempt, hcall, hrows, if_true]

/-- A call is atomic unless it ends a lease on an expired device or grants under a taken id. -/
theorem attempt_atomic (h : StoreOk s) (hle : s.clock ≤ now) (hids : c.FreshIds s.registry)
    (hexpired : c.endsOnExpired o s.registry now = false) (htaken : c.grantsTakenId s.registry = false) :
    Atomic o s c now := by
  intro writable
  cases hcall : s.registry.call o now c with
  | error e =>
    refine atomic_of_unchanged (e := some (.registry e)) h.stored ?_
    simp only [Store.attempt, hcall]
  | ok od =>
    cases od with
    | none =>
      refine atomic_of_unchanged (e := none) h.stored ?_
      simp only [Store.attempt, hcall]
    | some draft =>
      cases writable with
      | false =>
        refine atomic_of_unchanged (e := some .disk) h.stored ?_
        simp [Store.attempt, hcall]
      | true =>
        have hfits := fits_of_committing hids htaken hcall
        obtain ⟨hyields, -⟩ := commit_yields h ⟨hle, hfits⟩ hcall
        cases hrows : commitRows s.registry (draft.settled o now) s.database with
        | error e =>
          refine atomic_of_unchanged (e := some (.commit e)) h.stored ?_
          simp [Store.attempt, hcall, hrows]
        | ok db =>
          rw [hrows] at hyields
          rw [attempt_committed hcall hrows, call_readBack h.ok hcall hexpired]
          refine ⟨?_, fun _ => hyields⟩
          intro hthrew
          cases hthrew

theorem not_atomic_of_expired (h : StoreOk s) (hle : s.clock ≤ now)
    (hexpired : c.endsOnExpired o s.registry now = true) : ¬ Atomic o s c now := by
  obtain ⟨draft, hcall, hfits, hthrew, hchanged, hne⟩ := endsOnExpired_spec h.ok hexpired
  obtain ⟨hyields, -⟩ := commit_yields h ⟨hle, hfits⟩ hcall
  cases hrows : commitRows s.registry (draft.settled o now) s.database with
  | error e =>
    rw [hrows] at hyields
    obtain ⟨⟨x, hx, -⟩, -⟩ := hyields
    rw [hchanged] at hx
    cases hx
  | ok db =>
    intro hatomic
    have hthrows := (hatomic true).1
    rw [attempt_committed hcall hrows] at hthrows
    exact hne (hthrows hthrew).1

theorem not_atomic_of_taken (h : StoreOk s) (hle : s.clock ≤ now)
    (htaken : c.grantsTakenId s.registry = true) : ¬ Atomic o s c now := by
  obtain ⟨draft, db, hcall, hrows, hreads, hnot⟩ := grantsTakenId_spec (o := o) h hle htaken
  intro hatomic
  have hreturns := (hatomic true).2
  rw [attempt_committed hcall hrows, hreads] at hreturns
  exact hnot (hreturns rfl)

end Attempts

/-- In every store that calls and restarts reach, a call changes the records and the tables together
    or neither, exactly if it does not end a lease on a deleted device whose retention has run out
    and does not grant a free device under the id of an active lease. -/
theorem call_atomic_iff (o : RegistryOptions) (s : Store) (hs : s.Reached o) (c : Call) (now : Int)
    (hle : s.clock ≤ now) (hids : c.FreshIds s.registry) :
    Atomic o s c now ↔
      c.endsOnExpired o s.registry now = false ∧ c.grantsTakenId s.registry = false := by
  have h := hs.ok
  constructor
  · intro hatomic
    refine ⟨?_, ?_⟩
    · rw [← Bool.not_eq_true]
      exact fun hexpired => not_atomic_of_expired h hle hexpired hatomic
    · rw [← Bool.not_eq_true]
      exact fun htaken => not_atomic_of_taken h hle htaken hatomic
  · rintro ⟨hexpired, htaken⟩
    exact attempt_atomic h hle hids hexpired htaken

/-! ### A lease whose device is deleted under it -/

/-- A lease on a device that was moved out of `leased` and deleted, with the lease still there. -/
def deleteUnderLease : List StoreAction :=
  [.call (.registerDevice "dev_1" "drv_1" ⟨.ios, "iPhone 15", "17.0", true, none, none⟩
      (.ios ⟨"type", "name", "runtime", none, some "signature", "udid"⟩)) 1,
    .call (.transitionDevice "dev_1" .ready (some ⟨.ready, "dev_1"⟩)
      { address := some "127.0.0.1" }) 2,
    .call (.createLease "lse_1" ⟨"dev_1", "agent", "owner", 60, 64, none, none, none⟩) 3,
    .call (.transitionDevice "dev_1" .reclaiming none {}) 4,
    .call (.enterQuarantine "dev_1" 5 ⟨.purgeFailed, none, none⟩) 4,
    .call (.deleteQuarantined "dev_1") 5]

theorem deleteUnderLease_reached :
    (run (Store.step shortRetention) (Store.create 0) deleteUnderLease).Reached shortRetention := by
  refine ⟨0, deleteUnderLease, ⟨⟨by decide, ?_⟩, ⟨by decide, trivial⟩, ⟨by decide +kernel, ?_⟩,
    ⟨by decide +kernel, trivial⟩, ⟨by decide +kernel, trivial⟩, ⟨by decide +kernel, trivial⟩,
    trivial⟩, rfl⟩
  · simp [Call.Fits, Store.create, Registry.empty]
  · show "lse_1" ∉ _
    decide +kernel

/-- Within the retention the lease ends and the device is deleted in both. -/
theorem call_atomic_iff_deleteUnderLease :
    Atomic shortRetention (run (Store.step shortRetention) (Store.create 0) deleteUnderLease)
      (.endLeaseAndMarkDeviceMissing "lse_1") 6 := by
  refine (call_atomic_iff shortRetention _ deleteUnderLease_reached
    (.endLeaseAndMarkDeviceMissing "lse_1") 6 (by decide +kernel) trivial).mpr ⟨?_, rfl⟩
  decide +kernel

/-- Past it the same call commits the end of the lease and throws. -/
theorem endLease_throws_after_its_commit :
    ¬ ∀ (o : RegistryOptions) (s : Store) (c : Call) (now : Int), s.Reached o → s.clock ≤ now →
      c.FreshIds s.registry → Atomic o s c now := by
  intro h
  have hatomic := h shortRetention _ (.endLeaseAndMarkDeviceMissing "lse_1") 30
    deleteUnderLease_reached (by decide +kernel) trivial true
  have hthrew : ((run (Store.step shortRetention) (Store.create 0) deleteUnderLease).attempt
      shortRetention (.endLeaseAndMarkDeviceMissing "lse_1") 30 true).threw =
        some (.registry (.unknownDevice "dev_1")) := by decide +kernel
  have hone : (run (Store.step shortRetention) (Store.create 0)
      deleteUnderLease).registry.leases.length = 1 := by decide +kernel
  have hnone : ((run (Store.step shortRetention) (Store.create 0) deleteUnderLease).attempt
      shortRetention (.endLeaseAndMarkDeviceMissing "lse_1") 30 true).registry.leases.length = 0 := by
    decide +kernel
  obtain ⟨hsame, -⟩ := hatomic.1 (by rw [hthrew]; rfl)
  rw [hsame, hone] at hnone
  cases hnone

end Simlock.Core
