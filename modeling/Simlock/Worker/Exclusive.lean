import Simlock.Worker.Sections

/-! Lease exclusivity over whole runs of a worker.

    Every active lease names a device that is `leased`, every `leased` device is named by exactly one
    active lease, and no two leases share a device or an id. Only some operations look at the lease
    table, so the invariant rests on the tables of legal moves and on what each section tests again
    before it writes. One section does not: a failed reclaim of a physical device that is gone writes
    `absent` over whatever the device has become. -/

namespace Simlock.Worker

open Simlock.Lib Simlock.Core

structure Exclusive (r : Registry) : Prop where
  /-- Every active lease names a known device that is leased. -/
  leased : ∀ l ∈ r.leases, ∃ d, r.device l.deviceId = some d ∧ d.state = .leased
  /-- Every leased device is named by exactly one active lease. -/
  named : ∀ d ∈ r.devices, d.state = .leased → ∃ l ∈ r.leases, l.deviceId = d.id ∧
    ∀ l' ∈ r.leases, l'.deviceId = d.id → l' = l
  devices : (r.leases.map LeaseRecord.deviceId).Nodup
  ids : (r.leases.map LeaseRecord.id).Nodup

/-- The invariant, over what the workflows see of a device. -/
structure LeasedOk (r : Registry) : Prop where
  leased : ∀ l ∈ r.leases, ∃ v, r.view l.deviceId = some v ∧ v.state = .leased
  named : ∀ deviceId v, r.view deviceId = some v → v.state = .leased →
    ∃ l ∈ r.leases, l.deviceId = deviceId
  devices : (r.leases.map LeaseRecord.deviceId).Nodup

/-- The absence a failed reclaim commits is of a device that is not leased. -/
def Careful (s : Store) : Action → Prop
  | .section_ (.absentAfterFailure deviceId _) _ => isIn s.registry deviceId .leased = false
  | _ => True

section Steps

variable {r r' : Registry} {o : RegistryOptions} {now clock : Int}

theorem view_eq_some {deviceId : String} {v : DeviceView} :
    r.view deviceId = some v ↔ ∃ d, r.device deviceId = some d ∧ d.state ≠ .deleted ∧
      v = ⟨d.isPhysical, d.state, d.fields.lastLeaseEndedAt.isSome⟩ := by
  rw [Registry.view]
  cases r.device deviceId with
  | none => simp
  | some d =>
    by_cases hd : d.state = .deleted
    · simp [Device.view, Device.viewIn, hd]
    · simp [Device.view, Device.viewIn, hd, eq_comm (b := v)]

/-- Only `reclaiming` and `absent` are legal from `leased`. -/
theorem Legal.of_leased {d : Device} {target : DeviceState} (h : Legal d target)
    (hs : d.state = .leased) : target = .reclaiming ∨ target = .absent := by
  cases d with
  | virtual v =>
    obtain ⟨t, ht, hmem⟩ := h
    have hv : v.state = .leased := by
      cases hv : v.state <;> simp_all [Device.state, VirtualState.toState]
    rw [hv] at hmem
    have ht' := asVirtual_toState ht
    simp only [legalTransitions, List.mem_singleton] at hmem
    rw [← ht', hmem]
    exact .inl rfl
  | physical p =>
    obtain ⟨t, ht, hmem⟩ := h
    have hp : p.state = .leased := by
      cases hp : p.state <;> simp_all [Device.state, PhysicalState.toState]
    rw [hp] at hmem
    have ht' := asPhysical_toState ht
    simp only [legalPhysicalTransitions, List.mem_cons, List.not_mem_nil, or_false] at hmem
    rw [← ht']
    rcases hmem with rfl | rfl
    · exact .inl rfl
    · exact .inr rfl

/-- A legal move to anything but these and `leased` is between states that are not `leased`. -/
theorem Legal.unleased {d : Device} {target : DeviceState} (h : Legal d target)
    (hreclaiming : target ≠ .reclaiming) (habsent : target ≠ .absent) (hleased : target ≠ .leased) :
    d.state = .leased ↔ target = .leased := by
  refine ⟨fun hs => ?_, fun ht => absurd ht hleased⟩
  rcases Legal.of_leased h hs with ht | ht
  · exact absurd ht hreclaiming
  · exact absurd ht habsent

/-- A device without an active lease is not leased. -/
theorem LeasedOk.not_leased (h : LeasedOk r) {d : Device} (hd : r.device d.id = some d)
    (hfree : r.isLeased d.id = false) : d.state ≠ .leased := by
  intro hs
  obtain ⟨l, hl, hid⟩ := h.named d.id ⟨d.isPhysical, d.state, d.fields.lastLeaseEndedAt.isSome⟩
    (view_eq_some.mpr ⟨d, hd, by rw [hs]; simp, rfl⟩) hs
  have hleased : r.isLeased d.id = true := List.any_eq_true.mpr ⟨l, hl, decide_eq_true hid⟩
  rw [hfree] at hleased
  cases hleased

/-- A section that rewrites a device, other than by a grant or an end, leaves it leased or not. -/
theorem Section.leased_iff {w : Section} {d : Device} {state : DeviceState} {s : Store}
    (h : LeasedOk s.registry) (hd : s.registry.device d.id = some d)
    (hdevice : w.call.device = some d.id) (hchecks : w.checks s.registry = true)
    (htyped : w.Typed s.registry) (hcareful : Careful s (.section_ w now))
    (hmoves : w.call.Moves s.registry d state) : d.state = .leased ↔ state = .leased := by
  -- moves to a state that is reached from other states only
  have hmove : ∀ target, Legal d target ∧ state = target → target ≠ .reclaiming →
      target ≠ .absent → target ≠ .leased → (d.state = .leased ↔ state = .leased) := by
    rintro target ⟨hlegal, rfl⟩ hreclaiming habsent hleased
    exact Legal.unleased hlegal hreclaiming habsent hleased
  have hfrom : ∀ source, d.state = source → source ≠ .leased → state ≠ .leased →
      (d.state = .leased ↔ state = .leased) := by
    rintro source rfl hsource hstate
    exact ⟨fun hs => absurd hs hsource, fun hs => absurd hs hstate⟩
  have hisIn : ∀ source, isIn s.registry d.id source = true → d.state = source := by
    intro source hsource
    obtain ⟨d₀, hd₀, hs⟩ := isIn_eq_true.mp hsource
    rw [← Option.some.inj (hd.symm.trans hd₀)] at hs
    exact hs
  cases w with
  | commitReady deviceId driverDeviceId expected ready =>
    exact hmove .ready ⟨hmoves.1, hmoves.2.1⟩ (by simp) (by simp) (by simp)
  | commitShutdown deviceId driverDeviceId =>
    exact hmove .shutdown ⟨hmoves.1, hmoves.2.1⟩ (by simp) (by simp) (by simp)
  | fixStopped deviceId =>
    exact hmove .shutdown ⟨hmoves.1, hmoves.2.1⟩ (by simp) (by simp) (by simp)
  | fixRunning deviceId =>
    exact hmove .ready ⟨hmoves.1, hmoves.2.1⟩ (by simp) (by simp) (by simp)
  | commitDeleted deviceId driverDeviceId =>
    exact hmove .deleted ⟨hmoves.1, hmoves.2.1⟩ (by simp) (by simp) (by simp)
  | deleteSpent deviceId =>
    exact hmove .deleted ⟨hmoves.1, hmoves.2.1⟩ (by simp) (by simp) (by simp)
  | purged deviceId target =>
    rcases htyped with rfl | rfl
    · exact hmove .ready ⟨hmoves.1, hmoves.2.1⟩ (by simp) (by simp) (by simp)
    · exact hmove .shutdown ⟨hmoves.1, hmoves.2.1⟩ (by simp) (by simp) (by simp)
  | recovered deviceId target =>
    rcases htyped with rfl | rfl
    · exact hmove .ready ⟨hmoves.2.1, hmoves.2.2⟩ (by simp) (by simp) (by simp)
    · exact hmove .shutdown ⟨hmoves.2.1, hmoves.2.2⟩ (by simp) (by simp) (by simp)
  | beginReturned deviceId osVersion =>
    cases hdevice
    exact hfrom .absent (hisIn _ hchecks) (by simp) (by rw [hmoves.2.1]; simp)
  | markAbsent deviceId absentReason =>
    cases hdevice
    exact hfrom .ready (hisIn _ hchecks) (by simp) (by rw [hmoves.2.1]; simp)
  | absentAfterFailure deviceId absentReason =>
    cases hdevice
    have hnot : d.state ≠ .leased := by
      intro hs
      have htrue : isIn s.registry d.id .leased = true := isIn_eq_true.mpr ⟨d, hd, hs⟩
      have hfalse : isIn s.registry d.id .leased = false := hcareful
      rw [htrue] at hfalse
      cases hfalse
    exact hfrom d.state rfl hnot (by rw [hmoves.2.1]; simp)
  | recoverInterrupted deviceId =>
    exact hfrom .reclaiming hmoves.1 (by simp) (by rw [hmoves.2]; simp)
  | retireSpent deviceId =>
    exact hfrom .reclaiming hmoves.1 (by simp) (by rw [hmoves.2]; simp)
  | enterQuarantine deviceId nextRetryAt cause =>
    obtain ⟨hfromState, rfl⟩ := hmoves
    rcases hfromState with hs | hs | hs
    · exact hfrom _ hs (by simp) (by simp)
    · exact hfrom _ hs (by simp) (by simp)
    · exact hfrom _ hs (by simp) (by simp)
  | enterFromStalledTransition deviceId findingState nextRetryAt cause =>
    obtain ⟨hfromState, rfl⟩ := hmoves
    rcases hfromState with hs | hs | hs
    · exact hfrom _ hs (by simp) (by simp)
    · exact hfrom _ hs (by simp) (by simp)
    · exact hfrom _ hs (by simp) (by simp)
  | retryFailed deviceId attempts nextRetryAt =>
    exact hfrom .quarantined hmoves.1 (by simp) (by rw [hmoves.2]; simp)
  | stranded deviceId attempts =>
    exact hfrom .quarantined hmoves.1 (by simp) (by rw [hmoves.2]; simp)
  | deleteQuarantined deviceId =>
    exact hfrom .quarantined hmoves.1 (by simp) (by rw [hmoves.2]; simp)
  | fixMissingDevice deviceId =>
    cases hdevice
    obtain ⟨-, hfree, rfl⟩ := hmoves
    exact hfrom d.state rfl (h.not_leased hd hfree) (by simp)
  | reenroll deviceId input =>
    obtain ⟨-, hready | hlegal, rfl⟩ := hmoves
    · exact hfrom .ready hready (by simp) (by simp)
    · exact hmove .ready ⟨hlegal, rfl⟩ (by simp) (by simp) (by simp)
  | unenroll deviceId =>
    exact hmove .deleted ⟨hmoves.2.1, hmoves.2.2⟩ (by simp) (by simp) (by simp)
  | commitReboot deviceId driverDeviceId ready => rw [show state = d.state from hmoves]
  | clearForeignState deviceId => rw [show state = d.state from hmoves]
  | markForeignState deviceId at_ => rw [show state = d.state from hmoves]
  | markForeignProvenance deviceId at_ => rw [show state = d.state from hmoves]
  | markRecoveryAttempt deviceId at_ => rw [show state = d.state from hmoves]
  | clearRecovery deviceId => rw [show state = d.state from hmoves]
  | rewriteReason deviceId absentReason => rw [show state = d.state from hmoves]
  | _ => cases hdevice

/-- A view of a device is in use only if a lease names it, and a change of another view keeps that. -/
theorem LeasedOk.update (h : LeasedOk r) {deviceId : String} {v : Option DeviceView}
    (hview : r'.view = Function.update r.view deviceId v) (hleases : r'.leases = r.leases)
    (hsame : (∃ v₀, r.view deviceId = some v₀ ∧ v₀.state = .leased) ↔
      ∃ v₁, v = some v₁ ∧ v₁.state = .leased) : LeasedOk r' := by
  refine ⟨?_, ?_, hleases ▸ h.devices⟩
  · intro l hl
    rw [hleases] at hl
    obtain ⟨v₀, hv₀, hs⟩ := h.leased l hl
    rw [hview]
    by_cases hid : l.deviceId = deviceId
    · rw [hid, Function.update_self]
      exact hsame.mp ⟨v₀, hid ▸ hv₀, hs⟩
    · rw [Function.update_of_ne hid]
      exact ⟨v₀, hv₀, hs⟩
  · intro id v₁ hv₁ hs
    rw [hleases]
    rw [hview] at hv₁
    by_cases hid : id = deviceId
    · rw [hid, Function.update_self] at hv₁
      obtain ⟨v₀, hv₀, hs₀⟩ := hsame.mpr ⟨v₁, hv₁, hs⟩
      rw [hid]
      exact h.named deviceId v₀ hv₀ hs₀
    · rw [Function.update_of_ne hid] at hv₁
      exact h.named id v₁ hv₁ hs

theorem LeasedOk.same (h : LeasedOk r) (hview : r'.view = r.view)
    (hdevices : r'.leases.map LeaseRecord.deviceId = r.leases.map LeaseRecord.deviceId) :
    LeasedOk r' := by
  have hmem : ∀ id, (∃ l ∈ r'.leases, l.deviceId = id) ↔ ∃ l ∈ r.leases, l.deviceId = id := by
    intro id
    simp only [← List.mem_map, hdevices]
  refine ⟨?_, ?_, hdevices ▸ h.devices⟩
  · intro l hl
    obtain ⟨l₀, hl₀, hid⟩ := (hmem l.deviceId).mp ⟨l, hl, rfl⟩
    rw [hview, ← hid]
    exact h.leased l₀ hl₀
  · intro id v hv hs
    rw [hview] at hv
    exact (hmem id).mpr (h.named id v hv hs)

theorem viewIn_leased {d : Device} {state : DeviceState} :
    (∃ v, d.viewIn state = some v ∧ v.state = .leased) ↔ state = .leased := by
  constructor
  · rintro ⟨v, hv, hs⟩
    rw [Device.viewIn] at hv
    split at hv
    · cases hv
    · cases hv
      exact hs
  · rintro rfl
    exact ⟨_, rfl, rfl⟩

theorem view_leased {deviceId : String} {d : Device} (hd : r.device deviceId = some d) :
    (∃ v, r.view deviceId = some v ∧ v.state = .leased) ↔ d.state = .leased := by
  rw [Registry.view, hd]
  exact viewIn_leased

/-- A grant adds a lease on a device that had none, and the device is leased. -/
theorem LeasedOk.grant (h : LeasedOk r) (lease : LeaseRecord) {d : Device}
    (hfree : r.isLeased lease.deviceId = false)
    (hview : r'.view = Function.update r.view lease.deviceId (d.viewIn .leased))
    (hleases : r'.leases = r.leases ++ [lease]) : LeasedOk r' := by
  have hnone : ∀ l ∈ r.leases, l.deviceId ≠ lease.deviceId := by
    intro l hl hid
    have : r.isLeased lease.deviceId = true := List.any_eq_true.mpr ⟨l, hl, decide_eq_true hid⟩
    rw [hfree] at this
    cases this
  refine ⟨?_, ?_, ?_⟩
  · intro l hl
    rw [hleases, List.mem_append, List.mem_singleton] at hl
    rcases hl with hl | rfl
    · rw [hview, Function.update_of_ne (hnone l hl)]
      exact h.leased l hl
    · rw [hview, Function.update_self]
      exact viewIn_leased.mpr rfl
  · intro id v hv hs
    rw [hleases]
    by_cases hid : id = lease.deviceId
    · exact ⟨lease, by simp, hid.symm⟩
    · rw [hview, Function.update_of_ne hid] at hv
      obtain ⟨l, hl, hl'⟩ := h.named id v hv hs
      exact ⟨l, List.mem_append_left _ hl, hl'⟩
  · rw [hleases, List.map_append, List.nodup_append]
    refine ⟨h.devices, List.nodup_singleton _, ?_⟩
    intro a ha b hb hab
    obtain ⟨l, hl, rfl⟩ := List.mem_map.mp ha
    rw [List.map_singleton, List.mem_singleton] at hb
    exact hnone l hl (hab.trans hb)

/-- An end takes the lease out, and its device is no longer leased. -/
theorem LeasedOk.finish (h : LeasedOk r) (hids : (r.leases.map LeaseRecord.id).Nodup)
    {lease : LeaseRecord} {v : Option DeviceView} (hlease : lease ∈ r.leases)
    (hv : ∀ v', v = some v' → v'.state ≠ .leased)
    (hview : r'.view = Function.update r.view lease.deviceId v)
    (hleases : r'.leases = r.leases.filter (fun l => l.id ≠ lease.id)) : LeasedOk r' := by
  have hmem : ∀ l, l ∈ r'.leases ↔ l ∈ r.leases ∧ l.id ≠ lease.id := by
    intro l
    rw [hleases, List.mem_filter, decide_eq_true_eq]
  refine ⟨?_, ?_, ?_⟩
  · intro l hl
    obtain ⟨hl, hne⟩ := (hmem l).mp hl
    have hother : l.deviceId ≠ lease.deviceId := by
      intro hid
      exact hne (congrArg LeaseRecord.id (List.inj_on_of_nodup_map h.devices hl hlease hid))
    rw [hview, Function.update_of_ne hother]
    exact h.leased l hl
  · intro id v' hv' hs
    rw [hview] at hv'
    by_cases hid : id = lease.deviceId
    · rw [hid, Function.update_self] at hv'
      exact absurd hs (hv v' hv')
    · rw [Function.update_of_ne hid] at hv'
      obtain ⟨l, hl, rfl⟩ := h.named id v' hv' hs
      refine ⟨l, (hmem l).mpr ⟨hl, fun he => hid ?_⟩, rfl⟩
      exact congrArg LeaseRecord.deviceId (List.inj_on_of_nodup_map hids hl hlease he)
  · rw [hleases]
    exact (List.filter_sublist.map LeaseRecord.deviceId).nodup h.devices

theorem LeasedOk.empty : LeasedOk .empty := by
  refine ⟨?_, ?_, List.nodup_nil⟩
  · intro l hl
    cases hl
  · intro id v hv
    cases hv

/-- Every section of a careful run keeps the invariant. -/
theorem LeasedOk.section_ {s : Store} (h : LeasedOk s.registry) (hok : StoreOk s) {w : Section}
    (hadmits : Admits s (.section_ w now)) (hcareful : Careful s (.section_ w now))
    (hchecks : w.checks s.registry = true)
    (happly : s.registry.apply o now w.call = some r') : LeasedOk r' := by
  have hfresh : ∀ id physical, w.call.adds = some (id, physical) →
      id ∉ s.registry.devices.map Device.id := by
    intro id physical hadds
    have hfits := hadmits.2.1
    cases w with
    | register id' driverDeviceId spec driverData => cases hadds; exact hfits
    | enroll id' input => cases hadds; exact hfits
    | _ => cases hadds
  obtain ⟨heffect, -⟩ := apply_effect hok.ok.devicesOk hfresh happly
  cases heffect with
  | records hc hview hleases => exact h.same hview (by rw [hleases])
  | @added id physical hc hview hleases =>
    refine h.update hview hleases ?_
    have hnone : s.registry.view id = none := by
      rw [Registry.view, Registry.device_none.mpr (hfresh id physical hc)]
      rfl
    constructor
    · rintro ⟨v₀, hv₀, -⟩
      rw [hnone] at hv₀
      cases hv₀
    · rintro ⟨v₁, hv₁, hs⟩
      cases hv₁
      cases physical <;> simp at hs
  | moved hc hd hmoves hview hleases =>
    refine h.update hview hleases ?_
    rw [view_leased hd, viewIn_leased]
    exact Section.leased_iff h hd hc hchecks hadmits.2.2 hcareful hmoves
  | @granted generated input d hc hd hfree hready hview hleases =>
    exact h.grant (grantedLease now generated input) hfree hview hleases
  | @ended leaseId lease d v hc hl hd hv hview hleases =>
    obtain ⟨hmem, hid⟩ := Registry.lease_mem hl
    rw [← hid] at hleases
    exact h.finish hok.ok.keys.leases hmem (fun v' hv' => (hv v' hv').2.1) hview hleases
  | @renewed leaseId ttlDeadline ttlMs lease hc hl hview hleases =>
    refine h.same hview ?_
    rw [hleases, vals, List.map_map]
    refine (map_replaceFirst LeaseRecord.deviceId ?_).trans (by simp [keep])
    intro x hx hp
    obtain ⟨hmem, hid⟩ := Registry.lease_mem hl
    have hsame : x.val = lease := List.inj_on_of_nodup_map hok.ok.keys.leases (mem_keep hx).2 hmem
      ((of_decide_eq_true hp).trans hid.symm)
    rw [hsame]

theorem LeasedOk.step {s : Store} (h : LeasedOk s.registry) (hok : StoreOk s) {a : Action}
    (hadmits : Admits s a) (hcareful : Careful s a) : LeasedOk (step o s a).registry := by
  rcases step_cases (o := o) hok hadmits with hsame | ⟨w, now, rfl, hchecks, happly⟩ | ⟨now, rfl, hopened⟩
  · rw [hsame]
    exact h
  · exact h.section_ hok hadmits hcareful hchecks happly
  · exact h.same (Opened.view hok.ok hopened) (by rw [hopened.leases])

theorem LeasedOk.exclusive (h : LeasedOk r) (hok : RegistryOk r clock) : Exclusive r := by
  refine ⟨?_, ?_, h.devices, hok.keys.leases⟩
  · intro l hl
    obtain ⟨v, hv, hs⟩ := h.leased l hl
    obtain ⟨d, hd, -, rfl⟩ := view_eq_some.mp hv
    exact ⟨d, hd, hs⟩
  · intro d hd hs
    have hfound := Registry.device_of_mem hok.keys.devices hd
    obtain ⟨v, hv, hvs⟩ := (view_leased hfound).mpr hs
    obtain ⟨l, hl, hid⟩ := h.named d.id v hv hvs
    refine ⟨l, hl, hid, fun l' hl' hid' => ?_⟩
    exact List.inj_on_of_nodup_map h.devices hl' hl (hid'.trans hid.symm)

end Steps

/-- In every run of sections and restarts in which a failed reclaim never writes `absent` over a
    leased device, leases and leased devices stand one to one. -/
theorem leases_are_exclusive (o : RegistryOptions) (start : Int) (acts : List Action)
    (hrun : AllSteps (step o) (fun s a => Admits s a ∧ Careful s a) (Store.create start) acts) :
    Exclusive (run (step o) (Store.create start) acts).registry := by
  have hinv := run_invariant_of_allSteps (I := fun s => StoreOk s ∧ LeasedOk s.registry)
    (fun s a hok h => ⟨step_ok h.1 hok.1, h.2.step h.1 hok.1 hok.2⟩) acts (Store.create start)
    ⟨create_ok start, LeasedOk.empty⟩ hrun
  exact hinv.2.exclusive hinv.1.ok

/-! ### A reclaim that fails after its device was leased again -/

def phone : Registry.PhysicalEnrollmentInput := ⟨.ios, "udid_1", "iPhone 15", "17.0", .phone, []⟩

def leaseInput (deviceId : String) : Registry.CreateLeaseInput :=
  ⟨deviceId, "agent", "owner", 60, 100, none, none, none⟩

/-- A phone is released, its reclaim stalls and is quarantined, an admin enrols the phone again, and
    it is leased again. -/
def leaseAgain : List Action :=
  [.section_ (.enroll "dev_1" phone) 1,
    .section_ (.grant "lse_1" (leaseInput "dev_1")) 2,
    .section_ (.beginRelease "lse_1" false) 3,
    .section_ (.enterFromStalledTransition "dev_1" .reclaiming 5 ⟨.stalled, some .reclaiming, none⟩) 4,
    .section_ (.reenroll "dev_1" phone) 5,
    .section_ (.grant "lse_2" (leaseInput "dev_1")) 7]

theorem leaseAgain_admitted :
    AllSteps (step shortRetention) (fun s a => Admits s a ∧ Careful s a) (Store.create 0)
      leaseAgain := by
  refine ⟨⟨⟨by decide, ?_, trivial⟩, trivial⟩, ⟨⟨by decide +kernel, ?_, trivial⟩, trivial⟩,
    ⟨⟨by decide +kernel, trivial, trivial⟩, trivial⟩,
    ⟨⟨by decide +kernel, trivial, trivial⟩, trivial⟩,
    ⟨⟨by decide +kernel, trivial, trivial⟩, trivial⟩,
    ⟨⟨by decide +kernel, ?_, trivial⟩, trivial⟩, trivial⟩
  · show "dev_1" ∉ _
    decide +kernel
  · show "lse_1" ∉ _
    decide +kernel
  · show "lse_2" ∉ _
    decide +kernel

theorem leases_are_exclusive_leaseAgain :
    (run (step shortRetention) (Store.create 0) leaseAgain).registry.leases.map
      (fun l => (l.id, l.deviceId)) = [("lse_2", "dev_1")] ∧
    Exclusive (run (step shortRetention) (Store.create 0) leaseAgain).registry :=
  ⟨by decide +kernel, leases_are_exclusive shortRetention 0 leaseAgain leaseAgain_admitted⟩

/-- The first reclaim then fails, finds the phone gone, and writes `absent` under the second lease. -/
theorem failed_reclaim_takes_a_leased_device :
    ¬ ∀ (o : RegistryOptions) (start : Int) (acts : List Action),
      AllSteps (step o) Admits (Store.create start) acts →
      Exclusive (run (step o) (Store.create start) acts).registry := by
  intro h
  have hadmitted : AllSteps (step shortRetention) Admits (Store.create 0)
      (leaseAgain ++ [.section_ (.absentAfterFailure "dev_1" .notPresent) 8]) := by
    refine (leaseAgain_admitted.mono fun _ _ h => h.1).append ⟨⟨?_, trivial, trivial⟩, trivial⟩
    decide +kernel
  obtain ⟨d, hd, hs⟩ := (h shortRetention 0 _ hadmitted).leased
    ⟨"lse_2", "dev_1", "agent", "owner", 7, 60, 100, 7, false⟩ (by decide +kernel)
  have habsent : ((run (step shortRetention) (Store.create 0)
      (leaseAgain ++ [.section_ (.absentAfterFailure "dev_1" .notPresent) 8])).registry.device
      "dev_1").map Device.state = some .absent := by decide +kernel
  rw [show (LeaseRecord.mk "lse_2" "dev_1" "agent" "owner" 7 60 100 7 false).deviceId = "dev_1" from
    rfl] at hd
  rw [hd, Option.map_some, hs] at habsent
  cases habsent

end Simlock.Worker
