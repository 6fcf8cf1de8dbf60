import Simlock.Leasing.HealthMonitor
import Simlock.Lib.Indexed

/-! Why the health monitor ends a lease.

    `MonitorOk` holds in every run: a recovery for every id in flight and one only, never more than
    the configured number, and counters that never count more misses than there were in a row.
    `CountsOk` bounds what a record and a recovery count by the attempts of the log; it holds as long
    as the copy a tick works on still agrees with the registry where the monitor acts on it
    (`upToDate`). From both, every ending has its cause:

        device missing       counter ≤ misses in a row
        attempts exhausted   record, or the attempt of the recovery ≤ attempts since seen well -/

namespace Simlock.Leasing

open Simlock.Lib Simlock.Core

/-- The device a tick is busy with. -/
def TickPoint.device : TickPoint → Option VirtualDevice
  | .clearing device _ _ | .releasing device _ _ | .recovering device _ => some device
  | _ => none

/-- Flights, counters and the give-up of a missing device. -/
structure MonitorOk (c : HealthConfig) (s : HealthMonitor) : Prop where
  devices : DevicesOk s.registry
  flying : s.inFlight = s.recoveries.map (fun x => x.device.id)
  once : s.inFlight.Nodup
  few : s.inFlight.length ≤ c.maxConcurrentRecoveries
  missing : ∀ id n, s.counters id = some n → n.missing ≤ missesInARow id s.log
  apart : ∀ t device, s.tick = some t → t.point.device = some device → device.id ∉ s.inFlight
  lost : ∀ t device lease reason, s.tick = some t → t.point = .releasing device lease reason →
    reason = .provenanceDrift ∨
      reason = .deviceMissing ∧ c.stableObservations ≤ missesInARow device.id s.log

/-- The monitor is about to take the recovery marks off the record of a device. -/
def HealthMonitor.Clears (s : HealthMonitor) (deviceId : String) : Prop :=
  (∃ t device lease drift, s.tick = some t ∧ t.point = .clearing device lease drift ∧
    device.id = deviceId) ∨ ∃ x ∈ s.recoveries, x.device.id = deviceId ∧ x.point = .clearing

/-- What a recovery counts was recorded. -/
def Recovery.Counted (c : HealthConfig) (log : List Happening) (x : Recovery) : Prop :=
  match x.point with
  | .backoff attempt | .rebooting attempt => attempt ≤ attemptsSince x.device.id log
  | .releasing true => c.maxRecoveryAttempts ≤ attemptsSince x.device.id log
  | _ => True

/-- What the records and the recoveries count was recorded since the device was last seen well. -/
structure CountsOk (c : HealthConfig) (s : HealthMonitor) : Prop where
  records : ∀ d ∈ s.registry.devices,
    s.Clears d.id ∨ d.recoveryCount ≤ attemptsSince d.id s.log
  recoveries : ∀ x ∈ s.recoveries, x.Counted c s.log

namespace HealthMonitor

/-- The lease of this id, if there is one, is on the device the monitor gives up. -/
def namesLease (s : HealthMonitor) (device : VirtualDevice) (lease : LeaseRecord) : Bool :=
  (s.registry.lease lease.id).all fun l => l.deviceId = device.id

/-- The record of the device still counts every attempt. -/
def stillExhausted (c : HealthConfig) (s : HealthMonitor) (device : VirtualDevice) : Bool :=
  s.registry.devices.any fun d => d.id = device.id && c.maxRecoveryAttempts ≤ d.recoveryCount

/-- Where the monitor acts on its copy of a device or a lease, the copy still agrees with the
    registry: the record of a device that is seen running has no attempt where the copy has no mark,
    the record of a device given up without a reboot still counts every attempt, a lease that is ended
    is on the device that was given up, and the disk takes a write that clears the marks. -/
def upToDate (c : HealthConfig) (s : HealthMonitor) : HealthAct → Bool
  | .turn =>
    match s.tick with
    | none => true
    | some t =>
      match t.point, t.leased with
      | .looking, device :: _ =>
        match s.look t device with
        | .saw _ observed =>
          sightOf observed ≠ .running || isMarked device ||
            s.registry.devices.all fun d => d.id ≠ device.id || d.fields.recoveryAttempts.isNone
        | _ => true
      | _, _ => true
  | .tickClear _ written => written
  | .tickRelease .. =>
    match s.tick with
    | none => true
    | some t =>
      match t.point with
      | .releasing device lease .deviceMissing => s.namesLease device lease
      | _ => true
  | .recovery i a =>
    match s.recoveries[i]?, a with
    | some _, .clear _ written => written
    | some x, .release .. =>
      match x.point with
      | .releasing rebooted => (s.registry.lease x.lease.id).isNone ||
          s.namesLease x.device x.lease && (rebooted || s.stillExhausted c x.device)
      | _ => true
    | _, _ => true
  | _ => true

end HealthMonitor

/-! ### The log -/

section Log

variable {id deviceId : String} {older : List Happening}

theorem missesInARow_seen (sight : Sight) : missesInARow id (.seen deviceId sight :: older) =
    if deviceId = id then
      match sight with
      | .missing => missesInARow id older + 1
      | .transitioning => missesInARow id older
      | .running | .stopped => 0
    else missesInARow id older := by
  cases sight <;> rfl

variable (older) in
theorem attemptsSince_seen {sight : Sight} (h : ¬ (deviceId = id ∧ sight = .running)) :
    attemptsSince id (.seen deviceId sight :: older) = attemptsSince id older := if_neg h

variable (id) (deviceId) (older) in
theorem attemptsSince_le_attempted :
    attemptsSince id older ≤ attemptsSince id (.attempted deviceId :: older) := by
  rw [attemptsSince]
  split
  · exact Nat.le_succ _
  · exact Nat.le_refl _

/-- The attempts of the records a monitor starts with are in its log. -/
theorem le_attemptsSince_start {devices : List Device} {d : Device} (h : d ∈ devices) :
    d.recoveryCount ≤ attemptsSince d.id
      (devices.flatMap fun d => List.replicate d.recoveryCount.toNat (.attempted d.id)) := by
  have hfront : ∀ (n : Nat) (x : String) (log : List Happening),
      attemptsSince d.id (List.replicate n (.attempted x) ++ log) =
        (if x = d.id then n else 0) + attemptsSince d.id log := by
    intro n x log
    induction n with
    | zero => simp
    | succ n ih =>
      rw [List.replicate_succ, List.cons_append, attemptsSince, ih]
      split <;> omega
  induction devices with
  | nil => cases h
  | cons x devices ih =>
    rw [List.flatMap_cons, hfront]
    rcases List.mem_cons.mp h with rfl | h
    · rw [if_pos rfl]
      omega
    · have := ih h
      omega

end Log

/-! ### What every run keeps -/

section Monitor

variable {c : HealthConfig} {o : RegistryOptions} {s : HealthMonitor}

open HealthMonitor

theorem setCounters_counters (deviceId id : String) (n : Option CrashCounters) :
    (s.setCounters deviceId n).counters id = if id = deviceId then n else s.counters id :=
  Function.update_apply ..

namespace MonitorOk

theorem start {r : Registry} (h : DevicesOk r) : MonitorOk c (.start r) where
  devices := h
  flying := rfl
  once := List.nodup_nil
  few := Nat.zero_le _
  missing _ _ hn := by cases hn
  apart _ _ ht := by cases ht
  lost _ _ _ _ ht := by cases ht

theorem withTick (h : MonitorOk c s) {tick : Option HealthTick}
    (hapart : ∀ t device, tick = some t → t.point.device = some device → device.id ∉ s.inFlight)
    (hlost : ∀ t device lease reason, tick = some t → t.point = .releasing device lease reason →
      reason = .provenanceDrift ∨
        reason = .deviceMissing ∧ c.stableObservations ≤ missesInARow device.id s.log) :
    MonitorOk c { s with tick := tick } :=
  ⟨h.devices, h.flying, h.once, h.few, h.missing, hapart, hlost⟩

/-- A tick that is busy with no device. -/
theorem idle (h : MonitorOk c s) {t : HealthTick} (ht : t.point.device = none) :
    MonitorOk c { s with tick := some t } := by
  refine h.withTick ?_ ?_
  · rintro _ device ⟨⟩ hdevice
    rw [ht] at hdevice
    cases hdevice
  · rintro _ device lease reason ⟨⟩ hpoint
    rw [hpoint] at ht
    cases ht

theorem withRegistry (h : MonitorOk c s) {r : Registry} (hr : DevicesOk r) :
    MonitorOk c { s with registry := r } :=
  ⟨hr, h.flying, h.once, h.few, h.missing, h.apart, h.lost⟩

theorem dropCounters (h : MonitorOk c s) (deviceId : String) :
    MonitorOk c (s.setCounters deviceId none) := by
  refine ⟨h.devices, h.flying, h.once, h.few, fun id n hn => ?_, h.apart, h.lost⟩
  rw [setCounters_counters] at hn
  split at hn
  · cases hn
  · exact h.missing id n hn

/-- What happens besides a sight leaves the misses in a row. -/
theorem happened (h : MonitorOk c s) {x : Happening}
    (hx : ∀ id, missesInARow id (x :: s.log) = missesInARow id s.log) :
    MonitorOk c (s.happened x) := by
  refine ⟨h.devices, h.flying, h.once, h.few, fun id n hn => ?_, h.apart,
    fun t device lease reason ht hpoint => ?_⟩
  · exact Nat.le_trans (h.missing id n hn) (Nat.le_of_eq (hx id).symm)
  · refine (h.lost t device lease reason ht hpoint).imp_right fun ⟨hreason, hstable⟩ => ?_
    exact ⟨hreason, Nat.le_trans hstable (Nat.le_of_eq (hx device.id).symm)⟩

theorem setRecovery (h : MonitorOk c s) {i : Nat} {x : Recovery} (hx : s.recoveries[i]? = some x)
    (point : RecoveryPoint) : MonitorOk c (s.setRecovery i x point) := by
  refine ⟨h.devices, h.flying.trans (List.ext_getElem? fun j => ?_), h.once, h.few, h.missing,
    h.apart, h.lost⟩
  rw [List.getElem?_map, List.getElem?_map]
  have hsame : (fun y : Recovery => y.device.id) { x with point := point } = x.device.id := rfl
  exact (map_getElem?_set_same _ hx hsame j).symm

theorem endRecovery (h : MonitorOk c s) {i : Nat} {x : Recovery} (hx : s.recoveries[i]? = some x) :
    MonitorOk c (s.endRecovery i x) := by
  refine ⟨h.devices, ?_, h.once.filter _, Nat.le_trans (List.length_filter_le _ _) h.few, h.missing,
    fun t device ht hdevice hin => ?_, h.lost⟩
  · have hmap := map_eraseIdx_of_nodup (h.flying ▸ h.once) hx
    exact (congrArg _ h.flying).trans hmap.symm
  · exact h.apart t device ht hdevice (List.mem_of_mem_filter hin)

/-- A recovery is the only one of its device. -/
theorem same (h : MonitorOk c s) {x y : Recovery} (hx : x ∈ s.recoveries) (hy : y ∈ s.recoveries)
    (hid : x.device.id = y.device.id) : x = y :=
  List.inj_on_of_nodup_map (h.flying ▸ h.once) hx hy hid

theorem mem_inFlight (h : MonitorOk c s) {x : Recovery} (hx : x ∈ s.recoveries) :
    x.device.id ∈ s.inFlight := by
  rw [h.flying]
  exact List.mem_map_of_mem hx

end MonitorOk

/-! ### The tick -/

theorem look_eq_saw {t : HealthTick} {device : VirtualDevice} {lease : LeaseRecord}
    {observed : Option ObservedDevice} (h : s.look t device = .saw lease observed) :
    device.id ∉ s.inFlight := by
  intro hin
  rw [look, if_pos hin] at h
  cases h

theorem afterClear_device {device d : VirtualDevice} {lease : LeaseRecord}
    {drift : Option ProvenanceDrift} (h : (afterClear device lease drift).device = some d) :
    d = device := by
  rw [afterClear] at h
  split at h <;> cases h
  rfl

theorem afterClear_releasing {device d : VirtualDevice} {lease l : LeaseRecord}
    {drift : Option ProvenanceDrift} {reason : GiveUpReason}
    (h : afterClear device lease drift = .releasing d l reason) : reason = .provenanceDrift := by
  rw [afterClear] at h
  split at h <;> cases h
  rfl

theorem classified_device {device d : VirtualDevice} {lease : LeaseRecord}
    {observed : Option ObservedDevice} {counters : CrashCounters}
    (h : (classified c device lease observed counters).device = some d) : d = device := by
  unfold classified at h
  split at h
  · split at h <;> cases h
    rfl
  · dsimp only at h
    split at h
    · cases h
      rfl
    · exact afterClear_device h
  · cases h
  · split at h <;> cases h
    rfl

/-- The marks of a device that is seen running are taken off. -/
theorem classified_marked {device : VirtualDevice} {lease : LeaseRecord}
    {observed : Option ObservedDevice} {counters : CrashCounters}
    (hrunning : sightOf observed = .running) (hmarked : isMarked device = true) :
    classified c device lease observed counters =
      .clearing device lease ((observed.bind ObservedDevice.mark).bind provenanceDrift) := by
  simp only [classified, hrunning, hmarked, if_true]

theorem classified_releasing {device d : VirtualDevice} {lease l : LeaseRecord}
    {observed : Option ObservedDevice} {counters : CrashCounters} {reason : GiveUpReason}
    (h : classified c device lease observed counters = .releasing d l reason) :
    reason = .provenanceDrift ∨
      reason = .deviceMissing ∧ c.stableObservations ≤ counters.missing := by
  unfold classified at h
  split at h
  · split at h
    · rename_i hstable
      cases h
      exact .inr ⟨rfl, hstable⟩
    · cases h
  · dsimp only at h
    split at h
    · cases h
    · exact .inl (afterClear_releasing h)
  · cases h
  · split at h <;> cases h

/-- A counter after a sight counts no more misses than there are in a row with it. -/
theorem CrashCounters.after_missing_le {counters : CrashCounters} {deviceId : String}
    {log : List Happening} (h : counters.missing ≤ missesInARow deviceId log) (sight : Sight) :
    (counters.after sight).missing ≤ missesInARow deviceId (.seen deviceId sight :: log) := by
  rw [missesInARow_seen, if_pos rfl]
  cases sight with
  | missing => exact Nat.succ_le_succ h
  | running => exact Nat.zero_le _
  | transitioning => exact h
  | stopped => exact Nat.zero_le _

theorem afterPoll_device (platforms : List Platform) : (afterPoll platforms).device = none := by
  unfold afterPoll
  split <;> rfl

theorem MonitorOk.startTick (h : MonitorOk c s) : MonitorOk c s.startTick := by
  unfold HealthMonitor.startTick
  split
  · exact h
  · rename_i hnone
    refine ⟨h.devices, h.flying, h.once, h.few, fun id n hn => ?_, ?_, ?_⟩
    · dsimp only at hn
      split at hn
      · exact h.missing id n hn
      · cases hn
    · rintro _ device ⟨⟩ hdevice
      rw [afterPoll_device] at hdevice
      cases hdevice
    · rintro _ device lease reason ⟨⟩ hpoint
      have hdevice := afterPoll_device ((leasedDevices s.registry).map (·.spec.platform)).eraseDups
      dsimp only at hpoint
      rw [hpoint] at hdevice
      cases hdevice

theorem MonitorOk.listed (h : MonitorOk c s) (devices : Option (List ObservedDevice)) :
    MonitorOk c (s.listed devices) := by
  unfold HealthMonitor.listed
  split
  · split
    · exact h.idle (afterPoll_device _)
    · exact h
  · exact h

theorem MonitorOk.saw (h : MonitorOk c s) {t : HealthTick} {device : VirtualDevice}
    (hfree : device.id ∉ s.inFlight) (lease : LeaseRecord) (observed : Option ObservedDevice) :
    MonitorOk c (((s.setCounters device.id
      (some (((s.counters device.id).getD ⟨0, 0⟩).after (sightOf observed)))).happened
        (.seen device.id (sightOf observed))).setPoint t
          (classified c device lease observed
            (((s.counters device.id).getD ⟨0, 0⟩).after (sightOf observed)))) := by
  have hold : ((s.counters device.id).getD ⟨0, 0⟩).missing ≤ missesInARow device.id s.log := by
    cases hn : s.counters device.id with
    | none => exact Nat.zero_le _
    | some n => exact h.missing device.id n hn
  have hnew := CrashCounters.after_missing_le hold (sightOf observed)
  refine ⟨h.devices, h.flying, h.once, h.few, fun id n hn => ?_, ?_, ?_⟩
  · have hn := (setCounters_counters (s := s) ..).symm.trans hn
    split at hn
    · rename_i hid
      cases hn
      exact hid ▸ hnew
    · rename_i hid
      refine Nat.le_trans (h.missing id n hn) (Nat.le_of_eq ?_)
      exact ((missesInARow_seen _).trans (if_neg (Ne.symm hid))).symm
  · rintro _ d ⟨⟩ hdevice
    exact classified_device hdevice ▸ hfree
  · rintro _ d l reason ⟨⟩ hpoint
    dsimp only at hpoint
    obtain rfl : d = device := classified_device (congrArg TickPoint.device hpoint)
    exact (classified_releasing hpoint).imp_right fun ⟨hreason, hstable⟩ =>
      ⟨hreason, Nat.le_trans hstable hnew⟩

theorem MonitorOk.turn (h : MonitorOk c s) : MonitorOk c (s.turn c) := by
  unfold HealthMonitor.turn
  split
  · exact h
  · rename_i t ht
    split
    · exact h.withTick (fun _ _ hnone => by cases hnone) (fun _ _ _ _ hnone => by cases hnone)
    · rename_i device rest hpoint hleased
      dsimp only
      split
      · exact h.idle rfl
      · exact h.idle rfl
      · exact (h.dropCounters device.id).idle rfl
      · rename_i lease observed hlook
        exact h.saw (look_eq_saw hlook) lease observed
    · exact h

theorem MonitorOk.dispatch (h : MonitorOk c s) : MonitorOk c (s.dispatch c) := by
  unfold HealthMonitor.dispatch
  split
  · exact h
  · rename_i t ht
    split
    · rename_i device lease hpoint
      have hfree : device.id ∉ s.inFlight := h.apart t device ht (by rw [hpoint]; rfl)
      split
      · exact h.idle rfl
      · rename_i hroom
        simp only [Bool.or_eq_true, decide_eq_true_eq, not_or, Nat.not_le] at hroom
        dsimp only
        refine ⟨h.devices, ?_, ?_, ?_, h.missing, ?_, ?_⟩
        · rw [List.map_append, ← h.flying]
          rfl
        · exact List.nodup_append.mpr ⟨h.once, List.nodup_singleton _, by
            rintro a ha b hb rfl
            rw [List.mem_singleton] at hb
            exact hfree (hb ▸ ha)⟩
        · rw [List.length_append]
          exact hroom.2
        · rintro _ d ⟨⟩ hnone
          cases hnone
        · rintro _ d l reason ⟨⟩ hnone
          cases hnone
    · exact h

/-! ### The gate and the recoveries -/

/-- What the registry is after `clearRecovery`. -/
theorem apply_of_cleared {deviceId : String} {now : Int} {written : Bool} {r : Registry}
    (h : s.cleared o deviceId now written = some r) :
    s.registry.apply o now (.clearRecovery deviceId) = some r := by
  unfold cleared at h
  split at h
  · cases h
  · rename_i hcall
    exact apply_eq_some.mpr (.inl ⟨hcall, (Option.some.inj h).symm⟩)
  · rename_i draft hcall
    split at h
    · exact apply_eq_some.mpr (.inr ⟨draft, hcall, (Option.some.inj h).symm⟩)
    · cases h

/-- What the release of a give-up does: nothing, or it ends the lease it finds under the id. -/
theorem endLease_cases (leaseId : String) (reason : GiveUpReason) (now : Int)
    (deferReclaim written : Bool) :
    s.endLease o leaseId reason now deferReclaim written = s ∨
      ∃ lease r, s.registry.lease leaseId = some lease ∧
        s.registry.apply o now (.beginRelease leaseId deferReclaim) = some r ∧
        s.endLease o leaseId reason now deferReclaim written =
          { s.happened (.ended lease.deviceId leaseId reason) with registry := r } := by
  unfold endLease
  split
  · exact .inl rfl
  · rename_i lease hlease
    split
    · exact .inl rfl
    · rename_i r hr
      split
      · exact .inr ⟨lease, r, hlease, hr, rfl⟩
      · exact .inl rfl

theorem endLease_recoveries (leaseId : String) (reason : GiveUpReason) (now : Int)
    (deferReclaim written : Bool) :
    (s.endLease o leaseId reason now deferReclaim written).recoveries = s.recoveries := by
  rcases endLease_cases leaseId reason now deferReclaim written with heq | ⟨lease, r, -, -, heq⟩
  · rw [heq]
  · rw [heq]
    rfl

theorem endLease_tick (leaseId : String) (reason : GiveUpReason) (now : Int)
    (deferReclaim written : Bool) :
    (s.endLease o leaseId reason now deferReclaim written).tick = s.tick := by
  rcases endLease_cases leaseId reason now deferReclaim written with heq | ⟨lease, r, -, -, heq⟩
  · rw [heq]
  · rw [heq]
    rfl

/-- What another module's commit does: nothing, or it applies its call. -/
theorem other_cases (now : Int) (call : Call) : s.other o now call = s ∨
    ∃ r, call.marksRecovery = false ∧
      (∀ id physical, call.adds = some (id, physical) → id ∉ s.registry.devices.map Device.id) ∧
      s.registry.apply o now call = some r ∧ s.other o now call = { s with registry := r } := by
  unfold other
  dsimp only
  split
  · exact .inl rfl
  · rename_i hcall
    simp only [Bool.or_eq_true, Bool.not_eq_true', not_or, Bool.not_eq_true,
      Bool.not_eq_false] at hcall
    split
    · exact .inl rfl
    · rename_i r hr
      refine .inr ⟨r, hcall.1, fun id physical hadds => ?_, hr, rfl⟩
      have hfresh := hcall.2
      rw [hadds] at hfresh
      simpa using hfresh

/-- What a recovery's write of its attempt does: it ends the recovery, or records the attempt. -/
theorem mark_cases (i : Nat) (x : Recovery) (now : Int) (written : Bool) :
    s.mark o i x now written = s.endRecovery i x ∨
      ∃ d r, s.registry.device x.device.id = some d ∧
        s.registry.apply o now (.markRecoveryAttempt x.device.id now) = some r ∧
        s.mark o i x now written = { (s.happened (.attempted x.device.id)).setRecovery i x
          (if d.recoveryCount + 1 = 1 then .rebooting (d.recoveryCount + 1)
            else .backoff (d.recoveryCount + 1)) with registry := r } := by
  unfold mark
  split
  · rename_i d r hd hr
    split
    · exact .inr ⟨d, r, hd, hr, rfl⟩
    · exact .inl rfl
  · exact .inl rfl

namespace MonitorOk

theorem endLease (h : MonitorOk c s) (leaseId : String) (reason : GiveUpReason) (now : Int)
    (deferReclaim written : Bool) :
    MonitorOk c (s.endLease o leaseId reason now deferReclaim written) := by
  rcases endLease_cases leaseId reason now deferReclaim written with heq | ⟨lease, r, -, hr, heq⟩
  · rw [heq]
    exact h
  · rw [heq]
    refine (h.happened fun id => rfl).withRegistry (apply_effect h.devices ?_ hr).2
    exact fun id physical hadds => by cases hadds

theorem tickClear (h : MonitorOk c s) (now : Int) (written : Bool) :
    MonitorOk c (s.tickClear o now written) := by
  unfold HealthMonitor.tickClear
  split
  · exact h
  · rename_i t ht
    split
    · rename_i device lease drift hpoint
      have hfree : device.id ∉ s.inFlight := h.apart t device ht (by rw [hpoint]; rfl)
      split
      · exact h.idle rfl
      · rename_i r hr
        have hdevices := (apply_effect h.devices (fun id physical hadds => by cases hadds)
          (apply_of_cleared hr)).2
        refine (h.withTick ?_ ?_).withRegistry hdevices
        · rintro _ d ⟨⟩ hdevice
          exact afterClear_device hdevice ▸ hfree
        · rintro _ d l reason ⟨⟩ hpoint
          exact .inl (afterClear_releasing hpoint)
    · exact h

theorem tickRelease (h : MonitorOk c s) (now : Int) (deferReclaim written : Bool) :
    MonitorOk c (s.tickRelease o now deferReclaim written) := by
  unfold HealthMonitor.tickRelease
  split
  · exact h
  · split
    · exact (h.endLease ..).idle rfl
    · exact h

theorem tickSettled (h : MonitorOk c s) : MonitorOk c s.tickSettled := by
  unfold HealthMonitor.tickSettled
  split
  · exact h
  · split
    · exact (h.dropCounters _).idle rfl
    · exact h

theorem mark (h : MonitorOk c s) {i : Nat} {x : Recovery} (hx : s.recoveries[i]? = some x)
    (now : Int) (written : Bool) : MonitorOk c (s.mark o i x now written) := by
  rcases mark_cases i x now written with heq | ⟨d, r, -, hr, heq⟩
  · rw [heq]
    exact h.endRecovery hx
  · rw [heq]
    have hmarked := (h.happened (x := .attempted x.device.id) fun id => rfl).setRecovery hx
      (if d.recoveryCount + 1 = 1 then .rebooting (d.recoveryCount + 1)
        else .backoff (d.recoveryCount + 1))
    refine hmarked.withRegistry (apply_effect h.devices ?_ hr).2
    exact fun id physical hadds => by cases hadds

theorem rebooted (h : MonitorOk c s) {i : Nat} {x : Recovery} (hx : s.recoveries[i]? = some x)
    (attempt : Int) (outcome : RebootOutcome) :
    MonitorOk c (s.rebooted c i x attempt outcome) := by
  unfold HealthMonitor.rebooted
  cases outcome with
  | failed =>
    dsimp only
    split
    · exact h.setRecovery hx _
    · exact h.endRecovery hx
  | gone => exact (h.dropCounters x.device.id).endRecovery hx
  | recovered => exact (h.happened fun id => rfl).setRecovery hx .clearing

theorem recoveryStep (h : MonitorOk c s) {i : Nat} {x : Recovery} (hx : s.recoveries[i]? = some x)
    (a : RecoveryAct) : MonitorOk c (s.recoveryStep c o i x a) := by
  unfold HealthMonitor.recoveryStep
  split
  · exact h.mark hx _ _
  · split
    · exact h.endRecovery hx
    · exact h.setRecovery hx _
  · exact h.rebooted hx _ _
  · split
    · exact h.endRecovery hx
    · rename_i r hr
      refine ((h.dropCounters x.device.id).endRecovery hx).withRegistry ?_
      exact (apply_effect h.devices (fun id physical hadds => by cases hadds)
        (apply_of_cleared hr)).2
  · refine (h.endLease ..).setRecovery ?_ .settling
    rw [endLease_recoveries]
    exact hx
  · exact (h.dropCounters x.device.id).endRecovery hx
  · exact h

theorem other (h : MonitorOk c s) (now : Int) (call : Call) :
    MonitorOk c (s.other o now call) := by
  rcases other_cases now call with heq | ⟨r, -, hfresh, hr, heq⟩
  · rw [heq]
    exact h
  · rw [heq]
    exact h.withRegistry (apply_effect h.devices hfresh hr).2

theorem step (h : MonitorOk c s) (a : HealthAct) : MonitorOk c (s.step c o a) := by
  cases a with
  | tick => exact h.startTick
  | listed devices => exact h.listed devices
  | turn => exact h.turn
  | dispatch => exact h.dispatch
  | tickClear now written => exact h.tickClear now written
  | tickRelease now deferReclaim written => exact h.tickRelease now deferReclaim written
  | tickSettled => exact h.tickSettled
  | recovery i a =>
    rw [HealthMonitor.step]
    split
    · exact h
    · rename_i x hx
      exact h.recoveryStep hx a
  | dispose =>
    exact ⟨h.devices, h.flying, h.once, h.few, h.missing, h.apart, h.lost⟩
  | other now call => exact h.other now call

end MonitorOk

/-! ### Counts that were recorded -/

/-- More attempts of its device in the log keep what a recovery counts. -/
theorem Recovery.Counted.mono {x : Recovery} {log log' : List Happening}
    (h : x.Counted c log) (hle : attemptsSince x.device.id log ≤ attemptsSince x.device.id log') :
    x.Counted c log' := by
  unfold Recovery.Counted at h ⊢
  split
  · rename_i attempt hpoint
    simp only [hpoint] at h
    omega
  · rename_i attempt hpoint
    simp only [hpoint] at h
    omega
  · rename_i hpoint
    simp only [hpoint] at h
    omega
  · trivial

theorem Recovery.Counted.of_eq {x : Recovery} {log log' : List Happening} (h : x.Counted c log)
    (heq : attemptsSince x.device.id log' = attemptsSince x.device.id log) : x.Counted c log' :=
  h.mono (Nat.le_of_eq heq.symm)

theorem tick_not_clearing {t : HealthTick} (ht : s.tick = some t)
    (hpoint : ∀ device lease drift, t.point ≠ .clearing device lease drift) {deviceId : String}
    (h : s.Clears deviceId) : ∃ x ∈ s.recoveries, x.device.id = deviceId ∧ x.point = .clearing := by
  rcases h with ⟨t', device, lease, drift, ht', hclearing, -⟩ | h
  · rw [ht] at ht'
    exact absurd (Option.some.inj ht' ▸ hclearing) (hpoint device lease drift)
  · exact h

namespace CountsOk

theorem start {r : Registry} : CountsOk c (.start r) :=
  ⟨fun _ hd => .inr (le_attemptsSince_start hd), fun _ hx => by cases hx⟩

/-- A step of a tick that clears no marks. -/
theorem withTick (h : CountsOk c s) {t : HealthTick} (ht : s.tick = some t)
    (hpoint : ∀ device lease drift, t.point ≠ .clearing device lease drift)
    (tick : Option HealthTick) : CountsOk c { s with tick := tick } :=
  ⟨fun d hd => (h.records d hd).imp_left fun hclears => .inr (tick_not_clearing ht hpoint hclears),
    h.recoveries⟩

theorem withRegistry (h : CountsOk c s) {r : Registry}
    (hr : ∀ d' ∈ r.devices, d'.recoveryCount = 0 ∨
      ∃ d ∈ s.registry.devices, d'.id = d.id ∧ d'.recoveryCount = d.recoveryCount) :
    CountsOk c { s with registry := r } := by
  refine ⟨fun d' hd' => ?_, h.recoveries⟩
  rcases hr d' hd' with hzero | ⟨d, hd, hid, hcount⟩
  · exact .inr (hzero ▸ Int.natCast_nonneg _)
  · rw [hid, hcount]
    exact h.records d hd

/-- What happens besides attempts and good sights leaves the counts. -/
theorem happened (h : CountsOk c s) {x : Happening}
    (hx : ∀ id, attemptsSince id (x :: s.log) = attemptsSince id s.log) :
    CountsOk c (s.happened x) := by
  refine ⟨fun d hd => (h.records d hd).imp_right fun hle => ?_, fun y hy => ?_⟩
  · exact (hx d.id).symm ▸ hle
  · exact (h.recoveries y hy).of_eq (hx y.device.id)

theorem setRecovery (h : CountsOk c s) {i : Nat} {x : Recovery} (hx : s.recoveries[i]? = some x)
    (hpoint : x.point ≠ .clearing) {point : RecoveryPoint}
    (hnew : Recovery.Counted c s.log { x with point := point }) :
    CountsOk c (s.setRecovery i x point) := by
  refine ⟨fun d hd => (h.records d hd).imp_left fun hclears => ?_, fun y hy => ?_⟩
  · refine hclears.imp_right fun ⟨y, hy, hid, hclearing⟩ => ⟨y, ?_, hid, hclearing⟩
    exact mem_set_of_ne hx hy fun heq => hpoint (heq ▸ hclearing)
  · rcases List.mem_or_eq_of_mem_set hy with hy | rfl
    · exact h.recoveries y hy
    · exact hnew

theorem endRecovery (h : CountsOk c s) {i : Nat} {x : Recovery} (hx : s.recoveries[i]? = some x)
    (hpoint : x.point ≠ .clearing) : CountsOk c (s.endRecovery i x) := by
  refine ⟨fun d hd => (h.records d hd).imp_left fun hclears => ?_,
    fun y hy => h.recoveries y (List.mem_of_mem_eraseIdx hy)⟩
  refine hclears.imp_right fun ⟨y, hy, hid, hclearing⟩ => ⟨y, ?_, hid, hclearing⟩
  obtain ⟨j, hj⟩ := List.mem_iff_getElem?.mp hy
  refine mem_eraseIdx_of_ne hj ?_
  rintro rfl
  exact hpoint (Option.some.inj (hx.symm.trans hj) ▸ hclearing)

/-- A recovery that does not clear the marks of its device is alone with it. -/
theorem not_clears (hok : MonitorOk c s) {x : Recovery} (hx : x ∈ s.recoveries)
    (hpoint : x.point ≠ .clearing) : ¬ s.Clears x.device.id := by
  rintro (⟨t, device, lease, drift, ht, hclearing, hid⟩ | ⟨y, hy, hid, hclearing⟩)
  · exact hok.apart t device ht (by rw [hclearing]; rfl) (hid ▸ hok.mem_inFlight hx)
  · exact hpoint (hok.same hy hx hid ▸ hclearing)

theorem startTick (h : CountsOk c s) : CountsOk c s.startTick := by
  unfold HealthMonitor.startTick
  split
  · exact h
  · rename_i hidle
    refine ⟨fun d hd => (h.records d hd).imp_left fun hclears => ?_, h.recoveries⟩
    rcases hclears with ⟨t, device, lease, drift, ht, -⟩ | hclears
    · simp [ht] at hidle
    · exact .inr hclears

theorem listed (h : CountsOk c s) (devices : Option (List ObservedDevice)) :
    CountsOk c (s.listed devices) := by
  unfold HealthMonitor.listed
  split
  · rename_i t ht
    split
    · rename_i platform platforms hpoint
      exact h.withTick ht (by simp [hpoint]) _
    · exact h
  · exact h

/-- A device seen running with no mark in the copy has no attempt in its record. -/
theorem unmarked_count {t : HealthTick} {device : VirtualDevice} {rest : List VirtualDevice}
    {lease : LeaseRecord} {observed : Option ObservedDevice} (ht : s.tick = some t)
    (hpoint : t.point = .looking) (hleased : t.leased = device :: rest)
    (hlook : s.look { t with leased := rest } device = .saw lease observed)
    (hfresh : s.upToDate c .turn = true) (hrunning : sightOf observed = .running)
    (hmarked : isMarked device = false) {d : Device} (hd : d ∈ s.registry.devices)
    (hid : d.id = device.id) : d.recoveryCount = 0 := by
  have hlook' : s.look t device = .saw lease observed := hlook
  simp only [upToDate, ht, hpoint, hleased, hlook', hrunning, hmarked, ne_eq, not_true_eq_false,
    decide_false, Bool.false_or, List.all_eq_true] at hfresh
  have hnone := hfresh d hd
  simp only [hid, not_true_eq_false, decide_false, Bool.false_or, Option.isNone_iff_eq_none] at hnone
  rw [Device.recoveryCount, hnone]
  rfl

theorem turn (hok : MonitorOk c s) (h : CountsOk c s) (hfresh : s.upToDate c .turn = true) : CountsOk c (s.turn c) := by
  unfold HealthMonitor.turn
  split
  · exact h
  · rename_i t ht
    split
    · rename_i hpoint _
      exact h.withTick ht (by simp [hpoint]) _
    · rename_i device rest hpoint hleased
      have hlooking : ∀ device lease drift, t.point ≠ .clearing device lease drift := by
        simp [hpoint]
      dsimp only
      split
      · exact h.withTick ht hlooking _
      · exact h.withTick ht hlooking _
      · have hnext := h.withTick ht hlooking (some { t with leased := rest, point := .looking })
        exact ⟨hnext.records, hnext.recoveries⟩
      · rename_i lease observed hlook
        have hfree := look_eq_saw hlook
        refine ⟨fun d hd => ?_, fun x hx => ?_⟩
        · by_cases hwell : device.id = d.id ∧ sightOf observed = .running
          · cases hmarked : isMarked device with
            | true =>
              exact .inl (.inl ⟨_, device, lease, _, rfl, classified_marked hwell.2 hmarked, hwell.1⟩)
            | false =>
              have hzero := unmarked_count ht hpoint hleased hlook hfresh hwell.2 hmarked hd
                hwell.1.symm
              exact .inr (hzero ▸ Int.natCast_nonneg _)
          · refine (h.records d hd).imp
              (fun hclears => .inr (tick_not_clearing ht hlooking hclears)) fun hle => ?_
            have hsame := attemptsSince_seen s.log hwell
            exact hsame.symm ▸ hle
        · refine (h.recoveries x hx).of_eq (attemptsSince_seen _ fun hand => hfree ?_)
          exact hand.1 ▸ hok.mem_inFlight hx
    · exact h

theorem dispatch (h : CountsOk c s) : CountsOk c (s.dispatch c) := by
  unfold HealthMonitor.dispatch
  split
  · exact h
  · rename_i t ht
    split
    · rename_i device lease hpoint
      have hclearing : ∀ device lease drift, t.point ≠ .clearing device lease drift := by
        simp [hpoint]
      split
      · exact h.withTick ht hclearing _
      · refine ⟨fun d hd => (h.records d hd).imp_left fun hclears => ?_, fun x hx => ?_⟩
        · obtain ⟨x, hx, hid, hp⟩ := tick_not_clearing ht hclearing hclears
          exact .inr ⟨x, List.mem_append_left _ hx, hid, hp⟩
        · rcases List.mem_append.mp hx with hx | hx
          · exact h.recoveries x hx
          · -- a new recovery has made no attempt yet
            rw [List.mem_singleton.mp hx]
            dsimp only
            split
            · exact trivial
            · exact trivial
    · exact h

theorem endLease (h : CountsOk c s) (leaseId : String) (reason : GiveUpReason) (now : Int)
    (deferReclaim written : Bool) :
    CountsOk c (s.endLease o leaseId reason now deferReclaim written) := by
  rcases endLease_cases leaseId reason now deferReclaim written with heq | ⟨lease, r, -, hr, heq⟩
  · rw [heq]
    exact h
  · rw [heq]
    exact (h.happened fun id => rfl).withRegistry fun d' hd' => apply_keepsCount rfl hr hd'

/-- A clear that throws found no record of the device. -/
theorem cleared_eq_none {deviceId : String} {now : Int} (h : s.cleared o deviceId now true = none)
    {d : Device} (hd : d ∈ s.registry.devices) : d.id ≠ deviceId := by
  intro hid
  unfold cleared at h
  split at h
  · rename_i e hcall
    cases hfound : s.registry.device deviceId with
    | none => exact Registry.device_none.mp hfound (hid ▸ List.mem_map_of_mem hd)
    | some x =>
      simp only [Registry.clearRecovery, Registry.requireDeviceRecord, hfound, bind, Except.bind,
        pure, Except.pure] at hcall
      split at hcall <;> cases hcall
  · cases h
  · rw [if_pos rfl] at h
    cases h

theorem tickClear (hok : MonitorOk c s) (h : CountsOk c s) (now : Int) :
    CountsOk c (s.tickClear o now true) := by
  unfold HealthMonitor.tickClear
  split
  · exact h
  · rename_i t ht
    split
    · rename_i device lease drift hpoint
      -- what else is being cleared is cleared by a recovery
      have hothers : ∀ id, id ≠ device.id → s.Clears id →
          ∃ x ∈ s.recoveries, x.device.id = id ∧ x.point = .clearing := by
        rintro id hne (⟨t', device', lease', drift', ht', hclearing, hid⟩ | hclears)
        · obtain rfl := Option.some.inj (ht.symm.trans ht')
          cases hpoint.symm.trans hclearing
          exact absurd hid.symm hne
        · exact hclears
      split
      · rename_i hnone
        refine ⟨fun d hd => (h.records d hd).imp_left fun hclears => ?_, h.recoveries⟩
        exact .inr (hothers d.id (cleared_eq_none hnone hd) hclears)
      · rename_i r hr
        refine ⟨fun d' hd' => ?_, h.recoveries⟩
        rcases apply_clearRecovery hok.devices (apply_of_cleared hr) hd' with
          hzero | ⟨d, hd, hne, hid, hcount⟩
        · exact .inr (hzero ▸ Int.natCast_nonneg _)
        · rw [hid, hcount]
          exact (h.records d hd).imp_left fun hclears => .inr (hothers d.id hne hclears)
    · exact h

theorem tickRelease (h : CountsOk c s) (now : Int) (deferReclaim written : Bool) :
    CountsOk c (s.tickRelease o now deferReclaim written) := by
  unfold HealthMonitor.tickRelease
  split
  · exact h
  · rename_i t ht
    split
    · rename_i device lease reason hpoint
      refine (h.endLease ..).withTick (t := t) ?_ (by simp [hpoint]) _
      rw [endLease_tick]
      exact ht
    · exact h

theorem tickSettled (h : CountsOk c s) : CountsOk c s.tickSettled := by
  unfold HealthMonitor.tickSettled
  split
  · exact h
  · rename_i t ht
    split
    · rename_i deviceId hpoint
      have hnext := h.withTick ht (by simp [hpoint]) (some { t with point := .looking })
      exact ⟨hnext.records, hnext.recoveries⟩
    · exact h

theorem mark (hok : MonitorOk c s) (h : CountsOk c s) {i : Nat} {x : Recovery}
    (hx : s.recoveries[i]? = some x) (hpoint : x.point = .marking) (now : Int) (written : Bool) :
    CountsOk c (s.mark o i x now written) := by
  rcases mark_cases i x now written with heq | ⟨d, r, hd, hr, heq⟩
  · rw [heq]
    exact h.endRecovery hx (by simp [hpoint])
  · rw [heq]
    have hmem := List.mem_of_getElem? hx
    obtain ⟨hdevice, hid⟩ := Registry.device_mem hd
    have hle : d.recoveryCount ≤ attemptsSince x.device.id s.log := by
      rcases h.records d hdevice with hclears | hle
      · exact absurd (hid ▸ hclears) (not_clears hok hmem (by simp [hpoint]))
      · exact hid ▸ hle
    have hnow : attemptsSince x.device.id (.attempted x.device.id :: s.log) =
        attemptsSince x.device.id s.log + 1 := if_pos rfl
    have hmarked : CountsOk c { s.happened (.attempted x.device.id) with registry := r } := by
      refine ⟨fun d' hd' => ?_, fun y hy => (h.recoveries y hy).mono (attemptsSince_le_attempted _ _ _)⟩
      rcases apply_markRecoveryAttempt hok.devices hd hr hd' with
        hzero | ⟨hid', hcount⟩ | ⟨y, hy, hid', hcount⟩
      · exact .inr (hzero ▸ Int.natCast_nonneg _)
      · refine .inr ?_
        rw [hid', hcount]
        exact (by omega : d.recoveryCount + 1 ≤
          ((attemptsSince x.device.id (.attempted x.device.id :: s.log) : Nat) : Int))
      · rw [hid', hcount]
        refine (h.records y hy).imp_right fun hle' => ?_
        have hmono := attemptsSince_le_attempted y.id x.device.id s.log
        exact (by omega : y.recoveryCount ≤
          ((attemptsSince y.id (.attempted x.device.id :: s.log) : Nat) : Int))
    refine hmarked.setRecovery (i := i) (x := x) hx (by simp [hpoint]) ?_
    have hcount : d.recoveryCount + 1 ≤
      ((attemptsSince x.device.id (.attempted x.device.id :: s.log) : Nat) : Int) := by omega
    split
    · exact hcount
    · exact hcount

theorem rebooted (hok : MonitorOk c s) (h : CountsOk c s) {i : Nat} {x : Recovery}
    (hx : s.recoveries[i]? = some x) {attempt : Int} (hpoint : x.point = .rebooting attempt)
    (outcome : RebootOutcome) : CountsOk c (s.rebooted c i x attempt outcome) := by
  have hnot : x.point ≠ .clearing := by simp [hpoint]
  unfold HealthMonitor.rebooted
  cases outcome with
  | failed =>
    dsimp only
    split
    · rename_i hspent
      refine h.setRecovery hx hnot ?_
      have hcounted := h.recoveries x (List.mem_of_getElem? hx)
      simp only [Recovery.Counted, hpoint] at hcounted ⊢
      omega
    · exact h.endRecovery hx hnot
  | gone =>
    have hended := h.endRecovery hx hnot
    exact ⟨hended.records, hended.recoveries⟩
  | recovered =>
    have hok' := (hok.happened (x := .recovered x.device.id) fun id => rfl).setRecovery hx .clearing
    have hnew : ({ x with point := .clearing } : Recovery) ∈
        ((s.happened (.recovered x.device.id)).setRecovery i x .clearing).recoveries :=
      List.mem_of_getElem? (getElem?_set_of_getElem? hx)
    have hother : ∀ id, id ≠ x.device.id →
        attemptsSince id (.recovered x.device.id :: s.log) = attemptsSince id s.log :=
      fun id hne => if_neg (Ne.symm hne)
    refine ⟨fun d hd => ?_, fun y hy => ?_⟩
    · by_cases hid : d.id = x.device.id
      · exact .inl (.inr ⟨_, hnew, hid.symm, rfl⟩)
      · refine (h.records d hd).imp (fun hclears => ?_) fun hle => (hother d.id hid).symm ▸ hle
        refine hclears.imp_right fun ⟨y, hy, hyid, hclearing⟩ => ⟨y, ?_, hyid, hclearing⟩
        exact mem_set_of_ne hx hy fun heq => hnot (heq ▸ hclearing)
    · by_cases hid : y.device.id = x.device.id
      · rw [hok'.same hy hnew hid]
        trivial
      · rcases List.mem_or_eq_of_mem_set hy with hold | rfl
        · exact (h.recoveries y hold).of_eq (hother y.device.id hid)
        · trivial

theorem clear (hok : MonitorOk c s) (h : CountsOk c s) {i : Nat} {x : Recovery}
    (hx : s.recoveries[i]? = some x) {now : Int} :
    CountsOk c (match s.cleared o x.device.id now true with
      | none => s.endRecovery i x
      | some r => { (s.setCounters x.device.id none).endRecovery i x with registry := r }) := by
  -- what else is being cleared stays so
  have hothers : ∀ id, id ≠ x.device.id → s.Clears id → (s.endRecovery i x).Clears id := by
    rintro id hne (hclears | ⟨y, hy, hid, hclearing⟩)
    · exact .inl hclears
    · obtain ⟨j, hj⟩ := List.mem_iff_getElem?.mp hy
      refine .inr ⟨y, mem_eraseIdx_of_ne hj ?_, hid, hclearing⟩
      rintro rfl
      exact hne (hid.symm.trans (congrArg (fun z => z.device.id) (Option.some.inj (hj.symm.trans hx))))
  have hkept : ∀ y ∈ (s.endRecovery i x).recoveries, y.Counted c s.log :=
    fun y hy => h.recoveries y (List.mem_of_mem_eraseIdx hy)
  split
  · rename_i hnone
    refine ⟨fun d hd => (h.records d hd).imp_left fun hclears => ?_, hkept⟩
    exact hothers d.id (cleared_eq_none hnone hd) hclears
  · rename_i r hr
    refine ⟨fun d' hd' => ?_, hkept⟩
    rcases apply_clearRecovery hok.devices (apply_of_cleared hr) hd' with
      hzero | ⟨d, hd, hne, hid, hcount⟩
    · exact .inr (hzero ▸ Int.natCast_nonneg _)
    · rw [hid, hcount]
      exact (h.records d hd).imp_left fun hclears => hothers d.id hne hclears

theorem recoveryStep (hok : MonitorOk c s) (h : CountsOk c s) {i : Nat} {x : Recovery}
    (hx : s.recoveries[i]? = some x) {a : RecoveryAct}
    (hfresh : s.upToDate c (.recovery i a) = true) : CountsOk c (s.recoveryStep c o i x a) := by
  unfold HealthMonitor.recoveryStep
  split
  · rename_i now written hpoint
    exact h.mark hok hx hpoint now written
  · rename_i attempt hpoint
    have hnot : x.point ≠ .clearing := by simp [hpoint]
    split
    · exact h.endRecovery hx hnot
    · refine h.setRecovery hx hnot ?_
      have hcounted := h.recoveries x (List.mem_of_getElem? hx)
      simp only [Recovery.Counted, hpoint] at hcounted ⊢
      exact hcounted
  · rename_i attempt outcome hpoint
    exact h.rebooted hok hx hpoint outcome
  · rename_i now written hpoint
    have hwritten : written = true := by simpa [upToDate, hx] using hfresh
    subst hwritten
    exact h.clear hok hx
  · rename_i rebooted now deferReclaim written hpoint
    refine (h.endLease ..).setRecovery (x := x) ?_ (by simp [hpoint]) trivial
    rw [endLease_recoveries]
    exact hx
  · rename_i hpoint
    have hended := h.endRecovery hx (by simp [hpoint])
    exact ⟨hended.records, hended.recoveries⟩
  · exact h

theorem other (h : CountsOk c s) (now : Int) (call : Call) : CountsOk c (s.other o now call) := by
  rcases other_cases now call with heq | ⟨r, hmarks, -, hr, heq⟩
  · rw [heq]
    exact h
  · rw [heq]
    exact h.withRegistry fun d' hd' => apply_keepsCount hmarks hr hd'

theorem step (hok : MonitorOk c s) (h : CountsOk c s) {a : HealthAct}
    (hfresh : s.upToDate c a = true) : CountsOk c (s.step c o a) := by
  cases a with
  | tick => exact h.startTick
  | listed devices => exact h.listed devices
  | turn => exact h.turn hok hfresh
  | dispatch => exact h.dispatch
  | tickClear now written =>
    have hwritten : written = true := hfresh
    subst hwritten
    exact h.tickClear hok now
  | tickRelease now deferReclaim written => exact h.tickRelease now deferReclaim written
  | tickSettled => exact h.tickSettled
  | recovery i a =>
    rw [HealthMonitor.step]
    split
    · exact h
    · rename_i x hx
      exact h.recoveryStep hok hx hfresh
  | dispose => exact ⟨h.records, h.recoveries⟩
  | other now call => exact h.other now call

end CountsOk

/-! ### Endings -/

/-- The ending of a lease, if it ends, has its cause. -/
theorem EndsWithCause.endLease (h : EndsWithCause c s.log) {leaseId : String} {reason : GiveUpReason}
    {now : Int} {deferReclaim written : Bool}
    (hcause : ∀ lease, s.registry.lease leaseId = some lease →
      HasCause c lease.deviceId s.log reason) :
    EndsWithCause c (s.endLease o leaseId reason now deferReclaim written).log := by
  rcases endLease_cases leaseId reason now deferReclaim written with heq | ⟨lease, r, hl, -, heq⟩
  · rw [heq]
    exact h
  · rw [heq]
    exact ⟨hcause lease hl, h⟩

theorem EndsWithCause.turn (h : EndsWithCause c s.log) : EndsWithCause c (s.turn c).log := by
  unfold HealthMonitor.turn
  split
  · exact h
  · split
    · exact h
    · dsimp only
      split <;> exact h
    · exact h

theorem EndsWithCause.tickRelease (hok : MonitorOk c s) (h : EndsWithCause c s.log) {now : Int}
    {deferReclaim written : Bool}
    (hfresh : s.upToDate c (.tickRelease now deferReclaim written) = true) :
    EndsWithCause c (s.tickRelease o now deferReclaim written).log := by
  unfold HealthMonitor.tickRelease
  split
  · exact h
  · rename_i t ht
    split
    · rename_i device lease reason hpoint
      refine EndsWithCause.endLease h fun l hl => ?_
      rcases hok.lost t device lease reason ht hpoint with rfl | ⟨rfl, hstable⟩
      · trivial
      · have hnames : l.deviceId = device.id := by
          simpa [upToDate, ht, hpoint, namesLease, hl] using hfresh
        rw [hnames]
        exact hstable
    · exact h

theorem EndsWithCause.recoveryStep (hok : MonitorOk c s) (hcounts : CountsOk c s)
    (h : EndsWithCause c s.log) {i : Nat} {x : Recovery} (hx : s.recoveries[i]? = some x)
    {a : RecoveryAct} (hfresh : s.upToDate c (.recovery i a) = true) :
    EndsWithCause c (s.recoveryStep c o i x a).log := by
  unfold HealthMonitor.recoveryStep
  split
  · rcases mark_cases i x _ _ with heq | ⟨d, r, -, -, heq⟩ <;> rw [heq] <;> exact h
  · split <;> exact h
  · rename_i attempt outcome hpoint
    unfold HealthMonitor.rebooted
    cases outcome with
    | failed =>
      dsimp only
      split <;> exact h
    | gone => exact h
    | recovered => exact h
  · split <;> exact h
  · rename_i rebooted now deferReclaim written hpoint
    refine EndsWithCause.endLease h fun l hl => ?_
    have hmem := List.mem_of_getElem? hx
    simp only [upToDate, hx, hpoint, hl, Option.isNone_some, Bool.false_or, Bool.and_eq_true,
      namesLease, Option.all_some, decide_eq_true_eq] at hfresh
    rw [hfresh.1]
    cases rebooted with
    | true =>
      have hcounted := hcounts.recoveries x hmem
      simp only [Recovery.Counted, hpoint] at hcounted
      exact hcounted
    | false =>
      -- the record counts them all, and no more than the log
      obtain ⟨d, hd, hspent⟩ := List.any_eq_true.mp hfresh.2
      simp only [Bool.and_eq_true, decide_eq_true_eq] at hspent
      rcases hcounts.records d hd with hclears | hle
      · exact absurd (hspent.1 ▸ hclears) (CountsOk.not_clears hok hmem (by simp [hpoint]))
      · rw [hspent.1] at hle
        have := hspent.2
        exact (by omega : c.maxRecoveryAttempts ≤ attemptsSince x.device.id s.log)
  · exact h
  · exact h

theorem EndsWithCause.step (hok : MonitorOk c s) (hcounts : CountsOk c s)
    (h : EndsWithCause c s.log) {a : HealthAct} (hfresh : s.upToDate c a = true) :
    EndsWithCause c (s.step c o a).log := by
  cases a with
  | tick =>
    rw [HealthMonitor.step, HealthMonitor.startTick]
    split <;> exact h
  | listed devices =>
    rw [HealthMonitor.step, HealthMonitor.listed]
    split
    · split <;> exact h
    · exact h
  | turn => exact EndsWithCause.turn h
  | dispatch =>
    rw [HealthMonitor.step, HealthMonitor.dispatch]
    split
    · exact h
    · split
      · split <;> exact h
      · exact h
  | tickClear now written =>
    rw [HealthMonitor.step, HealthMonitor.tickClear]
    split
    · exact h
    · split
      · split <;> exact h
      · exact h
  | tickRelease now deferReclaim written => exact EndsWithCause.tickRelease hok h hfresh
  | tickSettled =>
    rw [HealthMonitor.step, HealthMonitor.tickSettled]
    split
    · exact h
    · split <;> exact h
  | recovery i a =>
    rw [HealthMonitor.step]
    split
    · exact h
    · rename_i x hx
      exact EndsWithCause.recoveryStep hok hcounts h hx hfresh
  | dispose => exact h
  | other now call =>
    rcases other_cases now call with heq | ⟨r, -, -, -, heq⟩
    · rw [HealthMonitor.step, heq]
      exact h
    · rw [HealthMonitor.step, heq]
      exact h

theorem EndsWithCause.start (r : Registry) :
    EndsWithCause c (HealthMonitor.start r).log := by
  have hattempts : ∀ log : List Happening, (∀ x ∈ log, ∃ id, x = .attempted id) →
      EndsWithCause c log := by
    intro log hlog
    induction log with
    | nil => trivial
    | cons x log ih =>
      obtain ⟨id, rfl⟩ := hlog x List.mem_cons_self
      exact ih fun y hy => hlog y (List.mem_cons_of_mem _ hy)
  refine hattempts _ fun x hx => ?_
  obtain ⟨d, -, hx⟩ := List.mem_flatMap.mp hx
  exact ⟨d.id, List.eq_of_mem_replicate hx⟩

end Monitor

/-! ### Every run -/

/-- In every run at most the configured number of recoveries is at work and no two are of one device;
    and where the monitor's copy is up to date whenever it acts on it, every lease it ended had its
    cause: enough misses in a row, or every attempt spent since the device was last seen well. -/
theorem gives_up_with_cause (c : HealthConfig) (o : RegistryOptions) (store : Store)
    (hstore : store.Reached o) (acts : List HealthAct) :
    let s := run (HealthMonitor.step c o) (.start store.registry) acts
    s.recoveries.length ≤ c.maxConcurrentRecoveries ∧
      (s.recoveries.map fun x => x.device.id).Nodup ∧
      (AllSteps (HealthMonitor.step c o) (fun s a => s.upToDate c a = true)
        (.start store.registry) acts → EndsWithCause c s.log) := by
  have hstart : MonitorOk c (.start store.registry) := .start hstore.ok.ok.devicesOk
  have hok : MonitorOk c (run (HealthMonitor.step c o) (.start store.registry) acts) :=
    run_invariant (fun s a h => h.step a) acts _ hstart
  refine ⟨?_, hok.flying ▸ hok.once, fun hall => ?_⟩
  · have hfew := hok.few
    rwa [hok.flying, List.length_map] at hfew
  · have hinv := run_invariant_of_allSteps
      (I := fun s => MonitorOk c s ∧ CountsOk c s ∧ EndsWithCause c s.log)
      (fun s a hfresh h => ⟨h.1.step a, h.2.1.step h.1 hfresh, h.2.2.step h.1 h.2.1 hfresh⟩)
      acts _ ⟨hstart, .start, .start store.registry⟩ hall
    exact hinv.2.2

/-- One sight and one attempt are enough. -/
def hasty : HealthConfig := ⟨1, 1, 1⟩

/-- A leased simulator is seen stopped, and the attempt to recover it is recorded. -/
def oneAttempt : List HealthAct :=
  [.other 1 (.registerDevice "dev_1" "sim_1" ⟨.ios, "iPhone 15", "17.0", false, none, none⟩
      (.ios ⟨"type", "name", "runtime", none, none, "sim_1"⟩)),
    .other 2 (.transitionDevice "dev_1" .ready (some ⟨.ready, "dev_1"⟩) {}),
    .other 3 (.createLease "lse_1" ⟨"dev_1", "agent", "owner", 60, 63, none, none, none⟩),
    .tick, .listed (some [⟨"sim_1", .stopped, none⟩]), .turn, .dispatch, .turn,
    .recovery 0 (.mark 4 true)]

/-- The reboot fails, and the lease is given up. -/
def thenFails : List HealthAct :=
  oneAttempt ++ [.recovery 0 (.rebooted .failed), .recovery 0 (.release 6 false true)]

/-- The next tick copies the record and lists the device before the reboot is through, and looks at
    it after. -/
def thenRecovers : List HealthAct :=
  oneAttempt ++ [.tick, .listed (some [⟨"sim_1", .stopped, none⟩]),
    .recovery 0 (.rebooted .recovered), .recovery 0 (.clear 5 true),
    .turn, .dispatch, .recovery 0 (.release 6 false true)]

theorem gives_up_with_cause_thenFails :
    EndsWithCause hasty
      (run (HealthMonitor.step hasty shortRetention) (.start (Store.create 0).registry)
        thenFails).log ∧
      .ended "dev_1" "lse_1" .attemptsExhausted ∈
        (run (HealthMonitor.step hasty shortRetention) (.start (Store.create 0).registry)
          thenFails).log := by
  refine ⟨(gives_up_with_cause hasty shortRetention (Store.create 0) ⟨0, [], trivial, rfl⟩
    thenFails).2.2 ?_, ?_⟩
  · decide +kernel
  · decide +kernel

/-- The lease of a device that was just recovered is ended as exhausted: the recovery that gives up
    counts from the copy of a tick that began before. -/
theorem recovered_device_given_up :
    ¬ ∀ (c : HealthConfig) (o : RegistryOptions) (store : Store), store.Reached o →
      ∀ acts : List HealthAct, EndsWithCause c
        (run (HealthMonitor.step c o) (.start store.registry) acts).log := by
  intro h
  have hcause := h hasty shortRetention (Store.create 0) ⟨0, [], trivial, rfl⟩ thenRecovers
  revert hcause
  decide +kernel

end Simlock.Leasing
