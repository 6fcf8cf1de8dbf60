import Mathlib.Data.List.Sort
import Simlock.Core.Leases
import Simlock.Core.Persistence

/-! The expiry of leases.

    A lease ends as `expired` when its deadline has passed. Three places ask for it: the timer armed
    at the grant and at every renewal, the timers restored at a start (with the reconciler that runs
    before them), and doctor's fix of a lease it found overdue. The first two name the deadline they
    saw and the commit compares it with the lease's; doctor names only the lease.

        grant, renew ──arm──▶ timer ──fires──▶ expire(id, deadline) ──┐
        doctor: snapshot ──(listing)──▶ findings ──▶ expire(id) ──────┴──▶ beginRelease

    A timer is Node's: a delay it cannot hold makes it fire after one millisecond. -/

namespace Simlock.Leasing

open Simlock.Lib Simlock.Core

/-- The largest delay of `setTimeout`. -/
def maximumTimerDelayMs : Int := 2147483647

/-- The delay after which `setTimeout` fires. -/
def timerDelay (delayMs : Int) : Int :=
  if 1 ≤ delayMs ∧ delayMs ≤ maximumTimerDelayMs then delayMs else 1

/-- An entry of the scheduler's `#timers`. -/
structure Timer where
  leaseId : String
  deadline : Int
  due : Int
  deriving DecidableEq, Repr

/-- A call of `expire` on its way to its commit: from a timer, which passes the deadline it was armed
    for, or from doctor, for a lease of its snapshot. -/
inductive ExpireCall where
  | timer (leaseId : String) (expectedDeadline : Int)
  | doctor (found : LeaseRecord)
  deriving DecidableEq, Repr

inductive LeaseEndReason where
  | explicit | killed | expired | deviceLost
  deriving DecidableEq, Repr

/-- An ended lease, as it was in the registry when its end was committed. -/
structure EndedLease where
  lease : LeaseRecord
  reason : LeaseEndReason
  at_ : Int
  deriving DecidableEq, Repr

/-- What becomes of the device of a lease that ends at a start. -/
inductive StartupDeviceOutcome where
  | reclaim | wait | missing
  deriving DecidableEq, Repr

/-- An ending the startup reconciler has decided. -/
structure StartupEnding where
  leaseId : String
  device : StartupDeviceOutcome
  reason : LeaseEndReason
  deriving DecidableEq, Repr

/-- Where a start is. Requests are parked until it is `running`. -/
inductive Phase where
  | starting
  | reconciling (endings : List StartupEnding)
  | restoring (leases : List LeaseRecord)
  | running

structure Leases where
  registry : Registry
  now : Int
  phase : Phase
  timers : List Timer
  calls : List ExpireCall
  /-- The snapshots of the doctor runs that wait for their listings. -/
  doctors : List (List LeaseRecord)
  ended : List EndedLease

def Leases.create (now : Int) : Leases := ⟨.empty, now, .running, [], [], [], []⟩

/-! ### The scheduler -/

def Leases.cancel (s : Leases) (leaseId : String) : Leases :=
  { s with timers := s.timers.filter (fun t => t.leaseId ≠ leaseId) }

/-- `arm`, and `replace`. -/
def Leases.arm (s : Leases) (lease : LeaseRecord) : Leases :=
  let s := s.cancel lease.id
  if lease.ttlDeadline ≤ s.now then
    { s with calls := s.calls ++ [.timer lease.id lease.ttlDeadline] }
  else
    { s with timers := s.timers ++
        [⟨lease.id, lease.ttlDeadline, s.now + timerDelay (lease.ttlDeadline - s.now)⟩] }

/-- `compareLeaseDeadlines`; ids of one deadline are compared by code points. -/
def byDeadline (left right : LeaseRecord) : Prop :=
  left.ttlDeadline < right.ttlDeadline ∨ (left.ttlDeadline = right.ttlDeadline ∧ left.id ≤ right.id)

instance : DecidableRel byDeadline := fun left right => by
  unfold byDeadline
  exact inferInstance

/-! ### Grants, renewals and ends -/

section

variable (o : RegistryOptions)

/-- `LeaseLifecycle.grant`: the lease, and its timer. -/
def Leases.grant (s : Leases) (generated : String) (input : Registry.CreateLeaseInput) (ttlMs : Int) :
    Leases :=
  let input := { input with ttlMs := ttlMs, ttlDeadline := s.now + ttlMs }
  match s.registry.apply o s.now (.createLease generated input) with
  | none => s
  | some r => Leases.arm { s with registry := r } (grantedLease s.now generated input)

/-- `LeaseLifecycle.renew`: an omitted width is the lease's own. -/
def Leases.renew (s : Leases) (leaseId : String) (ttlMs : Option Int) : Leases :=
  match s.registry.lease leaseId with
  | none => s
  | some lease =>
    let width := ttlMs.getD lease.ttlMs
    match s.registry.apply o s.now (.renewLease leaseId (s.now + width) width) with
    | none => s
    | some r =>
      Leases.arm { s with registry := r }
        { lease with lastRenewedAt := s.now, ttlDeadline := s.now + width, ttlMs := width }

/-- An end of a lease and its announcement; a call that throws ends nothing. -/
def Leases.finish (s : Leases) (leaseId : String) (reason : LeaseEndReason) (c : Call) : Leases :=
  match s.registry.apply o s.now c with
  | none => s
  | some r =>
    let gone := s.registry.leases.filter (fun l => l.id = leaseId)
    Leases.cancel
      { s with registry := r, ended := s.ended ++ gone.map (fun l => ⟨l, reason, s.now⟩) } leaseId

/-- `#release` with reason `expired`: a call that names a deadline only ends a lease that has it. -/
def Leases.expire (s : Leases) (deferReclaim : Bool) : ExpireCall → Leases
  | .timer leaseId expectedDeadline =>
    if (s.registry.lease leaseId).map LeaseRecord.ttlDeadline = some expectedDeadline then
      s.finish o leaseId .expired (.beginRelease leaseId deferReclaim)
    else s
  | .doctor found => s.finish o found.id .expired (.beginRelease found.id deferReclaim)

/-- `endAtStartup`. -/
def Leases.endAtStartup (s : Leases) (e : StartupEnding) : Leases :=
  match e.device with
  | .missing => s.finish o e.leaseId e.reason (.endLeaseAndMarkDeviceMissing e.leaseId)
  | .reclaim => s.finish o e.leaseId e.reason (.beginRelease e.leaseId false)
  | .wait => s.finish o e.leaseId e.reason (.beginRelease e.leaseId true)

/-! ### Runs -/

/-- What can happen next. The endings of `ends` are the explicit, killed and lost ones. -/
inductive Action where
  | advance (ms : Nat)
  | grant (generated : String) (input : Registry.CreateLeaseInput) (ttlMs : Int)
  | renew (leaseId : String) (ttlMs : Option Int)
  | fire (i : Nat)
  | expire (i : Nat) (deferReclaim : Bool)
  | ends (leaseId : String) (reason : LeaseEndReason) (c : Call)
  | other (c : Call)
  | doctorReads
  | doctorFinds (i : Nat)
  | restart (r : Registry)
  | reconcile (read : Device → Option StartupDeviceOutcome)
  | endNext
  | restore
  | restoreNext

/-- The endings the reconciler goes through: a lease of a virtual device that is not running. -/
def startupEndings (r : Registry) (now : Int) (read : Device → Option StartupDeviceOutcome) :
    List StartupEnding :=
  (r.leases.insertionSort byDeadline).filterMap fun lease =>
    match r.device lease.deviceId with
    | none => none
    | some (.physical _) => none
    | some (.virtual v) => (read (.virtual v)).map fun device =>
      ⟨lease.id, device, if lease.ttlDeadline ≤ now then .expired else .deviceLost⟩

/-- A start parks every request until it is through. -/
def Leases.step (s : Leases) : Action → Leases
  | .advance ms => { s with now := s.now + ms }
  | .grant generated input ttlMs =>
    match s.phase with
    | .running => s.grant o generated input ttlMs
    | _ => s
  | .renew leaseId ttlMs =>
    match s.phase with
    | .running => s.renew o leaseId ttlMs
    | _ => s
  | .fire i =>
    match s.timers[i]? with
    | none => s
    | some t =>
      if t.due ≤ s.now then
        { s with timers := s.timers.eraseIdx i, calls := s.calls ++ [.timer t.leaseId t.deadline] }
      else s
  | .expire i deferReclaim =>
    match s.calls[i]? with
    | none => s
    | some call => Leases.expire o { s with calls := s.calls.eraseIdx i } deferReclaim call
  | .ends leaseId reason c =>
    if c.ends = some leaseId ∧ reason ≠ .expired then s.finish o leaseId reason c else s
  | .other c =>
    if c.touchesLeases then s
    else
      match s.registry.apply o s.now c with
      | none => s
      | some r => { s with registry := r }
  | .doctorReads => { s with doctors := s.doctors ++ [s.registry.leases] }
  | .doctorFinds i =>
    match s.doctors[i]? with
    | none => s
    | some snapshot =>
      { s with
        doctors := s.doctors.eraseIdx i
        calls := s.calls ++ (snapshot.filter (fun l => l.ttlDeadline ≤ s.now)).map .doctor }
  | .restart r => { s with registry := r, phase := .starting, timers := [], calls := [], doctors := [] }
  | .reconcile read =>
    match s.phase with
    | .starting => { s with phase := .reconciling (startupEndings s.registry s.now read) }
    | _ => s
  | .endNext =>
    match s.phase with
    | .reconciling (e :: rest) => Leases.endAtStartup o { s with phase := .reconciling rest } e
    | _ => s
  | .restore =>
    match s.phase with
    | .reconciling [] => { s with phase := .restoring (s.registry.leases.insertionSort byDeadline) }
    | _ => s
  | .restoreNext =>
    match s.phase with
    | .restoring (lease :: rest) => Leases.arm { s with phase := .restoring rest } lease
    | .restoring [] => { s with phase := .running }
    | _ => s

end

/-- A width above zero, as the request boundary takes it; a registry opened on what was committed has
    no lease that was not there. -/
def Leases.Admits (s : Leases) : Action → Prop
  | .grant _ _ ttlMs => 0 < ttlMs
  | .renew _ (some ttlMs) => 0 < ttlMs
  | .restart r => List.Sublist r.leases s.registry.leases
  | _ => True

/-- No timer is armed for longer than a timer can hold, no grant takes the id of an active lease, and
    doctor's call finds the lease with the deadline of its snapshot. -/
def Leases.Careful (s : Leases) : Action → Prop
  | .grant generated input ttlMs =>
    ttlMs ≤ maximumTimerDelayMs ∧ input.leaseId.getD generated ∉ s.registry.leases.map LeaseRecord.id
  | .renew leaseId ttlMs => ∀ lease, s.registry.lease leaseId = some lease →
    ttlMs.getD lease.ttlMs ≤ maximumTimerDelayMs
  | .expire i _ => ∀ found, s.calls[i]? = some (.doctor found) →
    ∀ l ∈ s.registry.leases, l.id = found.id → l.ttlDeadline = found.ttlDeadline
  | .restoreNext => ∀ lease rest, s.phase = .restoring (lease :: rest) →
    lease.ttlDeadline - s.now ≤ maximumTimerDelayMs
  | _ => True

/-! ### No early expiry -/

/-- The deadline a call was made for has passed. -/
def ExpireCall.Overdue (now : Int) : ExpireCall → Prop
  | .timer _ expectedDeadline => expectedDeadline ≤ now
  | .doctor found => found.ttlDeadline ≤ now

/-- The leases that a start means to end as expired are overdue. -/
def Phase.Overdue (leases : List LeaseRecord) (now : Int) : Phase → Prop
  | .reconciling endings => ∀ e ∈ endings, e.reason = .expired →
    ∀ l ∈ leases, l.id = e.leaseId → l.ttlDeadline ≤ now
  | _ => True

structure LeasesOk (s : Leases) : Prop where
  nodup : (s.registry.leases.map LeaseRecord.id).Nodup
  timers : ∀ t ∈ s.timers, t.deadline ≤ t.due
  calls : ∀ call ∈ s.calls, call.Overdue s.now
  phase : s.phase.Overdue s.registry.leases s.now
  ended : ∀ e ∈ s.ended, e.reason = .expired → e.lease.ttlDeadline ≤ e.at_

section Invariant

variable {o : RegistryOptions} {s : Leases}

theorem create_leasesOk (now : Int) : LeasesOk (Leases.create now) := by
  refine ⟨List.nodup_nil, ?_, ?_, trivial, ?_⟩ <;> simp [Leases.create]

theorem ExpireCall.Overdue.later {call : ExpireCall} {now later : Int} (h : call.Overdue now)
    (hle : now ≤ later) : call.Overdue later := by
  cases call with
  | timer leaseId expectedDeadline => exact Int.le_trans h hle
  | doctor found => exact Int.le_trans h hle

theorem Phase.Overdue.later {phase : Phase} {leases leases' : List LeaseRecord} {now later : Int}
    (h : phase.Overdue leases now) (hsub : ∀ l ∈ leases', l ∈ leases) (hle : now ≤ later) :
    phase.Overdue leases' later := by
  cases phase with
  | reconciling endings =>
    exact fun e he hexp l hl hid => Int.le_trans (h e he hexp l (hsub l hl) hid) hle
  | _ => trivial

theorem LeasesOk.cancel (h : LeasesOk s) (leaseId : String) : LeasesOk (s.cancel leaseId) :=
  ⟨h.nodup, fun t ht => h.timers t (List.mem_filter.mp ht).1, h.calls, h.phase, h.ended⟩

/-- A timer that can hold its delay is not due before its deadline. -/
theorem LeasesOk.arm (h : LeasesOk s) {lease : LeaseRecord}
    (hdelay : lease.ttlDeadline - s.now ≤ maximumTimerDelayMs) : LeasesOk (s.arm lease) := by
  have hcancel := h.cancel lease.id
  simp only [Leases.arm]
  split
  · rename_i hover
    refine ⟨hcancel.nodup, hcancel.timers, ?_, hcancel.phase, hcancel.ended⟩
    intro call hcall
    rcases List.mem_append.mp hcall with hcall | hcall
    · exact hcancel.calls call hcall
    · rw [List.mem_singleton.mp hcall]
      exact hover
  · rename_i hover
    refine ⟨hcancel.nodup, ?_, hcancel.calls, hcancel.phase, hcancel.ended⟩
    intro t ht
    rcases List.mem_append.mp ht with ht | ht
    · exact hcancel.timers t ht
    · rw [List.mem_singleton.mp ht]
      have hnow : (s.cancel lease.id).now = s.now := rfl
      rw [hnow] at hover ⊢
      change lease.ttlDeadline ≤ s.now + timerDelay (lease.ttlDeadline - s.now)
      rw [timerDelay, if_pos ⟨by omega, hdelay⟩]
      omega

/-- Fewer leases keep the invariant. -/
theorem LeasesOk.registry (h : LeasesOk s) {r : Registry}
    (hsub : List.Sublist r.leases s.registry.leases) : LeasesOk { s with registry := r } :=
  ⟨(hsub.map LeaseRecord.id).nodup h.nodup, h.timers, h.calls,
    h.phase.later (fun _ hl => hsub.subset hl) (Int.le_refl _), h.ended⟩

/-- An end keeps the invariant if the leases it ends as expired are overdue. -/
theorem LeasesOk.finish (h : LeasesOk s) {leaseId : String} {reason : LeaseEndReason} {c : Call}
    (hc : c.ends = some leaseId) (hover : reason = .expired →
      ∀ l ∈ s.registry.leases, l.id = leaseId → l.ttlDeadline ≤ s.now) :
    LeasesOk (s.finish o leaseId reason c) := by
  simp only [Leases.finish]
  cases happly : s.registry.apply o s.now c with
  | none => exact h
  | some r =>
    have hleases := apply_ends hc happly
    have hsub : List.Sublist r.leases s.registry.leases := hleases ▸ List.filter_sublist
    refine LeasesOk.cancel ?_ leaseId
    have hr := h.registry hsub
    refine ⟨hr.nodup, hr.timers, hr.calls, hr.phase, ?_⟩
    intro e he hexp
    rcases List.mem_append.mp he with he | he
    · exact h.ended e he hexp
    · obtain ⟨l, hl, rfl⟩ := List.mem_map.mp he
      obtain ⟨hl, hid⟩ := List.mem_filter.mp hl
      exact hover hexp l hl (by simpa using hid)

theorem LeasesOk.grant (h : LeasesOk s) {generated : String} {input : Registry.CreateLeaseInput}
    {ttlMs : Int} (hrunning : s.phase = .running) (httl : ttlMs ≤ maximumTimerDelayMs)
    (hnew : input.leaseId.getD generated ∉ s.registry.leases.map LeaseRecord.id) :
    LeasesOk (s.grant o generated input ttlMs) := by
  simp only [Leases.grant]
  cases happly : s.registry.apply o s.now (.createLease generated
      { input with ttlMs := ttlMs, ttlDeadline := s.now + ttlMs }) with
  | none => exact h
  | some r =>
    have hnodup : (r.leases.map LeaseRecord.id).Nodup := by
      rw [apply_grants happly, List.map_append, List.nodup_append]
      refine ⟨h.nodup, List.nodup_singleton _, ?_⟩
      intro a ha b hb hab
      rw [List.map_singleton, List.mem_singleton] at hb
      rw [hab, hb] at ha
      exact hnew ha
    have hgranted : LeasesOk { s with registry := r } :=
      ⟨hnodup, h.timers, h.calls, hrunning ▸ trivial, h.ended⟩
    refine hgranted.arm ?_
    change s.now + ttlMs - s.now ≤ _
    omega

theorem LeasesOk.renew (h : LeasesOk s) {leaseId : String} {ttlMs : Option Int}
    (hrunning : s.phase = .running)
    (httl : ∀ lease, s.registry.lease leaseId = some lease →
      ttlMs.getD lease.ttlMs ≤ maximumTimerDelayMs) : LeasesOk (s.renew o leaseId ttlMs) := by
  simp only [Leases.renew]
  cases hl : s.registry.lease leaseId with
  | none => exact h
  | some lease =>
    simp only
    cases happly : s.registry.apply o s.now (.renewLease leaseId
        (s.now + ttlMs.getD lease.ttlMs) (ttlMs.getD lease.ttlMs)) with
    | none => exact h
    | some r =>
      have hnodup : (r.leases.map LeaseRecord.id).Nodup := by
        rw [apply_renews happly]
        exact h.nodup
      have hrenewed : LeasesOk { s with registry := r } :=
        ⟨hnodup, h.timers, h.calls, hrunning ▸ trivial, h.ended⟩
      have hwidth := httl lease hl
      refine hrenewed.arm ?_
      change s.now + ttlMs.getD lease.ttlMs - s.now ≤ _
      omega

theorem LeasesOk.expire (h : LeasesOk s) (deferReclaim : Bool) {call : ExpireCall}
    (hover : call.Overdue s.now) (hcareful : ∀ found, call = .doctor found →
      ∀ l ∈ s.registry.leases, l.id = found.id → l.ttlDeadline = found.ttlDeadline) :
    LeasesOk (s.expire o deferReclaim call) := by
  cases call with
  | timer leaseId expectedDeadline =>
    simp only [Leases.expire]
    split
    · rename_i hsame
      obtain ⟨lease, hl, hdeadline⟩ := Option.map_eq_some_iff.mp hsame
      refine h.finish rfl fun _ l hmem hid => ?_
      obtain ⟨hlease, hleaseId⟩ := Registry.lease_mem hl
      obtain rfl := List.inj_on_of_nodup_map h.nodup hmem hlease (hid.trans hleaseId.symm)
      rw [hdeadline]
      exact hover
    · exact h
  | doctor found =>
    refine h.finish rfl fun _ l hmem hid => ?_
    rw [hcareful found rfl l hmem hid]
    exact hover

theorem startupEndings_overdue (h : LeasesOk s) (read : Device → Option StartupDeviceOutcome) :
    (Phase.reconciling (startupEndings s.registry s.now read)).Overdue s.registry.leases s.now := by
  intro e he hexp l hl hid
  obtain ⟨lease, hlease, hending⟩ := List.mem_filterMap.mp he
  have hlease : lease ∈ s.registry.leases := (List.mem_insertionSort byDeadline).mp hlease
  split at hending
  · cases hending
  · cases hending
  · obtain ⟨device, -, rfl⟩ := Option.map_eq_some_iff.mp hending
    obtain rfl := List.inj_on_of_nodup_map h.nodup hl hlease hid
    by_contra hlate
    simp [hlate] at hexp

theorem mem_of_mem_eraseIdx {α : Type} {l : List α} {i : Nat} {x : α} (h : x ∈ l.eraseIdx i) :
    x ∈ l := (List.eraseIdx_sublist l i).subset h

/-- Every step of a careful run keeps the invariant. -/
theorem LeasesOk.step (h : LeasesOk s) {a : Action} (hadmits : s.Admits a) (hcareful : s.Careful a) :
    LeasesOk (s.step o a) := by
  cases a with
  | advance ms =>
    have hle : s.now ≤ s.now + ms := by omega
    exact ⟨h.nodup, h.timers, fun call hcall => (h.calls call hcall).later hle,
      h.phase.later (fun _ hl => hl) hle, h.ended⟩
  | grant generated input ttlMs =>
    simp only [Leases.step]
    split
    · rename_i hrunning
      exact h.grant hrunning hcareful.1 hcareful.2
    · exact h
  | renew leaseId ttlMs =>
    simp only [Leases.step]
    split
    · rename_i hrunning
      exact h.renew hrunning hcareful
    · exact h
  | fire i =>
    simp only [Leases.step]
    split
    · exact h
    · rename_i t ht
      split
      · rename_i hdue
        refine ⟨h.nodup, fun t' ht' => h.timers t' (mem_of_mem_eraseIdx ht'), ?_, h.phase, h.ended⟩
        intro call hcall
        rcases List.mem_append.mp hcall with hcall | hcall
        · exact h.calls call hcall
        · rw [List.mem_singleton.mp hcall]
          exact Int.le_trans (h.timers t (List.mem_of_getElem? ht)) hdue
      · exact h
  | expire i deferReclaim =>
    simp only [Leases.step]
    split
    · exact h
    · rename_i call hcall
      have htaken : LeasesOk { s with calls := s.calls.eraseIdx i } :=
        ⟨h.nodup, h.timers, fun c hc => h.calls c (mem_of_mem_eraseIdx hc), h.phase, h.ended⟩
      refine htaken.expire deferReclaim (h.calls call (List.mem_of_getElem? hcall)) ?_
      rintro found rfl
      exact hcareful found hcall
  | ends leaseId reason c =>
    simp only [Leases.step]
    split
    · rename_i hends
      exact h.finish hends.1 fun hexp => absurd hexp hends.2
    · exact h
  | other c =>
    simp only [Leases.step]
    split
    · exact h
    · rename_i htouch
      split
      · exact h
      · rename_i r happly
        refine h.registry ?_
        rw [apply_leases (by simpa using htouch) happly]
  | doctorReads => exact ⟨h.nodup, h.timers, h.calls, h.phase, h.ended⟩
  | doctorFinds i =>
    simp only [Leases.step]
    split
    · exact h
    · refine ⟨h.nodup, h.timers, ?_, h.phase, h.ended⟩
      intro call hcall
      rcases List.mem_append.mp hcall with hcall | hcall
      · exact h.calls call hcall
      · obtain ⟨l, hl, rfl⟩ := List.mem_map.mp hcall
        have hlate : l.ttlDeadline ≤ s.now := by simpa using (List.mem_filter.mp hl).2
        exact hlate
  | restart r =>
    have hr := h.registry (r := r) hadmits
    refine ⟨hr.nodup, ?_, ?_, trivial, h.ended⟩
    · intro t ht
      cases ht
    · intro call hcall
      cases hcall
  | reconcile read =>
    simp only [Leases.step]
    split
    · exact ⟨h.nodup, h.timers, h.calls, startupEndings_overdue h read, h.ended⟩
    · exact h
  | endNext =>
    simp only [Leases.step]
    split
    · rename_i e rest hphase
      have hendings := h.phase
      rw [hphase] at hendings
      have hrest : LeasesOk { s with phase := .reconciling rest } :=
        ⟨h.nodup, h.timers, h.calls, fun e' he' => hendings e' (List.mem_cons_of_mem _ he'), h.ended⟩
      have hover : e.reason = .expired → ∀ l ∈ s.registry.leases, l.id = e.leaseId →
          l.ttlDeadline ≤ s.now := hendings e List.mem_cons_self
      simp only [Leases.endAtStartup]
      split
      · exact hrest.finish rfl hover
      · exact hrest.finish rfl hover
      · exact hrest.finish rfl hover
    · exact h
  | restore =>
    simp only [Leases.step]
    split
    · exact ⟨h.nodup, h.timers, h.calls, trivial, h.ended⟩
    · exact h
  | restoreNext =>
    simp only [Leases.step]
    split
    · rename_i lease rest hphase
      have hrest : LeasesOk { s with phase := .restoring rest } :=
        ⟨h.nodup, h.timers, h.calls, trivial, h.ended⟩
      exact hrest.arm (hcareful lease rest hphase)
    · exact ⟨h.nodup, h.timers, h.calls, trivial, h.ended⟩
    · exact h

end Invariant

def phoneInput (leaseId : Option String) : Registry.CreateLeaseInput :=
  ⟨"dev_1", "agent", "owner", 0, 0, leaseId, none, none⟩

def readyPhone : List Action :=
  [.other (.registerDevice "dev_1" "drv_1" ⟨.ios, "iPhone 15", "17.0", true, none, none⟩
      (.ios ⟨"type", "name", "runtime", none, some "signature", "udid"⟩)),
    .other (.transitionDevice "dev_1" .ready (some ⟨.ready, "dev_1"⟩)
      { address := some "127.0.0.1" })]

def grantRenewExpire : List Action :=
  readyPhone ++ [.grant "lse_1" (phoneInput none) 100, .advance 60, .renew "lse_1" none,
    .advance 100, .fire 0, .expire 0 false]

end Simlock.Leasing
