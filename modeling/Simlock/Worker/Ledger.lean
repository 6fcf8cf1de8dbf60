import Simlock.Worker.Operations
import Mathlib.Data.List.Perm.Lattice

/-! Every reservation belongs to one operation in flight.

    What one step of a flow does with its reservation is said once (`Keeps`): it goes on holding it,
    or gives it back and holds none. From that the entries of the coordinator and the flows that hold
    them stand one to one in every state of every run. -/

namespace Simlock.Worker

open Simlock.Lib Simlock.Core

namespace Flow

def provisions (f : Flow) : Bool :=
  match f.job with
  | .provision _ => true
  | _ => false

/-- The entry of a flow among the provisioning reservations. -/
def provisioningEntry (f : Flow) : Option (Reserved PlannedCapacityDevice) :=
  if f.provisions then f.reservation.map fun t => ⟨t, ⟨f.platform, .full⟩⟩ else none

/-- The entry of a flow among the running reservations. -/
def runningEntry (f : Flow) : Option (Reserved Platform) :=
  if f.job = .boot then f.reservation.map fun t => ⟨t, f.platform⟩ else none

/-- The entry of a flow among the boot reservations. -/
def bootEntry (f : Flow) : Option (Reserved String) :=
  if f.job = .boot then
    f.reservation.bind fun t => f.target.map fun target => ⟨t, target.deviceId⟩
  else none

end Flow

/-- The device is up, or what failed is over: the reservation may be gone. -/
def Point.isPast : Point → Bool
  | .handoff | .superseded | .disposing | .leaving => true
  | _ => false

/-- What holds of a flow wherever it waits. -/
structure FlowOk (f : Flow) : Prop where
  creating : f.point = .creating → f.provisions = true ∧ f.target = none
  target : f.point ≠ .creating → f.target.isSome
  platform : ∀ spec, f.job = .provision spec → f.platform = spec.platform
  holder : f.reservation.isSome → f.provisions = true ∨ f.job = .boot
  /-- A new device or a boot holds its reservation until the device is up or what failed is over. -/
  held : f.provisions = true ∨ f.job = .boot → f.reservation.isSome ∨ f.point.isPast = true

/-- What a step of a flow keeps. -/
structure Keeps (f : Flow) (n : Next) : Prop where
  reservation : (n.returns = none ∧ n.flow.bind Flow.reservation = f.reservation) ∨
    (n.returns = f.reservation ∧ n.flow.bind Flow.reservation = none)
  same : ∀ f', n.flow = some f' → f'.job = f.job ∧ f'.platform = f.platform ∧ f'.owner = f.owner
  target : ∀ f', n.flow = some f' → f'.target = f.target ∨
    ∃ spec id driverDeviceId version driverData, f.job = .provision spec ∧ f.point = .creating ∧
      n.section_ = some (.register id driverDeviceId (madeSpec spec version) driverData) ∧
      f'.target = some ⟨id, driverDeviceId⟩
  ok : ∀ f', n.flow = some f' → FlowOk f'

section Flows

variable {o : RegistryOptions} {s : Host} {f : Flow} {now : Int} {writable : Bool}

/-- A step to another point of a flow that has its device. -/
theorem Keeps.go (h : FlowOk f) {n : Next} {f' : Flow} (hflow : n.flow = some f')
    (hjob : f'.job = f.job) (hplatform : f'.platform = f.platform) (howner : f'.owner = f.owner)
    (htarget : f'.target = f.target)
    (hreservation : (n.returns = none ∧ f'.reservation = f.reservation) ∨
      (n.returns = f.reservation ∧ f'.reservation = none))
    (hpoint : f.point ≠ .creating ∧ f'.point ≠ .creating)
    (hpast : f'.point.isPast = true ∨ (f.point.isPast = false ∧ f'.reservation = f.reservation)) :
    Keeps f n := by
  have hprovisions : f'.provisions = f.provisions := by rw [Flow.provisions, Flow.provisions, hjob]
  refine ⟨?_, ?_, ?_, ?_⟩
  · rw [hflow]
    exact hreservation
  · intro g hg
    cases hflow.symm.trans hg
    exact ⟨hjob, hplatform, howner⟩
  · intro g hg
    cases hflow.symm.trans hg
    exact .inl htarget
  · intro g hg
    cases hflow.symm.trans hg
    refine ⟨fun hc => absurd hc hpoint.2, fun _ => htarget ▸ h.target hpoint.1, ?_, ?_, ?_⟩
    · intro spec hspec
      rw [hplatform]
      exact h.platform spec (hjob.symm.trans hspec)
    · intro hsome
      rw [hprovisions, hjob]
      rcases hreservation with ⟨-, hr⟩ | ⟨-, hr⟩
      · exact h.holder (hr ▸ hsome)
      · rw [hr] at hsome
        cases hsome
    · intro hholder
      rw [hprovisions, hjob] at hholder
      rcases hpast with hpast | ⟨hpast, hr⟩
      · exact .inr hpast
      · rcases h.held hholder with hsome | hp
        · exact .inl (hr ▸ hsome)
        · rw [hpast] at hp
          cases hp

theorem Keeps.stays (h : FlowOk f) : Keeps f (f.waits f.point) := by
  refine ⟨.inl ⟨rfl, rfl⟩, ?_, ?_, ?_⟩
  · rintro f' ⟨⟩
    exact ⟨rfl, rfl, rfl⟩
  · rintro f' ⟨⟩
    exact .inl rfl
  · rintro f' ⟨⟩
    exact h

theorem Keeps.ends {n : Next} (hflow : n.flow = none) (hreturns : n.returns = f.reservation) :
    Keeps f n := by
  refine ⟨.inr ⟨hreturns, by rw [hflow]; rfl⟩, ?_, ?_, ?_⟩ <;>
  · intro f' hf'
    rw [hflow] at hf'
    cases hf'

theorem fromCreating_keeps (h : FlowOk f) (hpoint : f.point = .creating) (m : Move) :
    Keeps f (f.fromCreating o s now writable m) := by
  obtain ⟨hprovisions, hnone⟩ := h.creating hpoint
  cases m with
  | register id driverDeviceId version driverData =>
    have hok : ∀ claim, FlowOk { f with
        target := some ⟨id, driverDeviceId⟩, claim := claim, point := .planned } := by
      intro claim
      refine ⟨?_, fun _ => rfl, h.platform, h.holder, fun hh => ?_⟩
      · rintro ⟨⟩
      · rcases h.held hh with hsome | hp
        · exact .inl hsome
        · rw [hpoint] at hp
          cases hp
    simp only [Flow.fromCreating]
    split
    · rename_i spec hjob
      split
      · split
        · refine ⟨.inl ⟨rfl, rfl⟩, ?_, ?_, ?_⟩
          · rintro f' ⟨⟩
            exact ⟨rfl, rfl, rfl⟩
          · rintro f' ⟨⟩
            exact .inr ⟨spec, id, driverDeviceId, version, driverData, hjob, hpoint, rfl, rfl⟩
          · rintro f' ⟨⟩
            exact hok f.claim
        · refine ⟨.inl ⟨rfl, rfl⟩, ?_, ?_, ?_⟩
          · rintro f' ⟨⟩
            exact ⟨rfl, rfl, rfl⟩
          · rintro f' ⟨⟩
            exact .inr ⟨spec, id, driverDeviceId, version, driverData, hjob, hpoint, rfl, rfl⟩
          · rintro f' ⟨⟩
            exact hok (some s.next)
      · exact Keeps.ends rfl rfl
    · exact Keeps.stays h
  | fail => exact Keeps.ends rfl rfl
  | _ => exact Keeps.stays h

/-- A step that goes on holding the reservation. -/
theorem Keeps.holds (h : FlowOk f) (hcreating : f.point ≠ .creating) (hpast : f.point.isPast = false)
    {n : Next} {f' : Flow} (hflow : n.flow = some f') (hjob : f'.job = f.job)
    (hplatform : f'.platform = f.platform) (howner : f'.owner = f.owner)
    (htarget : f'.target = f.target) (hreturns : n.returns = none)
    (hreservation : f'.reservation = f.reservation) (hpoint : f'.point ≠ .creating) : Keeps f n :=
  Keeps.go h hflow hjob hplatform howner htarget (.inl ⟨hreturns, hreservation⟩)
    ⟨hcreating, hpoint⟩ (.inr ⟨hpast, hreservation⟩)

theorem fromPlanned_keeps (h : FlowOk f) (hpoint : f.point = .planned) (m : Move) :
    Keeps f (f.fromPlanned s m) := by
  have hcreating : f.point ≠ .creating := by rw [hpoint]; simp
  have hpast : f.point.isPast = false := by rw [hpoint]; rfl
  cases m with
  | go =>
    simp only [Flow.fromPlanned]
    split
    · split
      · exact Keeps.holds h hcreating hpast rfl rfl rfl rfl rfl rfl rfl (by simp)
      · split
        · exact Keeps.holds h hcreating hpast rfl rfl rfl rfl rfl rfl rfl (by simp)
        · exact Keeps.holds h hcreating hpast rfl rfl rfl rfl rfl rfl rfl (by simp)
    · split
      · split
        · exact Keeps.holds h hcreating hpast rfl rfl rfl rfl rfl rfl rfl (by simp)
        · exact Keeps.holds h hcreating hpast rfl rfl rfl rfl rfl rfl rfl (by simp)
      · exact Keeps.holds h hcreating hpast rfl rfl rfl rfl rfl rfl rfl (by simp)
  | _ => exact Keeps.stays h

theorem afterReady_ne_creating : f.afterReady ≠ .creating := by
  rw [Flow.afterReady]
  split
  · simp
  · split <;> simp
  · simp

theorem fromWorking_keeps (h : FlowOk f) (hpoint : f.point = .working) (m : Move) :
    Keeps f (f.fromWorking o s now writable m) := by
  have hcreating : f.point ≠ .creating := by rw [hpoint]; simp
  have hpast : f.point.isPast = false := by rw [hpoint]; rfl
  cases m with
  | fail =>
    refine Keeps.holds h hcreating hpast rfl rfl rfl rfl rfl rfl rfl ?_
    dsimp only
    split <;> simp
  | ready ready =>
    simp only [Flow.fromWorking]
    have hready : ∀ (t : Target), Keeps f
        { section_ := some (f.commitReady t ready)
          flow := some { f with
            point := if (f.commitReady t ready).ran o s.registry now writable = .done then f.afterReady
              else .releasing } } := by
      intro t
      refine Keeps.holds h hcreating hpast rfl rfl rfl rfl rfl rfl rfl ?_
      dsimp only
      split
      · exact afterReady_ne_creating
      · simp
    split
    · exact hready _
    · exact hready _
    · exact hready _
    · exact Keeps.stays h
  | stopped =>
    simp only [Flow.fromWorking]
    split
    · refine Keeps.holds h hcreating hpast rfl rfl rfl rfl rfl rfl rfl ?_
      dsimp only
      split <;> simp
    · exact Keeps.stays h
  | done =>
    simp only [Flow.fromWorking]
    split
    · exact Keeps.holds h hcreating hpast rfl rfl rfl rfl rfl rfl rfl (by simp)
    · exact Keeps.holds h hcreating hpast rfl rfl rfl rfl rfl rfl rfl (by simp)
    · exact Keeps.stays h
  | _ => exact Keeps.stays h

theorem fromFailure_keeps (h : FlowOk f) (hcreating : f.point ≠ .creating)
    (hpast : f.point.isPast = false) (m : Move) :
    Keeps f (f.fromFailure o s now writable m) := by
  cases m with
  | go =>
    simp only [Flow.fromFailure]
    split
    · exact Keeps.holds h hcreating hpast rfl rfl rfl rfl rfl rfl rfl (by simp)
    · refine Keeps.holds h hcreating hpast rfl rfl rfl rfl rfl rfl rfl ?_
      dsimp only
      split <;> simp
    · split
      · split
        · exact Keeps.holds h hcreating hpast rfl rfl rfl rfl rfl rfl rfl (by simp)
        · exact Keeps.holds h hcreating hpast rfl rfl rfl rfl rfl rfl rfl (by simp)
      · exact Keeps.holds h hcreating hpast rfl rfl rfl rfl rfl rfl rfl (by simp)
    · exact Keeps.stays h
  | fail =>
    simp only [Flow.fromFailure]
    split
    · exact Keeps.holds h hcreating hpast rfl rfl rfl rfl rfl rfl rfl (by simp)
    · exact Keeps.stays h
  | done =>
    simp only [Flow.fromFailure]
    split
    · refine Keeps.holds h hcreating hpast rfl rfl rfl rfl rfl rfl rfl ?_
      dsimp only
      split <;> simp
    · exact Keeps.stays h
  | quarantine nextRetryAt cause =>
    simp only [Flow.fromFailure]
    split
    · split
      · exact Keeps.holds h hcreating hpast rfl rfl rfl rfl rfl rfl rfl (by simp)
      · split
        · exact Keeps.holds h hcreating hpast rfl rfl rfl rfl rfl rfl rfl (by simp)
        · exact Keeps.holds h hcreating hpast rfl rfl rfl rfl rfl rfl rfl (by simp)
    · exact Keeps.stays h
  | _ => exact Keeps.stays h

theorem fromHandoff_keeps (h : FlowOk f) (hpoint : f.point = .handoff) (m : Move) :
    Keeps f (f.fromHandoff m) := by
  cases m with
  | grant generated input => exact Keeps.ends rfl rfl
  | go => exact Keeps.ends rfl rfl
  | supersede =>
    refine Keeps.go h rfl rfl rfl rfl rfl (.inr ⟨rfl, rfl⟩) ⟨?_, by simp⟩ (.inl rfl)
    rw [hpoint]
    simp
  | _ => exact Keeps.stays h

theorem fromSuperseded_keeps (h : FlowOk f) (hcreating : f.point ≠ .creating) (m : Move) :
    Keeps f (f.fromSuperseded o s now writable m) := by
  have hgo : ∀ {n : Next} {f' : Flow}, n.flow = some f' → f'.job = f.job →
      f'.platform = f.platform → f'.owner = f.owner → f'.target = f.target → n.returns = none →
      f'.reservation = f.reservation → f'.point.isPast = true → Keeps f n := by
    intro n f' hflow hjob hplatform howner htarget hreturns hr hp
    refine Keeps.go h hflow hjob hplatform howner htarget (.inl ⟨hreturns, hr⟩) ⟨hcreating, ?_⟩
      (.inl hp)
    rintro hc
    rw [hc] at hp
    cases hp
  cases m with
  | go =>
    simp only [Flow.fromSuperseded]
    split
    · split
      · exact hgo rfl rfl rfl rfl rfl rfl rfl rfl
      · exact hgo rfl rfl rfl rfl rfl rfl rfl rfl
    · exact Keeps.stays h
  | stopped =>
    simp only [Flow.fromSuperseded]
    split
    · rename_i t hpoint ht
      split
      · exact hgo rfl rfl rfl rfl rfl rfl rfl (by rw [hpoint]; rfl)
      · exact hgo rfl rfl rfl rfl rfl rfl rfl rfl
    · exact Keeps.stays h
  | done =>
    simp only [Flow.fromSuperseded]
    split
    · exact hgo rfl rfl rfl rfl rfl rfl rfl rfl
    · exact Keeps.stays h
  | fail =>
    simp only [Flow.fromSuperseded]
    split
    · exact hgo rfl rfl rfl rfl rfl rfl rfl rfl
    · exact Keeps.stays h
  | _ => exact Keeps.stays h

/-- What every step of every flow keeps. -/
theorem next_keeps (o : RegistryOptions) (s : Host) (h : FlowOk f) (now : Int) (writable : Bool)
    (m : Move) : Keeps f (f.next o s now writable m) := by
  simp only [Flow.next]
  split
  · exact fromCreating_keeps h ‹_› m
  · exact fromPlanned_keeps h ‹_› m
  · exact fromWorking_keeps h ‹_› m
  · exact fromFailure_keeps h (by simp [*]) (by simp [*, Point.isPast]) m
  · exact fromFailure_keeps h (by simp [*]) (by simp [*, Point.isPast]) m
  · exact fromFailure_keeps h (by simp [*]) (by simp [*, Point.isPast]) m
  · exact fromFailure_keeps h (by simp [*]) (by simp [*, Point.isPast]) m
  · exact fromFailure_keeps h (by simp [*]) (by simp [*, Point.isPast]) m
  · rename_i hpoint
    split
    · exact Keeps.go h rfl rfl rfl rfl rfl (.inr ⟨rfl, rfl⟩) ⟨by simp [hpoint], by simp⟩ (.inl rfl)
    · exact Keeps.stays h
  · exact fromHandoff_keeps h ‹_› m
  · exact fromSuperseded_keeps h (by simp [*]) m
  · exact fromSuperseded_keeps h (by simp [*]) m
  · split
    · exact Keeps.ends rfl rfl
    · exact Keeps.stays h

/-- The sections a flow runs, and where. -/
inductive Runs (f : Flow) (n : Next) : Section → Prop
  | register {spec : VirtualSpec} {id driverDeviceId : String} {version : Int}
    {driverData : DriverData} (hjob : f.job = .provision spec) (hpoint : f.point = .creating)
    (hflow : ∀ f', n.flow = some f' → f'.target = some ⟨id, driverDeviceId⟩) :
    Runs f n (.register id driverDeviceId (madeSpec spec version) driverData)
  | ready {t : Target} {expected : VirtualState} {ready : ReadyDevice} (htarget : f.target = some t)
    (hpoint : f.point = .working)
    (hjob : (f.provisions = true ∧ expected = .provisioning) ∨
      (f.job = .boot ∧ expected = .shutdown)) :
    Runs f n (.commitReady t.deviceId t.driverDeviceId expected ready)
  | reboot {t : Target} {ready : ReadyDevice} (htarget : f.target = some t)
    (hjob : f.job = .reboot) : Runs f n (.commitReboot t.deviceId t.driverDeviceId ready)
  | shutdown {t : Target} (htarget : f.target = some t) :
    Runs f n (.commitShutdown t.deviceId t.driverDeviceId)
  | deleted {t : Target} (htarget : f.target = some t) :
    Runs f n (.commitDeleted t.deviceId t.driverDeviceId)
  | quarantine {t : Target} {nextRetryAt : Int} {cause : QuarantineCause}
    (htarget : f.target = some t) (hpoint : f.point = .undestroyed) :
    Runs f n (.enterFromStalledTransition t.deviceId .shutdown nextRetryAt cause)
  | grant {generated : String} {input : Registry.CreateLeaseInput} : Runs f n (.grant generated input)

theorem fromCreating_runs (hpoint : f.point = .creating) {m : Move} {w : Section}
    (hw : (f.fromCreating o s now writable m).section_ = some w) :
    Runs f (f.fromCreating o s now writable m) w := by
  cases m with
  | register id driverDeviceId version driverData =>
    simp only [Flow.fromCreating] at hw ⊢
    split at hw
    · rename_i spec hjob
      split at hw
      · rename_i hran
        simp only [hran, if_true]
        split at hw
        · rename_i hclaimed
          cases hw
          refine .register hjob hpoint ?_
          simp only [hclaimed, if_true]
          rintro f' ⟨⟩
          rfl
        · rename_i hclaimed
          cases hw
          refine .register hjob hpoint ?_
          simp only [hclaimed]
          rintro f' ⟨⟩
          rfl
      · rename_i hran
        simp only [hran, if_false]
        cases hw
        refine .register hjob hpoint ?_
        rintro f' ⟨⟩
    · cases hw
  | _ => cases hw

theorem fromWorking_runs (hpoint : f.point = .working) {m : Move} {w : Section} {n : Next}
    (hw : (f.fromWorking o s now writable m).section_ = some w) : Runs f n w := by
  cases m with
  | ready ready =>
    simp only [Flow.fromWorking] at hw
    split at hw
    · rename_i spec t hjob htarget
      cases hw
      rw [Flow.commitReady, hjob]
      exact .ready htarget hpoint (.inl ⟨by rw [Flow.provisions, hjob], rfl⟩)
    · rename_i t hjob htarget
      cases hw
      rw [Flow.commitReady, hjob]
      exact .ready htarget hpoint (.inr ⟨hjob, rfl⟩)
    · rename_i t hjob htarget
      cases hw
      rw [Flow.commitReady, hjob]
      exact .reboot htarget hjob
    · cases hw
  | stopped =>
    simp only [Flow.fromWorking] at hw
    split at hw
    · rename_i t hjob htarget
      cases hw
      exact .shutdown htarget
    · cases hw
  | done =>
    simp only [Flow.fromWorking] at hw
    split at hw
    · rename_i t hjob htarget
      cases hw
      exact .shutdown htarget
    · rename_i t hjob htarget
      cases hw
      exact .deleted htarget
    · cases hw
  | _ => cases hw

theorem fromFailure_runs {m : Move} {w : Section} {n : Next}
    (hw : (f.fromFailure o s now writable m).section_ = some w) : Runs f n w := by
  cases m with
  | go =>
    simp only [Flow.fromFailure] at hw
    split at hw
    · obtain ⟨t, htarget, rfl⟩ := Option.map_eq_some_iff.mp hw
      exact .shutdown htarget
    · cases hw
    · split at hw
      · split at hw <;> cases hw
      · cases hw
    · cases hw
  | fail =>
    simp only [Flow.fromFailure] at hw
    split at hw <;> cases hw
  | done =>
    simp only [Flow.fromFailure] at hw
    split at hw
    · rename_i t hpoint htarget
      cases hw
      exact .deleted htarget
    · cases hw
  | quarantine nextRetryAt cause =>
    simp only [Flow.fromFailure] at hw
    split at hw
    · rename_i t hpoint htarget
      split at hw
      · cases hw
      · split at hw
        · cases hw
        · cases hw
          exact .quarantine htarget hpoint
    · cases hw
  | _ => cases hw

theorem fromSuperseded_runs {m : Move} {w : Section} {n : Next}
    (hw : (f.fromSuperseded o s now writable m).section_ = some w) : Runs f n w := by
  cases m with
  | go =>
    simp only [Flow.fromSuperseded] at hw
    split at hw
    · split at hw <;> cases hw
    · cases hw
  | stopped =>
    simp only [Flow.fromSuperseded] at hw
    split at hw
    · rename_i t hpoint htarget
      split at hw
      · cases hw
        exact .shutdown htarget
      · cases hw
        exact .shutdown htarget
    · cases hw
  | done =>
    simp only [Flow.fromSuperseded] at hw
    split at hw
    · rename_i t hpoint htarget
      cases hw
      exact .deleted htarget
    · cases hw
  | fail =>
    simp only [Flow.fromSuperseded] at hw
    split at hw <;> cases hw
  | _ => cases hw

theorem next_runs {m : Move} {w : Section} (hw : (f.next o s now writable m).section_ = some w) :
    Runs f (f.next o s now writable m) w := by
  have hplanned : ∀ m, (f.fromPlanned s m).section_ = none := by
    intro m
    cases m with
    | go =>
      simp only [Flow.fromPlanned]
      split
      · split
        · rfl
        · split <;> rfl
      · split
        · split <;> rfl
        · rfl
    | _ => rfl
  simp only [Flow.next] at hw ⊢
  split at hw
  · exact fromCreating_runs ‹_› hw
  · rw [hplanned] at hw
    cases hw
  · exact fromWorking_runs ‹_› hw
  · exact fromFailure_runs hw
  · exact fromFailure_runs hw
  · exact fromFailure_runs hw
  · exact fromFailure_runs hw
  · exact fromFailure_runs hw
  · split at hw <;> cases hw
  · cases m with
    | grant generated input =>
      obtain ⟨t, -, rfl⟩ := Option.map_eq_some_iff.mp hw
      exact .grant
    | _ => cases hw
  · exact fromSuperseded_runs hw
  · exact fromSuperseded_runs hw
  · split at hw <;> cases hw

end Flows

/-! ### Entries and flows -/

/-- The entries of the coordinator are those of the flows, each of its own token. -/
structure Ledger (s : Host) : Prop where
  flows : ∀ f ∈ s.flows, FlowOk f
  provisioning : s.capacity.provisioningReservations.Perm (s.flows.filterMap Flow.provisioningEntry)
  running : s.capacity.runningReservations.Perm (s.flows.filterMap Flow.runningEntry)
  boot : s.capacity.bootReservations.Perm (s.flows.filterMap Flow.bootEntry)
  tokens : (s.flows.filterMap Flow.reservation).Nodup
  fresh : ∀ t ∈ s.flows.filterMap Flow.reservation, t < s.next

section Entries

variable {α : Type} {e : Flow → Option (Reserved α)} {l : List (Reserved α)} {flows : List Flow}
  {f : Flow} {t : Nat}

theorem filterMap_perm_cons_erase {β : Type} (g : Flow → Option β) (hf : f ∈ flows) :
    (flows.filterMap g).Perm ((g f).toList ++ (flows.erase f).filterMap g) := by
  refine ((List.perm_cons_erase hf).filterMap g).trans ?_
  cases hg : g f with
  | none => rw [List.filterMap_cons_none hg]; rfl
  | some b => rw [List.filterMap_cons_some hg]; rfl

theorem filterMap_toList_append {β : Type} (g : Flow → Option β) (f' : Option Flow)
    (rest : List Flow) :
    (f'.toList ++ rest).filterMap g = (f'.bind g).toList ++ rest.filterMap g := by
  cases f' with
  | none => rfl
  | some f' =>
    rw [List.filterMap_append]
    cases hg : g f' <;> simp [hg]

/-- The token of one flow is not that of another. -/
theorem not_mem_erase (htokens : (flows.filterMap Flow.reservation).Nodup) (hf : f ∈ flows)
    (ht : f.reservation = some t) : t ∉ (flows.erase f).filterMap Flow.reservation := by
  have hperm := filterMap_perm_cons_erase Flow.reservation hf
  rw [ht] at hperm
  exact (List.nodup_cons.mp (hperm.nodup_iff.mp htokens)).1

/-- What is released is the entry of the one flow. -/
theorem perm_release (he : ∀ f r, e f = some r → f.reservation = some r.token)
    (hl : l.Perm (flows.filterMap e)) (htokens : (flows.filterMap Flow.reservation).Nodup)
    (hf : f ∈ flows) (ht : f.reservation = some t) :
    (l.filter fun r => r.token ≠ t).Perm ((flows.erase f).filterMap e) := by
  have hperm := (hl.trans (filterMap_perm_cons_erase e hf)).filter fun r => r.token ≠ t
  rw [List.filter_append] at hperm
  have hown : (e f).toList.filter (fun r => r.token ≠ t) = [] := by
    cases hef : e f with
    | none => rfl
    | some r =>
      have hr : r.token = t := Option.some.inj ((he f r hef).symm.trans ht)
      simp [hr]
  have hrest : ((flows.erase f).filterMap e).filter (fun r => r.token ≠ t) =
      (flows.erase f).filterMap e := by
    rw [List.filter_eq_self]
    intro r hr
    obtain ⟨g, hg, hgr⟩ := List.mem_filterMap.mp hr
    refine decide_eq_true fun hrt => ?_
    refine not_mem_erase htokens hf ht (List.mem_filterMap.mpr ⟨g, hg, ?_⟩)
    rw [he g r hgr, hrt]
  rw [hown, hrest, List.nil_append] at hperm
  exact hperm

theorem provisioningEntry_token (f : Flow) (r : Reserved PlannedCapacityDevice)
    (h : f.provisioningEntry = some r) : f.reservation = some r.token := by
  rw [Flow.provisioningEntry] at h
  split at h
  · obtain ⟨t, ht, rfl⟩ := Option.map_eq_some_iff.mp h
    exact ht
  · cases h

theorem runningEntry_token (f : Flow) (r : Reserved Platform) (h : f.runningEntry = some r) :
    f.reservation = some r.token := by
  rw [Flow.runningEntry] at h
  split at h
  · obtain ⟨t, ht, rfl⟩ := Option.map_eq_some_iff.mp h
    exact ht
  · cases h

theorem bootEntry_token (f : Flow) (r : Reserved String) (h : f.bootEntry = some r) :
    f.reservation = some r.token := by
  rw [Flow.bootEntry] at h
  split at h
  · obtain ⟨t, ht, htarget⟩ := Option.bind_eq_some_iff.mp h
    obtain ⟨target, -, rfl⟩ := Option.map_eq_some_iff.mp htarget
    exact ht
  · cases h

/-- A flow without a reservation has no entry. -/
theorem entry_none (he : ∀ f r, e f = some r → f.reservation = some r.token)
    (h : f.reservation = none) : e f = none := by
  cases hef : e f with
  | none => rfl
  | some r =>
    rw [he f r hef] at h
    cases h

/-- The entries after a step of one flow: its entry stays, or is released. -/
theorem perm_take (he : ∀ f r, e f = some r → f.reservation = some r.token) {n : Next}
    (hkeeps : Keeps f n)
    (hsame : ∀ f', n.flow = some f' → f'.reservation = f.reservation → e f' = e f)
    (hl : l.Perm (flows.filterMap e)) (htokens : (flows.filterMap Flow.reservation).Nodup)
    (hf : f ∈ flows) :
    ((n.returns.map fun t => l.filter fun r => r.token ≠ t).getD l).Perm
      ((n.flow.toList ++ flows.erase f).filterMap e) := by
  rw [filterMap_toList_append]
  -- a flow that holds on to its reservation, or to none
  have hholds : n.flow.bind Flow.reservation = f.reservation →
      l.Perm ((n.flow.bind e).toList ++ (flows.erase f).filterMap e) := by
    intro hr
    have hentry : n.flow.bind e = e f := by
      cases hflow : n.flow with
      | none =>
        rw [hflow] at hr
        exact (entry_none he hr.symm).symm
      | some f' =>
        rw [hflow] at hr
        exact hsame f' hflow hr
    rw [hentry]
    exact hl.trans (filterMap_perm_cons_erase e hf)
  rcases hkeeps.reservation with ⟨hreturns, hr⟩ | ⟨hreturns, hr⟩
  · rw [hreturns]
    exact hholds hr
  · cases ht : f.reservation with
    | none =>
      rw [hreturns, ht]
      exact hholds (hr.trans ht.symm)
    | some t =>
      rw [hreturns, ht]
      have hentry : n.flow.bind e = none := by
        cases hflow : n.flow with
        | none => rfl
        | some f' =>
          rw [hflow] at hr
          exact entry_none he hr
      rw [hentry]
      exact perm_release he hl htokens hf ht

end Entries

section Steps

variable {o : RegistryOptions} {strategy : CapacityStrategy} {s : Host}

theorem tokens_take {flows : List Flow} {f : Flow} {n : Next} (hkeeps : Keeps f n) (hf : f ∈ flows)
    (htokens : (flows.filterMap Flow.reservation).Nodup) :
    ((n.flow.toList ++ flows.erase f).filterMap Flow.reservation).Nodup ∧
      ∀ t ∈ (n.flow.toList ++ flows.erase f).filterMap Flow.reservation,
        t ∈ flows.filterMap Flow.reservation := by
  have hperm := filterMap_perm_cons_erase Flow.reservation hf
  have hnodup := hperm.nodup_iff.mp htokens
  rw [filterMap_toList_append]
  have hsub : List.Sublist (n.flow.bind Flow.reservation).toList f.reservation.toList := by
    rcases hkeeps.reservation with ⟨-, hr⟩ | ⟨-, hr⟩
    · rw [hr]
    · rw [hr]
      exact List.nil_sublist _
  have hsub' := hsub.append_right ((flows.erase f).filterMap Flow.reservation)
  exact ⟨hsub'.nodup hnodup, fun t ht => hperm.mem_iff.mpr (hsub'.subset ht)⟩

theorem Ledger.take (h : Ledger s) {f : Flow} (hf : f ∈ s.flows) {n : Next} (hkeeps : Keeps f n)
    (now : Int) (writable : Bool) : Ledger (s.take o f n now writable) := by
  have hsame := hkeeps.same
  have hcapacity : ∀ {α : Type} (g : CapacityCoordinator → List (Reserved α)),
      (∀ t, g (s.capacity.release t) = (g s.capacity).filter fun r => r.token ≠ t) →
      g (s.take o f n now writable).capacity =
        (n.returns.map fun t => (g s.capacity).filter fun r => r.token ≠ t).getD (g s.capacity) := by
    intro α g hg
    simp only [Host.take]
    cases n.returns with
    | none => rfl
    | some t => exact hg t
  obtain ⟨htokens, hsub⟩ := tokens_take hkeeps hf h.tokens
  refine ⟨?_, ?_, ?_, ?_, htokens, ?_⟩
  · intro g hg
    rcases List.mem_append.mp hg with hg | hg
    · exact hkeeps.ok g (Option.mem_toList.mp hg)
    · exact h.flows g (List.mem_of_mem_erase hg)
  · rw [hcapacity CapacityCoordinator.provisioningReservations fun t => rfl]
    refine perm_take provisioningEntry_token hkeeps ?_ h.provisioning h.tokens hf
    intro f' hf' hr
    obtain ⟨hjob, hplatform, -⟩ := hsame f' hf'
    rw [Flow.provisioningEntry, Flow.provisioningEntry, Flow.provisions, Flow.provisions, hjob,
      hplatform, hr]
  · rw [hcapacity CapacityCoordinator.runningReservations fun t => rfl]
    refine perm_take runningEntry_token hkeeps ?_ h.running h.tokens hf
    intro f' hf' hr
    obtain ⟨hjob, hplatform, -⟩ := hsame f' hf'
    rw [Flow.runningEntry, Flow.runningEntry, hjob, hplatform, hr]
  · rw [hcapacity CapacityCoordinator.bootReservations fun t => rfl]
    refine perm_take bootEntry_token hkeeps ?_ h.boot h.tokens hf
    intro f' hf' hr
    obtain ⟨hjob, -, -⟩ := hsame f' hf'
    rcases hkeeps.target f' hf' with htarget | ⟨spec, id, driverDeviceId, version, driverData, hj, -⟩
    · rw [Flow.bootEntry, Flow.bootEntry, hjob, htarget, hr]
    · rw [Flow.bootEntry, Flow.bootEntry, hjob, hj, if_neg (by simp), if_neg (by simp)]
  · intro t ht
    exact Nat.lt_succ_of_lt (h.fresh t (hsub t ht))

/-- A plan that reserved nothing. -/
theorem Ledger.claimFor (h : Ledger s) {f : Flow} (hok : FlowOk f) (hnone : f.reservation = none)
    (operation : DeviceOperation) (owner : Option String) (deviceId : String) :
    Ledger (s.claimFor operation owner f deviceId) := by
  have hp := entry_none provisioningEntry_token hnone
  have hr := entry_none runningEntry_token hnone
  have hb := entry_none bootEntry_token hnone
  refine ⟨?_, ?_, ?_, ?_, ?_, ?_⟩
  · intro g hg
    rcases List.mem_cons.mp hg with rfl | hg
    · exact hok
    · exact h.flows g hg
  · simp only [Host.claimFor, List.filterMap_cons_none hp]
    exact h.provisioning
  · simp only [Host.claimFor, List.filterMap_cons_none hr]
    exact h.running
  · simp only [Host.claimFor, List.filterMap_cons_none hb]
    exact h.boot
  · simp only [Host.claimFor, List.filterMap_cons_none hnone]
    exact h.tokens
  · simp only [Host.claimFor, List.filterMap_cons_none hnone]
    exact fun t ht => Nat.lt_succ_of_lt (h.fresh t ht)

theorem flowOf_ok (job : Job) (owner : Option String) (d : Device) (claim : Option Nat)
    (hjob : ∀ spec, job ≠ .provision spec) (hboot : job ≠ .boot) :
    FlowOk (flowOf job owner d none claim) := by
  have hprovisions : (flowOf job owner d none claim).provisions = false := by
    cases job with
    | provision spec => exact absurd rfl (hjob spec)
    | _ => rfl
  refine ⟨fun hc => ?_, fun _ => rfl, fun spec hspec => absurd hspec (hjob spec), ?_, ?_⟩
  · simp only [flowOf] at hc
    split at hc <;> cases hc
  · intro hsome
    cases hsome
  · rintro (hp | hb)
    · rw [hprovisions] at hp
      cases hp
    · exact absurd hb hboot

theorem tokens_cons (h : Ledger s) {f : Flow} (hf : f.reservation = some s.next) :
    ((f :: s.flows).filterMap Flow.reservation).Nodup ∧
      ∀ t ∈ (f :: s.flows).filterMap Flow.reservation, t < s.next + 1 := by
  rw [List.filterMap_cons_some hf]
  refine ⟨List.nodup_cons.mpr ⟨fun hmem => Nat.lt_irrefl _ (h.fresh _ hmem), h.tokens⟩, ?_⟩
  intro t ht
  rcases List.mem_cons.mp ht with rfl | ht
  · exact Nat.lt_succ_self _
  · exact Nat.lt_succ_of_lt (h.fresh t ht)

theorem perm_cons {α : Type} {e : Flow → Option (Reserved α)} {l : List (Reserved α)} {f : Flow}
    {r : Reserved α} (he : e f = some r) (hl : l.Perm (s.flows.filterMap e)) :
    (l ++ [r]).Perm ((f :: s.flows).filterMap e) := by
  rw [List.filterMap_cons_some he]
  exact (List.perm_append_singleton r l).trans (hl.cons r)

/-- What one action does to a worker. -/
inductive Stepped (o : RegistryOptions) (strategy : CapacityStrategy) (s : Host) :
    HostAction → Host → Prop
  | idle (a : HostAction) : Stepped o strategy s a s
  /-- A plan that reserved a new device. -/
  | provision {spec : VirtualSpec} {owner : Option String} {paused : Bool}
    {capacity : CapacityCoordinator}
    (hok : s.capacity.tryReserveProvisioning strategy paused s.next (plannedCapacityDevice spec)
      (capacityDevices s.registry) = .ok capacity) :
    Stepped o strategy s (.planProvision spec owner paused true)
      { s with
        capacity := capacity
        flows := ⟨.provision spec, owner, spec.platform, none, some s.next, none, none, .creating⟩ ::
          s.flows
        next := s.next + 1 }
  /-- A plan that reserved the boot of a device and claimed it. -/
  | boot {deviceId : String} {owner : Option String} {paused : Bool} {v : VirtualDevice}
    {capacity : CapacityCoordinator} (hd : s.registry.device deviceId = some (.virtual v))
    (hshutdown : v.state = .shutdown) (hfree : s.isClaimed deviceId = false)
    (hok : s.capacity.tryReserveBoot strategy paused s.next v.id (capacityDevice v)
      (capacityDevices s.registry) = .ok capacity) :
    Stepped o strategy s (.planBoot deviceId owner paused true)
      { s.claimFor .boot owner (flowOf .boot owner (.virtual v) (some s.next) (some s.next))
          deviceId with
        capacity := capacity }
  /-- A plan that claimed a device and reserved nothing. -/
  | claimed {a : HostAction} {deviceId : String} {operation : DeviceOperation}
    {claimOwner : Option String} {job : Job} {owner : String} {d : Device}
    (hd : s.registry.device deviceId = some d) (hfree : s.isClaimed deviceId = false)
    (hoperation : operation.isPlanned = true)
    (hjob : job = .reboot ∨ job = .evictRunning ∨ job = .evictManaged ∨ job = .grantPhysical) :
    Stepped o strategy s a (s.claimFor operation claimOwner
      (flowOf job (some owner) d none (some s.next)) deviceId)
  | advanced {f : Flow} {m : Move} {now : Int} {writable : Bool} (hf : f ∈ s.flows) :
    Stepped o strategy s (.advance f m now writable)
      (s.take o f (f.next o s now writable m) now writable)
  | other {w : Section} {now : Int} {writable : Bool} (hw : w.isFlows = false) :
    Stepped o strategy s (.other w now writable)
      { s with registry := w.after o s.registry now writable }
  /-- Another workflow claims a device. -/
  | takes {deviceId : String} {operation : DeviceOperation} (hplanned : operation.isPlanned = false)
    (hfree : s.isClaimed deviceId = false) :
    Stepped o strategy s (.claim deviceId operation)
      { s with claims := s.claims ++ [⟨s.next, deviceId, operation, none⟩], next := s.next + 1 }
  /-- Another workflow gives a claim back. -/
  | gives {token : Nat} (hown : ∀ f ∈ s.flows, f.claim ≠ some token ∧ f.own ≠ some token) :
    Stepped o strategy s (.release token)
      { s with claims := s.claims.filter fun c => c.token ≠ token || c.operation.isPlanned }

theorem step_stepped (o : RegistryOptions) (strategy : CapacityStrategy) (s : Host)
    (a : HostAction) : Stepped o strategy s a (s.step o strategy a) := by
  cases a with
  | planProvision spec owner paused accepted =>
    simp only [Host.step]
    split
    · exact .idle _
    · rename_i capacity hok
      cases accepted with
      | true => exact .provision hok
      | false => exact .idle _
  | planBoot deviceId owner paused accepted =>
    simp only [Host.step]
    split
    · rename_i v hd
      split
      · exact .idle _
      · rename_i capacity hok
        split
        · rename_i hplan
          simp only [Bool.and_eq_true, decide_eq_true_eq, Bool.not_eq_true'] at hplan
          obtain ⟨⟨hshutdown, hfree⟩, rfl⟩ := hplan
          exact .boot hd hshutdown hfree hok
        · exact .idle _
    · exact .idle _
  | planReboot deviceId owner paused accepted =>
    simp only [Host.step]
    split
    · rename_i v hd
      split
      · rename_i hplan
        simp only [Bool.and_eq_true, Bool.not_eq_true'] at hplan
        exact .claimed hd hplan.1.2 rfl (.inl rfl)
      · exact .idle _
    · exact .idle _
  | planEviction deviceId owner managed accepted =>
    simp only [Host.step]
    split
    · rename_i v hd
      split
      · rename_i hplan
        simp only [Bool.and_eq_true, Bool.not_eq_true'] at hplan
        refine .claimed hd hplan.1.2 rfl ?_
        split
        · exact .inr (.inr (.inl rfl))
        · exact .inr (.inl rfl)
      · exact .idle _
    · exact .idle _
  | planPhysical deviceId owner accepted =>
    simp only [Host.step]
    split
    · rename_i p hd
      split
      · rename_i hplan
        simp only [Bool.and_eq_true, Bool.not_eq_true'] at hplan
        exact .claimed hd hplan.1.2 rfl (.inr (.inr (.inr rfl)))
      · exact .idle _
    · exact .idle _
  | advance f m now writable =>
    simp only [Host.step]
    split
    · exact .advanced ‹_›
    · exact .idle _
  | other w now writable =>
    simp only [Host.step]
    split
    · exact .idle _
    · rename_i hw
      exact .other (Bool.not_eq_true _ ▸ hw)
  | claim deviceId operation =>
    simp only [Host.step]
    split
    · exact .idle _
    · rename_i hplan
      simp only [Bool.or_eq_true, not_or, Bool.not_eq_true] at hplan
      exact .takes hplan.1 hplan.2
  | release token =>
    simp only [Host.step]
    split
    · exact .idle _
    · rename_i hown
      refine .gives fun f hf => ?_
      simp only [List.any_eq_true, not_exists, not_and, Bool.or_eq_true, decide_eq_true_eq,
        not_or] at hown
      exact hown f hf

/-- Every action keeps the entries and the flows one to one. -/
theorem Ledger.step (h : Ledger s) {s' : Host} {a : HostAction}
    (hstep : Stepped o strategy s a s') : Ledger s' := by
  cases hstep with
  | idle => exact h
  | @provision spec owner paused capacity hok =>
    obtain ⟨rfl, -, -⟩ := tryReserveProvisioning_ok hok
    obtain ⟨htokens, hfresh⟩ := tokens_cons h (f := ⟨.provision spec, owner, spec.platform, none,
      some s.next, none, none, .creating⟩) rfl
    refine ⟨?_, ?_, ?_, ?_, htokens, hfresh⟩
    · intro g hg
      rcases List.mem_cons.mp hg with rfl | hg
      · refine ⟨fun _ => ⟨rfl, rfl⟩, fun hp => absurd rfl hp, ?_, fun _ => .inl rfl, fun _ => .inl rfl⟩
        rintro spec' ⟨⟩
        rfl
      · exact h.flows g hg
    · exact perm_cons rfl h.provisioning
    · exact h.running
    · exact h.boot
  | @boot deviceId owner paused v capacity hd hshutdown hfree hok =>
    obtain ⟨rfl, -, -⟩ := tryReserveBoot_ok hok
    obtain ⟨htokens, hfresh⟩ := tokens_cons h
      (f := flowOf .boot owner (.virtual v) (some s.next) (some s.next)) rfl
    refine ⟨?_, ?_, ?_, ?_, htokens, hfresh⟩
    · intro g hg
      rcases List.mem_cons.mp hg with rfl | hg
      · refine ⟨?_, fun _ => rfl, ?_, fun _ => .inr rfl, fun _ => .inl rfl⟩
        · rintro ⟨⟩
        · rintro spec ⟨⟩
      · exact h.flows g hg
    · exact h.provisioning
    · exact perm_cons rfl h.running
    · exact perm_cons rfl h.boot
  | @claimed a deviceId operation claimOwner job owner d hd hfree hoperation hjob =>
    refine h.claimFor (flowOf_ok _ _ _ _ ?_ ?_) rfl _ _ _
    · rintro spec rfl
      simp at hjob
    · rintro rfl
      simp at hjob
  | @advanced f m now writable hf =>
    exact h.take hf (next_keeps o s (h.flows f hf) now writable m) now writable
  | other hw => exact ⟨h.flows, h.provisioning, h.running, h.boot, h.tokens, h.fresh⟩
  | takes hplanned hfree =>
    exact ⟨h.flows, h.provisioning, h.running, h.boot, h.tokens,
      fun t ht => Nat.lt_succ_of_lt (h.fresh t ht)⟩
  | gives hown => exact ⟨h.flows, h.provisioning, h.running, h.boot, h.tokens, h.fresh⟩

theorem Ledger.start (r : Registry) : Ledger (Host.start r) where
  flows f hf := by cases hf
  provisioning := List.Perm.nil
  running := List.Perm.nil
  boot := List.Perm.nil
  tokens := List.nodup_nil
  fresh t ht := by cases ht

end Steps

end Simlock.Worker
