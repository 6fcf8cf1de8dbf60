import Mathlib.Data.Fintype.EquivFin
import Simlock.Lib.Recent
import Simlock.Gateway.IndexSteps

/-! Reconciliation forgets only stale leases.

    A snapshot is stated entry by entry (`reconciled`): it marks an entry of its worker that it does
    not report, and forgets one that is marked already. A mark is therefore of the worker's last
    snapshot, which is what `LastMissed` says of a run.

    An id that a worker's answer ended is remembered until 200 others are ended after it. `remember`
    does not move an id it has already, so one that is ended again goes sooner. -/
namespace Simlock.Gateway
open Simlock.Lib Simlock.Core Simlock.Leasing
namespace FleetLeaseIndex

section Reconciled

variable {x y : FleetLeaseIndex} {workerId : String} {lease : WorkerReportedLease}
  {leases : List WorkerReportedLease} {devices : List ReportedDevice} {generation : Nat}
  {reported : List String} {e : FleetLeaseEntry} {id : String}

/-- What a snapshot leaves of an entry and of the mark that it was missed. -/
def reconciled (workerId : String) (generation : Nat) (reported : List String)
    (e : FleetLeaseEntry) (mark : Option Nat) : Option FleetLeaseEntry × Option Nat :=
  if e.workerId ≠ workerId ∨ e.gatewayLeaseId ∈ reported then (some e, mark)
  else
    match mark with
    | none => (some e, some generation)
    | some m => if m < generation then (none, none) else (some e, some m)

theorem reconcileEntry_self (he : x.resolve e.gatewayLeaseId = some e) :
    ((reconcileEntry workerId generation reported x e).resolve e.gatewayLeaseId,
      (reconcileEntry workerId generation reported x e).missingSince e.gatewayLeaseId) =
      reconciled workerId generation reported e (x.missingSince e.gatewayLeaseId) := by
  simp only [reconcileEntry, reconciled, Bool.or_eq_true, decide_eq_true_eq]
  split
  · rw [he]
  · cases hmark : x.missingSince e.gatewayLeaseId with
    | none =>
      have hsame : (x.markMissing e.gatewayLeaseId generation).resolve e.gatewayLeaseId = some e := he
      exact Prod.ext hsame (Function.update_self ..)
    | some m =>
      dsimp only
      split
      · rw [resolve_forget, if_pos rfl, forget_eq]
        simp
      · rw [he, hmark]

theorem reconcileEntry_of_ne (hid : id ≠ e.gatewayLeaseId) :
    ((reconcileEntry workerId generation reported x e).resolve id,
      (reconcileEntry workerId generation reported x e).missingSince id) =
      (x.resolve id, x.missingSince id) := by
  simp only [reconcileEntry]
  split
  · rfl
  · split
    · exact Prod.ext rfl (Function.update_of_ne hid _ _)
    · split
      · rw [resolve_forget, if_neg hid, forget_eq]
        exact Prod.ext rfl (Function.update_of_ne hid _ _)
      · rfl

variable (workerId) (generation) (reported) in
theorem reconcile_at (es : List FleetLeaseEntry) : ∀ x : FleetLeaseIndex,
    (es.map FleetLeaseEntry.gatewayLeaseId).Nodup →
    (∀ e ∈ es, x.resolve e.gatewayLeaseId = some e) →
    (∀ id, id ∉ es.map FleetLeaseEntry.gatewayLeaseId →
      ((es.foldl (reconcileEntry workerId generation reported) x).resolve id,
        (es.foldl (reconcileEntry workerId generation reported) x).missingSince id) =
        (x.resolve id, x.missingSince id)) ∧
    ∀ e ∈ es, ((es.foldl (reconcileEntry workerId generation reported) x).resolve e.gatewayLeaseId,
      (es.foldl (reconcileEntry workerId generation reported) x).missingSince e.gatewayLeaseId) =
        reconciled workerId generation reported e (x.missingSince e.gatewayLeaseId) := by
  induction es with
  | nil => exact fun x _ _ => ⟨fun _ _ => rfl, nofun⟩
  | cons e es ih =>
    intro x hnodup hthere
    rw [List.map_cons, List.nodup_cons] at hnodup
    obtain ⟨hnot, hnodup⟩ := hnodup
    have hne : ∀ e' ∈ es, e'.gatewayLeaseId ≠ e.gatewayLeaseId :=
      fun e' he' heq => hnot (heq ▸ List.mem_map_of_mem he')
    have hhead : ∀ e' ∈ es, ((reconcileEntry workerId generation reported x e).resolve
        e'.gatewayLeaseId, (reconcileEntry workerId generation reported x e).missingSince
          e'.gatewayLeaseId) = (x.resolve e'.gatewayLeaseId, x.missingSince e'.gatewayLeaseId) :=
      fun e' he' => reconcileEntry_of_ne (hne e' he')
    obtain ⟨hothers, hones⟩ := ih (reconcileEntry workerId generation reported x e) hnodup
      fun e' he' => (congrArg Prod.fst (hhead e' he')).trans
        (hthere e' (List.mem_cons_of_mem e he'))
    refine ⟨?_, ?_⟩
    · intro id hid
      rw [List.map_cons, List.mem_cons, not_or] at hid
      exact (hothers id hid.2).trans (reconcileEntry_of_ne hid.1)
    · intro e' he'
      rcases List.mem_cons.mp he' with rfl | he'
      · exact (hothers e'.gatewayLeaseId hnot).trans
          (reconcileEntry_self (hthere e' List.mem_cons_self))
      · exact (hones e' he').trans (congrArg (reconciled workerId generation reported e')
          (congrArg Prod.snd (hhead e' he')))

variable (workerId) (leases) (devices) in
/-- A snapshot, entry by entry. -/
theorem rebuild_at (h : x.Kept) (id : String) :
    ((x.rebuildFromWorker workerId leases devices).resolve id,
      (x.rebuildFromWorker workerId leases devices).missingSince id) =
      match ((x.counted workerId).addReported workerId leases devices).2.resolve id with
      | none => (none, none)
      | some e => reconciled workerId (x.nextGeneration workerId)
          ((x.counted workerId).addReported workerId leases devices).1 e
          (((x.counted workerId).addReported workerId leases devices).2.missingSince id) := by
  have hkept := kept_addReported workerId leases devices
    (h.counted workerId)
  have hspec := reconcile_at workerId (x.nextGeneration workerId) (((x.counted workerId).addReported workerId leases devices).1)
    ((x.counted workerId).addReported workerId leases devices).2.byGatewayId
    ((x.counted workerId).addReported workerId leases devices).2 hkept.ids
    fun e he => (resolve_eq_some hkept.ids).mpr ⟨he, rfl⟩
  rw [rebuildFromWorker_eq]
  cases he : ((x.counted workerId).addReported workerId leases devices).2.resolve id with
  | none =>
    rw [hspec.1 id, he]
    · cases hmark : ((x.counted workerId).addReported workerId leases devices).2.missingSince id with
      | none => rfl
      | some m =>
        have hknown := hkept.missing id (by rw [hmark]; rfl)
        rw [he] at hknown
        cases hknown
    · intro hmem
      obtain ⟨e, hentry, rfl⟩ := List.mem_map.mp hmem
      rw [(resolve_eq_some hkept.ids).mpr ⟨hentry, rfl⟩] at he
      cases he
  | some e =>
    have hid := resolve_id he
    subst hid
    exact hspec.2 e (resolve_mem he)

variable (workerId) (leases) (devices) in
/-- What a snapshot leaves of the rest. -/
theorem rebuild_fields (h : x.Kept) :
    (x.rebuildFromWorker workerId leases devices).generation =
        Function.update x.generation workerId (some (x.nextGeneration workerId)) ∧
      (x.rebuildFromWorker workerId leases devices).endedByWorkerAnswer = x.endedByWorkerAnswer ∧
      (x.rebuildFromWorker workerId leases devices).gatewayRequesterPrefix =
        x.gatewayRequesterPrefix := by
  have hreporting : Reporting workerId leases (x.counted workerId)
      ((x.counted workerId).addReported workerId leases devices) := addReported_reporting _ _ _
  refine rebuild_rule (P := fun y => y.generation =
      Function.update x.generation workerId (some (x.nextGeneration workerId)) ∧
      y.endedByWorkerAnswer = x.endedByWorkerAnswer ∧
      y.gatewayRequesterPrefix = x.gatewayRequesterPrefix) h ?_ ?_ ?_
  · exact ⟨hreporting.generation, hreporting.grows.ended, hreporting.grows.requesterPrefix⟩
  · exact fun y e hy _ _ _ _ => hy
  · intro y e g hy _ _ _ _ _
    rw [forget_eq]
    exact hy

end Reconciled

/-! ### Runs of snapshots -/

/-- The snapshot lists the lease. -/
def Reports (x : FleetLeaseIndex) (workerId : String) (leases : List WorkerReportedLease)
    (id : String) : Prop :=
  ∃ lease ∈ leases, x.isGatewayRequester lease.requesterId = true ∧
    gatewayLeaseId workerId lease = id

/-- The worker's last snapshot of the run did not report the entry it had. -/
def LastMissed (gatewayRequesterPrefix : String) (acts : List IndexAction) (workerId id : String) :
    Prop :=
  ∃ before leases devices after, acts = before ++ .rebuildFromWorker workerId leases devices :: after ∧
    (∀ leases devices, .rebuildFromWorker workerId leases devices ∉ after) ∧
    (∃ e, (run step (create gatewayRequesterPrefix) before).resolve id = some e ∧
      e.workerId = workerId) ∧
    ¬ (run step (create gatewayRequesterPrefix) before).Reports workerId leases id

section Runs

variable {x : FleetLeaseIndex} {gatewayRequesterPrefix : String} {acts : List IndexAction}
  {workerId id : String} {leases : List WorkerReportedLease} {devices : List ReportedDevice}
  {entry e : FleetLeaseEntry} {platform : Option Platform}

theorem LastMissed.snoc (h : LastMissed gatewayRequesterPrefix acts workerId id) {a : IndexAction}
    (ha : ∀ leases devices, a ≠ .rebuildFromWorker workerId leases devices) :
    LastMissed gatewayRequesterPrefix (acts ++ [a]) workerId id := by
  obtain ⟨before, leases, devices, after, rfl, hafter, hentry, hmissed⟩ := h
  refine ⟨before, leases, devices, after ++ [a], by simp, ?_, hentry, hmissed⟩
  intro leases' devices' hmem
  rcases List.mem_append.mp hmem with hmem | hmem
  · exact hafter leases' devices' hmem
  · exact ha leases' devices' (List.mem_singleton.mp hmem).symm

/-- Every mark is of the last snapshot of its entry's worker. -/
def MarksLast (gatewayRequesterPrefix : String) (acts : List IndexAction) (x : FleetLeaseIndex) :
    Prop :=
  ∀ id g, x.missingSince id = some g → ∃ e, x.resolve id = some e ∧
    x.generation e.workerId = some g ∧ LastMissed gatewayRequesterPrefix acts e.workerId id

variable (platform) in
theorem add_fields (h : ¬ x.IsForeign entry) :
    (x.add entry platform).2.missingSince = x.missingSince ∧
      (x.add entry platform).2.generation = x.generation ∧
      (x.add entry platform).2.endedByWorkerAnswer =
        x.endedByWorkerAnswer.erase entry.gatewayLeaseId := by
  unfold add
  rw [if_neg h]
  exact ⟨rfl, rfl, rfl⟩

theorem MarksLast.add (h : MarksLast gatewayRequesterPrefix acts x) :
    MarksLast gatewayRequesterPrefix (acts ++ [.add entry platform]) (x.add entry platform).2 := by
  have hsnoc : ∀ {w i : String}, LastMissed gatewayRequesterPrefix acts w i →
      LastMissed gatewayRequesterPrefix (acts ++ [.add entry platform]) w i :=
    fun hlast => hlast.snoc nofun
  intro id g hg
  by_cases hforeign : x.IsForeign entry
  · rw [add_foreign hforeign] at hg ⊢
    obtain ⟨e, he, hgen, hlast⟩ := h id g hg
    exact ⟨e, he, hgen, hsnoc hlast⟩
  · obtain ⟨hmissing, hgeneration, -⟩ := add_fields platform hforeign
    rw [hmissing] at hg
    obtain ⟨e, he, hgen, hlast⟩ := h id g hg
    rw [hgeneration, resolve_add hforeign]
    by_cases hid : id = entry.gatewayLeaseId
    · have hworker : e.workerId = entry.workerId := by
        subst hid
        rw [IsForeign, he] at hforeign
        simpa using hforeign
      rw [if_pos hid]
      exact ⟨entry, rfl, hworker ▸ hgen, hworker ▸ hsnoc hlast⟩
    · rw [if_neg hid]
      exact ⟨e, he, hgen, hsnoc hlast⟩

theorem MarksLast.forget (h : MarksLast gatewayRequesterPrefix acts x) :
    MarksLast gatewayRequesterPrefix acts (x.forget entry) := by
  intro id g hg
  have hfields : (x.forget entry).missingSince =
      Function.update x.missingSince entry.gatewayLeaseId none ∧
      (x.forget entry).generation = x.generation := by
    rw [forget_eq]
    exact ⟨rfl, rfl⟩
  rw [hfields.1] at hg
  rw [hfields.2, resolve_forget]
  by_cases hid : id = entry.gatewayLeaseId
  · rw [hid, Function.update_self] at hg
    cases hg
  · rw [Function.update_of_ne hid] at hg
    rw [if_neg hid]
    exact h id g hg

theorem MarksLast.remove (h : MarksLast gatewayRequesterPrefix acts x) (i : String) :
    MarksLast gatewayRequesterPrefix (acts ++ [.remove i]) (x.remove i) := by
  have hsnoc : MarksLast gatewayRequesterPrefix (acts ++ [.remove i])
      { x with endedByWorkerAnswer := remember x.endedByWorkerAnswer i } := by
    intro id g hg
    obtain ⟨e, he, hgen, hlast⟩ := h id g hg
    exact ⟨e, he, hgen, hlast.snoc nofun⟩
  unfold FleetLeaseIndex.remove
  split
  · exact hsnoc
  · exact hsnoc.forget

theorem MarksLast.removeByWorkerLease (h : MarksLast gatewayRequesterPrefix acts x)
    (workerLeaseId : String) :
    MarksLast gatewayRequesterPrefix (acts ++ [.removeByWorkerLease workerId workerLeaseId])
      (x.removeByWorkerLease workerId workerLeaseId) := by
  have hsnoc : MarksLast gatewayRequesterPrefix
      (acts ++ [.removeByWorkerLease workerId workerLeaseId]) x := by
    intro id g hg
    obtain ⟨e, he, hgen, hlast⟩ := h id g hg
    exact ⟨e, he, hgen, hlast.snoc nofun⟩
  unfold FleetLeaseIndex.removeByWorkerLease
  split
  · exact hsnoc
  · rename_i e he
    exact hsnoc.forget

theorem resolve_foldl_forget (es : List FleetLeaseEntry) : ∀ x : FleetLeaseIndex,
    (es.foldl FleetLeaseIndex.forget x).resolve id =
      if id ∈ es.map FleetLeaseEntry.gatewayLeaseId then none else x.resolve id := by
  induction es with
  | nil => exact fun x => (if_neg List.not_mem_nil).symm
  | cons e es ih =>
    intro x
    rw [List.foldl_cons, ih, resolve_forget, List.map_cons]
    by_cases hid : id = e.gatewayLeaseId
    · simp [hid]
    · simp [hid]

theorem resolve_forgetWorker (h : x.Kept) :
    (x.forgetWorker workerId).resolve id = (x.resolve id).filter fun e => e.workerId ≠ workerId := by
  have hdropped : (x.forgetWorker workerId).resolve id = (x.dropped workerId).resolve id := rfl
  rw [hdropped, dropped, resolve_foldl_forget]
  cases he : x.resolve id with
  | none => simp
  | some e =>
    have hmem : id ∈ (x.byGatewayId.filter fun e => e.workerId = workerId).map
        FleetLeaseEntry.gatewayLeaseId ↔ e.workerId = workerId := by
      rw [List.mem_map]
      constructor
      · rintro ⟨e', he', hid⟩
        obtain ⟨hmem, hworker⟩ := List.mem_filter.mp he'
        rw [← hid, (resolve_eq_some h.ids).mpr ⟨hmem, rfl⟩] at he
        obtain rfl := Option.some.inj he
        simpa using hworker
      · intro hworker
        exact ⟨e, List.mem_filter.mpr ⟨resolve_mem he, by simpa using hworker⟩, resolve_id he⟩
    by_cases hworker : e.workerId = workerId
    · rw [if_pos (hmem.mpr hworker)]
      simp [Option.filter, hworker]
    · rw [if_neg (mt hmem.mp hworker)]
      simp [Option.filter, hworker]

theorem MarksLast.forgetWorker (h : MarksLast gatewayRequesterPrefix acts x) (hkept : x.Kept) :
    MarksLast gatewayRequesterPrefix (acts ++ [.forgetWorker workerId])
      (x.forgetWorker workerId) := by
  have hdropped : MarksLast gatewayRequesterPrefix acts (x.dropped workerId) :=
    dropped_rule hkept (fun y e hy _ => hy.forget) h
  intro id g hg
  obtain ⟨e, he, hgen, hlast⟩ := hdropped id g hg
  have hthere : (x.forgetWorker workerId).resolve id = some e := he
  refine ⟨e, hthere, ?_, hlast.snoc nofun⟩
  rw [resolve_forgetWorker hkept] at hthere
  obtain ⟨-, hworker⟩ := Option.filter_eq_some_iff.mp hthere
  have hne : e.workerId ≠ workerId := by simpa using hworker
  exact (Function.update_of_ne hne _ _).trans hgen

/-- An own entry that the snapshot does not list was one before, and is not listed. -/
theorem unreported (hown : e.workerId = workerId)
    (he : ((x.counted workerId).addReported workerId leases devices).2.resolve id = some e)
    (hnot : id ∉ ((x.counted workerId).addReported workerId leases devices).1) :
    x.resolve id = some e ∧ ¬ x.Reports workerId leases id := by
  have hgrows : Grows workerId leases (x.counted workerId)
      ((x.counted workerId).addReported workerId leases devices).2 := addReported_grows
  have hold : x.resolve id = some e := by
    rcases hgrows.origin id e he with hx | ⟨lease, hl, hnew, rfl, rfl⟩
    · exact hx
    · exact absurd (addReported_new devices hl hnew).1 hnot
  refine ⟨hold, ?_⟩
  rintro ⟨lease, hl, hrequester, rfl⟩
  refine hnot (addReported_reports _ (x := x.counted workerId) hl hrequester fun e' he' => ?_)
  have hsame : x.resolve (gatewayLeaseId workerId lease) = some e' := he'
  rw [hold] at hsame
  obtain rfl := Option.some.inj hsame
  exact hown

theorem missingSince_addReported (id : String) :
    ((x.counted workerId).addReported workerId leases devices).2.missingSince id =
      if id ∈ ((x.counted workerId).addReported workerId leases devices).1 then none
      else x.missingSince id :=
  (addReported_reporting workerId leases devices (x := x.counted workerId)).missing id

theorem MarksLast.rebuild (h : MarksLast gatewayRequesterPrefix acts
      (run step (create gatewayRequesterPrefix) acts))
    (hkept : (run step (create gatewayRequesterPrefix) acts).Kept) :
    MarksLast gatewayRequesterPrefix (acts ++ [.rebuildFromWorker workerId leases devices])
      ((run step (create gatewayRequesterPrefix) acts).rebuildFromWorker workerId leases devices) := by
  generalize hx : run step (create gatewayRequesterPrefix) acts = x at h hkept ⊢
  intro id g hg
  have hat := rebuild_at workerId leases devices hkept id
  obtain ⟨hgeneration, -⟩ := rebuild_fields workerId leases devices hkept
  have hgrows : Grows workerId leases (x.counted workerId)
      ((x.counted workerId).addReported workerId leases devices).2 := addReported_grows
  rw [hg] at hat
  rw [hgeneration]
  cases he : ((x.counted workerId).addReported workerId leases devices).2.resolve id with
  | none =>
    rw [he] at hat
    cases (Prod.mk.inj hat).2
  | some e =>
    rw [he, missingSince_addReported] at hat
    dsimp only at hat
    have hid := resolve_id he
    unfold reconciled at hat
    split at hat
    · -- not the snapshot's to reconcile
      rename_i hours
      obtain ⟨hres, hmark⟩ := Prod.mk.inj hat
      split at hmark
      · cases hmark
      · rename_i hnot
        have hne : e.workerId ≠ workerId := hours.resolve_right (hid ▸ hnot)
        obtain ⟨e', he', hgen, hlast⟩ := h id g hmark.symm
        have hsame := hgrows.keeps id e' he'
        rw [he] at hsame
        obtain rfl := Option.some.inj hsame
        refine ⟨e, hres, (Function.update_of_ne hne _ _).trans hgen, hlast.snoc ?_⟩
        rintro leases' devices' ⟨⟩
        exact hne rfl
    · rename_i hours
      obtain ⟨hown, hnot⟩ := not_or.mp hours
      have hown' : e.workerId = workerId := not_not.mp hown
      rw [hid] at hnot
      rw [if_neg hnot] at hat
      obtain ⟨hold, hunlisted⟩ := unreported hown' he hnot
      subst hown'
      split at hat
      · obtain ⟨hres, hmark⟩ := Prod.mk.inj hat
        obtain rfl := Option.some.inj hmark
        exact ⟨e, hres, Function.update_self .., acts, leases, devices, [], rfl, nofun,
          ⟨e, hx ▸ hold, rfl⟩, hx ▸ hunlisted⟩
      · rename_i m hm
        split at hat
        · cases (Prod.mk.inj hat).2
        · -- a mark is not newer than the reads so far
          rename_i hge
          obtain ⟨e', he', hgen, -⟩ := h id m hm
          rw [hold] at he'
          obtain rfl := Option.some.inj he'
          rw [nextGeneration, hgen] at hge
          exact absurd (Nat.lt_succ_self m) hge

theorem create_kept (gatewayRequesterPrefix : String) : (create gatewayRequesterPrefix).Kept := by
  refine ⟨List.nodup_nil, ?_, ?_, ?_⟩
  · intro r ids hids
    cases hids
  · intro id hid
    cases hid
  · intro id hid
    cases hid

theorem kept_run (gatewayRequesterPrefix : String) (acts : List IndexAction) :
    (run step (create gatewayRequesterPrefix) acts).Kept :=
  run_invariant (fun _ a h => h.step a) acts _ (create_kept gatewayRequesterPrefix)

theorem marksLast_run (gatewayRequesterPrefix : String) (acts : List IndexAction) :
    MarksLast gatewayRequesterPrefix acts (run step (create gatewayRequesterPrefix) acts) := by
  induction acts using List.reverseRecOn with
  | nil =>
    intro id g hg
    cases hg
  | append_singleton acts a ih =>
    have hkept := kept_run gatewayRequesterPrefix acts
    rw [run_append, run_cons, run_nil]
    cases a with
    | add entry platform => exact ih.add
    | remove i => exact ih.remove i
    | removeByWorkerLease workerId workerLeaseId => exact ih.removeByWorkerLease workerLeaseId
    | rebuildFromWorker workerId leases devices => exact ih.rebuild hkept
    | forgetWorker workerId => exact ih.forgetWorker hkept

/-! ### What a snapshot forgets -/

theorem rebuild_others (h : x.Kept) (he : x.resolve id = some e) (hne : e.workerId ≠ workerId) :
    (x.rebuildFromWorker workerId leases devices).resolve id = some e ∧
      (x.rebuildFromWorker workerId leases devices).missingSince id = x.missingSince id := by
  have hreporting : Reporting workerId leases (x.counted workerId)
      ((x.counted workerId).addReported workerId leases devices) := addReported_reporting _ _ _
  have hkeeps := hreporting.grows.keeps id e he
  have hat := rebuild_at workerId leases devices h id
  rw [hkeeps] at hat
  dsimp only at hat
  unfold reconciled at hat
  rw [if_pos (.inl hne), missingSince_addReported] at hat
  have hnot : id ∉ ((x.counted workerId).addReported workerId leases devices).1 := by
    intro hid
    rcases hreporting.known id hid with ⟨e', he', hown⟩ | ⟨hnone, -⟩
    · rw [hkeeps] at he'
      obtain rfl := Option.some.inj he'
      exact hne hown
    · rw [hkeeps] at hnone
      cases hnone
  rw [if_neg hnot] at hat
  exact Prod.mk.inj hat

theorem rebuild_forgets (h : x.Kept) (he : x.resolve id = some e)
    (hgone : (x.rebuildFromWorker workerId leases devices).resolve id = none) :
    e.workerId = workerId ∧ ¬ x.Reports workerId leases id ∧ ∃ g, x.missingSince id = some g := by
  have hgrows : Grows workerId leases (x.counted workerId)
      ((x.counted workerId).addReported workerId leases devices).2 := addReported_grows
  have hkeeps := hgrows.keeps id e he
  have hat := rebuild_at workerId leases devices h id
  rw [hkeeps, hgone] at hat
  dsimp only at hat
  unfold reconciled at hat
  split at hat
  · cases (Prod.mk.inj hat).1
  · rename_i hours
    obtain ⟨hown, hnot⟩ := not_or.mp hours
    have hown' : e.workerId = workerId := not_not.mp hown
    rw [resolve_id hkeeps] at hnot
    refine ⟨hown', (unreported hown' hkeeps hnot).2, ?_⟩
    rw [missingSince_addReported, if_neg hnot] at hat
    cases hmark : x.missingSince id with
    | none =>
      rw [hmark] at hat
      cases (Prod.mk.inj hat).1
    | some g => exact ⟨g, rfl⟩

/-! ### Ids a worker's answer ended -/

/-- The other ids that a run ends by a worker's answer. -/
def othersEnded (id : String) (acts : List IndexAction) : Finset String :=
  (acts.filterMap fun a =>
    match a with
    | .remove i => if i = id then none else some i
    | _ => none).toFinset

/-- Ended now, the id is no entry again before it is added, or 200 others are ended. -/
def EndedStays (x : FleetLeaseIndex) (id : String) : Prop :=
  ∀ acts, (∀ entry platform, .add entry platform ∈ acts → entry.gatewayLeaseId ≠ id) →
    (othersEnded id acts).card < removedIdsCapacity →
    (run step (x.remove id) acts).resolve id = none

/-- Some worker's lease is routed under the id. -/
def Routable (id : String) : Prop := ∃ workerId lease, gatewayLeaseId workerId lease = id

/-- What is kept of the ids that were ended. -/
structure EndedOk (x : FleetLeaseIndex) : Prop where
  nodup : x.endedByWorkerAnswer.Nodup
  length : x.endedByWorkerAnswer.length ≤ removedIdsCapacity

/-- The id stays ended, while `later` holds the others ended since. -/
structure StaysEnded (x : FleetLeaseIndex) (id : String) (later : Finset String) : Prop where
  kept : x.Kept
  gone : x.resolve id = none
  ended : Routable id → Recalls removedIdsCapacity id later x.endedByWorkerAnswer

theorem ended_add (x : FleetLeaseIndex) (entry : FleetLeaseEntry) (platform : Option Platform) :
    (x.add entry platform).2.endedByWorkerAnswer = x.endedByWorkerAnswer ∨
      (x.add entry platform).2.endedByWorkerAnswer =
        x.endedByWorkerAnswer.erase entry.gatewayLeaseId := by
  by_cases hforeign : x.IsForeign entry
  · exact .inl (by rw [add_foreign hforeign])
  · exact .inr (add_fields _ hforeign).2.2

theorem ended_remove (x : FleetLeaseIndex) (i : String) : (x.remove i).endedByWorkerAnswer =
    record removedIdsCapacity x.endedByWorkerAnswer i := by
  unfold FleetLeaseIndex.remove
  split
  · rfl
  · rw [forget_eq]
    rfl

theorem ended_removeByWorkerLease (x : FleetLeaseIndex) (workerLeaseId : String) :
    (x.removeByWorkerLease workerId workerLeaseId).endedByWorkerAnswer = x.endedByWorkerAnswer := by
  unfold FleetLeaseIndex.removeByWorkerLease
  split
  · rfl
  · rw [forget_eq]

theorem ended_forgetWorker (h : x.Kept) :
    (x.forgetWorker workerId).endedByWorkerAnswer = x.endedByWorkerAnswer := by
  refine dropped_rule (P := fun y => y.endedByWorkerAnswer = x.endedByWorkerAnswer) h ?_ rfl
  intro y e hy _
  rw [forget_eq]
  exact hy

theorem resolve_remove (i : String) (h : x.resolve id = none) : (x.remove i).resolve id = none := by
  unfold FleetLeaseIndex.remove
  split
  · exact h
  · rw [resolve_forget]
    split
    · rfl
    · exact h

theorem StaysEnded.step {later : Finset String} (h : StaysEnded x id later) (a : IndexAction)
    (hadd : ∀ entry platform, a = .add entry platform → entry.gatewayLeaseId ≠ id)
    (hfew : (later ∪ othersEnded id [a]).card < removedIdsCapacity) :
    StaysEnded (x.step a) id (later ∪ othersEnded id [a]) := by
  have hmono : ∀ {l : List String}, Recalls removedIdsCapacity id later l →
      Recalls removedIdsCapacity id (later ∪ othersEnded id [a]) l :=
    fun hl => hl.mono Finset.subset_union_left
  refine ⟨h.kept.step a, ?_, fun hroutable => ?_⟩
  · cases a with
    | add entry platform =>
      by_cases hforeign : x.IsForeign entry
      · simp only [FleetLeaseIndex.step, add_foreign hforeign]
        exact h.gone
      · simp only [FleetLeaseIndex.step, resolve_add hforeign]
        rw [if_neg (Ne.symm (hadd entry platform rfl))]
        exact h.gone
    | remove i => exact resolve_remove i h.gone
    | removeByWorkerLease workerId workerLeaseId =>
      simp only [FleetLeaseIndex.step, FleetLeaseIndex.removeByWorkerLease]
      split
      · exact h.gone
      · change (x.forget _).resolve id = none
        rw [resolve_forget]
        split
        · rfl
        · exact h.gone
    | rebuildFromWorker workerId leases devices =>
      -- a snapshot adds no id that is remembered
      have hnone : ((x.counted workerId).addReported workerId leases devices).2.resolve id = none := by
        cases he : ((x.counted workerId).addReported workerId leases devices).2.resolve id with
        | none => rfl
        | some e =>
          have hgrows : Grows workerId leases (x.counted workerId)
              ((x.counted workerId).addReported workerId leases devices).2 := addReported_grows
          rcases hgrows.origin id e he with hx | ⟨lease, -, hnew, rfl, -⟩
          · have hold : x.resolve id = some e := hx
            rw [h.gone] at hold
            cases hold
          · exact absurd (h.ended ⟨workerId, lease, rfl⟩).mem hnew.2.2
      have hat := rebuild_at workerId leases devices h.kept id
      rw [hnone] at hat
      exact (Prod.mk.inj hat).1
    | forgetWorker workerId =>
      simp only [FleetLeaseIndex.step]
      rw [resolve_forgetWorker h.kept, h.gone]
      rfl
  · have hended := h.ended hroutable
    cases a with
    | add entry platform =>
      simp only [FleetLeaseIndex.step]
      rcases ended_add x entry platform with hsame | herased
      · rw [hsame]
        exact hmono hended
      · rw [herased]
        exact hmono (hended.erase (hadd entry platform rfl))
    | remove i =>
      simp only [FleetLeaseIndex.step]
      rw [ended_remove]
      by_cases hid : i = id
      · subst hid
        rw [record_of_mem hended.length hended.mem]
        exact hmono hended
      · have hset : later ∪ othersEnded id [.remove i] = insert i later := by
          have hone : othersEnded id [.remove i] = {i} := by simp [othersEnded, hid]
          rw [hone, Finset.union_comm, ← Finset.insert_eq]
        rw [hset] at hfew ⊢
        exact hended.record hfew
    | removeByWorkerLease workerId workerLeaseId =>
      simp only [FleetLeaseIndex.step]
      rw [ended_removeByWorkerLease]
      exact hmono hended
    | rebuildFromWorker workerId leases devices =>
      simp only [FleetLeaseIndex.step]
      rw [(rebuild_fields _ _ _ h.kept).2.1]
      exact hmono hended
    | forgetWorker workerId =>
      simp only [FleetLeaseIndex.step]
      rw [ended_forgetWorker h.kept]
      exact hmono hended

theorem othersEnded_cons (id : String) (a : IndexAction) (acts : List IndexAction) :
    othersEnded id (a :: acts) = othersEnded id [a] ∪ othersEnded id acts := by
  unfold othersEnded
  rw [← List.toFinset_append, ← List.filterMap_append]
  rfl

theorem StaysEnded.run {later : Finset String} (h : StaysEnded x id later)
    (hadd : ∀ entry platform, .add entry platform ∈ acts → entry.gatewayLeaseId ≠ id)
    (hfew : (later ∪ othersEnded id acts).card < removedIdsCapacity) :
    (run FleetLeaseIndex.step x acts).resolve id = none := by
  induction acts generalizing x later with
  | nil => exact h.gone
  | cons a acts ih =>
    rw [othersEnded_cons, ← Finset.union_assoc] at hfew
    refine ih (h.step a ?_ ?_) ?_ hfew
    · rintro entry platform rfl
      exact hadd entry platform List.mem_cons_self
    · exact lt_of_le_of_lt (Finset.card_le_card Finset.subset_union_left) hfew
    · exact fun entry platform hmem => hadd entry platform (List.mem_cons_of_mem a hmem)

theorem resolve_remove_self (x : FleetLeaseIndex) (id : String) : (x.remove id).resolve id = none := by
  unfold FleetLeaseIndex.remove
  split
  · rename_i hnone
    exact hnone
  · rename_i e he
    rw [resolve_forget, if_pos (resolve_id he).symm]

theorem endedStays_of (h : x.Kept) (hok : x.EndedOk)
    (hid : id ∉ x.endedByWorkerAnswer ∨ x.endedByWorkerAnswer.getLast? = some id ∨ ¬ Routable id) :
    x.EndedStays id := by
  intro acts hadd hfew
  have hstays : StaysEnded (x.remove id) id ∅ := by
    refine ⟨h.remove id, resolve_remove_self x _, fun hroutable => ?_⟩
    rw [ended_remove]
    refine recalls_record hok.nodup hok.length (by decide) (hid.imp_right fun hlast => ?_)
    exact hlast.resolve_right fun hnot => hnot hroutable
  refine hstays.run hadd ?_
  rw [Finset.empty_union]
  exact hfew

/-! ### An id that is ended again -/

theorem ended_run_remove (ys : List String) : ∀ x : FleetLeaseIndex,
    (run step x (ys.map .remove)).endedByWorkerAnswer =
      ys.foldl (record removedIdsCapacity) x.endedByWorkerAnswer := by
  induction ys with
  | nil => exact fun x => rfl
  | cons y ys ih =>
    intro x
    rw [List.map_cons, run_cons, ih, List.foldl_cons]
    exact congrArg (ys.foldl (record removedIdsCapacity)) (ended_remove x y)

theorem gone_run_remove (ys : List String) : ∀ x : FleetLeaseIndex, x.Kept → x.resolve id = none →
    (run step x (ys.map .remove)).Kept ∧ (run step x (ys.map .remove)).resolve id = none ∧
      (run step x (ys.map .remove)).gatewayRequesterPrefix = x.gatewayRequesterPrefix := by
  induction ys with
  | nil => exact fun x h hnone => ⟨h, hnone, rfl⟩
  | cons y ys ih =>
    intro x h hnone
    rw [List.map_cons, run_cons]
    obtain ⟨hkept, hgone, hfront⟩ := ih (x.remove y) (h.remove y) (resolve_remove y hnone)
    refine ⟨hkept, hgone, hfront.trans ?_⟩
    unfold FleetLeaseIndex.remove
    split
    · rfl
    · rw [forget_eq]

variable (devices) in
/-- A snapshot adds a lease of the gateway that is no entry and not remembered as ended. -/
theorem rebuild_adds (h : x.Kept) {lease : WorkerReportedLease} (hnew : x.IsNew workerId lease) :
    (x.rebuildFromWorker workerId [lease] devices).resolve (gatewayLeaseId workerId lease) ≠ none := by
  obtain ⟨hreported, e, he, -⟩ := addReported_new devices (x := x.counted workerId)
    (List.mem_singleton.mpr rfl) hnew
  have hat := rebuild_at workerId [lease] devices h
    (gatewayLeaseId workerId lease)
  rw [he] at hat
  dsimp only at hat
  unfold reconciled at hat
  rw [if_pos (.inr (resolve_id he ▸ hreported))] at hat
  rw [(Prod.mk.inj hat).1]
  exact Option.some_ne_none e

theorem exists_fresh (l : List String) (m : Nat) :
    ∃ ys : List String, ys.Nodup ∧ ys.length = m ∧ ∀ y ∈ ys, y ∉ l := by
  obtain ⟨t, hsub, hcard⟩ := Infinite.exists_superset_card_eq l.toFinset (l.toFinset.card + m)
    (Nat.le_add_right _ m)
  refine ⟨(t \ l.toFinset).toList, Finset.nodup_toList _, ?_, ?_⟩
  · rw [Finset.length_toList, Finset.card_sdiff_of_subset hsub, hcard]
    omega
  · intro y hy
    have hout := (Finset.mem_sdiff.mp (Finset.mem_toList.mp hy)).2
    exact fun hl => hout (List.mem_toFinset.mpr hl)

/-- An id that is ended again goes out of memory sooner, unless it is the newest there. -/
theorem not_endedStays (h : x.Kept) (hok : x.EndedOk) (hroutable : Routable id)
    (hmem : id ∈ x.endedByWorkerAnswer) (hlast : x.endedByWorkerAnswer.getLast? ≠ some id) :
    ¬ x.EndedStays id := by
  intro hstays
  obtain ⟨workerId, lease, rfl⟩ := hroutable
  obtain ⟨front, back, hsplit⟩ := List.append_of_mem hmem
  have hback : 0 < back.length := by
    cases back with
    | nil =>
      rw [hsplit] at hlast
      exact absurd (by simp) hlast
    | cons y back => exact Nat.succ_pos _
  have hlen := hok.length
  rw [hsplit] at hlen
  simp only [List.length_append, List.length_cons] at hlen
  obtain ⟨ys, hnodup, hcount, hfresh⟩ := exists_fresh x.endedByWorkerAnswer
    (removedIdsCapacity - back.length)
  let gatewayLease : WorkerReportedLease := { lease with requesterId := x.gatewayRequesterPrefix }
  have hsame : gatewayLeaseId workerId gatewayLease = gatewayLeaseId workerId lease := rfl
  have hgone := hstays (ys.map .remove ++ [.rebuildFromWorker workerId [gatewayLease] []]) ?_ ?_
  · rw [run_append, run_cons, run_nil] at hgone
    obtain ⟨hkept, hnone, hfront⟩ := gone_run_remove ys (x.remove (gatewayLeaseId workerId lease))
      (h.remove _) (resolve_remove_self x _)
    refine rebuild_adds [] hkept ⟨?_, hsame ▸ hnone, ?_⟩ hgone
    · have hpre : (x.remove (gatewayLeaseId workerId lease)).gatewayRequesterPrefix =
          x.gatewayRequesterPrefix := by
        unfold FleetLeaseIndex.remove
        split
        · rfl
        · rw [forget_eq]
      rw [isGatewayRequester, hfront, hpre]
      exact List.isPrefixOf_iff_prefix.mpr (List.prefix_refl _)
    · rw [ended_run_remove, ended_remove, record_of_mem hok.length hmem, hsplit, hsame]
      refine not_mem_foldl_record ?_ ?_ ?_
      · rw [← hsplit]
        exact hok.length
      · rw [← hsplit]
        exact List.nodup_append.mpr ⟨hok.nodup, hnodup, fun a ha b hb hab => hfresh b hb (hab ▸ ha)⟩
      · omega
  · intro entry platform hadd
    simp at hadd
  · have hothers : othersEnded (gatewayLeaseId workerId lease)
        (ys.map .remove ++ [.rebuildFromWorker workerId [gatewayLease] []]) ⊆ ys.toFinset := by
      intro y hy
      simp only [othersEnded, List.mem_toFinset, List.mem_filterMap, List.mem_append,
        List.mem_map, List.mem_singleton] at hy ⊢
      obtain ⟨a, ⟨i, hi, rfl⟩ | rfl, ha⟩ := hy
      · dsimp only at ha
        by_cases hid : i = gatewayLeaseId workerId lease
        · rw [if_pos hid] at ha
          cases ha
        · rw [if_neg hid] at ha
          exact Option.some.inj ha ▸ hi
      · cases ha
    have hcard := (Finset.card_le_card hothers).trans (List.toFinset_card_le ys)
    omega

end Runs

/-! ### The whole run -/

theorem endedOk_step {x : FleetLeaseIndex} (h : x.EndedOk) (hkept : x.Kept) (a : IndexAction) :
    (x.step a).EndedOk := by
  have hsame : ∀ {y : FleetLeaseIndex}, y.endedByWorkerAnswer = x.endedByWorkerAnswer →
      y.EndedOk := by
    intro y hy
    exact ⟨hy ▸ h.nodup, hy ▸ h.length⟩
  cases a with
  | add entry platform =>
    simp only [step]
    rcases ended_add x entry platform with hy | hy
    · exact hsame hy
    · refine ⟨hy ▸ h.nodup.erase _, ?_⟩
      rw [hy]
      exact (List.erase_sublist.length_le).trans h.length
  | remove i =>
    refine ⟨?_, ?_⟩
    · exact ended_remove x i ▸ nodup_record h.nodup h.length i
    · exact ended_remove x i ▸ length_record h.length i
  | removeByWorkerLease workerId workerLeaseId => exact hsame (ended_removeByWorkerLease x _)
  | rebuildFromWorker workerId leases devices => exact hsame (rebuild_fields _ _ _ hkept).2.1
  | forgetWorker workerId => exact hsame (ended_forgetWorker hkept)

theorem endedOk_run (gatewayRequesterPrefix : String) (acts : List IndexAction) :
    (run step (create gatewayRequesterPrefix) acts).EndedOk := by
  have hboth : (run step (create gatewayRequesterPrefix) acts).EndedOk ∧
      (run step (create gatewayRequesterPrefix) acts).Kept := by
    refine run_invariant (I := fun x : FleetLeaseIndex => x.EndedOk ∧ x.Kept)
      (fun x a h => ⟨endedOk_step h.1 h.2 a, h.2.step a⟩) acts _ ⟨⟨?_, ?_⟩, create_kept _⟩
    · exact List.nodup_nil
    · exact Nat.zero_le _
  exact hboth.1

/-- What reconciliation does after the run `acts`. -/
structure ForgetsStale (gatewayRequesterPrefix : String) (acts : List IndexAction)
    (x : FleetLeaseIndex) : Prop where
  /-- A forgotten entry is the worker's own, and neither this snapshot nor its last one lists it. -/
  stale : ∀ workerId leases devices id e, x.resolve id = some e →
    (x.rebuildFromWorker workerId leases devices).resolve id = none →
    e.workerId = workerId ∧ ¬ x.Reports workerId leases id ∧
      LastMissed gatewayRequesterPrefix acts workerId id
  others : ∀ workerId leases devices id e, x.resolve id = some e → e.workerId ≠ workerId →
    (x.rebuildFromWorker workerId leases devices).resolve id = some e ∧
      (x.rebuildFromWorker workerId leases devices).missingSince id = x.missingSince id
  /-- An ended id stays away exactly when it is newly remembered, or the newest remembered. -/
  ended : ∀ id, x.EndedStays id ↔ id ∉ x.endedByWorkerAnswer ∨
    x.endedByWorkerAnswer.getLast? = some id ∨ ¬ Routable id

theorem reconciliation_forgets_stale (gatewayRequesterPrefix : String) (acts : List IndexAction) :
    ForgetsStale gatewayRequesterPrefix acts (run step (create gatewayRequesterPrefix) acts) where
  stale workerId leases devices id e he hgone := by
    obtain ⟨hown, hunlisted, g, hg⟩ := rebuild_forgets (kept_run gatewayRequesterPrefix acts) he hgone
    obtain ⟨e', he', -, hlast⟩ := marksLast_run gatewayRequesterPrefix acts id g hg
    rw [he] at he'
    obtain rfl := Option.some.inj he'
    exact ⟨hown, hunlisted, hown ▸ hlast⟩
  others workerId leases devices id e he hne :=
    rebuild_others (kept_run gatewayRequesterPrefix acts) he hne
  ended id := by
    have hkept := kept_run gatewayRequesterPrefix acts
    have hok := endedOk_run gatewayRequesterPrefix acts
    refine ⟨fun hstays => ?_, endedStays_of hkept hok⟩
    by_contra hnone
    simp only [not_or, not_not] at hnone
    exact not_endedStays hkept hok hnone.2.2 hnone.1 hnone.2.1 hstays

/-- The worker's answers end `mine`, then another lease. -/
def endsMine : List IndexAction := [.remove "mine", .remove "wrk_1.lse_0"]

/-- Ended once more, `mine` keeps its old place: 199 other ends push it out. -/
theorem ended_again_comes_back : ¬ (run step (create "gw:") endsMine).EndedStays "mine" := by
  refine not_endedStays (kept_run "gw:" endsMine) (endedOk_run "gw:" endsMine) ?_ ?_ ?_
  · exact ⟨"wrk_1", ⟨"mine", none, "gw:alice", "alice-principal", 1, true, 9⟩, by decide +kernel⟩
  · decide +kernel
  · decide +kernel

end FleetLeaseIndex

end Simlock.Gateway
