import Simlock.Lib.Run
import Simlock.Gateway.LeaseIndex

/-! What each operation leaves of the lease index.

    An addition and a forgotten entry are stated map by map. A snapshot is then a series of report
    steps (`ReportStep`), which only adds entries (`Grows`), and of entries that are marked missing or
    forgotten: `rebuild_rule` is its rule, `dropped_rule` that of a forgotten worker.

    `Kept` is what no operation can break. -/

namespace Simlock.Gateway

open Simlock.Lib Simlock.Core Simlock.Leasing

def FleetLeaseEntry.key (e : FleetLeaseEntry) : String := workerKey e.workerId e.workerLeaseId

namespace FleetLeaseIndex

/-- The ids linked to a requester. -/
def links (x : FleetLeaseIndex) (requesterId : String) : List String :=
  (x.byRequester requesterId).getD []

/-- A lease of the snapshot that it adds. -/
def IsNew (x : FleetLeaseIndex) (workerId : String) (lease : WorkerReportedLease) : Prop :=
  x.isGatewayRequester lease.requesterId = true ∧ x.resolve (gatewayLeaseId workerId lease) = none ∧
    gatewayLeaseId workerId lease ∉ x.endedByWorkerAnswer

/-- Another worker has the id of the entry. -/
abbrev IsForeign (x : FleetLeaseIndex) (entry : FleetLeaseEntry) : Prop :=
  (x.resolve entry.gatewayLeaseId).any (fun e => e.workerId ≠ entry.workerId) = true

section Lookups

variable {x : FleetLeaseIndex} {entry e : FleetLeaseEntry} {platform : Option Platform} {id r : String}

/-! ### What the operations leave of each map -/

theorem resolve_id (h : x.resolve id = some e) : e.gatewayLeaseId = id := by
  simpa using List.find?_some h

theorem resolve_mem (h : x.resolve id = some e) : e ∈ x.byGatewayId := List.mem_of_find?_eq_some h

theorem resolve_eq_some (h : (x.byGatewayId.map FleetLeaseEntry.gatewayLeaseId).Nodup) :
    x.resolve id = some e ↔ e ∈ x.byGatewayId ∧ e.gatewayLeaseId = id := by
  refine ⟨fun hr => ⟨resolve_mem hr, resolve_id hr⟩, ?_⟩
  rintro ⟨he, rfl⟩
  exact find_key_eq_some h he

theorem add_foreign (h : x.IsForeign entry) : (x.add entry platform).2 = x := by
  unfold add
  rw [if_pos h]

theorem resolve_add (h : ¬ x.IsForeign entry) (id : String) :
    (x.add entry platform).2.resolve id =
      if id = entry.gatewayLeaseId then some entry else x.resolve id := by
  unfold add
  rw [if_neg h]
  by_cases hid : id = entry.gatewayLeaseId
  · rw [if_pos hid, hid]
    exact find_upsert_self FleetLeaseEntry.gatewayLeaseId entry x.byGatewayId
  · rw [if_neg hid]
    exact find_upsert_of_ne FleetLeaseEntry.gatewayLeaseId (Ne.symm hid) x.byGatewayId

variable (platform) in
theorem resolve_add_self (h : ¬ x.IsForeign entry) :
    (x.add entry platform).2.resolve entry.gatewayLeaseId = some entry := by
  rw [resolve_add h, if_pos rfl]

variable (platform) in
theorem byWorkerLease_add (h : ¬ x.IsForeign entry) :
    (x.add entry platform).2.byWorkerLease =
      Function.update x.byWorkerLease entry.key (some entry.gatewayLeaseId) := by
  unfold add
  rw [if_neg h]
  rfl

theorem byRequester_add (h : ¬ x.IsForeign entry) :
    (x.add entry platform).2.byRequester = Function.update x.byRequester entry.requesterId
      (some (if entry.gatewayLeaseId ∈ x.links entry.requesterId then x.links entry.requesterId
        else x.links entry.requesterId ++ [entry.gatewayLeaseId])) := by
  unfold add
  rw [if_neg h]
  rfl

theorem mem_links_add (h : ¬ x.IsForeign entry) :
    id ∈ (x.add entry platform).2.links r ↔
      id ∈ x.links r ∨ r = entry.requesterId ∧ id = entry.gatewayLeaseId := by
  rw [links, byRequester_add h]
  by_cases hr : r = entry.requesterId
  · subst hr
    rw [Function.update_self, Option.getD_some]
    split
    · rename_i hmem
      constructor
      · exact .inl
      · rintro (hid | ⟨-, rfl⟩)
        · exact hid
        · exact hmem
    · rw [List.mem_append, List.mem_singleton]
      simp
  · rw [Function.update_of_ne hr]
    simp [links, hr]

/-- What `#forget` leaves, but for the requester's set. -/
theorem forget_eq : x.forget entry = { x with
    byRequester := (x.dropRequesterLink entry).byRequester
    byGatewayId := deleteKeys FleetLeaseEntry.gatewayLeaseId [entry.gatewayLeaseId] x.byGatewayId
    platforms := Function.update x.platforms entry.gatewayLeaseId none
    byWorkerLease := Function.update x.byWorkerLease entry.key none
    missingSince := Function.update x.missingSince entry.gatewayLeaseId none } := by
  have hdrop : x.dropRequesterLink entry =
      { x with byRequester := (x.dropRequesterLink entry).byRequester } := by
    unfold dropRequesterLink
    split <;> rfl
  unfold forget
  rw [hdrop]
  rfl

theorem resolve_forget (id : String) :
    (x.forget entry).resolve id = if id = entry.gatewayLeaseId then none else x.resolve id := by
  rw [forget_eq]
  simp only [resolve, deleteKeys, List.find?_filter]
  by_cases hid : id = entry.gatewayLeaseId
  · subst hid
    rw [if_pos rfl, List.find?_eq_none]
    intro e _
    simp only [List.mem_singleton, decide_eq_true_eq]
    exact fun he => he.1 he.2
  · rw [if_neg hid]
    congr 1
    funext e
    by_cases he : e.gatewayLeaseId = id
    · simp [he, hid]
    · simp [he]

theorem byRequester_forget_of_ne (hr : r ≠ entry.requesterId) :
    (x.forget entry).byRequester r = x.byRequester r := by
  rw [forget_eq]
  simp only [dropRequesterLink]
  split
  · rfl
  · exact Function.update_of_ne hr _ _

theorem byRequester_forget_self : (x.forget entry).byRequester entry.requesterId =
    (x.byRequester entry.requesterId).bind fun ids =>
      if (ids.erase entry.gatewayLeaseId).isEmpty then none
      else some (ids.erase entry.gatewayLeaseId) := by
  rw [forget_eq]
  simp only [dropRequesterLink]
  split
  · rename_i hnone
    rw [hnone]
    rfl
  · rename_i ids hids
    rw [hids]
    exact Function.update_self ..

theorem mem_links_forget (hsets : ∀ r ids, x.byRequester r = some ids → ids ≠ [] ∧ ids.Nodup) :
    id ∈ (x.forget entry).links r ↔
      id ∈ x.links r ∧ (r = entry.requesterId → id ≠ entry.gatewayLeaseId) := by
  by_cases hr : r = entry.requesterId
  · subst hr
    rw [links, byRequester_forget_self, links]
    cases hids : x.byRequester entry.requesterId with
    | none => simp
    | some ids =>
      have herase : (if (ids.erase entry.gatewayLeaseId).isEmpty then none
          else some (ids.erase entry.gatewayLeaseId)).getD [] = ids.erase entry.gatewayLeaseId := by
        split
        · rename_i hempty
          exact (List.isEmpty_iff.mp hempty).symm
        · rfl
      rw [Option.bind_some, herase, ((hsets _ ids hids).2).mem_erase_iff]
      simp [and_comm]
  · rw [links, byRequester_forget_of_ne hr]
    simp [links, hr]

end Lookups

/-! ### What holds of every index -/

/-- The parts of consistency that no operation can break. -/
structure Kept (x : FleetLeaseIndex) : Prop where
  ids : (x.byGatewayId.map FleetLeaseEntry.gatewayLeaseId).Nodup
  sets : ∀ r ids, x.byRequester r = some ids → ids ≠ [] ∧ ids.Nodup
  platforms : ∀ id, (x.platforms id).isSome → (x.resolve id).isSome
  missing : ∀ id, (x.missingSince id).isSome → (x.resolve id).isSome

section Kept

variable {x : FleetLeaseIndex} {entry e : FleetLeaseEntry} {platform : Option Platform} {id r : String}

theorem Kept.add (h : x.Kept) : (x.add entry platform).2.Kept := by
  by_cases hforeign : x.IsForeign entry
  · rw [add_foreign hforeign]
    exact h
  have hknown : ∀ id, (x.resolve id).isSome → ((x.add entry platform).2.resolve id).isSome := by
    intro id hid
    rw [resolve_add hforeign]
    split
    · rfl
    · exact hid
  refine ⟨?_, ?_, ?_, ?_⟩
  · unfold FleetLeaseIndex.add
    rw [if_neg hforeign]
    exact nodup_keys_upsert entry h.ids
  · intro r ids hids
    rw [byRequester_add hforeign] at hids
    by_cases hr : r = entry.requesterId
    · subst hr
      rw [Function.update_self] at hids
      obtain rfl := Option.some.inj hids
      have hold : (x.links entry.requesterId).Nodup := by
        rw [links]
        cases hids : x.byRequester entry.requesterId with
        | none => exact List.nodup_nil
        | some ids => exact (h.sets _ ids hids).2
      split
      · rename_i hmem
        exact ⟨List.ne_nil_of_mem hmem, hold⟩
      · rename_i hmem
        exact ⟨by simp, List.concat_eq_append ▸ hold.concat hmem⟩
    · rw [Function.update_of_ne hr] at hids
      exact h.sets r ids hids
  · intro id hid
    by_cases hself : id = entry.gatewayLeaseId
    · rw [hself, resolve_add_self _ hforeign]
      rfl
    · refine hknown id (h.platforms id ?_)
      unfold FleetLeaseIndex.add at hid
      rw [if_neg hforeign] at hid
      cases platform with
      | none => exact hid
      | some p => exact (Function.update_of_ne hself _ x.platforms) ▸ hid
  · intro id hid
    refine hknown id (h.missing id ?_)
    unfold FleetLeaseIndex.add at hid
    rw [if_neg hforeign] at hid
    exact hid

theorem Kept.forget (h : x.Kept) : (x.forget entry).Kept := by
  have hknown : ∀ {α : Type} (marks : String → Option α),
      (∀ id, (marks id).isSome → (x.resolve id).isSome) → ∀ id,
      (Function.update marks entry.gatewayLeaseId none id).isSome →
        ((x.forget entry).resolve id).isSome := by
    intro α marks hmarks id hid
    rw [resolve_forget]
    by_cases hself : id = entry.gatewayLeaseId
    · rw [hself, Function.update_self] at hid
      cases hid
    · rw [Function.update_of_ne hself] at hid
      rw [if_neg hself]
      exact hmarks id hid
  refine ⟨?_, ?_, ?_, ?_⟩
  · rw [forget_eq]
    exact nodup_keys_deleteKeys _ h.ids
  · intro r ids hids
    by_cases hr : r = entry.requesterId
    · subst hr
      rw [byRequester_forget_self] at hids
      obtain ⟨old, hold, hids⟩ := Option.bind_eq_some_iff.mp hids
      split at hids
      · cases hids
      · rename_i hempty
        obtain rfl := Option.some.inj hids
        exact ⟨fun hnil => hempty (List.isEmpty_iff.mpr hnil), ((h.sets _ old hold).2).erase _⟩
    · rw [byRequester_forget_of_ne hr] at hids
      exact h.sets r ids hids
  · intro id hid
    rw [forget_eq] at hid
    exact hknown x.platforms h.platforms id hid
  · intro id hid
    rw [forget_eq] at hid
    exact hknown x.missingSince h.missing id hid

end Kept

/-! ### Snapshots -/

/-- The entry of a reported lease. -/
def reportedEntry (x : FleetLeaseIndex) (workerId : String) (lease : WorkerReportedLease) :
    FleetLeaseEntry where
  gatewayLeaseId := gatewayLeaseId workerId lease
  workerId := workerId
  workerLeaseId := lease.id
  requesterId := String.ofList (lease.requesterId.toList.drop x.gatewayRequesterPrefix.length)
  ownerId := lease.ownerId
  grantedAt := lease.grantedAt

/-- The entry is reported: nothing is missed of it, and it is no stale event's. -/
def reportedBy (x : FleetLeaseIndex) (id : String) (removedByEvent : List String) :
    FleetLeaseIndex :=
  { x with missingSince := Function.update x.missingSince id none, removedByEvent := removedByEvent }

/-- The reported lease is added. -/
def reportNew (x : FleetLeaseIndex) (workerId : String) (lease : WorkerReportedLease)
    (removedByEvent : List String) (platform : Option Platform) : FleetLeaseIndex :=
  ((x.reportedBy (gatewayLeaseId workerId lease) removedByEvent).add
    (x.reportedEntry workerId lease) platform).2

/-- What one reported lease does. -/
inductive ReportStep (workerId : String) (x : FleetLeaseIndex) (reported : List String)
    (lease : WorkerReportedLease) : List String × FleetLeaseIndex → Prop where
  | skips (h : x.isGatewayRequester lease.requesterId = false ∨
      ∃ e, x.resolve (gatewayLeaseId workerId lease) = some e ∧ e.workerId ≠ workerId) :
    ReportStep workerId x reported lease (reported, x)
  | known (reported' : List String) (hrequester : x.isGatewayRequester lease.requesterId = true)
      (hreported : ∀ id, id ∈ reported' ↔ id ∈ reported ∨ id = gatewayLeaseId workerId lease)
      (hknown : (∃ e, x.resolve (gatewayLeaseId workerId lease) = some e ∧ e.workerId = workerId) ∨
        x.resolve (gatewayLeaseId workerId lease) = none ∧
          gatewayLeaseId workerId lease ∈ x.endedByWorkerAnswer) :
    ReportStep workerId x reported lease
      (reported', x.reportedBy (gatewayLeaseId workerId lease) x.removedByEvent)
  | adds (reported' removedByEvent : List String) (platform : Option Platform)
      (hreported : ∀ id, id ∈ reported' ↔ id ∈ reported ∨ id = gatewayLeaseId workerId lease)
      (hnew : x.IsNew workerId lease) :
    ReportStep workerId x reported lease
      (reported', x.reportNew workerId lease removedByEvent platform)

section Snapshots

variable {x y : FleetLeaseIndex} {workerId : String} {lease : WorkerReportedLease}
  {leases : List WorkerReportedLease} {devices : List ReportedDevice}

theorem addReportedLease_step (workerId : String) (devices : List ReportedDevice)
    (s : List String × FleetLeaseIndex) (lease : WorkerReportedLease) :
    ReportStep workerId s.2 s.1 lease (addReportedLease workerId devices s lease) := by
  obtain ⟨reported, x⟩ := s
  have hreported : ∀ id, (id ∈ if gatewayLeaseId workerId lease ∈ reported then reported
      else reported ++ [gatewayLeaseId workerId lease]) ↔
        id ∈ reported ∨ id = gatewayLeaseId workerId lease := by
    intro id
    split
    · rename_i hmem
      refine ⟨.inl, ?_⟩
      rintro (hid | rfl)
      · exact hid
      · exact hmem
    · simp
  simp only [addReportedLease]
  split
  · rename_i hrequester
    exact .skips (.inl (by simpa using hrequester))
  · rename_i hrequester
    split
    · rename_i hforeign
      cases he : x.resolve (gatewayLeaseId workerId lease) with
      | none =>
        rw [he] at hforeign
        cases hforeign
      | some e =>
        rw [he] at hforeign
        exact .skips (.inr ⟨e, he, by simpa using hforeign⟩)
    · rename_i hforeign
      split
      · rename_i hknown
        refine .known _ (by simpa using hrequester) hreported ?_
        cases he : x.resolve (gatewayLeaseId workerId lease) with
        | none =>
          rw [he] at hknown
          exact .inr ⟨rfl, by simpa using hknown⟩
        | some e =>
          rw [he] at hforeign
          exact .inl ⟨e, rfl, by simpa using hforeign⟩
      · rename_i hknown
        simp only [Bool.or_eq_true, decide_eq_true_eq, not_or, Bool.not_eq_true,
          Option.isSome_eq_false_iff, Option.isNone_iff_eq_none] at hknown
        exact .adds _ _ _ hreported ⟨by simpa using hrequester, hknown.1, hknown.2⟩

theorem IsNew.not_foreign (h : x.IsNew workerId lease)
    (removedByEvent : List String) :
    ¬ (x.reportedBy (gatewayLeaseId workerId lease) removedByEvent).IsForeign
      (x.reportedEntry workerId lease) := by
  have hnone : (x.reportedBy (gatewayLeaseId workerId lease) removedByEvent).resolve
      (x.reportedEntry workerId lease).gatewayLeaseId = none := h.2.1
  rw [IsForeign, hnone]
  simp

theorem resolve_reportNew (h : x.IsNew workerId lease)
    (removedByEvent : List String) (platform : Option Platform) (id : String) :
    (x.reportNew workerId lease removedByEvent platform).resolve id =
      if id = gatewayLeaseId workerId lease then some (x.reportedEntry workerId lease)
      else x.resolve id :=
  resolve_add (h.not_foreign removedByEvent) id

theorem reportNew_fields (h : x.IsNew workerId lease)
    (removedByEvent : List String) (platform : Option Platform) :
    (x.reportNew workerId lease removedByEvent platform).gatewayRequesterPrefix =
        x.gatewayRequesterPrefix ∧
      (x.reportNew workerId lease removedByEvent platform).endedByWorkerAnswer =
        x.endedByWorkerAnswer ∧
      (x.reportNew workerId lease removedByEvent platform).generation = x.generation ∧
      (x.reportNew workerId lease removedByEvent platform).missingSince =
        Function.update x.missingSince (gatewayLeaseId workerId lease) none := by
  have hforeign := h.not_foreign removedByEvent
  unfold reportNew add
  rw [if_neg hforeign]
  exact ⟨rfl, List.erase_of_not_mem h.2.2, rfl, rfl⟩

/-- The entries of `y` are those of `x`, and some that the snapshot adds to it. -/
structure Grows (workerId : String) (leases : List WorkerReportedLease) (x y : FleetLeaseIndex) :
    Prop where
  requesterPrefix : y.gatewayRequesterPrefix = x.gatewayRequesterPrefix
  ended : y.endedByWorkerAnswer = x.endedByWorkerAnswer
  keeps : ∀ id e, x.resolve id = some e → y.resolve id = some e
  origin : ∀ id e, y.resolve id = some e → x.resolve id = some e ∨
    ∃ lease ∈ leases, x.IsNew workerId lease ∧ id = gatewayLeaseId workerId lease ∧
      e = x.reportedEntry workerId lease

theorem Grows.refl (x : FleetLeaseIndex) : Grows workerId leases x x :=
  ⟨rfl, rfl, fun _ _ h => h, fun _ _ h => .inl h⟩

theorem Grows.isNew (h : Grows workerId leases x y)
    (hnew : y.IsNew workerId lease) : x.IsNew workerId lease := by
  obtain ⟨hrequester, hnone, hended⟩ := hnew
  refine ⟨?_, ?_, h.ended ▸ hended⟩
  · rw [isGatewayRequester, h.requesterPrefix] at hrequester
    exact hrequester
  · cases he : x.resolve (gatewayLeaseId workerId lease) with
    | none => rfl
    | some e =>
      rw [h.keeps _ e he] at hnone
      cases hnone

theorem Grows.step (h : Grows workerId leases x y)
    (hlease : lease ∈ leases) {reported : List String} {s' : List String × FleetLeaseIndex}
    (hstep : ReportStep workerId y reported lease s') : Grows workerId leases x s'.2 := by
  cases hstep with
  | skips hskip => exact h
  | known reported' hr hreported hknown => exact ⟨h.requesterPrefix, h.ended, h.keeps, h.origin⟩
  | adds reported' removedByEvent platform hreported hnew =>
    have hresolve := resolve_reportNew hnew removedByEvent platform
    obtain ⟨hfront, hended, -⟩ := reportNew_fields hnew removedByEvent platform
    refine ⟨hfront.trans h.requesterPrefix, hended.trans h.ended, ?_, ?_⟩
    · intro id e he
      have hy := h.keeps id e he
      have hid : id ≠ gatewayLeaseId workerId lease := by
        rintro rfl
        rw [hnew.2.1] at hy
        cases hy
      rw [hresolve, if_neg hid]
      exact hy
    · intro id e he
      rw [hresolve] at he
      by_cases hid : id = gatewayLeaseId workerId lease
      · rw [if_pos hid] at he
        obtain rfl := Option.some.inj he
        refine .inr ⟨lease, hlease, h.isNew hnew, hid, ?_⟩
        rw [reportedEntry, reportedEntry, h.requesterPrefix]
      · rw [if_neg hid] at he
        exact h.origin id e he

/-- What is reported stays so. -/
theorem ReportStep.mono {reported : List String} {s' : List String × FleetLeaseIndex}
    (hstep : ReportStep workerId y reported lease s') : ∀ id ∈ reported, id ∈ s'.1 := by
  cases hstep with
  | skips hskip => exact fun id hid => hid
  | known reported' hr hreported hknown => exact fun id hid => (hreported id).mpr (.inl hid)
  | adds reported' removedByEvent platform hreported hnew =>
    exact fun id hid => (hreported id).mpr (.inl hid)

/-- `#addReported`. -/
def addReported (x : FleetLeaseIndex) (workerId : String) (leases : List WorkerReportedLease)
    (devices : List ReportedDevice) : List String × FleetLeaseIndex :=
  leases.foldl (addReportedLease workerId devices) ([], x)

theorem addReported_grows : Grows workerId leases x (x.addReported workerId leases devices).2 :=
  List.foldlRecOn (motive := fun s => Grows workerId leases x s.2) leases
    (addReportedLease workerId devices) (Grows.refl x)
    fun s h lease hlease => h.step hlease (addReportedLease_step workerId devices s lease)

/-! ### Ids of one worker -/

theorem not_mem_dot_of_isLeaseId {id : String} (h : isLeaseId id = true) : '.' ∉ id.toList := by
  intro hdot
  unfold isLeaseId at h
  split at h
  · cases h
  · rename_i c cs hcs
    rw [hcs] at hdot
    simp only [Bool.and_eq_true] at h
    obtain ⟨⟨hc, -⟩, hcs⟩ := h
    rcases List.mem_cons.mp hdot with rfl | hmem
    · revert hc
      decide
    · have hbad := List.all_eq_true.mp hcs '.' hmem
      revert hbad
      decide

/-- A worker's lease has one id: what it routes bare is no id with its prefix. -/
theorem gatewayLeaseId_inj {other : WorkerReportedLease}
    (h : gatewayLeaseId workerId lease = gatewayLeaseId workerId other) : lease.id = other.id := by
  have hdot : ∀ id : String, '.' ∈ (workerId ++ "." ++ id).toList := by simp
  unfold gatewayLeaseId at h
  split at h
  · rename_i hbare
    rw [Bool.and_eq_true] at hbare
    split at h
    · exact h
    · exact absurd (h ▸ hdot other.id) (not_mem_dot_of_isLeaseId hbare.2)
  · split at h
    · rename_i hbare
      rw [Bool.and_eq_true] at hbare
      exact absurd (h ▸ hdot lease.id) (not_mem_dot_of_isLeaseId hbare.2)
    · simpa using h

/-! ### A whole snapshot -/

theorem Kept.reportedBy (h : x.Kept) (id : String) (removedByEvent : List String) :
    (x.reportedBy id removedByEvent).Kept := by
  refine ⟨h.ids, h.sets, h.platforms, fun i hi => h.missing i ?_⟩
  change (Function.update x.missingSince id none i).isSome = true at hi
  by_cases hid : i = id
  · rw [hid, Function.update_self] at hi
    cases hi
  · rw [Function.update_of_ne hid] at hi
    exact hi

theorem ReportStep.kept (h : y.Kept) {reported : List String}
    {s' : List String × FleetLeaseIndex} (hstep : ReportStep workerId y reported lease s') :
    s'.2.Kept := by
  cases hstep with
  | skips hskip => exact h
  | known reported' hr hreported hknown => exact h.reportedBy _ _
  | adds reported' removedByEvent platform hreported hnew => exact (h.reportedBy _ _).add

variable (workerId) (leases) (devices) in
theorem kept_addReported (h : x.Kept) : (x.addReported workerId leases devices).2.Kept :=
  List.foldlRecOn (motive := fun s => s.2.Kept) (b := ([], x)) leases
    (addReportedLease workerId devices) h
    fun s hs lease _ => (addReportedLease_step workerId devices s lease).kept hs

/-- What holds of the reports and the index while a snapshot is added. -/
structure Reporting (workerId : String) (leases : List WorkerReportedLease) (x : FleetLeaseIndex)
    (s : List String × FleetLeaseIndex) : Prop where
  grows : Grows workerId leases x s.2
  generation : s.2.generation = x.generation
  /-- A report clears the miss of its entry, and no other. -/
  missing : ∀ id, s.2.missingSince id = if id ∈ s.1 then none else x.missingSince id
  source : ∀ id ∈ s.1, ∃ lease ∈ leases, x.isGatewayRequester lease.requesterId = true ∧
    gatewayLeaseId workerId lease = id
  known : ∀ id ∈ s.1, (∃ e, s.2.resolve id = some e ∧ e.workerId = workerId) ∨
    s.2.resolve id = none ∧ id ∈ x.endedByWorkerAnswer

theorem Reporting.clears {s : List String × FleetLeaseIndex} {reported' : List String}
    (h : Reporting workerId leases x s)
    (hreported : ∀ id, id ∈ reported' ↔ id ∈ s.1 ∨ id = gatewayLeaseId workerId lease) (id : String) :
    Function.update s.2.missingSince (gatewayLeaseId workerId lease) none id =
      if id ∈ reported' then none else x.missingSince id := by
  by_cases hid : id = gatewayLeaseId workerId lease
  · rw [if_pos ((hreported id).mpr (.inr hid)), hid, Function.update_self]
  · rw [Function.update_of_ne hid, h.missing]
    simp [hreported id, hid]

theorem Reporting.step {s s' : List String × FleetLeaseIndex} (h : Reporting workerId leases x s)
    (hl : lease ∈ leases) (hstep : ReportStep workerId s.2 s.1 lease s') :
    Reporting workerId leases x s' := by
  have hgrows := h.grows.step hl hstep
  have hrequester : s.2.isGatewayRequester lease.requesterId = true →
      x.isGatewayRequester lease.requesterId = true := by
    intro hr
    rw [isGatewayRequester, h.grows.requesterPrefix] at hr
    exact hr
  have hsource : x.isGatewayRequester lease.requesterId = true → ∀ {reported' : List String},
      (∀ id, id ∈ reported' ↔ id ∈ s.1 ∨ id = gatewayLeaseId workerId lease) → ∀ id ∈ reported',
        ∃ lease ∈ leases, x.isGatewayRequester lease.requesterId = true ∧
          gatewayLeaseId workerId lease = id := by
    intro hr reported' hreported id hid
    rcases (hreported id).mp hid with hid | rfl
    · exact h.source id hid
    · exact ⟨lease, hl, hr, rfl⟩
  cases hstep with
  | skips hskip => exact h
  | known reported' hr hreported hknown =>
    refine ⟨hgrows, h.generation, h.clears hreported, hsource (hrequester hr) hreported, ?_⟩
    intro id hid
    rcases (hreported id).mp hid with hid | rfl
    · exact h.known id hid
    · rcases hknown with hown | ⟨hnone, hended⟩
      · exact .inl hown
      · exact .inr ⟨hnone, h.grows.ended ▸ hended⟩
  | adds reported' removedByEvent platform hreported hnew =>
    obtain ⟨-, hended, hgeneration, hmissing⟩ := reportNew_fields hnew removedByEvent platform
    refine ⟨hgrows, hgeneration.trans h.generation, ?_, hsource (hrequester hnew.1) hreported, ?_⟩
    · intro id
      rw [hmissing]
      exact h.clears hreported id
    · intro id hid
      rw [resolve_reportNew hnew]
      by_cases hself : id = gatewayLeaseId workerId lease
      · rw [if_pos hself]
        exact .inl ⟨s.2.reportedEntry workerId lease, rfl, rfl⟩
      · rw [if_neg hself]
        exact h.known id (((hreported id).mp hid).resolve_right hself)

variable (workerId) (leases) (devices) in
theorem addReported_reporting :
    Reporting workerId leases x (x.addReported workerId leases devices) := by
  refine List.foldlRecOn (motive := fun s => Reporting workerId leases x s) (b := ([], x)) leases
    (addReportedLease workerId devices) ⟨Grows.refl x, rfl, ?_, nofun, nofun⟩
    fun s h lease hl => h.step hl (addReportedLease_step workerId devices s lease)
  intro id
  rw [if_neg List.not_mem_nil]

/-- A lease of the gateway is reported, unless another worker has its id. -/
theorem ReportStep.reports (hrequester : y.isGatewayRequester lease.requesterId = true)
    (hown : ∀ e, y.resolve (gatewayLeaseId workerId lease) = some e → e.workerId = workerId)
    {reported : List String} {s' : List String × FleetLeaseIndex}
    (hstep : ReportStep workerId y reported lease s') : gatewayLeaseId workerId lease ∈ s'.1 := by
  cases hstep with
  | skips hskip =>
    rcases hskip with hfalse | ⟨e, he, hne⟩
    · rw [hfalse] at hrequester
      cases hrequester
    · exact absurd (hown e he) hne
  | known reported' hr hreported hknown => exact (hreported _).mpr (.inr rfl)
  | adds reported' removedByEvent platform hreported hnew => exact (hreported _).mpr (.inr rfl)

variable (devices) in
theorem addReported_reports (hl : lease ∈ leases)
    (hrequester : x.isGatewayRequester lease.requesterId = true)
    (hown : ∀ e, x.resolve (gatewayLeaseId workerId lease) = some e → e.workerId = workerId) :
    gatewayLeaseId workerId lease ∈ (x.addReported workerId leases devices).1 := by
  have hfold : ∀ (ls : List WorkerReportedLease) (s : List String × FleetLeaseIndex), lease ∈ ls →
      (∀ l ∈ ls, l ∈ leases) → Grows workerId leases x s.2 →
      gatewayLeaseId workerId lease ∈ (ls.foldl (addReportedLease workerId devices) s).1 := by
    intro ls
    induction ls with
    | nil =>
      intro s hmem
      cases hmem
    | cons l ls ih =>
      intro s hmem hsub hgrows
      have hstep := addReportedLease_step workerId devices s l
      have hnext := hgrows.step (hsub l List.mem_cons_self) hstep
      rcases List.mem_cons.mp hmem with rfl | hmem
      · refine List.foldlRecOn (motive := fun s : List String × FleetLeaseIndex =>
          gatewayLeaseId workerId lease ∈ s.1) ls (addReportedLease workerId devices)
          (hstep.reports ?_ ?_) fun t hreported l' _ =>
            (addReportedLease_step workerId devices t l').mono _ hreported
        · rw [isGatewayRequester, hgrows.requesterPrefix]
          exact hrequester
        · intro e he
          rcases hgrows.origin _ e he with hx | ⟨other, -, -, -, rfl⟩
          · exact hown e hx
          · rfl
      · exact ih _ hmem (fun l' hl' => hsub l' (List.mem_cons_of_mem l hl')) hnext
  exact hfold leases ([], x) hl (fun _ h => h) (Grows.refl x)

variable (devices) in
/-- Every lease the snapshot adds is an entry at its end, and reported. -/
theorem addReported_new (hl : lease ∈ leases) (hnew : x.IsNew workerId lease) :
    gatewayLeaseId workerId lease ∈ (x.addReported workerId leases devices).1 ∧
      ∃ e, (x.addReported workerId leases devices).2.resolve (gatewayLeaseId workerId lease) =
        some e ∧ e.key = workerKey workerId lease.id := by
  have hreporting : Reporting workerId leases x (x.addReported workerId leases devices) :=
    addReported_reporting _ _ _
  have hreported := addReported_reports devices hl hnew.1 fun e he => by
    rw [hnew.2.1] at he
    cases he
  refine ⟨hreported, ?_⟩
  rcases hreporting.known _ hreported with ⟨e, he, -⟩ | ⟨-, hended⟩
  · refine ⟨e, he, ?_⟩
    rcases hreporting.grows.origin _ e he with hx | ⟨other, -, -, hid, rfl⟩
    · rw [hnew.2.1] at hx
      cases hx
    · rw [gatewayLeaseId_inj hid]
      rfl
  · exact absurd hended hnew.2.2

/-! ### Reconciliation -/

/-- The entry is missed for the first time. -/
def markMissing (x : FleetLeaseIndex) (id : String) (generation : Nat) : FleetLeaseIndex :=
  { x with missingSince := Function.update x.missingSince id (some generation) }

/-- The rule of `#reconcileMissing`: what holds when an unreported entry is marked and when one is
    forgotten holds at its end. -/
theorem reconcile_rule {P : FleetLeaseIndex → Prop} {generation : Nat} {reported : List String}
    (hmark : ∀ x e, P x → x.resolve e.gatewayLeaseId = some e → e.workerId = workerId →
      e.gatewayLeaseId ∉ reported → x.missingSince e.gatewayLeaseId = none →
      P (x.markMissing e.gatewayLeaseId generation))
    (hforget : ∀ x e g, P x → x.resolve e.gatewayLeaseId = some e → e.workerId = workerId →
      e.gatewayLeaseId ∉ reported → x.missingSince e.gatewayLeaseId = some g → g < generation →
      P (x.forget e)) (es : List FleetLeaseEntry) :
    ∀ x : FleetLeaseIndex, (es.map FleetLeaseEntry.gatewayLeaseId).Nodup →
      (∀ e ∈ es, x.resolve e.gatewayLeaseId = some e) → P x →
      P (es.foldl (reconcileEntry workerId generation reported) x) := by
  induction es with
  | nil => exact fun x _ _ hx => hx
  | cons e es ih =>
    intro x hnodup hthere hx
    rw [List.map_cons, List.nodup_cons] at hnodup
    obtain ⟨hnot, hnodup⟩ := hnodup
    have he := hthere e List.mem_cons_self
    have hrest : ∀ e' ∈ es, x.resolve e'.gatewayLeaseId = some e' :=
      fun e' he' => hthere e' (List.mem_cons_of_mem e he')
    rw [List.foldl_cons]
    unfold reconcileEntry
    split
    · exact ih x hnodup hrest hx
    · rename_i hours
      simp only [ne_eq, decide_not, Bool.or_eq_true, Bool.not_eq_true', decide_eq_false_iff_not,
        decide_eq_true_eq, not_or, not_not] at hours
      obtain ⟨hworker, hmissed⟩ := hours
      split
      · rename_i hnone
        exact ih _ hnodup hrest (hmark x e hx he hworker hmissed hnone)
      · rename_i g hg
        split
        · rename_i hlt
          refine ih _ hnodup ?_ (hforget x e g hx he hworker hmissed hg hlt)
          intro e' he'
          have hne : e'.gatewayLeaseId ≠ e.gatewayLeaseId :=
            fun heq => hnot (heq ▸ List.mem_map_of_mem he')
          rw [resolve_forget, if_neg hne]
          exact hrest e' he'
        · exact ih x hnodup hrest hx

/-- The read of the worker that a snapshot is. -/
def nextGeneration (x : FleetLeaseIndex) (workerId : String) : Nat :=
  (x.generation workerId).getD 0 + 1

def counted (x : FleetLeaseIndex) (workerId : String) : FleetLeaseIndex :=
  { x with
    generation := Function.update x.generation workerId (some (x.nextGeneration workerId)) }

theorem rebuildFromWorker_eq (x : FleetLeaseIndex) (workerId : String)
    (leases : List WorkerReportedLease) (devices : List ReportedDevice) :
    x.rebuildFromWorker workerId leases devices =
      ((x.counted workerId).addReported workerId leases devices).2.byGatewayId.foldl
        (reconcileEntry workerId (x.nextGeneration workerId)
          ((x.counted workerId).addReported workerId leases devices).1)
        ((x.counted workerId).addReported workerId leases devices).2 := rfl

theorem Kept.markMissing (h : x.Kept) {id : String} (hid : (x.resolve id).isSome)
    (generation : Nat) : (x.markMissing id generation).Kept := by
  refine ⟨h.ids, h.sets, h.platforms, fun i hi => ?_⟩
  change (Function.update x.missingSince id (some generation) i).isSome = true at hi
  by_cases hself : i = id
  · exact hself ▸ hid
  · rw [Function.update_of_ne hself] at hi
    exact h.missing i hi

theorem Kept.counted (h : x.Kept) (workerId : String) : (x.counted workerId).Kept :=
  ⟨h.ids, h.sets, h.platforms, h.missing⟩

/-- The rule for the whole of a rebuild, from the index with all reported leases on. -/
theorem rebuild_rule {P : FleetLeaseIndex → Prop} (h : x.Kept)
    (hstart : P ((x.counted workerId).addReported workerId leases devices).2)
    (hmark : ∀ y e, P y → y.resolve e.gatewayLeaseId = some e → e.workerId = workerId →
      e.gatewayLeaseId ∉ ((x.counted workerId).addReported workerId leases devices).1 →
      y.missingSince e.gatewayLeaseId = none →
      P (y.markMissing e.gatewayLeaseId (x.nextGeneration workerId)))
    (hforget : ∀ y e g, P y → y.resolve e.gatewayLeaseId = some e → e.workerId = workerId →
      e.gatewayLeaseId ∉ ((x.counted workerId).addReported workerId leases devices).1 →
      y.missingSince e.gatewayLeaseId = some g → g < x.nextGeneration workerId →
      P (y.forget e)) :
    P (x.rebuildFromWorker workerId leases devices) := by
  rw [rebuildFromWorker_eq]
  have hkept := kept_addReported workerId leases devices
    (h.counted workerId)
  exact reconcile_rule hmark hforget _ _ hkept.ids
    (fun e he => (resolve_eq_some hkept.ids).mpr ⟨he, rfl⟩) hstart

theorem Kept.rebuildFromWorker (h : x.Kept) :
    (x.rebuildFromWorker workerId leases devices).Kept := by
  refine rebuild_rule h (kept_addReported _ _ _ (h.counted workerId)) ?_ ?_
  · intro y e hy he _ _ _
    exact hy.markMissing (by rw [he]; rfl) _
  · intro y e g hy _ _ _ _ _
    exact hy.forget

/-! ### The other operations -/

/-- The rule of a series of forgotten entries. -/
theorem forget_rule {P : FleetLeaseIndex → Prop}
    (hforget : ∀ x e, P x → x.resolve e.gatewayLeaseId = some e → P (x.forget e))
    (es : List FleetLeaseEntry) :
    ∀ x : FleetLeaseIndex, (es.map FleetLeaseEntry.gatewayLeaseId).Nodup →
      (∀ e ∈ es, x.resolve e.gatewayLeaseId = some e) → P x → P (es.foldl forget x) := by
  induction es with
  | nil => exact fun x _ _ hx => hx
  | cons e es ih =>
    intro x hnodup hthere hx
    rw [List.map_cons, List.nodup_cons] at hnodup
    obtain ⟨hnot, hnodup⟩ := hnodup
    refine ih _ hnodup ?_ (hforget x e hx (hthere e List.mem_cons_self))
    intro e' he'
    have hne : e'.gatewayLeaseId ≠ e.gatewayLeaseId :=
      fun heq => hnot (heq ▸ List.mem_map_of_mem he')
    rw [resolve_forget, if_neg hne]
    exact hthere e' (List.mem_cons_of_mem e he')

/-- The entries a worker leaves behind, forgotten. -/
def dropped (x : FleetLeaseIndex) (workerId : String) : FleetLeaseIndex :=
  (x.byGatewayId.filter fun e => e.workerId = workerId).foldl forget x

theorem dropped_rule {P : FleetLeaseIndex → Prop} (h : x.Kept)
    (hforget : ∀ y e, P y → y.resolve e.gatewayLeaseId = some e → P (y.forget e)) (hx : P x) :
    P (x.dropped workerId) := by
  refine forget_rule hforget _ x ?_ ?_ hx
  · exact (List.filter_sublist.map _).nodup h.ids
  · exact fun e he => (resolve_eq_some h.ids).mpr ⟨(List.mem_filter.mp he).1, rfl⟩

theorem Kept.forgetWorker (h : x.Kept) : (x.forgetWorker workerId).Kept := by
  have hdropped : (x.dropped workerId).Kept := dropped_rule h (fun y e hy _ => hy.forget) h
  exact ⟨hdropped.ids, hdropped.sets, hdropped.platforms, hdropped.missing⟩

theorem Kept.remove (h : x.Kept) (id : String) : (x.remove id).Kept := by
  have hremembered : { x with endedByWorkerAnswer := remember x.endedByWorkerAnswer id }.Kept :=
    ⟨h.ids, h.sets, h.platforms, h.missing⟩
  unfold FleetLeaseIndex.remove
  split
  · exact hremembered
  · exact hremembered.forget

theorem findByWorkerLease_spec {workerLeaseId : String} {e : FleetLeaseEntry}
    (h : x.findByWorkerLease workerId workerLeaseId = some e) :
    x.byWorkerLease (workerKey workerId workerLeaseId) = some e.gatewayLeaseId ∧
      x.resolve e.gatewayLeaseId = some e := by
  obtain ⟨id, hid, he⟩ := Option.bind_eq_some_iff.mp h
  have hself := resolve_id he
  exact ⟨hself ▸ hid, hself ▸ he⟩

theorem Kept.removeByWorkerLease (h : x.Kept) (workerLeaseId : String) :
    (x.removeByWorkerLease workerId workerLeaseId).Kept := by
  unfold FleetLeaseIndex.removeByWorkerLease
  split
  · exact h
  · rename_i e he
    have hforget : (x.forget e).Kept := h.forget
    exact ⟨hforget.ids, hforget.sets, hforget.platforms, hforget.missing⟩

theorem Kept.step (h : x.Kept) (a : IndexAction) : (x.step a).Kept := by
  cases a with
  | add entry platform => exact h.add
  | remove id => exact h.remove id
  | removeByWorkerLease workerId workerLeaseId => exact h.removeByWorkerLease workerLeaseId
  | rebuildFromWorker workerId leases devices => exact h.rebuildFromWorker
  | forgetWorker workerId => exact h.forgetWorker

end Snapshots

end FleetLeaseIndex

end Simlock.Gateway
