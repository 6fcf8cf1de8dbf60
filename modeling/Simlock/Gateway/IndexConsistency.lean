import Mathlib.Data.List.Perm.Basic
import Simlock.Gateway.IndexSteps

/-! The five maps of the lease index agree.

    `Consistent` says how: a requester's set holds its entries, a worker's key leads to the entry
    with that key and every entry has its own, marks are of known entries. Every lookup then answers
    from the one set of entries.

    Forgetting an entry keeps the maps in agreement. Adding one does so exactly when it replaces
    none of another requester or key, and when no other entry has its key: `add` writes the new
    links and drops no old one. -/

namespace Simlock.Gateway

open Simlock.Lib Simlock.Core Simlock.Leasing

namespace FleetLeaseIndex

/-! ### Consistency -/

structure Consistent (x : FleetLeaseIndex) : Prop where
  ids : (x.byGatewayId.map FleetLeaseEntry.gatewayLeaseId).Nodup
  sets : ∀ r ids, x.byRequester r = some ids → ids ≠ [] ∧ ids.Nodup
  linked : ∀ r id, id ∈ x.links r ↔ ∃ e, x.resolve id = some e ∧ e.requesterId = r
  keyed : ∀ k id, x.byWorkerLease k = some id ↔ ∃ e, x.resolve id = some e ∧ e.key = k
  platforms : ∀ id, (x.platforms id).isSome → (x.resolve id).isSome
  missing : ∀ id, (x.missingSince id).isSome → (x.resolve id).isSome

/-- The lookups answer from the same entries. -/
structure Answers (x : FleetLeaseIndex) : Prop where
  resolve : ∀ id e, x.resolve id = some e ↔ e ∈ x.byGatewayId ∧ e.gatewayLeaseId = id
  find : ∀ workerId workerLeaseId e, x.findByWorkerLease workerId workerLeaseId = some e ↔
    e ∈ x.byGatewayId ∧ e.key = workerKey workerId workerLeaseId
  held : ∀ r h, h ∈ x.held r ↔ ∃ e ∈ x.byGatewayId, e.requesterId = r ∧
    h = ⟨e.gatewayLeaseId, e.grantedAt, x.platforms e.gatewayLeaseId⟩
  count : ∀ r, x.leaseCount r = (x.byGatewayId.filter fun e => e.requesterId = r).length ∧
    (x.held r).length = x.leaseCount r

/-- The entry replaces none of another requester or key, and no other entry has its key. -/
structure Linkable (x : FleetLeaseIndex) (entry : FleetLeaseEntry) : Prop where
  replaces : ∀ e, x.resolve entry.gatewayLeaseId = some e →
    e.requesterId = entry.requesterId ∧ e.key = entry.key
  alone : ∀ id e, x.resolve id = some e → e.key = entry.key → id = entry.gatewayLeaseId

/-- What an operation adds replaces no entry of another requester or key, and shares its key with no
    other entry. -/
def Fits (x : FleetLeaseIndex) : IndexAction → Prop
  | .add entry _ => x.IsForeign entry ∨ x.Linkable entry
  | .rebuildFromWorker workerId leases _ => ∀ lease ∈ leases, x.IsNew workerId lease →
    (∀ id e, x.resolve id = some e → e.key ≠ workerKey workerId lease.id) ∧
    ∀ other ∈ leases, x.IsNew workerId other → other.id = lease.id →
      gatewayLeaseId workerId other = gatewayLeaseId workerId lease
  | _ => True

theorem Consistent.kept {x : FleetLeaseIndex} (h : x.Consistent) : x.Kept :=
  ⟨h.ids, h.sets, h.platforms, h.missing⟩

/-! ### Consistency, one entry at a time -/

section Entries

variable {x : FleetLeaseIndex} {entry e : FleetLeaseEntry} {platform : Option Platform} {id r : String}

theorem Consistent.add (h : x.Consistent) (hforeign : ¬ x.IsForeign entry) (hl : x.Linkable entry) :
    (x.add entry platform).2.Consistent := by
  have hkept : (x.add entry platform).2.Kept := h.kept.add
  obtain ⟨hids, hsets, hplatforms, hmissing⟩ := hkept
  refine ⟨hids, hsets, ?_, ?_, hplatforms, hmissing⟩
  · intro r id
    rw [mem_links_add hforeign, h.linked, resolve_add hforeign]
    by_cases hid : id = entry.gatewayLeaseId
    · subst hid
      rw [if_pos rfl]
      constructor
      · rintro (⟨e, he, rfl⟩ | ⟨rfl, -⟩)
        · exact ⟨entry, rfl, (hl.replaces e he).1.symm⟩
        · exact ⟨entry, rfl, rfl⟩
      · rintro ⟨e, he, rfl⟩
        obtain rfl := Option.some.inj he
        exact .inr ⟨rfl, rfl⟩
    · rw [if_neg hid]
      exact ⟨fun hor => hor.resolve_right fun hself => hid hself.2, .inl⟩
  · intro k id
    rw [byWorkerLease_add _ hforeign, resolve_add hforeign]
    by_cases hk : k = entry.key
    · subst hk
      rw [Function.update_self]
      constructor
      · intro hid
        obtain rfl := Option.some.inj hid
        exact ⟨entry, if_pos rfl, rfl⟩
      · rintro ⟨e, he, hkey⟩
        by_cases hid : id = entry.gatewayLeaseId
        · rw [hid]
        · rw [if_neg hid] at he
          exact absurd (hl.alone id e he hkey) hid
    · rw [Function.update_of_ne hk, h.keyed]
      by_cases hid : id = entry.gatewayLeaseId
      · subst hid
        rw [if_pos rfl]
        constructor
        · rintro ⟨e, he, rfl⟩
          exact absurd (hl.replaces e he).2 hk
        · rintro ⟨e, he, rfl⟩
          obtain rfl := Option.some.inj he
          exact absurd rfl hk
      · rw [if_neg hid]

/-- An entry that does not fit leaves a link of what it replaces, or takes another's key. -/
theorem Consistent.linkable (h : x.Consistent) (hforeign : ¬ x.IsForeign entry)
    (h' : (x.add entry platform).2.Consistent) : x.Linkable entry := by
  have hself := resolve_add_self platform hforeign
  refine ⟨?_, ?_⟩
  · intro e he
    constructor
    · have hlink : entry.gatewayLeaseId ∈ (x.add entry platform).2.links e.requesterId :=
        (mem_links_add hforeign).mpr (.inl ((h.linked _ _).mpr ⟨e, he, rfl⟩))
      obtain ⟨e', he', hr⟩ := (h'.linked _ _).mp hlink
      rw [hself] at he'
      obtain rfl := Option.some.inj he'
      exact hr.symm
    · by_contra hkey
      have hold := (h.keyed e.key entry.gatewayLeaseId).mpr ⟨e, he, rfl⟩
      rw [← Function.update_of_ne hkey (some entry.gatewayLeaseId) x.byWorkerLease,
        ← byWorkerLease_add platform hforeign] at hold
      obtain ⟨e', he', hk⟩ := (h'.keyed _ _).mp hold
      rw [hself] at he'
      obtain rfl := Option.some.inj he'
      exact hkey hk.symm
  · intro id e he hkey
    by_contra hid
    have hkept : (x.add entry platform).2.resolve id = some e := by
      rw [resolve_add hforeign, if_neg hid]
      exact he
    have hk := (h'.keyed entry.key id).mpr ⟨e, hkept, hkey⟩
    rw [(h'.keyed entry.key entry.gatewayLeaseId).mpr ⟨entry, hself, rfl⟩] at hk
    exact hid (Option.some.inj hk).symm

theorem Consistent.forget (h : x.Consistent) (he : x.resolve entry.gatewayLeaseId = some entry) :
    (x.forget entry).Consistent := by
  have hkept : (x.forget entry).Kept := h.kept.forget
  obtain ⟨hids, hsets, hplatforms, hmissing⟩ := hkept
  refine ⟨hids, hsets, ?_, ?_, hplatforms, hmissing⟩
  · intro r id
    rw [mem_links_forget h.sets, h.linked, resolve_forget]
    by_cases hid : id = entry.gatewayLeaseId
    · subst hid
      rw [if_pos rfl, he]
      constructor
      · rintro ⟨⟨e, hsome, rfl⟩, hr⟩
        obtain rfl := Option.some.inj hsome
        exact absurd rfl (hr rfl)
      · rintro ⟨e, hnone, -⟩
        cases hnone
    · rw [if_neg hid]
      exact ⟨fun hboth => hboth.1, fun hsome => ⟨hsome, fun _ => hid⟩⟩
  · intro k id
    have hkey : x.byWorkerLease entry.key = some entry.gatewayLeaseId :=
      (h.keyed _ _).mpr ⟨entry, he, rfl⟩
    have hfields : (x.forget entry).byWorkerLease =
        Function.update x.byWorkerLease entry.key none := by
      rw [forget_eq]
    rw [hfields, resolve_forget]
    by_cases hk : k = entry.key
    · subst hk
      rw [Function.update_self]
      constructor
      · intro hnone
        cases hnone
      · rintro ⟨e, hsome, hkeys⟩
        split at hsome
        · cases hsome
        · rename_i hid
          have hsame := (h.keyed entry.key id).mpr ⟨e, hsome, hkeys⟩
          rw [hkey] at hsame
          exact absurd (Option.some.inj hsame).symm hid
    · rw [Function.update_of_ne hk, h.keyed]
      by_cases hid : id = entry.gatewayLeaseId
      · subst hid
        rw [if_pos rfl, he]
        constructor
        · rintro ⟨e, hsome, rfl⟩
          obtain rfl := Option.some.inj hsome
          exact absurd rfl hk
        · rintro ⟨e, hnone, -⟩
          cases hnone
      · rw [if_neg hid]

end Entries

/-! ### Consistency of a snapshot -/

section Snapshots

variable {x y : FleetLeaseIndex} {workerId : String} {lease : WorkerReportedLease}
  {leases : List WorkerReportedLease} {devices : List ReportedDevice}

theorem Consistent.reportedBy (h : x.Consistent) (id : String) (removedByEvent : List String) :
    (x.reportedBy id removedByEvent).Consistent := by
  obtain ⟨hids, hsets, hplatforms, hmissing⟩ := h.kept.reportedBy id removedByEvent
  exact ⟨hids, hsets, h.linked, h.keyed, hplatforms, hmissing⟩

theorem ReportStep.consistent (h : y.Consistent) (hgrows : Grows workerId leases x y)
    (hfits : x.Fits (.rebuildFromWorker workerId leases devices)) (hl : lease ∈ leases)
    {reported : List String} {s' : List String × FleetLeaseIndex}
    (hstep : ReportStep workerId y reported lease s') : s'.2.Consistent := by
  cases hstep with
  | skips hskip => exact h
  | known reported' hr hreported hknown => exact h.reportedBy _ _
  | adds reported' removedByEvent platform hreported hnew =>
    refine (h.reportedBy _ _).add (hnew.not_foreign removedByEvent) ⟨?_, ?_⟩
    · intro e he
      have hsome : y.resolve (gatewayLeaseId workerId lease) = some e := he
      rw [hnew.2.1] at hsome
      cases hsome
    · intro id e he hkey
      obtain ⟨hold, hothers⟩ := hfits lease hl (hgrows.isNew hnew)
      rcases hgrows.origin id e he with hx | ⟨other, hother, hnew', rfl, rfl⟩
      · exact absurd hkey (hold id e hx)
      · refine hothers other hother hnew' ?_
        have hkeys : workerKey workerId other.id = workerKey workerId lease.id := hkey
        simpa [workerKey] using hkeys

theorem consistent_addReported (h : x.Consistent)
    (hfits : x.Fits (.rebuildFromWorker workerId leases devices)) :
    (x.addReported workerId leases devices).2.Consistent := by
  refine (List.foldlRecOn (motive := fun s => s.2.Consistent ∧ Grows workerId leases x s.2)
    (b := ([], x)) leases (addReportedLease workerId devices) ⟨h, Grows.refl x⟩
    fun s hs lease hlease => ?_).1
  have hstep := addReportedLease_step workerId devices s lease
  exact ⟨hstep.consistent hs.1 hs.2 hfits hlease, hs.2.step hlease hstep⟩

theorem Consistent.markMissing (h : x.Consistent) {id : String} (hid : (x.resolve id).isSome)
    (generation : Nat) : (x.markMissing id generation).Consistent := by
  obtain ⟨hids, hsets, hplatforms, hmissing⟩ := h.kept.markMissing hid generation
  exact ⟨hids, hsets, h.linked, h.keyed, hplatforms, hmissing⟩

theorem Consistent.counted (h : x.Consistent) (workerId : String) :
    (x.counted workerId).Consistent :=
  ⟨h.ids, h.sets, h.linked, h.keyed, h.platforms, h.missing⟩

theorem Consistent.rebuildFromWorker (h : x.Consistent)
    (hfits : x.Fits (.rebuildFromWorker workerId leases devices)) :
    (x.rebuildFromWorker workerId leases devices).Consistent := by
  refine rebuild_rule h.kept (consistent_addReported (h.counted workerId) hfits) ?_ ?_
  · intro y e hy he _ _ _
    exact hy.markMissing (by rw [he]; rfl) _
  · intro y e g hy he _ _ _ _
    exact hy.forget he

/-- Two entries of one key, of which the second is reported, do not come apart in a rebuild. -/
theorem rebuild_inconsistent (h : x.Kept) {id : String} {e e' : FleetLeaseEntry}
    (he : ((x.counted workerId).addReported workerId leases devices).2.resolve id = some e)
    (he' : ((x.counted workerId).addReported workerId leases devices).2.resolve e'.gatewayLeaseId =
      some e')
    (hreported : e'.gatewayLeaseId ∈ ((x.counted workerId).addReported workerId leases devices).1)
    (hkey : e.key = e'.key) (hne : id ≠ e'.gatewayLeaseId) :
    ¬ (x.rebuildFromWorker workerId leases devices).Consistent := by
  -- the first entry stays, or goes with the key of both
  have hafter : (x.rebuildFromWorker workerId leases devices).resolve e'.gatewayLeaseId = some e' ∧
      ((x.rebuildFromWorker workerId leases devices).resolve id = some e ∨
        (x.rebuildFromWorker workerId leases devices).byWorkerLease e'.key = none) := by
    refine rebuild_rule (P := fun y => y.resolve e'.gatewayLeaseId = some e' ∧
      (y.resolve id = some e ∨ y.byWorkerLease e'.key = none)) h ⟨he', .inl he⟩ ?_ ?_
    · exact fun y f hy _ _ _ _ => hy
    · rintro y f g ⟨hy', hy⟩ hf hworker hmissed _ _
      have hother : e'.gatewayLeaseId ≠ f.gatewayLeaseId := fun heq => hmissed (heq ▸ hreported)
      refine ⟨by rw [resolve_forget, if_neg hother]; exact hy', ?_⟩
      have hkeys : (y.forget f).byWorkerLease = Function.update y.byWorkerLease f.key none := by
        rw [forget_eq]
      rw [hkeys, resolve_forget]
      by_cases hkf : e'.key = f.key
      · rw [hkf, Function.update_self]
        exact .inr rfl
      · rw [Function.update_of_ne hkf]
        refine hy.imp_left fun hid => ?_
        rw [if_neg]
        · exact hid
        · rintro rfl
          rw [hid] at hf
          obtain rfl := Option.some.inj hf
          exact hkf hkey.symm
  intro hconsistent
  obtain ⟨hthere, hfirst⟩ := hafter
  have hleads := (hconsistent.keyed e'.key e'.gatewayLeaseId).mpr ⟨e', hthere, rfl⟩
  rcases hfirst with hid | hnone
  · rw [(hconsistent.keyed e'.key id).mpr ⟨e, hid, hkey⟩] at hleads
    exact hne (Option.some.inj hleads)
  · rw [hnone] at hleads
    cases hleads

theorem Consistent.fits_rebuild (h : x.Consistent)
    (h' : (x.rebuildFromWorker workerId leases devices).Consistent) :
    x.Fits (.rebuildFromWorker workerId leases devices) := by
  have hgrows : Grows workerId leases (x.counted workerId)
      ((x.counted workerId).addReported workerId leases devices).2 := addReported_grows
  have hnewEntry : ∀ l ∈ leases, x.IsNew workerId l →
      gatewayLeaseId workerId l ∈ ((x.counted workerId).addReported workerId leases devices).1 ∧
        ∃ e, ((x.counted workerId).addReported workerId leases devices).2.resolve
          (gatewayLeaseId workerId l) = some e ∧ e.key = workerKey workerId l.id :=
    fun l hl hnew => addReported_new _ (x := x.counted workerId) hl hnew
  intro lease hl hnew
  obtain ⟨hreported, e', he', hkey'⟩ := hnewEntry lease hl hnew
  have hid' := resolve_id he'
  rw [← hid'] at he' hreported
  refine ⟨?_, ?_⟩
  · intro id e he hkey
    refine rebuild_inconsistent h.kept (hgrows.keeps id e he) he' hreported
      (hkey.trans hkey'.symm) ?_ h'
    rintro rfl
    rw [hid', hnew.2.1] at he
    cases he
  · intro other hother hnew' hsame
    obtain ⟨-, e, he, hkey⟩ := hnewEntry other hother hnew'
    by_contra hne
    refine rebuild_inconsistent h.kept he he' hreported ?_ (fun heq => hne (heq.trans hid')) h'
    rw [hkey, hkey', hsame]

/-! ### The other operations -/

theorem Consistent.forgetWorker (h : x.Consistent) : (x.forgetWorker workerId).Consistent := by
  have hdropped : (x.dropped workerId).Consistent :=
    dropped_rule h.kept (fun y e hy he => hy.forget he) h
  exact ⟨hdropped.ids, hdropped.sets, hdropped.linked, hdropped.keyed, hdropped.platforms,
    hdropped.missing⟩

theorem Consistent.remove (h : x.Consistent) (id : String) : (x.remove id).Consistent := by
  have hremembered :
      { x with endedByWorkerAnswer := remember x.endedByWorkerAnswer id }.Consistent :=
    ⟨h.ids, h.sets, h.linked, h.keyed, h.platforms, h.missing⟩
  unfold FleetLeaseIndex.remove
  split
  · exact hremembered
  · rename_i e he
    exact hremembered.forget (resolve_id he ▸ he)

theorem Consistent.removeByWorkerLease (h : x.Consistent) (workerLeaseId : String) :
    (x.removeByWorkerLease workerId workerLeaseId).Consistent := by
  unfold FleetLeaseIndex.removeByWorkerLease
  split
  · exact h
  · rename_i e he
    have hforget := h.forget (findByWorkerLease_spec he).2
    exact ⟨hforget.ids, hforget.sets, hforget.linked, hforget.keyed, hforget.platforms,
      hforget.missing⟩

/-- One operation keeps the maps in agreement exactly when what it adds fits. -/
theorem Consistent.step_iff (h : x.Consistent) (a : IndexAction) :
    (x.step a).Consistent ↔ x.Fits a := by
  cases a with
  | add entry platform =>
    by_cases hforeign : x.IsForeign entry
    · simp only [step, add_foreign hforeign, Fits]
      exact ⟨fun _ => .inl hforeign, fun _ => h⟩
    · simp only [step, Fits, hforeign, false_or]
      exact ⟨h.linkable hforeign, h.add hforeign⟩
  | remove id => exact ⟨fun _ => trivial, fun _ => h.remove id⟩
  | removeByWorkerLease workerId workerLeaseId =>
    exact ⟨fun _ => trivial, fun _ => h.removeByWorkerLease workerLeaseId⟩
  | rebuildFromWorker workerId leases devices =>
    exact ⟨h.fits_rebuild, h.rebuildFromWorker⟩
  | forgetWorker workerId => exact ⟨fun _ => trivial, fun _ => h.forgetWorker⟩

end Snapshots

/-! ### The lookups -/

theorem length_links {x : FleetLeaseIndex} (h : x.Consistent) (r : String) :
    (x.links r).length = (x.byGatewayId.filter fun e => e.requesterId = r).length := by
  have hnodup : (x.links r).Nodup := by
    unfold links
    cases hids : x.byRequester r with
    | none => exact List.nodup_nil
    | some ids => exact (h.sets r ids hids).2
  have hperm : (x.links r).Perm
      ((x.byGatewayId.filter fun e => e.requesterId = r).map FleetLeaseEntry.gatewayLeaseId) := by
    refine (List.perm_ext_iff_of_nodup hnodup ((List.filter_sublist.map _).nodup h.ids)).mpr ?_
    intro id
    rw [h.linked, List.mem_map]
    constructor
    · rintro ⟨e, he, hr⟩
      exact ⟨e, List.mem_filter.mpr ⟨resolve_mem he, by simpa using hr⟩, resolve_id he⟩
    · rintro ⟨e, he, rfl⟩
      obtain ⟨hmem, hr⟩ := List.mem_filter.mp he
      exact ⟨e, (resolve_eq_some h.ids).mpr ⟨hmem, rfl⟩, by simpa using hr⟩
  rw [hperm.length_eq, List.length_map]

theorem Consistent.answers {x : FleetLeaseIndex} (h : x.Consistent) : x.Answers where
  resolve id e := resolve_eq_some h.ids
  find workerId workerLeaseId e := by
    constructor
    · intro hfind
      obtain ⟨hkey, he⟩ := findByWorkerLease_spec hfind
      obtain ⟨e', he', hk⟩ := (h.keyed _ _).mp hkey
      rw [he] at he'
      obtain rfl := Option.some.inj he'
      exact ⟨resolve_mem he, hk⟩
    · rintro ⟨hmem, hk⟩
      have he := (resolve_eq_some h.ids).mpr ⟨hmem, rfl⟩
      rw [findByWorkerLease, (h.keyed _ _).mpr ⟨e, he, hk⟩]
      exact he
  held r l := by
    rw [held, List.mem_filterMap]
    constructor
    · rintro ⟨id, hid, hl⟩
      obtain ⟨e, he, hr⟩ := (h.linked r id).mp hid
      rw [he, Option.map_some] at hl
      exact ⟨e, resolve_mem he, hr, by rw [← Option.some.inj hl, resolve_id he]⟩
    · rintro ⟨e, hmem, hr, rfl⟩
      have he := (resolve_eq_some h.ids).mpr ⟨hmem, rfl⟩
      exact ⟨e.gatewayLeaseId, (h.linked r _).mpr ⟨e, he, hr⟩, by rw [he]; rfl⟩
  count r := by
    have hcount : x.leaseCount r = (x.links r).length := by
      rw [leaseCount, links]
      cases x.byRequester r <;> rfl
    refine ⟨hcount.trans (length_links h r), ?_⟩
    rw [hcount]
    refine List.filterMap_length_eq_length.mpr fun id hid => ?_
    obtain ⟨e, he, -⟩ := (h.linked r id).mp hid
    rw [he]
    rfl

/-! ### Runs -/

theorem create_consistent (gatewayRequesterPrefix : String) :
    (create gatewayRequesterPrefix).Consistent := by
  refine ⟨List.nodup_nil, ?_, ?_, ?_, ?_, ?_⟩
  · intro r ids hids
    cases hids
  · intro r id
    simp [create, links, resolve]
  · intro k id
    simp [create, resolve]
  · intro id hid
    cases hid
  · intro id hid
    cases hid

/-- The maps agree throughout a run exactly when everything it adds fits. -/
theorem maps_agree_iff (gatewayRequesterPrefix : String) (acts : List IndexAction) :
    (∀ pre, pre <+: acts →
      (run step (create gatewayRequesterPrefix) pre).Consistent ∧
        (run step (create gatewayRequesterPrefix) pre).Answers) ↔
    AllSteps step Fits (create gatewayRequesterPrefix) acts := by
  rw [allSteps_iff_invariant (I := Consistent) (fun _ a h => h.step_iff a) acts _
    (create_consistent gatewayRequesterPrefix)]
  exact ⟨fun h pre hpre => (h pre hpre).1, fun h pre hpre => ⟨h pre hpre, (h pre hpre).answers⟩⟩

/-- A lease that a stale snapshot brings back goes to the next requester of its id. -/
def takenOver : List IndexAction :=
  [.add ⟨"mine", "wrk_1", "mine", "alice", "alice-principal", 1⟩ (some .ios),
    .removeByWorkerLease "wrk_1" "mine",
    .rebuildFromWorker "wrk_1" [⟨"mine", none, "gw:alice", "alice-principal", 1, true, 9⟩] [],
    .add ⟨"mine", "wrk_1", "mine", "bob", "bob-principal", 5⟩ (some .ios)]

/-- The first requester still has the id, and the limit counts the second one's lease for it. -/
theorem replaced_entry_leaves_link :
    (run step (create "gw:") takenOver).leaseCount "alice" = 1 ∧
      ¬ (run step (create "gw:") takenOver).Consistent := by
  refine ⟨by decide +kernel, fun h => ?_⟩
  have hlink : "mine" ∈ (run step (create "gw:") takenOver).links "alice" := by decide +kernel
  have hentry : ((run step (create "gw:") takenOver).resolve "mine").map
      FleetLeaseEntry.requesterId = some "bob" := by
    decide +kernel
  obtain ⟨e, he, hr⟩ := (h.linked "alice" "mine").mp hlink
  rw [he, Option.map_some, hr] at hentry
  revert hentry
  decide

end FleetLeaseIndex

end Simlock.Gateway
