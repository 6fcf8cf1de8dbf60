import Simlock.Core.Stored

/-! A commit stores what it commits.

    The writers run over the difference between the committed lists and the next ones. Seven loops,
    one after the other; after each the tables of one kind of record hold the list the loop was for.
    Requests go first, so that no grant names a device that is then deleted, and they are written
    after the devices, so that a grant finds its own. -/

namespace Simlock.Core

open Simlock.Lib

/-- The tables hold the registry. -/
structure Stored (r : Registry) (db : Database) : Prop where
  devices : DevicesStored r.devices db.device
  leases : db.leases = r.leases.map leaseRow
  requests : RequestsStored r.leaseRequests db.request
  components : ComponentsStored r.components db.component

/-- Every kind of record has one record per key. -/
structure Keys (r : Registry) : Prop where
  devices : (r.devices.map Device.id).Nodup
  leases : (r.leases.map LeaseRecord.id).Nodup
  requests : (r.leaseRequests.map LeaseRequestRecord.id).Nodup
  components : (r.components.map componentKey).Nodup

/-- The lists a commit of `r` can store. A record that is replaced has no grant yet, and every
    grant names a device that is committed with it. -/
structure Storable (r : Registry) (d : Draft) : Prop where
  devices : Follows Device.id r.devices d.devices
  leases : Follows LeaseRecord.id r.leases d.leases
  requests : Follows LeaseRequestRecord.id r.leaseRequests d.leaseRequests
  components : Reordered componentKey r.components d.components
  replaced : ∀ o ∈ d.leaseRequests, o.fresh = true →
    ∀ q ∈ r.leaseRequests, q.id = o.val.id → q.grant = none
  named : ∀ q ∈ vals d.leaseRequests, ∀ g, q.grant = some g →
    g.device.id ∈ (vals d.devices).map Device.id

/-- The one error of a commit: driver data of the other platform, in a device it writes. -/
def DriverDataOf (ds : List Device) (e : CommitError) : Prop :=
  (∃ d ∈ ds, ForeignData d) ∧ IsDriverData e

section Loops

variable {bad : CommitError → Prop} {db : Database}

theorem deleteRequests_yields {l : List LeaseRequestRecord} (h : RequestsStored l db.request)
    (ids : List String) :
    Yields bad (fun db' =>
      RequestsStored (deleteKeys LeaseRequestRecord.id ids l) db'.request ∧ SameButRequests db db')
      (ids.foldlM deleteLeaseRequest db) := by
  rw [← foldl_filter_ne]
  refine Yields.foldlM (fun pre (db' : Database) => RequestsStored
    (pre.foldl (fun l id => l.filter (fun q => q.id ≠ id)) l) db'.request ∧ SameButRequests db db')
    ids db ⟨h, rfl, rfl, rfl⟩ fun pre id post s _ hs => ?_
  refine (deleteLeaseRequest_yields hs.1 id).mono fun db' h' => ?_
  rw [List.foldl_append]
  exact ⟨h'.1, h'.2.1.trans hs.2.1, h'.2.2.1.trans hs.2.2.1, h'.2.2.2.trans hs.2.2.2⟩

theorem deleteDevices_yields {l : List Device} (h : DevicesStored l db.device) (ids : List String)
    (hgrants : ∀ id ∈ ids, hasText "device_id" id db.request.leaseGrants = false) :
    Yields bad (fun db' =>
      DevicesStored (deleteKeys Device.id ids l) db'.device ∧ SameButDevices db db')
      (ids.foldlM deleteDevice db) := by
  rw [← foldl_filter_ne]
  refine Yields.foldlM (fun pre (db' : Database) => DevicesStored
    (pre.foldl (fun l id => l.filter (fun d => d.id ≠ id)) l) db'.device ∧ SameButDevices db db')
    ids db ⟨h, rfl, rfl, rfl⟩ fun pre id post s hids hs => ?_
  have hid : hasText "device_id" id s.request.leaseGrants = false := by
    rw [hs.2.2.1]
    exact hgrants id (by simp [hids])
  refine (deleteDevice_yields hs.1 hid).mono fun db' h' => ?_
  rw [List.foldl_append]
  exact ⟨h'.1, h'.2.1.trans hs.2.1, h'.2.2.1.trans hs.2.2.1, h'.2.2.2.trans hs.2.2.2⟩

theorem writeDevices_yields {l : List Device} (h : DevicesStored l db.device)
    (hnodup : (l.map Device.id).Nodup) (ds : List Device) :
    Yields (DriverDataOf ds) (fun db' =>
      DevicesStored (ds.foldl (fun l x => upsert Device.id x l) l) db'.device ∧
        SameButDevices db db') (ds.foldlM writeDevice db) := by
  refine Yields.foldlM (fun pre (db' : Database) => DevicesStored
    (pre.foldl (fun l x => upsert Device.id x l) l) db'.device ∧ SameButDevices db db')
    ds db ⟨h, rfl, rfl, rfl⟩ fun pre d post s hds hs => ?_
  have hpre := nodup_keys_foldl_upsert pre l hnodup
  have hd : d ∈ ds := by simp [hds]
  refine ((writeDevice_yields hs.1 hpre d).weaken fun e he => ⟨⟨d, hd, he.1⟩, he.2⟩).mono
    fun db' h' => ?_
  rw [List.foldl_append]
  exact ⟨h'.1, h'.2.1.trans hs.2.1, h'.2.2.1.trans hs.2.2.1, h'.2.2.2.trans hs.2.2.2⟩

theorem deleteLeases_yields {l : List LeaseRecord} (h : db.leases = l.map leaseRow)
    (ids : List String) :
    ids.foldlM deleteLease db =
      .ok { db with leases := (deleteKeys LeaseRecord.id ids l).map leaseRow } := by
  induction ids generalizing db l with
  | nil => rw [deleteKeys_nil, ← h]; rfl
  | cons id ids ih =>
    rw [List.foldlM_cons, deleteLease_eq h, deleteKeys_cons]
    exact ih rfl

theorem writeLeases_yields {l : List LeaseRecord} (h : db.leases = l.map leaseRow)
    (ls : List LeaseRecord) :
    ls.foldlM writeLease db =
      .ok { db with leases := (ls.foldl (fun l x => upsert LeaseRecord.id x l) l).map leaseRow } := by
  induction ls generalizing db l with
  | nil => rw [List.foldl_nil, ← h]; rfl
  | cons x ls ih =>
    rw [List.foldlM_cons, writeLease_eq h]
    exact ih rfl

theorem writeRequests_yields {l : List LeaseRequestRecord} (h : RequestsStored l db.request)
    (hnodup : (l.map LeaseRequestRecord.id).Nodup) (qs : List LeaseRequestRecord)
    (hqs : (qs.map LeaseRequestRecord.id).Nodup)
    (hold : ∀ q ∈ qs, ∀ y ∈ l, y.id = q.id → y.grant = none)
    (hdevice : ∀ q ∈ qs, ∀ g, q.grant = some g →
      hasText "id" g.device.id db.device.devices = true) :
    Yields bad (fun db' =>
      RequestsStored (qs.foldl (fun l x => upsert LeaseRequestRecord.id x l) l) db'.request ∧
        SameButRequests db db') (qs.foldlM writeLeaseRequest db) := by
  refine Yields.foldlM (fun pre (db' : Database) => RequestsStored
    (pre.foldl (fun l x => upsert LeaseRequestRecord.id x l) l) db'.request ∧
      SameButRequests db db') qs db ⟨h, rfl, rfl, rfl⟩ fun pre q post s hsplit hs => ?_
  have hq : q ∈ qs := by simp [hsplit]
  have hpre := nodup_keys_foldl_upsert pre l hnodup
  have hnew : ∀ y ∈ pre.foldl (fun l x => upsert LeaseRequestRecord.id x l) l,
      y.id = q.id → y.grant = none := by
    intro y hy hid
    rcases mem_foldl_upsert pre l hnodup hy with hy | hy
    · exact hold q hq y hy hid
    · rw [hsplit, List.map_append, List.nodup_append] at hqs
      exact absurd hid (hqs.2.2 _ (List.mem_map_of_mem hy) _ List.mem_cons_self)
  have hdev : ∀ g, q.grant = some g → hasText "id" g.device.id s.device.devices = true := by
    rw [hs.2.1]
    exact hdevice q hq
  refine (writeLeaseRequest_yields hs.1 hpre q hnew hdev).mono fun db' h' => ?_
  rw [List.foldl_append]
  exact ⟨h'.1, h'.2.1.trans hs.2.1, h'.2.2.1.trans hs.2.2.1, h'.2.2.2.trans hs.2.2.2⟩

/-- The keys of removed components are those of stored ones, so they split as they were joined. -/
theorem deleteComponents_stored {l : List ComponentRecord} (h : ComponentsStored l db.component)
    (cs : List ComponentRecord) :
    let db' := (cs.map componentKey).foldl
      (fun db key => deleteComponentRows db (splitComponentKey key).1 (splitComponentKey key).2) db
    ComponentsStored (deleteKeys componentKey (cs.map componentKey) l) db'.component ∧
      SameButComponents db db' := by
  induction cs generalizing db l with
  | nil => exact ⟨by simpa using h, rfl, rfl, rfl⟩
  | cons c cs ih =>
    have hc := deleteComponentRows_stored h c
    have hrest := ih hc
    simp only [List.map_cons, List.foldl_cons, deleteKeys_cons, splitComponentKey_componentKey]
    exact ⟨hrest.1, hrest.2.1, hrest.2.2.1, hrest.2.2.2⟩

theorem writeComponents_yields {l : List ComponentRecord} (h : ComponentsStored l db.component)
    (cs : List ComponentRecord) :
    Yields bad (fun db' =>
      ComponentsStored (cs.foldl (fun l x => reinsert componentKey x l) l) db'.component ∧
        SameButComponents db db') (cs.foldlM writeComponent db) := by
  refine Yields.foldlM (fun pre (db' : Database) => ComponentsStored
    (pre.foldl (fun l x => reinsert componentKey x l) l) db'.component ∧ SameButComponents db db')
    cs db ⟨h, rfl, rfl, rfl⟩ fun pre c post s _ hs => ?_
  refine (writeComponent_yields hs.1 c).mono fun db' h' => ?_
  rw [List.foldl_append]
  exact ⟨h'.1, h'.2.1.trans hs.2.1, h'.2.2.1.trans hs.2.2.1, h'.2.2.2.trans hs.2.2.2⟩

end Loops

/-- A granted request that stays is the committed one: only requests without a grant are replaced. -/
theorem Storable.granted_stays {r : Registry} {d : Draft} (h : Storable r d) (hk : Keys r)
    {q : LeaseRequestRecord} (hq : q ∈ r.leaseRequests) (hg : q.grant.isSome)
    (hkey : q.id ∈ (vals d.leaseRequests).map LeaseRequestRecord.id) :
    q ∈ vals d.leaseRequests := by
  obtain ⟨y, hy, hid⟩ := List.mem_map.mp hkey
  obtain ⟨o, ho, rfl⟩ := List.mem_map.mp hy
  cases hfresh : o.fresh with
  | true =>
    rw [h.replaced o ho hfresh q hq hid.symm] at hg
    cases hg
  | false =>
    have hmem := h.requests.kept_mem ho hfresh
    rw [← List.inj_on_of_nodup_map hk.requests hmem hq hid]
    exact hy

/-- The leases the table has after a commit: those that go, then the writes one by one. -/
def leasesWritten (before : List LeaseRecord) (after : List (Obj LeaseRecord)) : List LeaseRecord :=
  (changed after).foldl (fun l x => upsert LeaseRecord.id x l)
    (deleteKeys LeaseRecord.id (removed LeaseRecord.id before after) before)

/-- A commit of lists that it could store with other leases leaves the tables holding them, and the
    leases that are written. -/
theorem commitRows_tables {r : Registry} {d : Draft} {db : Database} (hk : Keys r)
    (hs : Stored r db) {leases : List (Obj LeaseRecord)}
    (h : Storable r { d with leases := leases }) :
    Yields (DriverDataOf (changed d.devices)) (fun db' =>
      DevicesStored (vals d.devices) db'.device ∧
      db'.leases = (leasesWritten r.leases d.leases).map leaseRow ∧
      RequestsStored (vals d.leaseRequests) db'.request ∧
      ComponentsStored (vals d.components) db'.component) (commitRows r d db) := by
  rw [commitRows]
  refine (deleteRequests_yields hs.requests _).bind fun db₁ h₁ => ?_
  -- a grant that is left is one of a request that stays, and so is its device
  have hgrants : ∀ id ∈ removed Device.id r.devices d.devices,
      hasText "device_id" id db₁.request.leaseGrants = false := by
    intro id hid
    rw [hasText, List.any_eq_false]
    intro row hrow
    obtain ⟨q, hq, g, hg, rfl⟩ := (h₁.1.grants row).mp hrow
    obtain ⟨hq, hstay⟩ := List.mem_filter.mp hq
    have hkey : q.id ∈ (vals d.leaseRequests).map LeaseRequestRecord.id := by
      by_contra hgone
      refine of_decide_eq_true hstay (List.mem_filter.mpr ⟨List.mem_map_of_mem hq, ?_⟩)
      exact decide_eq_true hgone
    have hmem := h.granted_stays hk hq (by rw [hg]; rfl) hkey
    have hnamed := h.named q hmem g hg
    intro he
    rw [grantRow_deviceId, decide_eq_true_eq, SqliteValue.text.injEq] at he
    rw [he] at hnamed
    exact of_decide_eq_true (List.mem_filter.mp hid).2 hnamed
  have hdev₁ : DevicesStored r.devices db₁.device := by
    rw [h₁.2.1]
    exact hs.devices
  refine (deleteDevices_yields hdev₁ _ hgrants).bind fun db₂ h₂ => ?_
  refine (writeDevices_yields h₂.1 (nodup_keys_deleteKeys _ hk.devices) _).bind fun db₃ h₃ => ?_
  rw [h.devices.store hk.devices] at h₃
  have hleases₃ : db₃.leases = r.leases.map leaseRow := by
    rw [h₃.2.1, h₂.2.1, h₁.2.2.1]
    exact hs.leases
  rw [deleteLeases_yields hleases₃, ok_bind, writeLeases_yields rfl, ok_bind]
  have hreq₃ : RequestsStored (deleteKeys LeaseRequestRecord.id
      (removed LeaseRequestRecord.id r.leaseRequests d.leaseRequests) r.leaseRequests)
      ({ db₃ with leases := (leasesWritten r.leases d.leases).map leaseRow } : Database).request := by
    change RequestsStored _ db₃.request
    rw [h₃.2.2.1, h₂.2.2.1]
    exact h₁.1
  have hcomp₃ : ComponentsStored r.components db₃.component := by
    rw [h₃.2.2.2, h₂.2.2.2, h₁.2.2.2]
    exact hs.components
  have hchanged : ∀ q ∈ changed d.leaseRequests, ∃ o ∈ d.leaseRequests, o.fresh = true ∧ o.val = q := by
    intro q hq
    obtain ⟨o, ho, rfl⟩ := List.mem_map.mp hq
    exact ⟨o, (List.mem_filter.mp ho).1, (List.mem_filter.mp ho).2, rfl⟩
  refine (writeRequests_yields hreq₃ (nodup_keys_deleteKeys _ hk.requests)
    (changed d.leaseRequests) ?_ ?_ ?_).bind fun db₄ h₄ => ?_
  · exact ((List.filter_sublist.map Obj.val).map _).nodup (h.requests.nodup hk.requests)
  · intro q hq y hy hid
    obtain ⟨o, ho, hfresh, rfl⟩ := hchanged q hq
    exact h.replaced o ho hfresh y (List.mem_filter.mp hy).1 hid
  · intro q hq g hg
    obtain ⟨o, ho, -, rfl⟩ := hchanged q hq
    change hasText "id" g.device.id db₃.device.devices = true
    rw [h₃.1.rows, hasText_map deviceRow_id]
    exact h.named o.val (List.mem_map_of_mem ho) g hg
  · rw [h.requests.store hk.requests] at h₄
    have hremoved : ∃ cs : List ComponentRecord,
        removed componentKey r.components d.components = cs.map componentKey := by
      exact ⟨_, List.filter_map⟩
    obtain ⟨cs, hcs⟩ := hremoved
    have hcomp₄ : ComponentsStored r.components db₄.component := by
      rw [h₄.2.2.2]
      exact hcomp₃
    have h₅ := deleteComponents_stored hcomp₄ cs
    rw [← hcs] at h₅
    refine (writeComponents_yields h₅.1 _).mono fun db₆ h₆ => ?_
    rw [h.components.store hk.components] at h₆
    refine ⟨?_, ?_, ?_, h₆.1⟩
    · rw [h₆.2.1, h₅.2.1, h₄.2.1]
      exact h₃.1
    · rw [h₆.2.2.1, h₅.2.2.1, h₄.2.2.1]
    · rw [h₆.2.2.2, h₅.2.2.2]
      exact h₄.1

/-- A commit of lists it can store leaves the tables holding them; nothing but driver data of the
    wrong platform stops it, so no statement of it violates a key. -/
theorem commitRows_yields {r : Registry} {d : Draft} {db : Database} (hk : Keys r)
    (hs : Stored r db) (h : Storable r d) :
    Yields (DriverDataOf (changed d.devices)) (Stored d.registry) (commitRows r d db) := by
  refine (commitRows_tables (d := d) hk hs h).mono fun db' h' => ?_
  obtain ⟨hdevices, hleases, hrequests, hcomponents⟩ := h'
  rw [leasesWritten, h.leases.store hk.leases] at hleases
  exact ⟨hdevices, hleases, hrequests, hcomponents⟩

end Simlock.Core
