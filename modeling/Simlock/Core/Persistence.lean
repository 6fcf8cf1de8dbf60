import Simlock.Core.Store

/-! The round trip of the registry: what is opened on the tables is what was committed.

    The tables hold the committed records after every step (`Stored`, `RegistryOk`), and a load of
    tables that hold a registry reads that registry, every grant with the device as it is now. The
    commit a load makes when a device is deleted drops the deleted devices whose retention ran out
    since, and the requests that did; a request that a reader still sees never names one of them. -/

namespace Simlock.Core

open Simlock.Lib

section Load

variable {r : Registry} {db : Database} {clock : Int}

theorem appsByDevice_stored {l : List Device} {t : DeviceTables} (h : DevicesStored l t)
    {p : PhysicalDevice} (hp : .physical p ∈ l) :
    appsByDevice t.enrolledApps p.id = p.enrolledApps := by
  have hsorted : (appRows p.id p.enrolledApps).Pairwise
      (fun a b => decide (a.position ≤ b.position) = true) := by
    have hidx : (p.enrolledApps.zipIdx.map Prod.snd).Pairwise (fun a b => a < b) := by
      rw [List.zipIdx_map_snd]
      exact List.pairwise_lt_range'
    rw [List.pairwise_map] at hidx
    rw [appRows, List.pairwise_map]
    exact hidx.imp fun hlt => decide_eq_true (Nat.le_of_lt hlt)
  rw [appsByDevice, h.apps p hp, List.mergeSort_of_pairwise hsorted, appRows, List.map_map]
  exact List.zipIdx_map_fst 0 p.enrolledApps

/-- Setting the entries of a record one by one gives the record. -/
theorem ofPairs_pairs (e : Entries) : Entries.ofPairs e.pairs = e := by
  have hfold : ∀ (xs : List (String × String)) (a : Entries),
      (xs.foldl (fun e p => e.set p.1 p.2) a).pairs =
        xs.foldl (fun l p => upsert Prod.fst p l) a.pairs := by
    intro xs
    induction xs with
    | nil => intro a; rfl
    | cons x xs ih => intro a; exact ih (a.set x.1 x.2)
  have hpairs : (Entries.ofPairs e.pairs).pairs = e.pairs := by
    rw [Entries.ofPairs, hfold]
    exact foldl_upsert_append Prod.fst e.pairs [] (by simpa using e.nodup)
  cases e
  rw [Entries.mk.injEq]
  exact hpairs

theorem environmentOf_stored {l : List LeaseRequestRecord} {t : RequestTables}
    (h : RequestsStored l t) {q : LeaseRequestRecord} (hq : q ∈ l) {g : LeaseGrant}
    (hg : q.grant = some g) : environmentOf t.environment q.id = g.environment := by
  rw [environmentOf, h.environment q hq g hg, environmentRows, List.map_map]
  refine Eq.trans (congrArg Entries.ofPairs ?_) (ofPairs_pairs g.environment)
  exact List.map_id _

theorem receiptOf_stored {l : List ComponentRecord} {t : ComponentTables}
    (h : ComponentsStored l t) {c : ComponentRecord} (hc : c ∈ l) :
    receiptOf t.receipt (platforms.text c.platform) c.version = c.receipt := by
  have hrows := h.receipt c hc
  rw [ComponentRecord.pair] at hrows
  rw [receiptOf, hrows, receiptRows, List.map_map]
  refine Eq.trans (congrArg Entries.ofPairs ?_) (ofPairs_pairs c.receipt)
  exact List.map_id _

theorem componentFromRow_stored {l : List ComponentRecord} {t : ComponentTables}
    (h : ComponentsStored l t) {c : ComponentRecord} (hc : c ∈ l) :
    componentFromRow t (componentRow c) = .ok c := by
  have hreceipt := receiptOf_stored h hc
  have hplain := c.plain
  simp [componentFromRow, componentRow, componentColumns, RowReader.text, RowReader.int,
    RowReader.oneOf, RowReader.optText, RowReader.optInt, RowReader.optOneOf, Row.get_cons, hplain,
    hreceipt]

/-- The grant's row of a request is the one row of its id. -/
theorem grantRow_stored {l : List LeaseRequestRecord} {t : RequestTables} (h : RequestsStored l t)
    (hk : (l.map LeaseRequestRecord.id).Nodup) {q : LeaseRequestRecord} (hq : q ∈ l) :
    t.leaseGrants.find? (fun row => row.get "request_id" = .text q.id) =
      q.grant.map (grantRow q.id) := by
  have hown : ∀ row ∈ t.leaseGrants, row.get "request_id" = .text q.id →
      ∃ g, q.grant = some g ∧ row = grantRow q.id g := by
    intro row hrow he
    obtain ⟨y, hy, g, hg, rfl⟩ := (h.grants row).mp hrow
    obtain rfl := List.inj_on_of_nodup_map hk hy hq (SqliteValue.text.inj he)
    exact ⟨g, hg, rfl⟩
  cases hg : q.grant with
  | none =>
    rw [Option.map_none, List.find?_eq_none]
    intro row hrow he
    obtain ⟨g, hg', -⟩ := hown row hrow (of_decide_eq_true he)
    rw [hg] at hg'
    cases hg'
  | some g =>
    obtain ⟨row, hrow⟩ : ∃ row,
        t.leaseGrants.find? (fun row => row.get "request_id" = .text q.id) = some row := by
      rw [← Option.isSome_iff_exists, List.find?_isSome]
      exact ⟨grantRow q.id g, (h.grants _).mpr ⟨q, hq, g, hg, rfl⟩, by simp⟩
    have hkey : row.get "request_id" = .text q.id := by simpa using List.find?_some hrow
    obtain ⟨g', hg', he⟩ := hown row (List.mem_of_find?_eq_some hrow) hkey
    rw [hg] at hg'
    cases hg'
    rw [hrow, he]
    rfl

/-- What a load of tables that hold `r` reads: `r`, every grant with its device as it is now. -/
def Registry.reloaded (r : Registry) : Registry :=
  { r with leaseRequests := r.leaseRequests.map r.withCurrentDevice }

theorem loadRegistryRows_stored (h : RegistryOk r clock) (hs : Stored r db) :
    loadRegistryRows db = .ok r.reloaded := by
  have hdevices : db.device.devices.mapM (deviceFromRow (appsByDevice db.device.enrolledApps)
      (readDeviceData db.device)) = .ok r.devices := by
    rw [hs.devices.rows]
    refine (mapM_map_eq_ok r.devices fun d hd => ?_).trans (by rw [List.map_id])
    refine deviceFromRow_deviceRow _ _ d ?_ ?_
    · rintro v rfl
      exact hs.devices.data v hd
    · rintro p rfl
      exact appsByDevice_stored hs.devices hd
  have hleases : db.leases.mapM (fun row => leaseFromRow "leases" (row.key "id") row "id") =
      .ok r.leases := by
    rw [hs.leases]
    refine (mapM_map_eq_ok r.leases fun l _ => ?_).trans (by rw [List.map_id])
    exact leaseFromRow_leaseRow ..
  have hcomponents : db.component.components.mapM (componentFromRow db.component) =
      .ok r.components := by
    rw [hs.components.rows]
    refine (mapM_map_eq_ok r.components fun c hc => ?_).trans (by rw [List.map_id])
    exact componentFromRow_stored hs.components hc
  have hrequests : db.request.leaseRequests.mapM (leaseRequestFromRow
      (fun id => db.request.leaseGrants.find? (fun row => row.get "request_id" = .text id))
      (environmentOf db.request.environment) (fun id => r.devices.find? (fun d => d.id = id))) =
      .ok (r.leaseRequests.map r.withCurrentDevice) := by
    rw [hs.requests.rows]
    refine mapM_map_eq_ok r.leaseRequests fun q hq => ?_
    have hok := h.requests q hq
    have hdevice : ∀ g, q.grant = some g → (r.device g.device.id).isSome := by
      intro g hg
      obtain ⟨d, hd, hid, -⟩ := h.named q hq g hg
      rw [← hid, Registry.device_of_mem h.keys.devices hd]
      rfl
    refine (leaseRequestFromRow_requestRow q _ _ _ hok.granted
      (grantRow_stored hs.requests h.keys.requests hq)
      (fun g hg => environmentOf_stored hs.requests hq hg) hok.lease hdevice).trans ?_
    congr 1
    cases hg : q.grant with
    | none =>
      have hsame : r.withCurrentDevice q = q := by rw [Registry.withCurrentDevice, hg]
      rw [hsame, Option.bind_none, ← hg]
    | some g =>
      obtain ⟨d, hd⟩ := Option.isSome_iff_exists.mp (hdevice g hg)
      simp [Registry.withCurrentDevice, hg, hd]
  rw [loadRegistryRows, hdevices, ok_bind, hleases, ok_bind, hcomponents, ok_bind, hrequests]
  rfl

/-! ### A reloaded registry is a registry on its tables -/

theorem withCurrentDevice_spec (r : Registry) (q : LeaseRequestRecord) :
    (r.withCurrentDevice q).id = q.id ∧ requestRow (r.withCurrentDevice q) = requestRow q ∧
      (r.withCurrentDevice q).state = q.state ∧
      (r.withCurrentDevice q).settledAt = q.settledAt ∧
      ((r.withCurrentDevice q).grant = q.grant ∨ ∃ g d, q.grant = some g ∧
        r.device g.device.id = some d ∧
        (r.withCurrentDevice q).grant = some { g with device := d }) := by
  unfold Registry.withCurrentDevice
  split
  · exact ⟨rfl, rfl, rfl, rfl, .inl rfl⟩
  · rename_i g hg
    split
    · exact ⟨rfl, rfl, rfl, rfl, .inl rfl⟩
    · rename_i d hd
      exact ⟨rfl, rfl, rfl, rfl, .inr ⟨g, d, hg, hd, rfl⟩⟩

/-- The grant that is read with its current device has the row of the stored one. -/
theorem withCurrentDevice_grant {q : LeaseRequestRecord} {g' : LeaseGrant}
    (h : (r.withCurrentDevice q).grant = some g') :
    ∃ g, q.grant = some g ∧ g'.device.id = g.device.id ∧ g'.lease = g.lease ∧
      g'.environment = g.environment ∧ g'.timing = g.timing := by
  obtain ⟨-, -, -, -, he | ⟨g, d, hg, hd, he⟩⟩ := withCurrentDevice_spec r q
  · exact ⟨g', he ▸ h, rfl, rfl, rfl, rfl⟩
  · rw [he] at h
    cases h
    exact ⟨g, hg, (Registry.device_mem hd).2, rfl, rfl, rfl⟩

theorem withCurrentDevice_grant_isSome (q : LeaseRequestRecord) :
    (r.withCurrentDevice q).grant.isSome = q.grant.isSome := by
  obtain ⟨-, -, -, -, he | ⟨g, d, hg, -, he⟩⟩ := withCurrentDevice_spec r q
  · rw [he]
  · rw [he, hg]
    rfl

theorem grantRow_congr (id : String) {g g' : LeaseGrant} (hd : g'.device.id = g.device.id)
    (hl : g'.lease = g.lease) (ht : g'.timing = g.timing) : grantRow id g' = grantRow id g := by
  simp [grantRow, grantValues, hd, hl, ht]

theorem reloaded_ok (h : RegistryOk r clock) : RegistryOk r.reloaded clock := by
  have hids : r.reloaded.leaseRequests.map LeaseRequestRecord.id =
      r.leaseRequests.map LeaseRequestRecord.id := by
    rw [Registry.reloaded, List.map_map]
    exact List.map_congr_left fun q _ => (withCurrentDevice_spec r q).1
  refine ⟨⟨h.keys.devices, h.keys.leases, hids ▸ h.keys.requests, h.keys.components⟩, h.devices,
    ?_, ?_, ?_⟩
  · intro q' hq'
    obtain ⟨q, hq, rfl⟩ := List.mem_map.mp hq'
    obtain ⟨-, -, hstate, hsettled, -⟩ := withCurrentDevice_spec r q
    have hok := h.requests q hq
    refine ⟨?_, ?_, ?_⟩
    · rw [hstate, withCurrentDevice_grant_isSome]
      exact hok.granted
    · rw [isSettled, hstate, hsettled]
      exact hok.settled
    · intro g' hg'
      obtain ⟨g, hg, hid, hlease, -, -⟩ := withCurrentDevice_grant hg'
      rw [hlease, hid]
      exact hok.lease g hg
  · intro q' hq' t ht
    obtain ⟨q, hq, rfl⟩ := List.mem_map.mp hq'
    rw [(withCurrentDevice_spec r q).2.2.2.1] at ht
    exact h.settled q hq t ht
  · intro q' hq' g' hg'
    obtain ⟨q, hq, rfl⟩ := List.mem_map.mp hq'
    obtain ⟨g, hg, hid, -⟩ := withCurrentDevice_grant hg'
    obtain ⟨d, hd, hdid, hlater⟩ := h.named q hq g hg
    refine ⟨d, hd, hdid.trans hid.symm, ?_⟩
    rw [(withCurrentDevice_spec r q).2.2.2.1]
    exact hlater

theorem reloaded_stored (hs : Stored r db) : Stored r.reloaded db := by
  refine ⟨hs.devices, hs.leases, ⟨?_, ?_, ?_, ?_⟩, hs.components⟩
  · rw [Registry.reloaded, List.map_map, hs.requests.rows]
    exact List.map_congr_left fun q _ => (withCurrentDevice_spec r q).2.1.symm
  · intro row
    rw [hs.requests.grants row]
    constructor
    · rintro ⟨q, hq, g, hg, rfl⟩
      obtain ⟨g', hg'⟩ := Option.isSome_iff_exists.mp
        ((withCurrentDevice_grant_isSome (r := r) q).trans (by rw [hg]; rfl))
      obtain ⟨g₀, hg₀, hid, hlease, -, htiming⟩ := withCurrentDevice_grant hg'
      rw [hg] at hg₀
      cases hg₀
      refine ⟨_, List.mem_map_of_mem hq, g', hg', ?_⟩
      rw [(withCurrentDevice_spec r q).1, grantRow_congr q.id hid hlease htiming]
    · rintro ⟨q', hq', g', hg', rfl⟩
      obtain ⟨q, hq, rfl⟩ := List.mem_map.mp hq'
      obtain ⟨g, hg, hid, hlease, -, htiming⟩ := withCurrentDevice_grant hg'
      refine ⟨q, hq, g, hg, ?_⟩
      rw [(withCurrentDevice_spec r q).1, grantRow_congr q.id hid hlease htiming]
  · intro q' hq' g' hg'
    obtain ⟨q, hq, rfl⟩ := List.mem_map.mp hq'
    obtain ⟨g, hg, -, -, henv, -⟩ := withCurrentDevice_grant hg'
    rw [(withCurrentDevice_spec r q).1, henv]
    exact hs.requests.environment q hq g hg
  · intro row hrow
    obtain ⟨q, hq, hg, hid⟩ := hs.requests.parents row hrow
    refine ⟨_, List.mem_map_of_mem hq, ?_, ?_⟩
    · rw [withCurrentDevice_grant_isSome]
      exact hg
    · rw [(withCurrentDevice_spec r q).1]
      exact hid

/-! ### The commit of a load -/

variable {o : RegistryOptions} {now : Int}

/-- A committed device is stamped already. -/
theorem stamp_of_ok {d : Device} (hd : DeviceOk d) (now : Int) :
    stamp now ⟨d, false⟩ = ⟨d, false⟩ := by
  have hcause : withoutCauseUnlessQuarantined ⟨d, false⟩ = ⟨d, false⟩ := by
    rw [withoutCauseUnlessQuarantined, if_pos]
    by_cases hq : d.state = .quarantined
    · simp [hq]
    · simp [hd.cause hq]
  rw [stamp, hcause, stampDeleted, if_neg]
  rw [Bool.and_eq_true, decide_eq_true_eq, Option.isNone_iff_eq_none, not_and]
  intro hdel
  exact Option.isSome_iff_ne_none.mp (hd.stamped.mpr hdel)

theorem settled_draft_devices (o : RegistryOptions) (now : Int) (h : RegistryOk r clock) :
    (r.draft.settled o now).devices =
      keep (r.devices.filter (fun d => !isExpired now o.deletedRetentionMs d)) := by
  have hmap : (keep r.devices).map (stamp now) = keep r.devices := by
    rw [keep, List.map_map]
    exact List.map_congr_left fun d hd => stamp_of_ok (h.devices d hd) now
  rw [settled_devices]
  change List.filter _ ((keep r.devices).map (stamp now)) = _
  rw [hmap, keep, keep, List.filter_map]
  rfl

theorem draft_ok (hk : Keys r) : DraftOk r now r.draft :=
  Change.draftOk hk (.requests (RequestsStep.keep r (keep r.devices) now))

/-- What an open on tables that hold `r` gives. -/
structure Opened (o : RegistryOptions) (t : Int) (r r' : Registry) (db' : Database) : Prop where
  devices : r'.devices = r.devices.filter (fun d => !isExpired t o.deletedRetentionMs d)
  leases : r'.leases = r.leases
  components : r'.components = r.components
  requests : r'.leaseRequests.filter (isRetained t o.retentionMs) =
    r.reloaded.leaseRequests.filter (isRetained t o.retentionMs)
  ok : RegistryOk r' t
  stored : Stored r' db'

theorem load_opens (h : RegistryOk r clock) (hs : Stored r db) (hle : clock ≤ now) :
    ∃ r' db', Registry.load o now db = .ok (r', db') ∧ Opened o now r r' db' := by
  have hok := reloaded_ok h
  have hstored := reloaded_stored hs
  by_cases hdeleted : r.devices.any (fun d => d.state = .deleted) = true
  · obtain ⟨hstorable, hok'⟩ := settled_ok (o := o) hok hle (draft_ok hok.keys)
    have hdevices := settled_draft_devices o now hok
    have hyields := commitRows_yields hok.keys hstored hstorable
    have hnone : changed (r.reloaded.draft.settled o now).devices = [] := by
      rw [hdevices, changed, List.filter_eq_nil_iff.mpr fun x hx => by simp [(mem_keep hx).1]]
      rfl
    obtain ⟨db', hc⟩ : ∃ db',
        commitRows r.reloaded (r.reloaded.draft.settled o now) db = .ok db' := by
      cases hc : commitRows r.reloaded (r.reloaded.draft.settled o now) db with
      | ok db' => exact ⟨db', rfl⟩
      | error e =>
        rw [hc] at hyields
        obtain ⟨⟨d, hd, -⟩, -⟩ := hyields
        rw [hnone] at hd
        cases hd
    rw [hc] at hyields
    refine ⟨(r.reloaded.draft.settled o now).registry, db', ?_, ?_, ?_, ?_, ?_, hok', hyields⟩
    · rw [Registry.load, loadRegistryRows_stored h hs]
      change (if r.devices.any (fun d => d.state = .deleted) = true then
        Except.mapError OpenError.commit
          (commitRows r.reloaded (r.reloaded.draft.settled o now) db) >>= _ else _) = _
      rw [if_pos hdeleted, hc]
      rfl
    · change vals (r.reloaded.draft.settled o now).devices = _
      rw [hdevices, vals_keep]
      rfl
    · exact vals_keep r.leases
    · exact vals_keep r.components
    · have hvals : vals (retainedLeaseRequests (keep r.reloaded.leaseRequests) now o.retentionMs) =
          r.reloaded.leaseRequests.filter (isRetained now o.retentionMs) := by
        rw [retainedLeaseRequests, vals, keep, List.filter_map, List.map_map]
        exact List.map_id _
      change (vals (r.reloaded.draft.settled o now).leaseRequests).filter _ = _
      simp only [Draft.settled]
      split
      · change (vals (retainedLeaseRequests (keep r.reloaded.leaseRequests) now
          o.retentionMs)).filter _ = _
        rw [hvals, List.filter_filter]
        simp
      · change (vals (keep r.reloaded.leaseRequests)).filter _ = _
        rw [vals_keep]
  · have hlive : ∀ d ∈ r.devices, isExpired now o.deletedRetentionMs d = false := by
      intro d hd
      have hstate : d.state ≠ .deleted := by
        intro hd'
        exact hdeleted (List.any_eq_true.mpr ⟨d, hd, decide_eq_true hd'⟩)
      have hnone : d.fields.deletedAt = none :=
        Option.not_isSome_iff_eq_none.mp (mt (h.devices d hd).stamped.mp hstate)
      rw [isExpired, hnone]
    have hopened : RegistryOk r.reloaded now :=
      ⟨hok.keys, hok.devices, hok.requests,
        fun q hq t ht => Int.le_trans (hok.settled q hq t ht) hle, hok.named⟩
    refine ⟨r.reloaded, db, ?_, ?_, rfl, rfl, rfl, hopened, hstored⟩
    · rw [Registry.load, loadRegistryRows_stored h hs]
      change (if r.devices.any (fun d => d.state = .deleted) = true then _ else _) = _
      rw [if_neg hdeleted]
      rfl
    · exact (List.filter_eq_self.mpr fun d hd => by simp [hlive d hd]).symm

/-- A reader of the opened registry sees the requests a reader of the old one would see. -/
theorem Opened.leaseRequestsAt {r' : Registry} {db' : Database} (h : RegistryOk r clock)
    (hopen : Opened o now r r' db') : r'.leaseRequestsAt o now = r.leaseRequestsAt o now := by
  have hretained : ∀ q, isRetained now o.retentionMs (r.withCurrentDevice q) =
      isRetained now o.retentionMs q := by
    intro q
    obtain ⟨-, -, hstate, hsettled, -⟩ := withCurrentDevice_spec r q
    rw [isRetained, isRetained, isSettled, isSettled, hstate, hsettled]
  have hfilter : r.reloaded.leaseRequests.filter (isRetained now o.retentionMs) =
      (r.leaseRequests.filter (isRetained now o.retentionMs)).map r.withCurrentDevice := by
    rw [Registry.reloaded, List.filter_map]
    congr 1
    exact List.filter_congr fun q _ => hretained q
  rw [Registry.leaseRequestsAt, Registry.leaseRequestsAt, hopen.requests, hfilter, List.map_map]
  refine List.map_congr_left fun q hq => ?_
  obtain ⟨hmem, hq'⟩ := List.mem_filter.mp hq
  cases hg : q.grant with
  | none =>
    have hsame : r.withCurrentDevice q = q := by rw [Registry.withCurrentDevice, hg]
    rw [Function.comp_apply, hsame, Registry.withCurrentDevice, hg]
  | some g =>
    -- the device of a request a reader sees has not expired, so the open kept it
    obtain ⟨d, hd, hid, hlater⟩ := h.named q hmem g hg
    have hlive : isExpired now o.deletedRetentionMs d = false :=
      not_expired_of_retained (h.requests q hmem) (by rw [hg]; rfl) hq' hlater
    have hfind : r.device g.device.id = some d := hid ▸ Registry.device_of_mem h.keys.devices hd
    have hd' : d ∈ r'.devices := by
      rw [hopen.devices]
      exact List.mem_filter.mpr ⟨hd, by simp [hlive]⟩
    have hfind' : r'.device d.id = some d :=
      Registry.device_of_mem hopen.ok.keys.devices hd'
    rw [Function.comp_apply]
    have hcur : r.withCurrentDevice q = { q with grant := some { g with device := d } } := by
      rw [Registry.withCurrentDevice, hg]
      simp only [hfind]
    rw [hcur, Registry.withCurrentDevice]
    simp only [hfind']

end Load

/-! ### Runs -/

/-- A registry on its database, and the time of the last step. -/
structure Store where
  registry : Registry
  database : Database
  clock : Int

inductive StoreAction where
  | call (c : Call) (now : Int)
  | reopen (now : Int)

/-- The empty registry on the empty tables, at a time of the clock. -/
def Store.create (now : Int) : Store := ⟨.empty, .empty, now⟩

/-- A call that fails, or whose transaction does, changes nothing but the time. -/
def Store.step (o : RegistryOptions) (s : Store) : StoreAction → Store
  | .call c now =>
    match s.registry.call o now c with
    | .error _ => { s with clock := now }
    | .ok none => { s with clock := now }
    | .ok (some draft) =>
      match commitRows s.registry (draft.settled o now) s.database with
      | .error _ => { s with clock := now }
      | .ok db => ⟨Registry.commit o now draft, db, now⟩
  | .reopen now =>
    match Registry.load o now s.database with
    | .error _ => { s with clock := now }
    | .ok (r, db) => ⟨r, db, now⟩

/-- The clock does not go back, and a call can rely on what it relies on. -/
def Store.Admits (s : Store) : StoreAction → Prop
  | .call c now => s.clock ≤ now ∧ c.Fits s.registry
  | .reopen now => s.clock ≤ now

/-- The tables hold the records, and the records are well formed. -/
structure StoreOk (s : Store) : Prop where
  ok : RegistryOk s.registry s.clock
  stored : Stored s.registry s.database

theorem create_ok (now : Int) : StoreOk (Store.create now) := by
  refine ⟨⟨⟨?_, ?_, ?_, ?_⟩, ?_, ?_, ?_, ?_⟩, ⟨⟨rfl, ?_, ?_, ?_⟩, rfl, ⟨rfl, ?_, ?_, ?_⟩, ⟨rfl, ?_, ?_⟩⟩⟩ <;>
    simp [Store.create, Registry.empty, Database.empty]

theorem RegistryOk.later {r : Registry} {clock now : Int} (h : RegistryOk r clock)
    (hle : clock ≤ now) : RegistryOk r now :=
  ⟨h.keys, h.devices, h.requests, fun q hq t ht => Int.le_trans (h.settled q hq t ht) hle, h.named⟩

/-- What a call that commits does to the tables. -/
theorem commit_yields {o : RegistryOptions} {s : Store} (h : StoreOk s) {c : Call} {now : Int}
    (hadmits : s.Admits (.call c now)) {draft : Draft}
    (hcall : s.registry.call o now c = .ok (some draft)) :
    Yields (DriverDataOf (changed (draft.settled o now).devices))
      (Stored (draft.settled o now).registry)
      (commitRows s.registry (draft.settled o now) s.database) ∧
      RegistryOk (draft.settled o now).registry now := by
  have hchange : Change s.registry now draft := by
    have hyields : Yields anyError (fun od => ∀ draft, od = some draft → Change s.registry now draft)
        (s.registry.call o now c) := call_change h.ok c hadmits.2
    rw [hcall] at hyields
    exact hyields draft rfl
  obtain ⟨hstorable, hok⟩ := settled_ok (o := o) h.ok hadmits.1 (hchange.draftOk h.ok.keys)
  exact ⟨commitRows_yields h.ok.keys h.stored hstorable, hok⟩

theorem StoreOk.step {o : RegistryOptions} {s : Store} {a : StoreAction} (hadmits : s.Admits a)
    (h : StoreOk s) : StoreOk (s.step o a) := by
  cases a with
  | call c now =>
    have hsame : StoreOk { s with clock := now } := ⟨h.ok.later hadmits.1, h.stored⟩
    simp only [Store.step]
    split
    · exact hsame
    · exact hsame
    · rename_i draft hcall
      obtain ⟨hyields, hok⟩ := commit_yields h hadmits hcall
      split
      · exact hsame
      · rename_i db hdb
        rw [hdb] at hyields
        exact ⟨hok, hyields⟩
  | reopen now =>
    obtain ⟨r', db', hload, hopened⟩ := load_opens (o := o) h.ok h.stored hadmits
    simp only [Store.step, hload]
    exact ⟨hopened.ok, hopened.stored⟩

/-- The store is reached from empty tables by calls and restarts. -/
def Store.Reached (o : RegistryOptions) (s : Store) : Prop :=
  ∃ start acts, AllSteps (Store.step o) Store.Admits (Store.create start) acts ∧
    run (Store.step o) (Store.create start) acts = s

theorem Store.Reached.ok {o : RegistryOptions} {s : Store} (h : s.Reached o) : StoreOk s := by
  obtain ⟨start, acts, hall, rfl⟩ := h
  exact run_invariant_of_allSteps (fun s a hok hs => hs.step hok) acts _ (create_ok start) hall

/-- What is opened on the tables at any later time is what was committed: the same devices but the
    deleted ones whose retention ran out by then, the same leases and components, the same requests
    to a reader, field for field and in order. And no commit of a call violates a key. -/
theorem opened_registry_is_the_committed_one (o : RegistryOptions) (s : Store) (hs : s.Reached o)
    (t : Int) (ht : s.clock ≤ t) :
    (∃ r' db', Registry.load o t s.database = .ok (r', db') ∧
      r'.devices = s.registry.devices.filter (fun d => !isExpired t o.deletedRetentionMs d) ∧
      r'.leases = s.registry.leases ∧ r'.components = s.registry.components ∧
      r'.leaseRequestsAt o t = s.registry.leaseRequestsAt o t) ∧
    ∀ c draft, c.Fits s.registry → s.registry.call o t c = .ok (some draft) →
      ∀ table, commitRows s.registry (draft.settled o t) s.database ≠ .error (.foreignKey table) ∧
        commitRows s.registry (draft.settled o t) s.database ≠ .error (.primaryKey table) := by
  have h := hs.ok
  constructor
  · obtain ⟨r', db', hload, hopened⟩ := load_opens (o := o) h.ok h.stored ht
    exact ⟨r', db', hload, hopened.devices, hopened.leases, hopened.components,
      hopened.leaseRequestsAt h.ok⟩
  · intro c draft hfits hcall table
    have hadmits : s.Admits (.call c t) := ⟨ht, hfits⟩
    obtain ⟨hyields, -⟩ := commit_yields h hadmits hcall
    constructor
    all_goals
      intro he
      rw [he] at hyields
      obtain ⟨-, message, hm⟩ := hyields
      cases hm

/-! A run that grants a request and ends with a deletion. -/

def shortRetention : RegistryOptions :=
  ⟨fun _ => .reusable, 10, 5, 20, by decide, by decide⟩

def grantAndDelete : List StoreAction :=
  [.call (.registerDevice "dev_1" "drv_1" ⟨.ios, "iPhone 15", "17.0", true, none, none⟩
      (.ios ⟨"type", "name", "runtime", none, some "signature", "udid"⟩)) 1,
    .call (.createLeaseRequest ⟨"req_1", "agent", "owner", some "key", none, none,
      ⟨.ios, none, some "17", some .slim, none, none, none, some .phone, none⟩⟩) 2,
    .call (.transitionDevice "dev_1" .ready (some ⟨.ready, "dev_1"⟩)
      { address := some "127.0.0.1" }) 3,
    .call (.createLease "lse_1" ⟨"dev_1", "agent", "owner", 60, 64, none, none,
      some ⟨"req_1", ⟨[("A", "1"), ("B", "2")], by decide⟩, ⟨1, 2, 3, 4⟩⟩⟩) 4,
    .reopen 5,
    .call (.endLeaseAndMarkDeviceMissing "lse_1") 6]

theorem grantAndDelete_reached :
    (run (Store.step shortRetention) (Store.create 0) grantAndDelete).Reached shortRetention := by
  refine ⟨0, grantAndDelete, ⟨⟨by decide, ?_⟩, ⟨by decide, ?_⟩, ⟨by decide, trivial⟩,
    ⟨by decide +kernel, ?_⟩, ?_, ⟨by decide +kernel, trivial⟩, trivial⟩, rfl⟩
  · simp [Call.Fits, Store.create, Registry.empty]
  · show "req_1" ∉ _
    decide +kernel
  · show "lse_1" ∉ _
    decide +kernel
  · show Store.clock _ ≤ 5
    decide +kernel

/-- Within the retention of the deletion the opened registry has the device and the request. -/
theorem opened_registry_is_the_committed_one_grantAndDelete :
    (run (Store.step shortRetention) (Store.create 0) grantAndDelete).clock ≤ 12 ∧
      ∃ r' db', Registry.load shortRetention 12
        (run (Store.step shortRetention) (Store.create 0) grantAndDelete).database = .ok (r', db') ∧
        r'.devices.length = 1 ∧ (r'.leaseRequestsAt shortRetention 12).length = 1 := by
  have hclock : (run (Store.step shortRetention) (Store.create 0) grantAndDelete).clock ≤ 12 := by
    decide +kernel
  refine ⟨hclock, ?_⟩
  obtain ⟨⟨r', db', hload, hdevices, -, -, hrequests⟩, -⟩ :=
    opened_registry_is_the_committed_one shortRetention _ grantAndDelete_reached 12 hclock
  refine ⟨r', db', hload, ?_, ?_⟩
  · rw [hdevices]
    decide +kernel
  · rw [hrequests]
    decide +kernel

/-- After the retention it has not: the open drops the deleted device that the committed state
    still lists. -/
theorem open_drops_expired_deletion :
    ¬ ∀ (o : RegistryOptions) (s : Store) (t : Int), s.Reached o → s.clock ≤ t →
      ∃ r' db', Registry.load o t s.database = .ok (r', db') ∧
        r'.devices = s.registry.devices := by
  intro h
  have hclock : (run (Store.step shortRetention) (Store.create 0) grantAndDelete).clock ≤ 100 := by
    decide +kernel
  obtain ⟨r', db', hload, hdevices⟩ := h shortRetention _ 100 grantAndDelete_reached hclock
  have hnone : ((Registry.load shortRetention 100
      (run (Store.step shortRetention) (Store.create 0) grantAndDelete).database).toOption.map
      fun p => p.1.devices.length) = some 0 := by decide +kernel
  have hone : (run (Store.step shortRetention) (Store.create 0)
      grantAndDelete).registry.devices.length = 1 := by decide +kernel
  rw [hload] at hnone
  have hlen : r'.devices.length = 0 := Option.some.inj hnone
  rw [hdevices, hone] at hlen
  cases hlen

end Simlock.Core
