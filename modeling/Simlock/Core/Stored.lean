import Simlock.Core.Database
import Simlock.Lib.Program

/-! What the tables hold of the records, and what each writer does to it.

    `Stored r db` says that the tables hold the registry `r`: the main tables row by row and in
    order, the child tables per parent. Each writer turns the tables of a list into the tables of
    that list with one record upserted or one key deleted, and it fails only on driver data that is
    not its platform's. -/

namespace Simlock.Core

open Simlock.Lib

/-- The one error a commit can end with: driver data of the other platform. -/
def IsDriverData (e : CommitError) : Prop := ∃ message, e = .driverData message

variable {bad : CommitError → Prop}

/-! ### Tables of records -/

section Tables

variable {α : Type} {row : α → Row} {key : α → String} {column : String}

theorem hasText_map (hkey : ∀ a, (row a).get column = .text (key a)) (l : List α) (text : String) :
    hasText column text (l.map row) = true ↔ text ∈ l.map key := by
  simp [hasText, hkey]

theorem upsertRow_map (hkey : ∀ a, (row a).get column = .text (key a)) (x : α) (l : List α) :
    upsertRow column (row x) (l.map row) = (upsert key x l).map row := by
  refine (map_upsert key (fun r : Row => r.get column) row x (fun y => ?_) l).symm
  simp [hkey]

theorem deleteRows_map (hkey : ∀ a, (row a).get column = .text (key a)) (text : String)
    (l : List α) : deleteRows column text (l.map row) = (l.filter (fun x => key x ≠ text)).map row := by
  rw [deleteRows, List.filter_map]
  congr 1
  exact List.filter_congr fun x _ => by simp [hkey]

theorem find_upsertRow_self {row : Row} {text : String} (h : row.get column = .text text)
    (rows : List Row) :
    (upsertRow column row rows).find? (fun r => r.get column = .text text) = some row := by
  rw [← h]
  exact find_upsert_self (fun r : Row => r.get column) row rows

theorem find_upsertRow_of_ne {row : Row} {text text' : String} (h : row.get column = .text text)
    (hne : text' ≠ text) (rows : List Row) :
    (upsertRow column row rows).find? (fun r => r.get column = .text text') =
      rows.find? (fun r => r.get column = .text text') := by
  have hk : row.get column ≠ .text text' := fun he => hne (SqliteValue.text.inj (he.symm.trans h))
  exact find_upsert_of_ne (fun r : Row => r.get column) hk rows

end Tables

@[simp] theorem deviceRow_id (d : Device) : (deviceRow d).get "id" = .text d.id := by
  cases d <;> rfl

@[simp] theorem leaseRow_id (l : LeaseRecord) : (leaseRow l).get "id" = .text l.id := rfl

@[simp] theorem requestRow_id (q : LeaseRequestRecord) : (requestRow q).get "id" = .text q.id := rfl

@[simp] theorem grantRow_requestId (id : String) (g : LeaseGrant) :
    (grantRow id g).get "request_id" = .text id := rfl

@[simp] theorem grantRow_deviceId (id : String) (g : LeaseGrant) :
    (grantRow id g).get "device_id" = .text g.device.id := by
  simp [get_grantRow, grantColumns, grantValues, Row.get_cons]

/-! ### Devices -/

/-- The device tables hold the list. -/
structure DevicesStored (l : List Device) (t : DeviceTables) : Prop where
  rows : t.devices = l.map deviceRow
  apps : ∀ p, .physical p ∈ l →
    t.enrolledApps.filter (fun r => r.deviceId = p.id) = appRows p.id p.enrolledApps
  parents : ∀ row ∈ t.enrolledApps, row.deviceId ∈ l.map Device.id
  data : ∀ v, .virtual v ∈ l → readDeviceData t v.spec.platform v.id = .ok v.driverData

@[simp] theorem appRows_deviceId {id : String} {apps : List String} {row : AppRow}
    (h : row ∈ appRows id apps) : row.deviceId = id := by
  obtain ⟨p, -, rfl⟩ := List.mem_map.mp h
  rfl

/-- The loop over a device's apps inserts its rows after the ones there. -/
theorem foldlM_insertApp (db : Database) (id : String) (apps : List String)
    (hid : hasText "id" id db.device.devices = true)
    (hnone : ∀ row ∈ db.device.enrolledApps, row.deviceId ≠ id) :
    (appRows id apps).foldlM insertApp db =
      .ok { db with device.enrolledApps := db.device.enrolledApps ++ appRows id apps } := by
  refine foldlM_insert (fun l => { db with device.enrolledApps := l })
    (fun r : AppRow => (r.deviceId, r.position)) (appRows id apps) _ ?_ ?_ ?_
  · intro r hr l hnew
    have hr' := appRows_deviceId hr
    have hany : ∀ x ∈ l, x.deviceId = id → ¬ x.position = r.position := by
      intro x hx hx' hpos
      exact hnew (List.mem_map.mpr ⟨x, hx, by rw [hx', hpos, hr']⟩)
    simpa [insertApp, hr', hid] using hany
  · intro r hr hmem
    obtain ⟨x, hx, he⟩ := List.mem_map.mp hmem
    exact hnone x hx ((Prod.mk.inj he).1.trans (appRows_deviceId hr))
  · have hkeys : (appRows id apps).map (fun r => (r.deviceId, r.position)) =
        (List.range' 0 apps.length).map (fun n => (id, n)) := by
      rw [← List.zipIdx_map_snd 0 apps, List.map_map, appRows, List.map_map]
      rfl
    rw [hkeys]
    exact List.Nodup.map (fun a b h => (Prod.mk.inj h).2) (List.nodup_range' ..)

theorem iosFromRow_iosRow (id : String) (data : IosDriverData) :
    iosFromRow id (iosRow id data) = .ok data := by
  simp [iosFromRow, iosRow, iosColumns, RowReader.text, RowReader.optText, Row.get_cons]

theorem androidFromRow_androidRow (id : String) (data : AndroidDriverData) :
    androidFromRow id (androidRow id data) = .ok data := by
  simp [androidFromRow, androidRow, androidColumns, RowReader.text, RowReader.int,
    RowReader.optText, RowReader.optInt, Row.get_cons]

/-- What a write of driver data does to the reads: the device's own, and no other. -/
structure DataWritten (id : String) (platform : Platform) (data : DriverData)
    (t t' : DeviceTables) : Prop where
  devices : t'.devices = t.devices
  enrolledApps : t'.enrolledApps = t.enrolledApps
  own : readDeviceData t' platform id = .ok data
  other : ∀ p id', id' ≠ id → readDeviceData t' p id' = readDeviceData t p id'

theorem writeDeviceData_yields (t : DeviceTables) (id : String) (platform : Platform)
    (data : DriverData) :
    Yields (fun e => data.platform ≠ platform ∧ IsDriverData e) (DataWritten id platform data t)
      (writeDeviceData t id platform data) := by
  cases platform with
  | ios =>
    cases data with
    | ios data =>
      have hrow : (iosRow id data).get "device_id" = .text id := rfl
      refine ⟨rfl, rfl, ?_, fun p id' hid => ?_⟩
      · simp only [readDeviceData, find_upsertRow_self hrow, iosFromRow_iosRow]
        rfl
      · cases p with
        | ios => simp only [readDeviceData, find_upsertRow_of_ne hrow hid]
        | android => rfl
    | android data => exact ⟨by simp [DriverData.platform], _, rfl⟩
  | android =>
    cases data with
    | ios data => exact ⟨by simp [DriverData.platform], _, rfl⟩
    | android data =>
      have hrow : (androidRow id data).get "device_id" = .text id := rfl
      refine ⟨rfl, rfl, ?_, fun p id' hid => ?_⟩
      · simp only [readDeviceData, find_upsertRow_self hrow, androidFromRow_androidRow]
        rfl
      · cases p with
        | ios => rfl
        | android => simp only [readDeviceData, find_upsertRow_of_ne hrow hid]

/-- What is read as a device's data is its platform's. -/
theorem readDeviceData_platform {t : DeviceTables} {platform : Platform} {id : String}
    {data : DriverData} (h : readDeviceData t platform id = .ok data) :
    data.platform = platform := by
  cases platform with
  | ios =>
    simp only [readDeviceData] at h
    split at h
    · cases h
    · rename_i row _
      cases hrow : iosFromRow id row with
      | error e => rw [hrow] at h; cases h
      | ok data => rw [hrow] at h; cases h; rfl
  | android =>
    simp only [readDeviceData] at h
    split at h
    · cases h
    · rename_i row _
      cases hrow : androidFromRow id row with
      | error e => rw [hrow] at h; cases h
      | ok data => rw [hrow] at h; cases h; rfl

theorem DevicesStored.not_foreign {l : List Device} {t : DeviceTables} (h : DevicesStored l t)
    {d : Device} (hd : d ∈ l) : ¬ ForeignData d := by
  cases d with
  | virtual v => exact fun hne => hne (readDeviceData_platform (h.data v hd))
  | physical p => exact id

/-- The rest of the database after a statement on the device tables. -/
def SameButDevices (db db' : Database) : Prop :=
  db'.leases = db.leases ∧ db'.request = db.request ∧ db'.component = db.component

theorem writeDevice_yields {l : List Device} {db : Database} (h : DevicesStored l db.device)
    (hnodup : (l.map Device.id).Nodup) (d : Device) :
    Yields (fun e => ForeignData d ∧ IsDriverData e)
      (fun db' => DevicesStored (upsert Device.id d l) db'.device ∧ SameButDevices db db')
      (writeDevice db d) := by
  have hrows : upsertRow "id" (deviceRow d) db.device.devices =
      (upsert Device.id d l).map deviceRow := by
    rw [h.rows, upsertRow_map deviceRow_id]
  have hids : ∀ id ∈ l.map Device.id, id ∈ (upsert Device.id d l).map Device.id :=
    fun id hid => mem_keys_upsert.mpr (.inr hid)
  cases d with
  | physical p =>
    have hid : hasText "id" p.id ((upsert Device.id (.physical p) l).map deviceRow) = true := by
      rw [hasText_map deviceRow_id]
      exact mem_keys_upsert.mpr (.inl rfl)
    have hnone : ∀ row ∈ db.device.enrolledApps.filter (fun r => r.deviceId ≠ p.id),
        row.deviceId ≠ p.id := fun row hrow => by simpa using (List.mem_filter.mp hrow).2
    simp only [writeDevice, hrows]
    rw [foldlM_insertApp _ p.id p.enrolledApps hid hnone]
    refine ⟨⟨rfl, ?_, ?_, ?_⟩, rfl, rfl, rfl⟩
    · intro p' hp'
      rcases mem_upsert hnodup hp' with he | ⟨hp', hne⟩
      · cases he
        exact filter_rewritten_self AppRow.deviceId (fun r hr => appRows_deviceId hr) _
      · refine Eq.trans ?_ (h.apps p' hp')
        exact filter_rewritten_of_ne AppRow.deviceId (fun r hr => appRows_deviceId hr) hne _
    · intro row hrow
      rcases List.mem_append.mp hrow with hrow | hrow
      · exact hids _ (h.parents row (List.mem_filter.mp hrow).1)
      · rw [appRows_deviceId hrow]
        exact mem_keys_upsert.mpr (.inl rfl)
    · intro v hv
      rcases mem_upsert hnodup hv with he | ⟨hv, hne⟩
      · cases he
      · exact h.data v hv
  | virtual v =>
    simp only [writeDevice, hrows]
    refine (writeDeviceData_yields _ v.id v.spec.platform v.driverData).bind fun t ht => ?_
    refine ⟨⟨ht.devices, ?_, ?_, ?_⟩, rfl, rfl, rfl⟩
    · intro p hp
      rcases mem_upsert hnodup hp with he | ⟨hp, -⟩
      · cases he
      · rw [ht.enrolledApps]
        exact h.apps p hp
    · rw [ht.enrolledApps]
      exact fun row hrow => hids _ (h.parents row hrow)
    · intro v' hv'
      rcases mem_upsert hnodup hv' with he | ⟨hv', hne⟩
      · cases he
        exact ht.own
      · exact (ht.other v'.spec.platform v'.id hne).trans (h.data v' hv')

theorem deleteDevice_yields {l : List Device} {db : Database} (h : DevicesStored l db.device)
    {id : String} (hgrants : hasText "device_id" id db.request.leaseGrants = false) :
    Yields bad
      (fun db' => DevicesStored (l.filter (fun d => d.id ≠ id)) db'.device ∧ SameButDevices db db')
      (deleteDevice db id) := by
  simp only [deleteDevice, hgrants, Bool.false_eq_true, if_false]
  refine ⟨⟨?_, ?_, ?_, ?_⟩, rfl, rfl, rfl⟩
  · rw [h.rows, deleteRows_map deviceRow_id]
  · intro p hp
    obtain ⟨hp, hne⟩ := List.mem_filter.mp hp
    refine Eq.trans ?_ (h.apps p hp)
    exact filter_deleted_of_ne AppRow.deviceId (of_decide_eq_true hne) _
  · intro row hrow
    obtain ⟨hrow, hne⟩ := List.mem_filter.mp hrow
    obtain ⟨d, hd, he⟩ := List.mem_map.mp (h.parents row hrow)
    rw [← he] at hne ⊢
    exact List.mem_map_of_mem (List.mem_filter.mpr ⟨hd, hne⟩)
  · intro v hv
    exact h.data v (List.mem_filter.mp hv).1

/-! ### Leases -/

theorem writeLease_eq {l : List LeaseRecord} {db : Database} (h : db.leases = l.map leaseRow)
    (lease : LeaseRecord) :
    writeLease db lease = .ok { db with leases := (upsert LeaseRecord.id lease l).map leaseRow } := by
  rw [writeLease, h, upsertRow_map leaseRow_id]

theorem deleteLease_eq {l : List LeaseRecord} {db : Database} (h : db.leases = l.map leaseRow)
    (id : String) :
    deleteLease db id =
      .ok { db with leases := (l.filter (fun x => x.id ≠ id)).map leaseRow } := by
  rw [deleteLease, h, deleteRows_map leaseRow_id]

/-! ### Lease requests -/

/-- The request tables hold the list. -/
structure RequestsStored (l : List LeaseRequestRecord) (t : RequestTables) : Prop where
  rows : t.leaseRequests = l.map requestRow
  grants : ∀ row, row ∈ t.leaseGrants ↔ ∃ q ∈ l, ∃ g, q.grant = some g ∧ row = grantRow q.id g
  environment : ∀ q ∈ l, ∀ g, q.grant = some g →
    t.environment.filter (fun r => r.requestId = q.id) = environmentRows q.id g.environment
  parents : ∀ row ∈ t.environment, ∃ q ∈ l, q.grant.isSome ∧ q.id = row.requestId

theorem environmentRows_requestId {id : String} {environment : Entries} {row : EnvironmentRow}
    (h : row ∈ environmentRows id environment) : row.requestId = id := by
  obtain ⟨p, -, rfl⟩ := List.mem_map.mp h
  rfl

theorem foldlM_insertEnvironment (db : Database) (id : String) (environment : Entries)
    (hid : hasText "request_id" id db.request.leaseGrants = true)
    (hnone : ∀ row ∈ db.request.environment, row.requestId ≠ id) :
    (environmentRows id environment).foldlM insertEnvironment db =
      .ok { db with
        request.environment := db.request.environment ++ environmentRows id environment } := by
  refine foldlM_insert (fun l => { db with request.environment := l })
    (fun r : EnvironmentRow => (r.requestId, r.name)) (environmentRows id environment) _ ?_ ?_ ?_
  · intro r hr l hnew
    have hr' := environmentRows_requestId hr
    have hany : ∀ x ∈ l, x.requestId = id → ¬ x.name = r.name := by
      intro x hx hx' hname
      exact hnew (List.mem_map.mpr ⟨x, hx, by rw [hx', hname, hr']⟩)
    simpa [insertEnvironment, hr', hid] using hany
  · intro r hr hmem
    obtain ⟨x, hx, he⟩ := List.mem_map.mp hmem
    exact hnone x hx ((Prod.mk.inj he).1.trans (environmentRows_requestId hr))
  · have hkeys : (environmentRows id environment).map (fun r => (r.requestId, r.name)) =
        (environment.pairs.map Prod.fst).map (fun n => (id, n)) := by
      rw [environmentRows, List.map_map, List.map_map]
      rfl
    rw [hkeys]
    exact List.Nodup.map (fun a b h => (Prod.mk.inj h).2) environment.nodup

/-- The rest of the database after a statement on the request tables. -/
def SameButRequests (db db' : Database) : Prop :=
  db'.device = db.device ∧ db'.leases = db.leases ∧ db'.component = db.component

theorem writeLeaseRequest_yields {l : List LeaseRequestRecord} {db : Database}
    (h : RequestsStored l db.request) (hnodup : (l.map LeaseRequestRecord.id).Nodup)
    (q : LeaseRequestRecord) (hold : ∀ y ∈ l, y.id = q.id → y.grant = none)
    (hdevice : ∀ g, q.grant = some g → hasText "id" g.device.id db.device.devices = true) :
    Yields bad
      (fun db' => RequestsStored (upsert LeaseRequestRecord.id q l) db'.request ∧
        SameButRequests db db') (writeLeaseRequest db q) := by
  have hrows : upsertRow "id" (requestRow q) db.request.leaseRequests =
      (upsert LeaseRequestRecord.id q l).map requestRow := by
    rw [h.rows, upsertRow_map requestRow_id]
  have hself := mem_upsert_self LeaseRequestRecord.id q l
  -- a granted record of the list is not of this id, so it stays
  have hstay : ∀ y ∈ l, y.grant.isSome → y ∈ upsert LeaseRequestRecord.id q l := by
    intro y hy hg
    refine mem_upsert_of_ne hy fun he => ?_
    rw [hold y hy he] at hg
    cases hg
  simp only [writeLeaseRequest, hrows]
  cases hg : q.grant with
  | none =>
    refine ⟨⟨rfl, ?_, ?_, ?_⟩, rfl, rfl, rfl⟩
    · intro row
      rw [h.grants row]
      constructor
      · rintro ⟨y, hy, g, hyg, rfl⟩
        exact ⟨y, hstay y hy (by rw [hyg]; rfl), g, hyg, rfl⟩
      · rintro ⟨y, hy, g, hyg, rfl⟩
        rcases mem_upsert hnodup hy with rfl | ⟨hy, -⟩
        · rw [hg] at hyg
          cases hyg
        · exact ⟨y, hy, g, hyg, rfl⟩
    · intro y hy g hyg
      rcases mem_upsert hnodup hy with rfl | ⟨hy, -⟩
      · rw [hg] at hyg
        cases hyg
      · exact h.environment y hy g hyg
    · intro row hrow
      obtain ⟨y, hy, hyg, hid⟩ := h.parents row hrow
      exact ⟨y, hstay y hy hyg, hyg, hid⟩
  | some g =>
    have hnew : ∀ row ∈ db.request.leaseGrants, row.get "request_id" ≠ .text q.id := by
      intro row hrow he
      obtain ⟨y, hy, g', hyg, rfl⟩ := (h.grants row).mp hrow
      rw [hold y hy (SqliteValue.text.inj he)] at hyg
      cases hyg
    have hgrants : upsertRow "request_id" (grantRow q.id g) db.request.leaseGrants =
        db.request.leaseGrants ++ [grantRow q.id g] := by
      refine upsert_of_not_mem _ _ fun hmem => ?_
      obtain ⟨row, hrow, he⟩ := List.mem_map.mp hmem
      exact hnew row hrow he
    have hrequest : hasText "id" q.id ((upsert LeaseRequestRecord.id q l).map requestRow) = true := by
      rw [hasText_map requestRow_id]
      exact mem_keys_upsert.mpr (.inl rfl)
    have hhas : hasText "request_id" q.id (db.request.leaseGrants ++ [grantRow q.id g]) = true := by
      simp [hasText]
    have hnone : ∀ row ∈ db.request.environment.filter (fun r => r.requestId ≠ q.id),
        row.requestId ≠ q.id := fun row hrow => by simpa using (List.mem_filter.mp hrow).2
    simp only [upsertGrant, hrequest, hdevice g hg, hgrants, Bool.not_true, Bool.or_false,
      Bool.false_eq_true, if_false, ok_bind]
    rw [foldlM_insertEnvironment _ q.id g.environment hhas hnone]
    refine ⟨⟨rfl, ?_, ?_, ?_⟩, rfl, rfl, rfl⟩
    · intro row
      rw [List.mem_append, List.mem_singleton, h.grants row]
      constructor
      · rintro (⟨y, hy, g', hyg, rfl⟩ | rfl)
        · exact ⟨y, hstay y hy (by rw [hyg]; rfl), g', hyg, rfl⟩
        · exact ⟨q, hself, g, hg, rfl⟩
      · rintro ⟨y, hy, g', hyg, rfl⟩
        rcases mem_upsert hnodup hy with rfl | ⟨hy, -⟩
        · rw [hg] at hyg
          cases hyg
          exact .inr rfl
        · exact .inl ⟨y, hy, g', hyg, rfl⟩
    · intro y hy g' hyg
      rcases mem_upsert hnodup hy with rfl | ⟨hy, hne⟩
      · rw [hg] at hyg
        cases hyg
        exact filter_rewritten_self EnvironmentRow.requestId
          (fun r hr => environmentRows_requestId hr) _
      · refine Eq.trans ?_ (h.environment y hy g' hyg)
        exact filter_rewritten_of_ne EnvironmentRow.requestId
          (fun r hr => environmentRows_requestId hr) hne _
    · intro row hrow
      rcases List.mem_append.mp hrow with hrow | hrow
      · obtain ⟨y, hy, hyg, hid⟩ := h.parents row (List.mem_filter.mp hrow).1
        exact ⟨y, hstay y hy hyg, hyg, hid⟩
      · exact ⟨q, hself, by rw [hg]; rfl, (environmentRows_requestId hrow).symm⟩

theorem deleteLeaseRequest_yields {l : List LeaseRequestRecord} {db : Database}
    (h : RequestsStored l db.request) (id : String) :
    Yields bad
      (fun db' => RequestsStored (l.filter (fun q => q.id ≠ id)) db'.request ∧
        SameButRequests db db') (deleteLeaseRequest db id) := by
  refine ⟨⟨?_, ?_, ?_, ?_⟩, rfl, rfl, rfl⟩
  · exact (congrArg (deleteRows "id" id) h.rows).trans (deleteRows_map requestRow_id id l)
  · intro row
    refine List.mem_filter.trans ?_
    rw [h.grants row]
    constructor
    · rintro ⟨⟨y, hy, g, hyg, rfl⟩, hne⟩
      exact ⟨y, List.mem_filter.mpr ⟨hy, by simpa using hne⟩, g, hyg, rfl⟩
    · rintro ⟨y, hy, g, hyg, rfl⟩
      obtain ⟨hy, hne⟩ := List.mem_filter.mp hy
      exact ⟨⟨y, hy, g, hyg, rfl⟩, by simpa using hne⟩
  · intro y hy g hyg
    obtain ⟨hy, hne⟩ := List.mem_filter.mp hy
    refine Eq.trans ?_ (h.environment y hy g hyg)
    exact filter_deleted_of_ne EnvironmentRow.requestId (of_decide_eq_true hne) _
  · intro row hrow
    obtain ⟨hrow, hne⟩ := List.mem_filter.mp hrow
    obtain ⟨y, hy, hyg, hid⟩ := h.parents row hrow
    exact ⟨y, List.mem_filter.mpr ⟨hy, by rw [hid]; exact hne⟩, hyg, hid⟩

/-! ### Components -/

/-- What tells a component's rows: the text of its platform and its version. -/
def ComponentRecord.pair (c : ComponentRecord) : String × String :=
  (platforms.text c.platform, c.version)

theorem platformText_plain (p : Platform) : '\x00' ∉ (platforms.text p).toList := by
  cases p <;> decide

/-- The key of a removed component splits into its platform and its version. -/
theorem splitComponentKey_componentKey (c : ComponentRecord) :
    splitComponentKey (componentKey c) = c.pair := by
  have hsplit : (componentKey c).toList.splitOn '\x00' =
      [(platforms.text c.platform).toList, c.version.toList] := by
    have htext : (componentKey c).toList =
        (platforms.text c.platform).toList ++ '\x00' :: c.version.toList := by
      simp [componentKey]
    rw [htext, List.splitOn_append_cons_self_of_not_mem (platformText_plain c.platform),
      List.splitOn_eq_singleton c.plain]
  simp [splitComponentKey, hsplit, ComponentRecord.pair]

theorem componentKey_eq_iff (c c' : ComponentRecord) :
    componentKey c = componentKey c' ↔ c.pair = c'.pair := by
  constructor
  · intro h
    rw [← splitComponentKey_componentKey, h, splitComponentKey_componentKey]
  · intro h
    rw [ComponentRecord.pair, ComponentRecord.pair, Prod.mk.injEq] at h
    rw [componentKey, componentKey, h.1, h.2]

theorem isComponentRow_componentRow (c c' : ComponentRecord) :
    isComponentRow (platforms.text c'.platform) c'.version (componentRow c) = true ↔
      c.pair = c'.pair := by
  simp [isComponentRow, componentRow, componentColumns, Row.get_cons, ComponentRecord.pair]

/-- The component tables hold the list. -/
structure ComponentsStored (l : List ComponentRecord) (t : ComponentTables) : Prop where
  rows : t.components = l.map componentRow
  receipt : ∀ c ∈ l, t.receipt.filter (fun r => (r.platform, r.version) = c.pair) = receiptRows c
  parents : ∀ row ∈ t.receipt, (row.platform, row.version) ∈ l.map ComponentRecord.pair

theorem receiptRows_pair {c : ComponentRecord} {row : ReceiptRow} (h : row ∈ receiptRows c) :
    (row.platform, row.version) = c.pair := by
  obtain ⟨p, -, rfl⟩ := List.mem_map.mp h
  rfl

/-- The rest of the database after a statement on the component tables. -/
def SameButComponents (db db' : Database) : Prop :=
  db'.device = db.device ∧ db'.leases = db.leases ∧ db'.request = db.request

theorem deleteComponentRows_stored {l : List ComponentRecord} {db : Database}
    (h : ComponentsStored l db.component) (c : ComponentRecord) :
    ComponentsStored (l.filter (fun x => componentKey x ≠ componentKey c))
      (deleteComponentRows db (platforms.text c.platform) c.version).component := by
  refine ⟨?_, ?_, ?_⟩
  · simp only [deleteComponentRows, h.rows, List.filter_map]
    congr 1
    refine List.filter_congr fun x _ => ?_
    by_cases hp : x.pair = c.pair
    · simp [(isComponentRow_componentRow x c).mpr hp, (componentKey_eq_iff x c).mpr hp]
    · simp [mt (isComponentRow_componentRow x c).mp hp, mt (componentKey_eq_iff x c).mp hp]
  · intro x hx
    obtain ⟨hx, hne⟩ := List.mem_filter.mp hx
    refine Eq.trans ?_ (h.receipt x hx)
    exact filter_deleted_of_ne (fun r : ReceiptRow => (r.platform, r.version))
      (mt (componentKey_eq_iff x c).mpr (of_decide_eq_true hne)) _
  · intro row hrow
    obtain ⟨hrow, hne⟩ := List.mem_filter.mp hrow
    obtain ⟨x, hx, he⟩ := List.mem_map.mp (h.parents row hrow)
    rw [← he] at hne ⊢
    have hkey : componentKey x ≠ componentKey c :=
      mt (componentKey_eq_iff x c).mp (of_decide_eq_true hne)
    exact List.mem_map_of_mem (List.mem_filter.mpr ⟨hx, decide_eq_true hkey⟩)

theorem foldlM_insertReceipt (db : Database) (c : ComponentRecord)
    (hc : db.component.components.any (isComponentRow (platforms.text c.platform) c.version) = true)
    (hnone : ∀ row ∈ db.component.receipt, (row.platform, row.version) ≠ c.pair) :
    (receiptRows c).foldlM insertReceipt db =
      .ok { db with component.receipt := db.component.receipt ++ receiptRows c } := by
  refine foldlM_insert (fun l => { db with component.receipt := l })
    (fun r : ReceiptRow => ((r.platform, r.version), r.key)) (receiptRows c) _ ?_ ?_ ?_
  · intro r hr l hnew
    obtain ⟨hp, hv⟩ := Prod.mk.inj (receiptRows_pair hr)
    have hany : ∀ x ∈ l, x.platform = platforms.text c.platform → x.version = c.version →
        ¬ x.key = r.key := by
      intro x hx hxp hxv hxk
      exact hnew (List.mem_map.mpr ⟨x, hx, by rw [hxp, hxv, hxk, hp, hv]⟩)
    simpa [insertReceipt, hp, hv, hc] using hany
  · intro r hr hmem
    obtain ⟨x, hx, he⟩ := List.mem_map.mp hmem
    exact hnone x hx ((Prod.mk.inj he).1.trans (receiptRows_pair hr))
  · have hkeys : (receiptRows c).map (fun r => ((r.platform, r.version), r.key)) =
        (c.receipt.pairs.map Prod.fst).map (fun n => (c.pair, n)) := by
      rw [receiptRows, List.map_map, List.map_map]
      rfl
    rw [hkeys]
    exact List.Nodup.map (fun a b h => (Prod.mk.inj h).2) c.receipt.nodup

/-- A component that is not there is inserted at the end. -/
theorem insertComponent_yields {l : List ComponentRecord} {db : Database}
    (h : ComponentsStored l db.component) (c : ComponentRecord) (hnew : ∀ x ∈ l, x.pair ≠ c.pair) :
    Yields bad
      (fun db' => ComponentsStored (l ++ [c]) db'.component ∧ SameButComponents db db')
      (insertComponent db c >>= (receiptRows c).foldlM insertReceipt) := by
  have hfree : db.component.components.any
      (isComponentRow (platforms.text c.platform) c.version) = false := by
    rw [h.rows, List.any_eq_false]
    rintro row hrow
    obtain ⟨x, hx, rfl⟩ := List.mem_map.mp hrow
    exact mt (isComponentRow_componentRow x c).mp (hnew x hx)
  have hnone : ∀ row ∈ db.component.receipt, (row.platform, row.version) ≠ c.pair := by
    intro row hrow
    obtain ⟨x, hx, he⟩ := List.mem_map.mp (h.parents row hrow)
    rw [← he]
    exact hnew x hx
  have hkept : db.component.receipt.filter (fun r => (r.platform, r.version) ≠ c.pair) =
      db.component.receipt := List.filter_eq_self.mpr fun r hr => decide_eq_true (hnone r hr)
  have hhas : (db.component.components ++ [componentRow c]).any
      (isComponentRow (platforms.text c.platform) c.version) = true := by
    simp [List.any_append, isComponentRow_componentRow]
  simp only [insertComponent, hfree, Bool.false_eq_true, if_false, ok_bind]
  rw [foldlM_insertReceipt
    { db with component.components := db.component.components ++ [componentRow c] } c hhas hnone]
  refine ⟨⟨?_, ?_, ?_⟩, rfl, rfl, rfl⟩
  · simp only [h.rows, List.map_append, List.map_cons, List.map_nil]
  · intro x hx
    rw [← hkept]
    rcases List.mem_append.mp hx with hx | hx
    · refine Eq.trans ?_ (h.receipt x hx)
      exact filter_rewritten_of_ne (fun r : ReceiptRow => (r.platform, r.version))
        (fun r hr => receiptRows_pair hr) (hnew x hx) _
    · rw [List.mem_singleton.mp hx]
      exact filter_rewritten_self (fun r : ReceiptRow => (r.platform, r.version))
        (fun r hr => receiptRows_pair hr) _
  · intro row hrow
    rw [List.map_append, List.mem_append]
    rcases List.mem_append.mp hrow with hrow | hrow
    · exact .inl (h.parents row hrow)
    · exact .inr (receiptRows_pair hrow ▸ List.mem_cons_self)

theorem writeComponent_yields {l : List ComponentRecord} {db : Database}
    (h : ComponentsStored l db.component) (c : ComponentRecord) :
    Yields bad
      (fun db' => ComponentsStored (reinsert componentKey c l) db'.component ∧
        SameButComponents db db') (writeComponent db c) := by
  have hdel := deleteComponentRows_stored h c
  refine insertComponent_yields hdel c fun x hx => ?_
  exact mt (componentKey_eq_iff x c).mpr (of_decide_eq_true (List.mem_filter.mp hx).2)

end Simlock.Core
