import Simlock.Core.RegistryRows

/-! The registry's tables, the writers of a commit and the load.

    A table is the list of its rows in `rowid` order. Foreign keys are immediate: a statement that
    would leave a child without its parent fails, and so does one that would repeat a primary key;
    the transaction then rolls back.

        devices ◀── device_enrolled_apps          components ◀── component_receipt
           ▲
           └────── lease_grants ──▶ lease_requests
                        ▲
                        └── lease_grant_environment

    `leases` names its device without a foreign key. The two device-data tables are the drivers';
    the registry writes to them and never deletes from them. -/

namespace Simlock.Core

open Simlock.Lib

structure AppRow where
  deviceId : String
  position : Nat
  app : String
  deriving DecidableEq, Repr

structure EnvironmentRow where
  requestId : String
  name : String
  value : String
  deriving DecidableEq, Repr

structure ReceiptRow where
  platform : String
  version : String
  key : String
  value : String
  deriving DecidableEq, Repr

/-- `devices`, `device_enrolled_apps`, `ios_device_data` and `android_device_data`. -/
structure DeviceTables where
  devices : List Row
  enrolledApps : List AppRow
  iosData : List Row
  androidData : List Row

/-- `lease_requests`, `lease_grants` and `lease_grant_environment`. -/
structure RequestTables where
  leaseRequests : List Row
  leaseGrants : List Row
  environment : List EnvironmentRow

/-- `components` and `component_receipt`. -/
structure ComponentTables where
  components : List Row
  receipt : List ReceiptRow

structure Database where
  device : DeviceTables
  leases : List Row
  request : RequestTables
  component : ComponentTables

def Database.empty : Database := ⟨⟨[], [], [], []⟩, [], ⟨[], [], []⟩, ⟨[], []⟩⟩

/-- Why a statement of a commit failed. -/
inductive CommitError where
  | foreignKey (table : String)
  | primaryKey (table : String)
  | driverData (message : String)
  deriving DecidableEq, Repr

/-- Some row has this text in this column. -/
def hasText (column text : String) (rows : List Row) : Bool :=
  rows.any (fun row => row.get column = .text text)

/-- `INSERT … ON CONFLICT (column) DO UPDATE` of every other column. -/
def upsertRow (column : String) (row : Row) (rows : List Row) : List Row :=
  upsert (fun r => r.get column) row rows

/-- `DELETE … WHERE column = text`. -/
def deleteRows (column text : String) (rows : List Row) : List Row :=
  rows.filter (fun row => row.get column ≠ .text text)

/-! ### Driver data -/

def iosColumns : List String :=
  ["device_id", "udid", "name", "device_type_id", "runtime_id", "slim_signature", "slim_mark_token"]

def iosRow (deviceId : String) (data : IosDriverData) : Row :=
  iosColumns.zip [.text deviceId, .text data.udid, .text data.name, .text data.deviceTypeId,
    .text data.runtimeId, ofText data.slimSignature, ofText data.slimMarkToken]

def androidColumns : List String :=
  ["device_id", "avd_name", "avd_home", "config_hash", "image_identity", "port", "serial"]

def androidRow (deviceId : String) (data : AndroidDriverData) : Row :=
  androidColumns.zip [.text deviceId, .text data.avdName, ofText data.avdHome,
    .text data.configHash, ofText data.imageIdentity, .number data.port, .text data.serial]

/-- `table.write` of the platform's device-data table. -/
def writeDeviceData (t : DeviceTables) (deviceId : String) :
    Platform → DriverData → Except CommitError DeviceTables
  | .ios, .ios data =>
    .ok { t with iosData := upsertRow "device_id" (iosRow deviceId data) t.iosData }
  | .android, .android data =>
    .ok { t with androidData := upsertRow "device_id" (androidRow deviceId data) t.androidData }
  | .ios, .android _ => .error (.driverData s!"Invalid ios driver data for device {deviceId}")
  | .android, .ios _ => .error (.driverData s!"Invalid android driver data for device {deviceId}")

/-- The columns of `ios_device_data` are typed by the schema, so the checks here never fail. -/
def iosFromRow (deviceId : String) (row : Row) : Except RegistryLoadError IosDriverData := do
  let reader : RowReader := ⟨"ios_device_data", deviceId, row⟩
  return {
    deviceTypeId := ← reader.text "device_type_id"
    name := ← reader.text "name"
    runtimeId := ← reader.text "runtime_id"
    slimMarkToken := ← reader.optText "slim_mark_token"
    slimSignature := ← reader.optText "slim_signature"
    udid := ← reader.text "udid" }

def androidFromRow (deviceId : String) (row : Row) : Except RegistryLoadError AndroidDriverData := do
  let reader : RowReader := ⟨"android_device_data", deviceId, row⟩
  return {
    avdHome := ← reader.optText "avd_home"
    avdName := ← reader.text "avd_name"
    configHash := ← reader.text "config_hash"
    imageIdentity := ← reader.optText "image_identity"
    port := ← reader.int "port"
    serial := ← reader.text "serial" }

/-- `readDeviceData`, with `table.read` of the platform's table. -/
def readDeviceData (t : DeviceTables) (platform : Platform) (id : String) :
    Except RegistryLoadError DriverData :=
  match platform with
  | .ios =>
    match t.iosData.find? (fun row => row.get "device_id" = .text id) with
    | none =>
      .error ⟨s!"Invalid devices row {id}: no row in ios-device-data: No ios driver data for device {id}"⟩
    | some row => .ios <$> iosFromRow id row
  | .android =>
    match t.androidData.find? (fun row => row.get "device_id" = .text id) with
    | none =>
      .error
        ⟨s!"Invalid devices row {id}: no row in android-device-data: No android driver data for device {id}"⟩
    | some row => .android <$> androidFromRow id row

/-! ### Writers -/

def insertApp (db : Database) (row : AppRow) : Except CommitError Database :=
  if !hasText "id" row.deviceId db.device.devices then .error (.foreignKey "device_enrolled_apps")
  else if db.device.enrolledApps.any
      (fun r => r.deviceId = row.deviceId && r.position = row.position) then
    .error (.primaryKey "device_enrolled_apps")
  else .ok { db with device.enrolledApps := db.device.enrolledApps ++ [row] }

/-- The rows of a physical device's apps. -/
def appRows (id : String) (apps : List String) : List AppRow :=
  apps.zipIdx.map (fun (app, position) => ⟨id, position, app⟩)

def writeDevice (db : Database) (d : Device) : Except CommitError Database :=
  let db := { db with device.devices := upsertRow "id" (deviceRow d) db.device.devices }
  match d with
  | .physical p =>
    let db := { db with
      device.enrolledApps := db.device.enrolledApps.filter (fun r => r.deviceId ≠ p.id) }
    (appRows p.id p.enrolledApps).foldlM insertApp db
  | .virtual v => do
    return { db with device := ← writeDeviceData db.device v.id v.spec.platform v.driverData }

def deleteDevice (db : Database) (id : String) : Except CommitError Database :=
  let db := { db with
    device.enrolledApps := db.device.enrolledApps.filter (fun r => r.deviceId ≠ id) }
  if hasText "device_id" id db.request.leaseGrants then .error (.foreignKey "lease_grants")
  else .ok { db with device.devices := deleteRows "id" id db.device.devices }

def writeLease (db : Database) (lease : LeaseRecord) : Except CommitError Database :=
  .ok { db with leases := upsertRow "id" (leaseRow lease) db.leases }

def deleteLease (db : Database) (id : String) : Except CommitError Database :=
  .ok { db with leases := deleteRows "id" id db.leases }

def upsertGrant (db : Database) (requestId : String) (grant : LeaseGrant) :
    Except CommitError Database :=
  if !hasText "id" requestId db.request.leaseRequests ||
      !hasText "id" grant.device.id db.device.devices then
    .error (.foreignKey "lease_grants")
  else .ok { db with
    request.leaseGrants := upsertRow "request_id" (grantRow requestId grant) db.request.leaseGrants }

def insertEnvironment (db : Database) (row : EnvironmentRow) : Except CommitError Database :=
  if !hasText "request_id" row.requestId db.request.leaseGrants then
    .error (.foreignKey "lease_grant_environment")
  else if db.request.environment.any
      (fun r => r.requestId = row.requestId && r.name = row.name) then
    .error (.primaryKey "lease_grant_environment")
  else .ok { db with request.environment := db.request.environment ++ [row] }

/-- The rows of a grant's environment. -/
def environmentRows (requestId : String) (environment : Entries) : List EnvironmentRow :=
  environment.pairs.map (fun (name, value) => ⟨requestId, name, value⟩)

def writeLeaseRequest (db : Database) (record : LeaseRequestRecord) :
    Except CommitError Database :=
  let db := { db with
    request.leaseRequests := upsertRow "id" (requestRow record) db.request.leaseRequests }
  match record.grant with
  | none => .ok db
  | some grant => do
    let db ← upsertGrant db record.id grant
    let db := { db with
      request.environment := db.request.environment.filter (fun r => r.requestId ≠ record.id) }
    (environmentRows record.id grant.environment).foldlM insertEnvironment db

def deleteLeaseRequest (db : Database) (id : String) : Except CommitError Database :=
  .ok { db with
    request.environment := db.request.environment.filter (fun r => r.requestId ≠ id)
    request.leaseGrants := deleteRows "request_id" id db.request.leaseGrants
    request.leaseRequests := deleteRows "id" id db.request.leaseRequests }

/-- The row is of the component of this platform and version. -/
def isComponentRow (platform version : String) (row : Row) : Bool :=
  (row.get "platform", row.get "version") = (.text platform, .text version)

def deleteComponentRows (db : Database) (platform version : String) : Database :=
  { db with
    component.receipt :=
      db.component.receipt.filter (fun r => (r.platform, r.version) ≠ (platform, version))
    component.components :=
      db.component.components.filter (fun row => !isComponentRow platform version row) }

def insertComponent (db : Database) (record : ComponentRecord) : Except CommitError Database :=
  if db.component.components.any
      (isComponentRow (platforms.text record.platform) record.version) then
    .error (.primaryKey "components")
  else .ok { db with component.components := db.component.components ++ [componentRow record] }

def insertReceipt (db : Database) (row : ReceiptRow) : Except CommitError Database :=
  if !db.component.components.any (isComponentRow row.platform row.version) then
    .error (.foreignKey "component_receipt")
  else if db.component.receipt.any
      (fun r => r.platform = row.platform && r.version = row.version && r.key = row.key) then
    .error (.primaryKey "component_receipt")
  else .ok { db with component.receipt := db.component.receipt ++ [row] }

/-- The rows of a component's receipt. -/
def receiptRows (record : ComponentRecord) : List ReceiptRow :=
  record.receipt.pairs.map
    (fun (key, value) => ⟨platforms.text record.platform, record.version, key, value⟩)

def writeComponent (db : Database) (record : ComponentRecord) : Except CommitError Database := do
  let db := deleteComponentRows db (platforms.text record.platform) record.version
  let db ← insertComponent db record
  (receiptRows record).foldlM insertReceipt db

/-- `key.split("\0") as [Platform, string]`. -/
def splitComponentKey (key : String) : String × String :=
  let parts := (key.toList.splitOn '\x00').map String.ofList
  (parts.getD 0 "", parts.getD 1 "")

/-- The transaction of `#commit`: the difference between what is committed and what will be. -/
def commitRows (before : Registry) (after : Draft) (db : Database) :
    Except CommitError Database := do
  let db ← (removed LeaseRequestRecord.id before.leaseRequests after.leaseRequests).foldlM
    deleteLeaseRequest db
  let db ← (removed Device.id before.devices after.devices).foldlM deleteDevice db
  let db ← (changed after.devices).foldlM writeDevice db
  let db ← (removed LeaseRecord.id before.leases after.leases).foldlM deleteLease db
  let db ← (changed after.leases).foldlM writeLease db
  let db ← (changed after.leaseRequests).foldlM writeLeaseRequest db
  let db := (removed componentKey before.components after.components).foldl
    (fun db key => deleteComponentRows db (splitComponentKey key).1 (splitComponentKey key).2) db
  (changed after.components).foldlM writeComponent db

/-! ### The load -/

/-- `record[name] = value`. -/
def Entries.set (e : Entries) (name value : String) : Entries where
  pairs := upsert Prod.fst (name, value) e.pairs
  nodup := nodup_keys_upsert (name, value) e.nodup

def Entries.ofPairs (pairs : List (String × String)) : Entries :=
  pairs.foldl (fun e p => e.set p.1 p.2) ⟨[], by simp⟩

/-- `appsByDevice.get(id) ?? []`: the apps of one device by their position. -/
def appsByDevice (rows : List AppRow) (id : String) : List String :=
  ((rows.filter (fun r => r.deviceId = id)).mergeSort (fun a b => a.position ≤ b.position)).map
    AppRow.app

def environmentOf (rows : List EnvironmentRow) (requestId : String) : Entries :=
  Entries.ofPairs ((rows.filter (fun r => r.requestId = requestId)).map fun r => (r.name, r.value))

def receiptOf (rows : List ReceiptRow) (platform version : String) : Entries :=
  Entries.ofPairs ((rows.filter (fun r => (r.platform, r.version) = (platform, version))).map
    fun r => (r.key, r.value))

/-- The text a reader's errors name the row by. -/
def Row.key (row : Row) (column : String) : String :=
  match row.get column with
  | .text s => s
  | .number n => toString n
  | .null => "null"

/-- One component with its receipt. `ComponentRecord` has no version with a NUL, and none is stored,
    so the check of it never fails. -/
def componentFromRow (t : ComponentTables) (row : Row) : Except RegistryLoadError ComponentRecord := do
  let reader : RowReader := ⟨"components", row.key "platform" ++ "/" ++ row.key "version", row⟩
  let platform ← reader.oneOf "platform" platforms
  let version ← reader.text "version"
  let installedAt ← reader.int "installed_at"
  if h : '\x00' ∈ version.toList then reader.fail "version"
  else return {
    installedAt := installedAt
    platform := platform
    receipt := receiptOf t.receipt (platforms.text platform) version
    version := version
    plain := h }

def loadRegistryRows (db : Database) : Except RegistryLoadError Registry := do
  let devices ← db.device.devices.mapM
    (deviceFromRow (appsByDevice db.device.enrolledApps) (readDeviceData db.device))
  let leases ← db.leases.mapM (fun row => leaseFromRow "leases" (row.key "id") row "id")
  let byId := fun id => devices.find? (fun d => d.id = id)
  let components ← db.component.components.mapM (componentFromRow db.component)
  let leaseRequests ← db.request.leaseRequests.mapM
    (leaseRequestFromRow
      (fun id => db.request.leaseGrants.find? (fun row => row.get "request_id" = .text id))
      (environmentOf db.request.environment) byId)
  return ⟨devices, leases, leaseRequests, components⟩

/-- How an open can fail. -/
inductive OpenError where
  | load (e : RegistryLoadError)
  | commit (e : CommitError)

/-- `Registry.load` at `now`: the rows, and a commit of them when a device is deleted. -/
def Registry.load (o : RegistryOptions) (now : Int) (db : Database) :
    Except OpenError (Registry × Database) := do
  let r ← (loadRegistryRows db).mapError .load
  if r.devices.any (fun d => d.state = .deleted) then
    let db ← (commitRows r (r.draft.settled o now) db).mapError .commit
    return (Registry.commit o now r.draft, db)
  else return (r, db)

end Simlock.Core
