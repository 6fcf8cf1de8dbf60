import Simlock.Core.Registry

/-! The rows of the registry's tables: what a writer stores of a record, what a reader makes of it.

    A row pairs the column names with the values the writer binds to them, and a reader asks for a
    column by name, as the SQL does, so a column that the two sides spell or order differently would
    be lost here too. A `NULL` and a column that is not there read the same.

    The main results are the round trips: a record's row reads back as the record. -/

namespace Simlock.Core

inductive SqliteValue where
  | null
  | number (n : Int)
  | text (s : String)
  deriving DecidableEq, Repr

abbrev Row := List (String × SqliteValue)

/-- `row[column]`. -/
def Row.get (row : Row) (column : String) : SqliteValue := (row.lookup column).getD .null

/-- `value ?? null` of a text. -/
def ofText (s : Option String) : SqliteValue := (s.map .text).getD .null

/-- `value ?? null` of a number. -/
def ofInt (n : Option Int) : SqliteValue := (n.map .number).getD .null

def flagValue (value : Option Bool) : SqliteValue :=
  ofInt (value.map fun b => if b then 1 else 0)

/-! ### Enumerations

The texts of a closed type, with the list a reader admits. -/

/-- A closed type's texts: the reader's list misses no value and no two values share a text. -/
structure Texts (α : Type) where
  allowed : List α
  text : α → String
  complete : ∀ a, a ∈ allowed
  injective : ∀ a b, text a = text b → a = b

def platforms : Texts Platform where
  allowed := [.ios, .android]
  text
    | .ios => "ios"
    | .android => "android"
  complete a := by cases a <;> simp
  injective a b := by cases a <;> cases b <;> simp

def virtualStates : Texts VirtualState where
  allowed := [.provisioning, .ready, .leased, .reclaiming, .quarantined, .shutdown, .deleted]
  text s := s.toState.text
  complete a := by cases a <;> simp
  injective a b := by cases a <;> cases b <;> simp [VirtualState.toState, DeviceState.text]

def physicalStates : Texts PhysicalState where
  allowed := [.ready, .absent, .leased, .reclaiming, .quarantined, .deleted]
  text s := s.toState.text
  complete a := by cases a <;> simp
  injective a b := by cases a <;> cases b <;> simp [PhysicalState.toState, DeviceState.text]

def absentReasons : Texts AbsentReason where
  allowed := [.locked, .untrusted, .notPresent]
  text
    | .locked => "locked"
    | .untrusted => "untrusted"
    | .notPresent => "not-present"
  complete a := by cases a <;> simp
  injective a b := by cases a <;> cases b <;> simp

def physicalClasses : Texts PhysicalClass where
  allowed := [.phone, .tablet]
  text
    | .phone => "phone"
    | .tablet => "tablet"
  complete a := by cases a <;> simp
  injective a b := by cases a <;> cases b <;> simp

def deviceClasses : Texts DeviceClass where
  allowed := [.phone, .tablet, .watch, .tv, .vision, .auto, .desktop]
  text
    | .phone => "phone"
    | .tablet => "tablet"
    | .watch => "watch"
    | .tv => "tv"
    | .vision => "vision"
    | .auto => "auto"
    | .desktop => "desktop"
  complete a := by cases a <;> simp
  injective a b := by cases a <;> cases b <;> simp

def deviceModes : Texts DeviceMode where
  allowed := [.slim, .full]
  text
    | .slim => "slim"
    | .full => "full"
  complete a := by cases a <;> simp
  injective a b := by cases a <;> cases b <;> simp

/-- `["slim"]`, the modes a virtual device's spec can name. -/
def specModes : Texts Unit where
  allowed := [()]
  text _ := "slim"
  complete a := by simp
  injective a b := by simp

def leaseIdentities : Texts LeaseIdentity where
  allowed := [.reusable, .fresh]
  text
    | .reusable => "reusable"
    | .fresh => "fresh"
  complete a := by cases a <;> simp
  injective a b := by cases a <;> cases b <;> simp

def leaseRequestStates : Texts LeaseRequestState where
  allowed := [.open_, .granted, .failed, .cancelled]
  text
    | .open_ => "open"
    | .granted => "granted"
    | .failed => "failed"
    | .cancelled => "cancelled"
  complete a := by cases a <;> simp
  injective a b := by cases a <;> cases b <;> simp

def quarantineKinds : Texts QuarantineKind where
  allowed := [.purgeFailed, .shutdownFailed, .deleteFailed, .stalled]
  text
    | .purgeFailed => "purge-failed"
    | .shutdownFailed => "shutdown-failed"
    | .deleteFailed => "delete-failed"
    | .stalled => "stalled"
  complete a := by cases a <;> simp
  injective a b := by cases a <;> cases b <;> simp

def stalledStates : Texts StalledState where
  allowed := [.provisioning, .reclaiming]
  text
    | .provisioning => "provisioning"
    | .reclaiming => "reclaiming"
  complete a := by cases a <;> simp
  injective a b := by cases a <;> cases b <;> simp

/-! ### The category list -/

/-- `except.join(",")`. -/
def ExceptList.join (e : ExceptList) : String :=
  String.ofList ([','].intercalate (e.names.map String.toList))

theorem not_mem_of_mem_splitOn {α : Type} [DecidableEq α] (a : α) (l piece : List α) :
    piece ∈ l.splitOn a → a ∉ piece := by
  induction l generalizing piece with
  | nil =>
    intro h
    simp [List.mem_singleton.mp h]
  | cons x l ih =>
    rw [List.splitOn_cons_eq_if_modifyHead]
    by_cases hx : x = a
    · intro h
      simp only [hx, BEq.rfl, if_true, List.mem_cons] at h
      rcases h with rfl | h
      · exact List.not_mem_nil
      · exact ih piece h
    · obtain ⟨p, ps, hps⟩ := List.exists_cons_of_ne_nil (List.splitOn_ne_nil a l)
      rw [if_neg (by simpa using hx), hps, List.modifyHead_cons, List.mem_cons]
      simp only [hps, List.mem_cons] at ih
      rintro (rfl | h)
      · simp [Ne.symm hx, ih p (Or.inl rfl)]
      · exact ih piece (Or.inr h)

/-- `text.split(",")`. -/
def ExceptList.split (text : String) : ExceptList where
  names := (text.toList.splitOn ',').map String.ofList
  nonempty := by simp
  plain := by
    intro n hn
    obtain ⟨piece, hp, rfl⟩ := List.mem_map.mp hn
    rw [String.toList_ofList]
    exact not_mem_of_mem_splitOn ',' _ piece hp

@[simp] theorem ExceptList.split_join (e : ExceptList) : ExceptList.split e.join = e := by
  have hparts : ([','].intercalate (e.names.map String.toList)).splitOn ',' =
      e.names.map String.toList := by
    apply List.splitOn_intercalate
    · intro l hl
      obtain ⟨n, hn, rfl⟩ := List.mem_map.mp hl
      exact e.plain n hn
    · simpa using e.nonempty
  cases e
  simp only [split, join, String.toList_ofList, hparts, List.map_map, ExceptList.mk.injEq]
  simp [Function.comp_def]

/-! ### The reader -/

structure RegistryLoadError where
  message : String
  deriving DecidableEq, Repr

structure RowReader where
  table : String
  key : String
  row : Row

namespace RowReader

variable {α : Type} (reader : RowReader) (column : String)

def fail : Except RegistryLoadError α :=
  let table := reader.table
  let key := reader.key
  .error ⟨s!"Invalid {table} row {key}: bad value in {column}"⟩

/-- `optText` of the column's value. -/
def asText : SqliteValue → Except RegistryLoadError (Option String)
  | .null => .ok none
  | .text s => .ok (some s)
  | .number _ => reader.fail column

def asInt : SqliteValue → Except RegistryLoadError (Option Int)
  | .null => .ok none
  | .number n => .ok (some n)
  | .text _ => reader.fail column

def asFlag : SqliteValue → Except RegistryLoadError (Option Bool)
  | .null => .ok none
  | .number n => if n ≠ 0 && n ≠ 1 then reader.fail column else .ok (some (n = 1))
  | .text _ => reader.fail column

def asOneOf (texts : Texts α) : Option String → Except RegistryLoadError (Option α)
  | none => .ok none
  | some s =>
    match texts.allowed.find? (fun a => texts.text a = s) with
    | none => reader.fail column
    | some a => .ok (some a)

/-- `value ?? this.#fail(column)`. -/
def required : Option α → Except RegistryLoadError α
  | some a => .ok a
  | none => reader.fail column

def optText : Except RegistryLoadError (Option String) :=
  reader.asText column (reader.row.get column)

def optInt : Except RegistryLoadError (Option Int) := reader.asInt column (reader.row.get column)

def optFlag : Except RegistryLoadError (Option Bool) := reader.asFlag column (reader.row.get column)

def optOneOf (texts : Texts α) : Except RegistryLoadError (Option α) :=
  reader.optText column >>= reader.asOneOf column texts

def text : Except RegistryLoadError String := reader.optText column >>= reader.required column

def int : Except RegistryLoadError Int := reader.optInt column >>= reader.required column

def flag : Except RegistryLoadError Bool := reader.optFlag column >>= reader.required column

def oneOf (texts : Texts α) : Except RegistryLoadError α :=
  reader.optOneOf column texts >>= reader.required column

@[simp] theorem asText_text (s : String) : reader.asText column (.text s) = .ok (some s) := rfl

@[simp] theorem asText_ofText (s : Option String) : reader.asText column (ofText s) = .ok s := by
  cases s <;> rfl

@[simp] theorem asInt_number (n : Int) : reader.asInt column (.number n) = .ok (some n) := rfl

@[simp] theorem asInt_ofInt (n : Option Int) : reader.asInt column (ofInt n) = .ok n := by
  cases n <;> rfl

@[simp] theorem asFlag_flagValue (b : Option Bool) :
    reader.asFlag column (flagValue b) = .ok b := by
  rcases b with _ | b | b <;> rfl

@[simp] theorem asOneOf_none (texts : Texts α) : reader.asOneOf column texts none = .ok none := rfl

@[simp] theorem required_some (a : α) : reader.required column (some a) = .ok a := rfl

/-- Every value of a closed type is found again by its text. -/
@[simp] theorem asOneOf_map_text (texts : Texts α) (a : Option α) :
    reader.asOneOf column texts (a.map texts.text) = .ok a := by
  cases a with
  | none => rfl
  | some a =>
    obtain ⟨b, hb⟩ : ∃ b, texts.allowed.find? (fun b => texts.text b = texts.text a) = some b := by
      rw [← Option.isSome_iff_exists, List.find?_isSome]
      exact ⟨a, texts.complete a, by simp⟩
    have htext : texts.text b = texts.text a := by simpa using List.find?_some hb
    simp only [Option.map_some, asOneOf, hb]
    rw [texts.injective b a htext]

@[simp] theorem asOneOf_some_text (texts : Texts α) (a : α) :
    reader.asOneOf column texts (some (texts.text a)) = .ok (some a) :=
  reader.asOneOf_map_text column texts (some a)

end RowReader

/-! ### Devices -/

def deviceColumns : List String :=
  ["id", "platform", "physical", "driver_device_id", "state", "model", "os_version", "spec_mode",
    "image_tag", "class", "mode", "lease_identity", "created_at", "last_lease_ended_at", "ready_at",
    "shutdown_at", "deleted_at", "foreign_state_detected_at", "foreign_provenance_detected_at",
    "recovering_since", "recovery_attempts", "quarantined_at", "quarantine_attempts",
    "quarantine_next_retry_at", "deferred_reclaim_lease_id", "quarantine_cause_kind",
    "quarantine_cause_stalled_state", "quarantine_cause_message", "address", "reclaiming_since",
    "absent_reason", "baseline_name", "baseline_version", "except_categories"]

/-- The values of `DEVICE_OPTIONAL_NUMBERS`. -/
def optionalNumbers (fs : DeviceRecordFields) : List SqliteValue :=
  [ofInt fs.lastLeaseEndedAt, ofInt fs.readyAt, ofInt fs.shutdownAt, ofInt fs.deletedAt,
    ofInt fs.foreignStateDetectedAt, ofInt fs.foreignProvenanceDetectedAt,
    ofInt fs.recoveringSince, ofInt fs.recoveryAttempts, ofInt fs.quarantinedAt,
    ofInt fs.quarantineAttempts, ofInt fs.quarantineNextRetryAt]

def causeColumns (cause : Option QuarantineCause) : List SqliteValue :=
  [ofText (cause.map fun c => quarantineKinds.text c.kind),
    ofText (cause.bind fun c => c.stalledState.map stalledStates.text),
    ofText (cause.bind QuarantineCause.message)]

def exceptValue (e : Option ExceptList) : SqliteValue := ofText (e.map ExceptList.join)

def deviceValues : Device → List SqliteValue
  | .virtual d =>
    [.text d.id, .text (platforms.text d.spec.platform), flagValue (some false),
      .text d.driverDeviceId, .text (virtualStates.text d.state), .text d.spec.model,
      .text d.spec.osVersion, ofText (if d.spec.slim then some (specModes.text ()) else none),
      ofText d.spec.imageTag, .null, .text (deviceModes.text d.mode),
      ofText (d.leaseIdentity.map leaseIdentities.text), .number d.createdAt] ++
    optionalNumbers d.toDeviceRecordFields ++ [ofText d.deferredReclaimLeaseId] ++
    causeColumns d.quarantineCause ++
    [ofText d.address, .null, .null, ofText (d.spec.baseline.map BaselineRef.name),
      ofInt (d.spec.baseline.map BaselineRef.version), exceptValue d.except_]
  | .physical d =>
    [.text d.id, .text (platforms.text d.spec.platform), flagValue (some true),
      .text d.driverDeviceId, .text (physicalStates.text d.state), .text d.spec.model,
      .text d.spec.osVersion, .null, .null, .text (physicalClasses.text d.spec.class_), .null, .null,
      .number d.createdAt] ++
    optionalNumbers d.toDeviceRecordFields ++ [ofText d.deferredReclaimLeaseId] ++
    causeColumns d.quarantineCause ++
    [ofText d.address, ofInt d.reclaimingSince, ofText (d.absentReason.map absentReasons.text),
      .null, .null, .null]

def deviceRow (d : Device) : Row := deviceColumns.zip (deviceValues d)

def exceptOf (reader : RowReader) : Except RegistryLoadError (Option ExceptList) := do
  return (← reader.optText "except_categories").map ExceptList.split

def baselineOf (reader : RowReader) : Except RegistryLoadError (Option BaselineRef) := do
  let name ← reader.optText "baseline_name"
  let version ← reader.optInt "baseline_version"
  return name.bind fun name => version.map fun version => ⟨name, version⟩

def quarantineCause (reader : RowReader) : Except RegistryLoadError (Option QuarantineCause) := do
  match ← reader.optOneOf "quarantine_cause_kind" quarantineKinds with
  | none => return none
  | some kind =>
    let stalledState ← reader.optOneOf "quarantine_cause_stalled_state" stalledStates
    let message ← reader.optText "quarantine_cause_message"
    return some ⟨kind, stalledState, message⟩

/-- The `shared` fields of `deviceFromRow`. -/
def sharedFromRow (reader : RowReader) : Except RegistryLoadError DeviceRecordFields := do
  return {
    id := ← reader.text "id"
    createdAt := ← reader.int "created_at"
    driverDeviceId := ← reader.text "driver_device_id"
    lastLeaseEndedAt := ← reader.optInt "last_lease_ended_at"
    readyAt := ← reader.optInt "ready_at"
    shutdownAt := ← reader.optInt "shutdown_at"
    deletedAt := ← reader.optInt "deleted_at"
    foreignStateDetectedAt := ← reader.optInt "foreign_state_detected_at"
    foreignProvenanceDetectedAt := ← reader.optInt "foreign_provenance_detected_at"
    recoveringSince := ← reader.optInt "recovering_since"
    recoveryAttempts := ← reader.optInt "recovery_attempts"
    quarantinedAt := ← reader.optInt "quarantined_at"
    quarantineAttempts := ← reader.optInt "quarantine_attempts"
    quarantineNextRetryAt := ← reader.optInt "quarantine_next_retry_at"
    address := ← reader.optText "address"
    deferredReclaimLeaseId := ← reader.optText "deferred_reclaim_lease_id"
    quarantineCause := ← quarantineCause reader }

def deviceFromRow (appsByDevice : String → List String)
    (readDeviceData : Platform → String → Except RegistryLoadError DriverData) (row : Row) :
    Except RegistryLoadError Device := do
  let key := match row.get "id" with
    | .text s => s
    | _ => ""
  let reader : RowReader := ⟨"devices", key, row⟩
  let platform ← reader.oneOf "platform" platforms
  let physical ← reader.flag "physical"
  let shared ← sharedFromRow reader
  let model ← reader.text "model"
  let osVersion ← reader.text "os_version"
  if physical then
    return .physical {
      toDeviceRecordFields := shared
      enrolledApps := appsByDevice shared.id
      reclaimingSince := ← reader.optInt "reclaiming_since"
      absentReason := ← reader.optOneOf "absent_reason" absentReasons
      spec := ⟨platform, model, osVersion, ← reader.oneOf "class" physicalClasses⟩
      state := ← reader.oneOf "state" physicalStates }
  else
    return .virtual {
      toDeviceRecordFields := shared
      driverData := ← readDeviceData platform shared.id
      leaseIdentity := ← reader.optOneOf "lease_identity" leaseIdentities
      except_ := ← exceptOf reader
      mode := ← reader.oneOf "mode" deviceModes
      spec := {
        platform := platform
        model := model
        osVersion := osVersion
        baseline := ← baselineOf reader
        imageTag := ← reader.optText "image_tag"
        slim := (← reader.optOneOf "spec_mode" specModes).isSome }
      state := ← reader.oneOf "state" virtualStates }

/-! ### Leases -/

def leaseColumns : List String :=
  ["id", "device_id", "requester_id", "owner_id", "granted_at", "ttl_ms", "ttl_deadline",
    "last_renewed_at", "id_chosen_by_requester"]

def leaseValues (lease : LeaseRecord) : List SqliteValue :=
  [.text lease.id, .text lease.deviceId, .text lease.requesterId, .text lease.ownerId,
    .number lease.grantedAt, .number lease.ttlMs, .number lease.ttlDeadline,
    .number lease.lastRenewedAt, flagValue (some lease.idChosenByRequester)]

def leaseRow (lease : LeaseRecord) : Row := leaseColumns.zip (leaseValues lease)

def leaseFromRow (table key : String) (row : Row) (idColumn : String) :
    Except RegistryLoadError LeaseRecord := do
  let reader : RowReader := ⟨table, key, row⟩
  return {
    deviceId := ← reader.text "device_id"
    grantedAt := ← reader.int "granted_at"
    id := ← reader.text idColumn
    idChosenByRequester := ← reader.flag "id_chosen_by_requester"
    lastRenewedAt := ← reader.int "last_renewed_at"
    ownerId := ← reader.text "owner_id"
    requesterId := ← reader.text "requester_id"
    ttlDeadline := ← reader.int "ttl_deadline"
    ttlMs := ← reader.int "ttl_ms" }

/-! ### Lease requests -/

def requestColumns : List String :=
  ["id", "requester_id", "owner_id", "idempotency_key", "lease_id", "fleet_request_id", "platform",
    "model", "os_version", "mode", "image_tag", "baseline", "except_categories", "class",
    "physical", "created_at", "state", "settled_at", "failure_code", "failure_message"]

def requestValues (record : LeaseRequestRecord) : List SqliteValue :=
  [.text record.id, .text record.requesterId, .text record.ownerId, ofText record.idempotencyKey,
    ofText record.leaseId, ofText record.fleetRequestId,
    .text (platforms.text record.request.platform), ofText record.request.model,
    ofText record.request.osVersion, ofText (record.request.mode.map deviceModes.text),
    ofText record.request.imageTag, ofText record.request.baseline,
    exceptValue record.request.except_, ofText (record.request.class_.map deviceClasses.text),
    flagValue record.request.physical, .number record.createdAt,
    .text (leaseRequestStates.text record.state), ofInt record.settledAt,
    ofText (record.failure.map LeaseRequestFailure.code),
    ofText (record.failure.map LeaseRequestFailure.message)]

def requestRow (record : LeaseRequestRecord) : Row := requestColumns.zip (requestValues record)

def grantColumns : List String :=
  ["request_id", "device_id", "lease_id", "requester_id", "owner_id", "granted_at", "ttl_ms",
    "ttl_deadline", "last_renewed_at", "id_chosen_by_requester", "estimated_provision_ms",
    "estimated_boot_ms", "estimated_reclaim_ms", "estimated_ready_ms"]

def grantValues (requestId : String) (grant : LeaseGrant) : List SqliteValue :=
  [.text requestId, .text grant.device.id, .text grant.lease.id, .text grant.lease.requesterId,
    .text grant.lease.ownerId, .number grant.lease.grantedAt, .number grant.lease.ttlMs,
    .number grant.lease.ttlDeadline, .number grant.lease.lastRenewedAt,
    flagValue (some grant.lease.idChosenByRequester), .number grant.timing.estimatedProvisionMs,
    .number grant.timing.estimatedBootMs, .number grant.timing.estimatedReclaimMs,
    .number grant.timing.estimatedReadyMs]

def grantRow (requestId : String) (grant : LeaseGrant) : Row :=
  grantColumns.zip (grantValues requestId grant)

def requestFromRow (reader : RowReader) : Except RegistryLoadError DeviceRequest := do
  return {
    platform := ← reader.oneOf "platform" platforms
    model := ← reader.optText "model"
    osVersion := ← reader.optText "os_version"
    mode := ← reader.optOneOf "mode" deviceModes
    imageTag := ← reader.optText "image_tag"
    baseline := ← reader.optText "baseline"
    except_ := ← exceptOf reader
    class_ := ← reader.optOneOf "class" deviceClasses
    physical := ← reader.optFlag "physical" }

/-- The timing of `grantFromRow`. -/
def timingFromRow (reader : RowReader) : Except RegistryLoadError LeaseTiming := do
  return {
    estimatedBootMs := ← reader.int "estimated_boot_ms"
    estimatedProvisionMs := ← reader.int "estimated_provision_ms"
    estimatedReadyMs := ← reader.int "estimated_ready_ms"
    estimatedReclaimMs := ← reader.int "estimated_reclaim_ms" }

def grantFromRow (requestId : String) (row : Row) (devices : String → Option Device)
    (environment : Entries) : Except RegistryLoadError LeaseGrant := do
  let reader : RowReader := ⟨"lease_grants", requestId, row⟩
  let deviceId ← reader.text "device_id"
  match devices deviceId with
  | none => .error ⟨s!"Invalid lease_grants row {requestId}: no device {deviceId}"⟩
  | some device =>
    let timing ← timingFromRow reader
    -- `{ ...row, id: row.lease_id }`
    let lease ← leaseFromRow "lease_grants" requestId (("id", row.get "lease_id") :: row) "id"
    return ⟨device, environment, lease, timing⟩

/-- The callback of `loadLeaseRequests`: one request with its grant's row, if it has one. -/
def leaseRequestFromRow (grants : String → Option Row) (environments : String → Entries)
    (devices : String → Option Device) (row : Row) :
    Except RegistryLoadError LeaseRequestRecord := do
  let key := match row.get "id" with
    | .text s => s
    | _ => ""
  let reader : RowReader := ⟨"lease_requests", key, row⟩
  let id ← reader.text "id"
  let state ← reader.oneOf "state" leaseRequestStates
  let grantRow := grants id
  if (state = .granted) ≠ (grantRow.isSome = true) then
    let stateText := leaseRequestStates.text state
    .error ⟨s!"Invalid lease_requests row {id}: state {stateText} and its grant disagree"⟩
  else
    let failureCode ← reader.optText "failure_code"
    return {
      createdAt := ← reader.int "created_at"
      id := id
      idempotencyKey := ← reader.optText "idempotency_key"
      leaseId := ← reader.optText "lease_id"
      fleetRequestId := ← reader.optText "fleet_request_id"
      ownerId := ← reader.text "owner_id"
      request := ← requestFromRow reader
      requesterId := ← reader.text "requester_id"
      state := state
      settledAt := ← reader.optInt "settled_at"
      failure := ← failureCode.mapM fun code =>
        return LeaseRequestFailure.mk code (← reader.text "failure_message")
      grant := ← grantRow.mapM fun row => grantFromRow id row devices (environments id) }

/-! ### Components -/

def componentColumns : List String := ["platform", "version", "installed_at"]

def componentRow (record : ComponentRecord) : Row :=
  componentColumns.zip
    [.text (platforms.text record.platform), .text record.version, .number record.installedAt]

/-- `componentKey`: the platform's text and the version with a NUL between. -/
def componentKey (record : ComponentRecord) : String :=
  platforms.text record.platform ++ "\x00" ++ record.version

/-! ### Round trips -/

@[simp] theorem ok_bind {ε α β : Type} (a : α) (f : α → Except ε β) :
    (Except.ok a >>= f) = f a := rfl

@[simp] theorem pure_eq_ok {ε α : Type} (a : α) : (pure a : Except ε α) = .ok a := rfl

theorem Row.get_cons (k : String) (v : SqliteValue) (row : Row) (column : String) :
    Row.get ((k, v) :: row) column = if column = k then v else row.get column := by
  by_cases h : column = k
  · simp [Row.get, h]
  · have hbeq : (column == k) = false := beq_eq_false_iff_ne.mpr h
    simp [Row.get, List.lookup_cons, hbeq, h]

section RoundTrip

attribute [local simp] RowReader.text RowReader.int RowReader.flag RowReader.oneOf
  RowReader.optText RowReader.optInt RowReader.optFlag RowReader.optOneOf Row.get_cons

theorem exceptOf_of_get {reader : RowReader} {e : Option ExceptList}
    (h : reader.row.get "except_categories" = exceptValue e) : exceptOf reader = .ok e := by
  cases e <;> simp [exceptOf, h, exceptValue]

section Devices

theorem get_deviceRow (d : Device) (column : String) :
    (deviceRow d).get column = Row.get (deviceColumns.zip (deviceValues d)) column := rfl

attribute [local simp] get_deviceRow deviceColumns deviceValues optionalNumbers causeColumns

theorem quarantineCause_deviceRow (table key : String) (d : Device) :
    quarantineCause ⟨table, key, deviceRow d⟩ = .ok d.fields.quarantineCause := by
  cases d with
  | virtual d => cases h : d.quarantineCause <;> simp [quarantineCause, h, Device.fields]
  | physical d => cases h : d.quarantineCause <;> simp [quarantineCause, h, Device.fields]

theorem sharedFromRow_deviceRow (table key : String) (d : Device) :
    sharedFromRow ⟨table, key, deviceRow d⟩ = .ok d.fields := by
  have hcause := quarantineCause_deviceRow table key d
  cases d with
  | virtual d => simp [sharedFromRow, Device.fields, hcause]
  | physical d => simp [sharedFromRow, Device.fields, hcause]

theorem baselineOf_deviceRow (table key : String) (d : VirtualDevice) :
    baselineOf ⟨table, key, deviceRow (.virtual d)⟩ = .ok d.spec.baseline := by
  cases h : d.spec.baseline <;> simp [baselineOf, h]

/-- A device's row reads back as the device, given its apps or its driver's data. -/
theorem deviceFromRow_deviceRow (apps : String → List String)
    (data : Platform → String → Except RegistryLoadError DriverData) (d : Device)
    (hv : ∀ v, d = .virtual v → data v.spec.platform v.id = .ok v.driverData)
    (hp : ∀ p, d = .physical p → apps p.id = p.enrolledApps) :
    deviceFromRow apps data (deviceRow d) = .ok d := by
  have hshared := sharedFromRow_deviceRow "devices" d.id d
  cases d with
  | virtual d =>
    have hdata := hv d rfl
    have hbase := baselineOf_deviceRow "devices" d.id d
    have hexcept : exceptOf ⟨"devices", d.id, deviceRow (.virtual d)⟩ = .ok d.except_ :=
      exceptOf_of_get (by simp)
    simp only [Device.id, Device.fields] at hshared
    obtain ⟨fs, ⟨platform, model, osVersion, slim, imageTag, baseline⟩, _⟩ := d
    cases slim <;> simp_all [deviceFromRow]
  | physical d =>
    have happs := hp d rfl
    simp only [Device.id, Device.fields] at hshared
    simp [deviceFromRow, hshared, happs]

end Devices

theorem get_leaseRow (l : LeaseRecord) (column : String) :
    (leaseRow l).get column = Row.get (leaseColumns.zip (leaseValues l)) column := rfl

theorem leaseFromRow_leaseRow (table key : String) (l : LeaseRecord) :
    leaseFromRow table key (leaseRow l) "id" = .ok l := by
  simp [leaseFromRow, get_leaseRow, leaseColumns, leaseValues]

theorem get_grantRow (id : String) (g : LeaseGrant) (column : String) :
    (grantRow id g).get column = Row.get (grantColumns.zip (grantValues id g)) column := rfl

/-- A grant's row reads back as the grant with the device its id now names. -/
theorem grantFromRow_grantRow (id : String) (g : LeaseGrant) (devices : String → Option Device)
    (d : Device) (hd : devices g.device.id = some d) (hlease : g.lease.deviceId = g.device.id) :
    grantFromRow id (grantRow id g) devices g.environment = .ok { g with device := d } := by
  have htiming : timingFromRow ⟨"lease_grants", id, grantRow id g⟩ = .ok g.timing := by
    simp [timingFromRow, get_grantRow, grantColumns, grantValues]
  have hl : leaseFromRow "lease_grants" id
      (("id", (grantRow id g).get "lease_id") :: grantRow id g) "id" = .ok g.lease := by
    simp [leaseFromRow, get_grantRow, grantColumns, grantValues, ← hlease]
  have hid : (grantRow id g).get "device_id" = .text g.device.id := by
    simp [get_grantRow, grantColumns, grantValues]
  simp [grantFromRow, hid, hd, htiming, hl]

theorem get_requestRow (q : LeaseRequestRecord) (column : String) :
    (requestRow q).get column = Row.get (requestColumns.zip (requestValues q)) column := rfl

theorem requestFromRow_requestRow (table key : String) (q : LeaseRequestRecord) :
    requestFromRow ⟨table, key, requestRow q⟩ = .ok q.request := by
  have hexcept : exceptOf ⟨table, key, requestRow q⟩ = .ok q.request.except_ :=
    exceptOf_of_get (by simp [get_requestRow, requestColumns, requestValues])
  simp [requestFromRow, hexcept, get_requestRow, requestColumns, requestValues]

/-- A request's row reads back as the request, its grant with the device as it is now. -/
theorem leaseRequestFromRow_requestRow (q : LeaseRequestRecord) (grants : String → Option Row)
    (environments : String → Entries) (devices : String → Option Device)
    (hstate : q.state = .granted ↔ q.grant.isSome)
    (hgrants : grants q.id = q.grant.map (grantRow q.id))
    (henv : ∀ g, q.grant = some g → environments q.id = g.environment)
    (hlease : ∀ g, q.grant = some g → g.lease.deviceId = g.device.id)
    (hdev : ∀ g, q.grant = some g → (devices g.device.id).isSome) :
    leaseRequestFromRow grants environments devices (requestRow q) =
      .ok { q with grant := q.grant.bind fun g =>
        (devices g.device.id).map fun d => { g with device := d } } := by
  have hrequest := requestFromRow_requestRow "lease_requests" q.id q
  have hgrant : (grants q.id).mapM (fun row => grantFromRow q.id row devices (environments q.id)) =
      .ok (q.grant.bind fun g => (devices g.device.id).map fun d => { g with device := d }) := by
    rw [hgrants]
    cases hg : q.grant with
    | none => rfl
    | some g =>
      obtain ⟨d, hd⟩ := Option.isSome_iff_exists.mp (hdev g hg)
      simp [henv g hg, grantFromRow_grantRow q.id g devices d hd (hlease g hg), hd]
  have hagree : q.state = .granted ↔ (grants q.id).isSome := by
    simp [hgrants, hstate]
  cases hf : q.failure <;>
    simp [leaseRequestFromRow, get_requestRow, requestColumns, requestValues, hagree, hrequest,
      hgrant, hf]

end RoundTrip

end Simlock.Core
