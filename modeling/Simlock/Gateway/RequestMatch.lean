import Mathlib.Algebra.Order.Ring.Rat
import Simlock.Core.OsRange
import Simlock.Gateway.FleetCoordinator

/-! What one worker can serve of a request.

    The gateway reads a worker's catalog, baselines and capabilities from its view. A request that
    names a baseline is read, on a worker that holds it, as a request for the baseline's own model,
    OS, mode and image tag. The filter stages of the routing pipeline each put one question to one
    worker; a rank keeps the workers with the best score. -/

namespace Simlock.Gateway

open Simlock.Core

/-- `toLowerCase` and the order of `localeCompare`. -/
structure Locale where
  toLowerCase : String → String
  localeLe : String → String → Bool

/-! ### Views -/

inductive DaemonHealth where
  | starting | running | failed
  deriving DecidableEq, Repr

inductive Connection where
  | connected | disconnected | incompatible
  deriving DecidableEq, Repr

structure CatalogImage where
  tag : String
  runtime : String
  deriving DecidableEq, Repr

/-- A worker's catalog of one platform; a record is the list of its own entries. -/
structure PlatformEntry where
  platform : Platform
  models : List String
  runtimes : List String
  modelRuntimes : List (String × List String)
  modelAliases : List (String × List String)
  modelClasses : List (String × DeviceClass)
  images : Option (List CatalogImage)
  slimCategories : Option (List String)
  defaultMode : Option DeviceMode
  deriving DecidableEq, Repr

structure BaselineListed where
  name : String
  platform : Platform
  model : String
  osVersion : String
  mode : DeviceMode
  imageTag : Option String
  staleReason : Option String
  deriving DecidableEq, Repr

structure Capability where
  name : String
  available : Bool
  deriving DecidableEq, Repr

/-- What routing reads of a view: `capacity` and `update` only for being there. -/
structure RoutingDetail where
  incompatible : Bool
  drained : Bool
  update : Bool
  health : Option DaemonHealth
  capacity : Bool
  catalogReadAt : Option Int
  catalog : Option (List PlatformEntry)
  capabilities : Option (List Capability)
  baselines : Option (List BaselineListed)
  physicalDevices : List PhysicalDevice

abbrev View := WorkerView RoutingDetail

def connectionOf (worker : View) : Connection :=
  if worker.disconnected then .disconnected
  else if worker.detail.incompatible then .incompatible
  else .connected

/-! ### Catalogs -/

/-- `Object.hasOwn(record, key) ? record[key] : undefined`. -/
def own {α : Type} (record : List (String × α)) (key : String) : Option α :=
  (record.find? fun e => e.1 = key).map Prod.snd

def findCatalogModel (loc : Locale) (models : List String)
    (modelAliases : List (String × List String)) (name : String) : Option String :=
  models.find? fun model => loc.toLowerCase model = loc.toLowerCase name ||
    ((own modelAliases model).getD []).any fun alias_ =>
      loc.toLowerCase alias_ = loc.toLowerCase name

def modelClass (catalog : PlatformEntry) (model : String) : Option DeviceClass :=
  own catalog.modelClasses model

def pairedRuntimes (catalog : PlatformEntry) (model : String) : List String :=
  (own catalog.modelRuntimes model).getD []

def catalogOf (worker : View) (request : RoutableRequest) : Option PlatformEntry :=
  worker.detail.catalog.bind fun catalog =>
    catalog.find? fun entry => entry.platform = request.platform

def hasPlatform (worker : View) (request : RoutableRequest) : Bool :=
  (catalogOf worker request).isSome

/-! ### Baselines -/

def baselineEntry (worker : View) (request : RoutableRequest) : Option BaselineListed :=
  request.baseline.bind fun name =>
    worker.detail.baselines.bind fun baselines => baselines.find? fun entry => entry.name = name

inductive BaselineField where
  | platform | model | osVersion | mode | imageTag
  deriving DecidableEq, Repr

structure BaselineMismatch where
  field : BaselineField
  message : String
  deriving DecidableEq, Repr

def modelDiffers (loc : Locale) (baseline : BaselineListed) (asked : Option String)
    (models : List String) (modelAliases : List (String × List String)) : Bool :=
  match asked with
  | none => false
  | some asked => (findCatalogModel loc models modelAliases asked).getD asked ≠ baseline.model

def osDiffers (baseline : BaselineListed) (asked : Option String) : Bool :=
  match asked with
  | none => false
  | some asked => !(parseOsConstraint asked).any fun c => satisfies baseline.osVersion c

def modeName : DeviceMode → String
  | .slim => "slim"
  | .full => "full"

/-- The first field in which a request differs from a baseline. -/
def baselineMismatch (loc : Locale) (baseline : BaselineListed) (request : RoutableRequest)
    (models : List String) (modelAliases : List (String × List String)) :
    Option BaselineMismatch :=
  let label := match baseline.platform with
    | .ios => "iOS"
    | .android => "Android"
  let checks : List (BaselineField × Bool × String × Option String) :=
    [(.platform, request.platform ≠ baseline.platform, baseline.platform.name,
        some request.platform.name),
      (.model, modelDiffers loc baseline request.model models modelAliases, baseline.model,
        request.model),
      (.osVersion, osDiffers baseline request.osVersion, s!"{label} {baseline.osVersion}",
        request.osVersion),
      (.mode, request.mode.any (· ≠ baseline.mode), modeName baseline.mode,
        request.mode.map modeName),
      (.imageTag, request.imageTag.any (some · ≠ baseline.imageTag),
        "image tag " ++ baseline.imageTag.getD "none", request.imageTag)]
  (checks.find? fun check => check.2.1).map fun check =>
    { field := check.1
      message := s!"baseline {baseline.name} is {check.2.2.1}, the request asks for " ++
        check.2.2.2.getD "" }

def baselineMismatchOf (loc : Locale) (worker : View) (request : RoutableRequest) :
    Option BaselineMismatch :=
  (baselineEntry worker request).bind fun entry =>
    match catalogOf worker request with
    | some catalog => baselineMismatch loc entry request catalog.models catalog.modelAliases
    | none => baselineMismatch loc entry request [] []

def withBaseline (worker : View) (request : RoutableRequest) : RoutableRequest :=
  match baselineEntry worker request with
  | none => request
  | some entry =>
    { request with
      class_ := none
      mode := some entry.mode
      model := some entry.model
      osVersion := some entry.osVersion
      imageTag := entry.imageTag }

/-! ### Models and runtimes -/

/-- The class of a request without a model. -/
def wantedClass (request : RoutableRequest) : DeviceClass := request.class_.getD .phone

/-- A text the grammar refuses is read as exact. -/
def osConstraintOf (request : RoutableRequest) : Option OsConstraint :=
  request.osVersion.map fun text => (parseOsConstraint text).getD (.exact text)

def osFits (runtime : String) (request : RoutableRequest) : Bool :=
  (osConstraintOf request).all fun c => satisfies runtime c

def pairedRuntimesOf (catalog : PlatformEntry) (model : String) (request : RoutableRequest) :
    List String :=
  match request.imageTag with
  | none => pairedRuntimes catalog model
  | some imageTag => (pairedRuntimes catalog model).filter fun runtime =>
      (catalog.images.getD []).any fun image => image.tag = imageTag && image.runtime = runtime

def candidates (loc : Locale) (catalog : PlatformEntry) (request : RoutableRequest) :
    List String :=
  match request.model with
  | some name => (findCatalogModel loc catalog.models catalog.modelAliases name).toList
  | none => catalog.models.filter fun model => modelClass catalog model = some (wantedClass request)

def servingModel (loc : Locale) (catalog : PlatformEntry) (request : RoutableRequest) :
    Option String :=
  (candidates loc catalog request).find? fun model =>
    (pairedRuntimesOf catalog model request).any fun runtime => osFits runtime request

def listsModel (loc : Locale) (worker : View) (request : RoutableRequest) : Bool :=
  let narrowed := withBaseline worker request
  (catalogOf worker narrowed).any fun catalog => !(candidates loc catalog narrowed).isEmpty

def matchRequest (loc : Locale) (worker : View) (request : RoutableRequest) : Option String :=
  if request.physical = some true then none
  else
    let narrowed := withBaseline worker request
    (catalogOf worker narrowed).bind fun catalog => servingModel loc catalog narrowed

/-- `physicalMatch(worker, request, "enrolled")`. -/
def physicalMatch (worker : View) (request : RoutableRequest) : Bool :=
  worker.detail.physicalDevices.any fun device =>
    device.state ≠ .deleted && fitsPhysical device request.toDeviceRequest

/-! ### Stages -/

structure FilterStage where
  appliesToPhysical : Bool
  check : View → RoutableRequest → Option WorkerReasonCode

structure RankStage where
  name : String
  appliesToPhysical : Bool
  settles : Bool
  score : View → RoutableRequest → ℚ

inductive RoutingStage where
  | filter (stage : FilterStage)
  | rank (stage : RankStage)

def takesRequests : FilterStage where
  appliesToPhysical := true
  check worker _ :=
    match connectionOf worker with
    | .disconnected => some .disconnected
    | .incompatible => some .incompatible
    | .connected =>
      if worker.detail.drained then some .drained
      else if worker.detail.update then some .updating
      else
        let ready := match worker.detail.health with
          | some .starting => worker.detail.catalog.isSome
          | _ => worker.detail.capacity && worker.detail.catalogReadAt.isSome
        if ready then none else some .notReady

def listsAllAvailable (capabilities : Option (List Capability)) (requires : List String) : Bool :=
  requires.all fun name =>
    (capabilities.getD []).any fun entry => entry.name = name && entry.available

def hasCapabilities : FilterStage where
  appliesToPhysical := true
  check worker request :=
    if request.requires.all (listsAllAvailable worker.detail.capabilities) then none
    else some .capabilityMissing

/-- A string is taken for true when it is not empty. -/
def canServe (loc : Locale) : FilterStage where
  appliesToPhysical := true
  check worker request :=
    let physical := request.physical = some true
    let serves := if physical then physicalMatch worker request
      else (matchRequest loc worker request).any (· ≠ "")
    if serves then none
    else if !hasPlatform worker request then some .noDriver
    else if physical ∨ !listsModel loc worker request then some .unknownModel
    else some .runtimeMissing

def hasBaseline (loc : Locale) : FilterStage where
  appliesToPhysical := false
  check worker request :=
    if request.baseline = none then none
    else
      match baselineEntry worker request with
      | none => some .noBaseline
      | some entry =>
        if (baselineMismatchOf loc worker request).isSome then some .baselineMismatch
        else if entry.staleReason.isSome then some .baselineStale
        else none

/-- The mode a worker would give: the request's or its baseline's, else the catalog's default. -/
def modeOf (worker : View) (request : RoutableRequest) : Option DeviceMode :=
  (withBaseline worker request).mode.or ((catalogOf worker request).bind (·.defaultMode))

def slims (worker : View) (request : RoutableRequest) (names : List String) : Bool :=
  names.all fun name =>
    (((catalogOf worker request).bind (·.slimCategories)).getD []).contains name

def keepsExcept : FilterStage where
  appliesToPhysical := false
  check worker request :=
    match request.except_ with
    | none => none
    | some except_ =>
      if modeOf worker request = some .slim ∧ slims worker request except_.names then none
      else some .cannotKeepExcept

/-! ### The pipeline -/

structure StagePick where
  workerId : String
  stage : String
  deriving DecidableEq, Repr

/-- What the walk over the stages carries. -/
structure Walk where
  remaining : List View
  lastDecided : Option String
  lastRemoved : Option String
  settled : Bool

def RoutingStage.appliesToPhysical : RoutingStage → Bool
  | .filter stage => stage.appliesToPhysical
  | .rank stage => stage.appliesToPhysical

def Walk.stage (request : RoutableRequest) (walk : Walk) (stage : RoutingStage) : Walk :=
  if walk.settled ∨ (request.physical = some true ∧ stage.appliesToPhysical = false) then walk
  else
    match stage with
    | .filter stage =>
      { walk with
        remaining := walk.remaining.filter fun worker => (stage.check worker request).isNone }
    | .rank stage =>
      match (walk.remaining.map fun worker => stage.score worker request).max? with
      | none => walk
      | some best =>
        if best ≤ 0 then walk
        else
          let kept := walk.remaining.filter fun worker => stage.score worker request = best
          { remaining := kept
            lastDecided := some stage.name
            lastRemoved :=
              if kept.length < walk.remaining.length then some stage.name else walk.lastRemoved
            settled := stage.settles }

def runStages (loc : Locale) (stages : List RoutingStage) (request : RoutableRequest)
    (workers : List View) : Option StagePick :=
  let walk := stages.foldl (Walk.stage request)
    { remaining := workers.mergeSort fun left right => loc.localeLe left.id right.id
      lastDecided := none, lastRemoved := none, settled := false }
  match walk.lastDecided, walk.remaining with
  | some decided, first :: _ =>
    some { workerId := first.id, stage := walk.lastRemoved.getD decided }
  | _, _ => none

/-- No stage adds a worker. -/
theorem Walk.mem_of_stage {request : RoutableRequest} {walk : Walk} {stage : RoutingStage}
    {worker : View} (h : worker ∈ (walk.stage request stage).remaining) :
    worker ∈ walk.remaining := by
  unfold Walk.stage at h
  split at h
  · exact h
  · split at h
    · exact List.mem_of_mem_filter h
    · split at h
      · exact h
      · split at h
        · exact h
        · exact List.mem_of_mem_filter h

theorem Walk.mem_of_run {request : RoutableRequest} (stages : List RoutingStage) {walk : Walk}
    {worker : View} (h : worker ∈ (stages.foldl (Walk.stage request) walk).remaining) :
    worker ∈ walk.remaining := by
  induction stages generalizing walk with
  | nil => exact h
  | cons stage stages ih => exact Walk.mem_of_stage (ih h)

/-- A worker left after filters that come before any rank passes every one that applies. -/
theorem Walk.passes_filters {request : RoutableRequest} (hphysical : request.physical ≠ some true)
    (filters : List FilterStage) {walk : Walk} (hsettled : walk.settled = false) {worker : View}
    (h : worker ∈ ((filters.map RoutingStage.filter).foldl (Walk.stage request) walk).remaining) :
    worker ∈ walk.remaining ∧ ∀ stage ∈ filters, stage.check worker request = none := by
  induction filters generalizing walk with
  | nil => exact ⟨h, nofun⟩
  | cons stage filters ih =>
    have hstage : walk.stage request (.filter stage) = { walk with
        remaining := walk.remaining.filter fun worker => (stage.check worker request).isNone } := by
      unfold Walk.stage
      rw [if_neg (by simp [hsettled, hphysical])]
    rw [List.map_cons, List.foldl_cons, hstage] at h
    obtain ⟨hmem, hrest⟩ := ih (by exact hsettled) h
    obtain ⟨hbefore, hcheck⟩ := List.mem_filter.mp hmem
    refine ⟨hbefore, fun other hother => ?_⟩
    rcases List.mem_cons.mp hother with rfl | hother
    · simpa using hcheck
    · exact hrest other hother

/-- The pick is one of the workers, and passes the filters the stages begin with. -/
theorem runStages_passes {loc : Locale} {filters : List FilterStage} {stages : List RoutingStage}
    {request : RoutableRequest} {workers : List View} {pick : StagePick}
    (hphysical : request.physical ≠ some true)
    (h : runStages loc (filters.map RoutingStage.filter ++ stages) request workers = some pick) :
    ∃ worker ∈ workers, worker.id = pick.workerId ∧
      ∀ stage ∈ filters, stage.check worker request = none := by
  unfold runStages at h
  dsimp only at h
  split at h
  · rename_i decided first rest _ hremaining
    cases h
    have hfirst : first ∈ first :: rest := List.mem_cons_self
    rw [← hremaining, List.foldl_append] at hfirst
    obtain ⟨hmem, hpasses⟩ := Walk.passes_filters hphysical filters rfl (Walk.mem_of_run stages hfirst)
    exact ⟨first, List.mem_mergeSort.mp hmem, rfl, hpasses⟩
  · cases h

end Simlock.Gateway
