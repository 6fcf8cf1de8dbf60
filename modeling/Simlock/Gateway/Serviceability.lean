import Simlock.Gateway.RequestMatch

/-! Whether a request can be served at all.

    `assess` is asked before any stage runs. It goes row by row: the holders of a named baseline,
    then, over these workers, the leading rows, the `except` row, the capacity row and the
    `requires` row. Each of the last three asks for one worker that takes requests and matches; so
    the table passes when one worker keeps the `except` list and one has the capabilities, and they
    need not be the same. -/

namespace Simlock.Gateway

open Simlock.Core

inductive RejectionCode where
  | noCapacity | noDriver | unknownModel | runtimeMissing | capabilityMissing
  | unknownBaseline | baselineMismatch | baselineStale | badRequest
  deriving DecidableEq, Repr

inductive RejectionReason where
  | noWorker | unresolvableSpec
  deriving DecidableEq, Repr

inductive RejectionDetails where
  | spec (platform : Platform) (model : Option String) (class_ : Option DeviceClass)
      (osVersion : Option String)
  | runtime (platform : Platform) (osVersion : String)
  | capabilities (names : List String)
  | name (name : String)
  | field (baseline : String) (field : BaselineField)
  | stale (baseline reason : String)
  deriving DecidableEq, Repr

structure Rejection where
  code : RejectionCode
  message : String
  details : Option RejectionDetails
  reason : RejectionReason
  deriving DecidableEq, Repr

inductive Assessment where
  | routeOrWait
  | reject (rejection : Rejection)
  deriving DecidableEq, Repr

def isKnown (worker : View) : Bool := connectionOf worker ≠ .incompatible

/-- An updating worker comes back by itself. -/
def takes (worker : View) (request : RoutableRequest) : Bool :=
  match takesRequests.check worker request with
  | none | some .updating => true
  | some _ => false

def takersOf (request : RoutableRequest) (views : List View) : List View :=
  views.filter fun worker => takes worker request

def noWorker : Rejection :=
  { code := .noCapacity
    message := "No worker in the fleet can currently serve this request"
    details := none
    reason := .noWorker }

def unknownModel (request : RoutableRequest) : Rejection :=
  let platform := request.platform.name
  match request.model with
  | none =>
    let deviceClass := wantedClass request
    { code := .unknownModel
      message := s!"No {platform} model of class {deviceClass.name} is listed by any worker in the " ++
        s!"fleet; name one in {platform}.defaultModels.{deviceClass.name} on a worker"
      details := some (.spec request.platform none (some deviceClass) none)
      reason := .unresolvableSpec }
  | some model =>
    { code := .unknownModel
      message := s!"Unknown {platform} model: {model}"
      details := some (.spec request.platform (some model) none none)
      reason := .unresolvableSpec }

section Table

variable (loc : Locale) (request : RoutableRequest)

/-- The workers that hold a fitting, fresh copy of the baseline the request names. -/
def baselineHolders (views : List View) : Except Rejection (List View) :=
  let name := request.baseline.getD ""
  let holders := (views.filter fun worker =>
      isKnown worker && (baselineEntry worker request).isSome).mergeSort
    fun left right => loc.localeLe left.id right.id
  let fitting := holders.filter fun worker => (baselineMismatchOf loc worker request).isNone
  let fresh := fitting.filter fun worker =>
    ((baselineEntry worker request).bind (·.staleReason)).isNone
  match holders with
  | [] =>
    .error { code := .unknownBaseline, message := s!"no worker holds a baseline named \"{name}\""
             details := some (.name name), reason := .unresolvableSpec }
  | first :: _ =>
    match fitting, baselineMismatchOf loc first request with
    | [], some mismatch =>
      .error { code := .baselineMismatch, message := mismatch.message
               details := some (.field name mismatch.field), reason := .unresolvableSpec }
    | _, _ =>
      if fresh.isEmpty then
        let reason := ((fitting.head?.bind fun worker => baselineEntry worker request).bind
          (·.staleReason)).getD ""
        .error { code := .baselineStale, message := s!"baseline {name} is stale: {reason}"
                 details := some (.stale name reason), reason := .unresolvableSpec }
      else .ok fresh

/-- The first rows: no worker takes requests, no driver, unknown model, missing runtime. -/
def assessLeading (views : List View) : Option Rejection :=
  if (takersOf request views).isEmpty then some noWorker
  else
    let known := views.filter isKnown
    let platform := request.platform.name
    if !known.any fun worker => hasPlatform worker request then
      some { code := .noDriver, message := s!"No driver registered for platform: {platform}"
             details := some (.spec request.platform none none none), reason := .unresolvableSpec }
    else if request.physical = some true then
      if known.any fun worker => physicalMatch worker request then none
      else
        some { code := .unknownModel, message := noPhysicalMatch request.toDeviceRequest
               details := some
                 (.spec request.platform request.model request.class_ request.osVersion)
               reason := .unresolvableSpec }
    else if !known.any fun worker => listsModel loc worker request then some (unknownModel request)
    else if !known.any fun worker => (matchRequest loc worker request).isSome then
      let osVersion := request.osVersion.getD "default"
      some { code := .runtimeMissing, message := s!"Runtime missing for {platform} {osVersion}"
             details := some (.runtime request.platform osVersion), reason := .unresolvableSpec }
    else none

/-- The capacity row: a worker that takes requests could serve. -/
def assessServing (views : List View) : Option Rejection :=
  let takers := takersOf request views
  let fits :=
    if request.physical = some true then takers.any fun worker => physicalMatch worker request
    else takers.any fun worker => (matchRequest loc worker request).isSome
  if fits then none else some noWorker

def assessTable (views : List View) : Assessment :=
  match (assessLeading loc request views).or (assessServing loc request views) with
  | some rejection => .reject rejection
  | none => .routeOrWait

def whyNotSlim (slimmers : List View) : String :=
  if !slimmers.all fun worker => modeOf worker request ≠ some .slim then
    "no worker that slims them in slim mode serves this model and runtime"
  else
    match request.baseline, request.mode with
    | some baseline, _ => s!"baseline \"{baseline}\" is full"
    | none, some mode => s!"mode is {modeName mode} on every worker that slims them"
    | none, none => "default mode is full on every worker that slims them"

/-- The `except` row: the capacity row over the workers that keep the list. -/
def assessExcept (views : List View) : Option Rejection :=
  match request.except_ with
  | none => none
  | some except_ =>
    let keeping := views.filter fun worker => (keepsExcept.check worker request).isNone
    if (assessServing loc request keeping).isNone then none
    else if keeping.any fun worker => isKnown worker && listsModel loc worker request &&
        (matchRequest loc worker request).isSome then some noWorker
    else
      let names := ", ".intercalate except_.names
      let slimmers := views.filter fun worker => slims worker request except_.names
      let message :=
        if slimmers.isEmpty then s!"no worker slims every category in except: {names}"
        else s!"no worker can keep slim categories {names} ({whyNotSlim request slimmers})"
      some { code := .badRequest, message, details := none, reason := .unresolvableSpec }

def assessFleet (views : List View) : Assessment :=
  match ((assessLeading loc request views).or (assessExcept loc request views)).or
    (assessServing loc request views) with
  | some rejection => .reject rejection
  | none =>
    match request.requires with
    | none | some [] => .routeOrWait
    | some requires =>
      let capable := views.filter fun worker => (hasCapabilities.check worker request).isNone
      match assessTable loc request capable with
      | .routeOrWait => .routeOrWait
      | .reject _ =>
        let names := ", ".intercalate requires
        .reject
          { code := .capabilityMissing
            message := s!"No worker connected to this gateway can serve {names} for this request"
            details := some (.capabilities requires)
            reason := .unresolvableSpec }

def assess (views : List View) : Assessment :=
  if request.baseline = none then assessFleet loc request views
  else
    match baselineHolders loc request views with
    | .error rejection => .reject rejection
    | .ok holders => assessFleet loc request holders

end Table

/-! ### What each row asks -/

/-- A worker that takes requests and has a model and runtime for this one. -/
def Fits (loc : Locale) (request : RoutableRequest) (worker : View) : Prop :=
  takes worker request = true ∧ (matchRequest loc worker request).isSome = true

/-- A worker the request could be sent to: it takes requests, or is only updating, and passes the
    other filters. -/
def Serves (loc : Locale) (request : RoutableRequest) (worker : View) : Prop :=
  (takesRequests.check worker request = none ∨
      takesRequests.check worker request = some .updating) ∧
    (canServe loc).check worker request = none ∧ hasCapabilities.check worker request = none ∧
    (hasBaseline loc).check worker request = none ∧ keepsExcept.check worker request = none

theorem takes_iff {worker : View} {request : RoutableRequest} :
    takes worker request = true ↔ takesRequests.check worker request = none ∨
      takesRequests.check worker request = some .updating := by
  unfold takes
  split
  · rename_i h
    simp [h]
  · rename_i h
    simp [h]
  · rename_i reason hother h
    simpa [h] using hother

theorem isKnown_of_takes {worker : View} {request : RoutableRequest}
    (h : takes worker request = true) : isKnown worker = true := by
  unfold isKnown
  cases hconnection : connectionOf worker with
  | incompatible => simp [takes, takesRequests, hconnection] at h
  | connected => rfl
  | disconnected => rfl

theorem withBaseline_platform (worker : View) (request : RoutableRequest) :
    (withBaseline worker request).platform = request.platform := by
  unfold withBaseline
  split <;> rfl

theorem catalogOf_withBaseline (worker : View) (request : RoutableRequest) :
    catalogOf worker (withBaseline worker request) = catalogOf worker request := by
  unfold catalogOf
  rw [withBaseline_platform]

section Rows

variable {loc : Locale} {request : RoutableRequest}

/-- A match needs the platform and a listed model. -/
theorem listed_of_match {worker : View} (h : (matchRequest loc worker request).isSome = true) :
    hasPlatform worker request = true ∧ listsModel loc worker request = true := by
  unfold matchRequest at h
  split at h
  · cases h
  · dsimp only at h
    obtain ⟨model, hmodel⟩ := Option.isSome_iff_exists.mp h
    obtain ⟨catalog, hcatalog, hserving⟩ := Option.bind_eq_some_iff.mp hmodel
    have hcandidate := List.mem_of_find?_eq_some hserving
    refine ⟨?_, ?_⟩
    · rw [catalogOf_withBaseline] at hcatalog
      simp [hasPlatform, hcatalog]
    · simp only [listsModel, hcatalog, Option.any_some]
      cases hall : candidates loc catalog (withBaseline worker request) with
      | nil =>
        rw [hall] at hcandidate
        cases hcandidate
      | cons first rest => rfl

theorem assessServing_none (hphysical : request.physical ≠ some true) {views : List View} :
    assessServing loc request views = none ↔ ∃ worker ∈ views, Fits loc request worker := by
  simp only [assessServing, if_neg hphysical, takersOf, List.any_filter]
  constructor
  · intro h
    split at h
    · rename_i hany
      obtain ⟨worker, hmem, hfits⟩ := List.any_eq_true.mp hany
      exact ⟨worker, hmem, Bool.and_eq_true_iff.mp hfits⟩
    · cases h
  · rintro ⟨worker, hmem, htakes, hmatch⟩
    rw [if_pos]
    exact List.any_eq_true.mpr ⟨worker, hmem, by simp [htakes, hmatch]⟩

/-- The leading rows ask for no more than the capacity row does. -/
theorem assessLeading_none (hphysical : request.physical ≠ some true) {views : List View}
    {worker : View} (hmem : worker ∈ views) (hfits : Fits loc request worker) :
    assessLeading loc request views = none := by
  obtain ⟨htakes, hmatch⟩ := hfits
  obtain ⟨hplatform, hlists⟩ := listed_of_match hmatch
  have hknown : worker ∈ views.filter isKnown :=
    List.mem_filter.mpr ⟨hmem, isKnown_of_takes htakes⟩
  have htaker : worker ∈ takersOf request views := List.mem_filter.mpr ⟨hmem, htakes⟩
  have hempty : (takersOf request views).isEmpty = false := by
    cases htakers : takersOf request views with
    | nil =>
      rw [htakers] at htaker
      cases htaker
    | cons first rest => rfl
  have hany : ∀ p : View → Bool, p worker = true → (views.filter isKnown).any p = true :=
    fun p hp => List.any_eq_true.mpr ⟨worker, hknown, hp⟩
  unfold assessLeading
  simp only [hempty, Bool.false_eq_true, if_false, if_neg hphysical]
  rw [hany _ hplatform, hany _ hlists, hany _ hmatch]
  rfl

theorem assessTable_route (hphysical : request.physical ≠ some true) {views : List View} :
    assessTable loc request views = .routeOrWait ↔ ∃ worker ∈ views, Fits loc request worker := by
  rw [← assessServing_none hphysical]
  unfold assessTable
  constructor
  · intro h
    split at h
    · cases h
    · rename_i hnone
      exact (Option.or_eq_none_iff.mp hnone).2
  · intro hserving
    obtain ⟨worker, hmem, hfits⟩ := (assessServing_none hphysical).mp hserving
    rw [assessLeading_none hphysical hmem hfits, hserving]
    rfl

theorem assessExcept_none (hphysical : request.physical ≠ some true) {views : List View}
    (h : ∃ worker ∈ views, Fits loc request worker) :
    assessExcept loc request views = none ↔
      ∃ worker ∈ views, Fits loc request worker ∧ keepsExcept.check worker request = none := by
  unfold assessExcept
  split
  · rename_i hexcept
    obtain ⟨worker, hmem, hfits⟩ := h
    simp only [true_iff]
    exact ⟨worker, hmem, hfits, by simp [keepsExcept, hexcept]⟩
  · rename_i except_ hexcept
    have hkeeping : assessServing loc request
        (views.filter fun worker => (keepsExcept.check worker request).isNone) = none ↔
          ∃ worker ∈ views, Fits loc request worker ∧ keepsExcept.check worker request = none := by
      rw [assessServing_none hphysical]
      constructor
      · rintro ⟨worker, hmem, hfits⟩
        obtain ⟨hmem, hkeeps⟩ := List.mem_filter.mp hmem
        exact ⟨worker, hmem, hfits, by simpa using hkeeps⟩
      · rintro ⟨worker, hmem, hfits, hkeeps⟩
        exact ⟨worker, List.mem_filter.mpr ⟨hmem, by simp [hkeeps]⟩, hfits⟩
    rw [← hkeeping]
    dsimp only
    split
    · rename_i hserves
      simpa using hserves
    · rename_i hnot
      have hne : assessServing loc request
          (views.filter fun worker => (keepsExcept.check worker request).isNone) ≠ none := by
        simpa using hnot
      simp only [hne, iff_false]
      split <;> simp

/-- The table without a baseline: one worker keeps the list and one has the capabilities. -/
theorem assessFleet_route (hphysical : request.physical ≠ some true) {views : List View} :
    assessFleet loc request views = .routeOrWait ↔
      (∃ worker ∈ views, Fits loc request worker ∧ keepsExcept.check worker request = none) ∧
      ∃ worker ∈ views, Fits loc request worker ∧ hasCapabilities.check worker request = none := by
  constructor
  · intro h
    unfold assessFleet at h
    split at h
    · cases h
    · rename_i hrows
      obtain ⟨hrows, hserving⟩ := Option.or_eq_none_iff.mp hrows
      obtain ⟨-, hexcept⟩ := Option.or_eq_none_iff.mp hrows
      have hfits := (assessServing_none hphysical).mp hserving
      refine ⟨(assessExcept_none hphysical hfits).mp hexcept, ?_⟩
      split at h
      · rename_i hrequires
        obtain ⟨worker, hmem, hfits⟩ := hfits
        exact ⟨worker, hmem, hfits, by simp [hasCapabilities, hrequires]⟩
      · rename_i hrequires
        obtain ⟨worker, hmem, hfits⟩ := hfits
        exact ⟨worker, hmem, hfits, by simp [hasCapabilities, hrequires, listsAllAvailable]⟩
      · dsimp only at h
        split at h
        · rename_i htable
          obtain ⟨worker, hmem, hfits⟩ := (assessTable_route hphysical).mp htable
          obtain ⟨hmem, hcapable⟩ := List.mem_filter.mp hmem
          exact ⟨worker, hmem, hfits, by simpa using hcapable⟩
        · cases h
  · rintro ⟨⟨keeper, hkmem, hkfits, hkeeps⟩, capable, hcmem, hcfits, hcapable⟩
    have hleading := assessLeading_none hphysical hkmem hkfits
    have hserving := (assessServing_none hphysical).mpr ⟨keeper, hkmem, hkfits⟩
    have hexcept := (assessExcept_none hphysical ⟨keeper, hkmem, hkfits⟩).mpr
      ⟨keeper, hkmem, hkfits, hkeeps⟩
    have htable : assessTable loc request
        (views.filter fun worker => (hasCapabilities.check worker request).isNone) = .routeOrWait :=
      (assessTable_route hphysical).mpr
        ⟨capable, List.mem_filter.mpr ⟨hcmem, by simp [hcapable]⟩, hcfits⟩
    unfold assessFleet
    rw [hleading, hexcept, hserving]
    dsimp only [Option.or]
    split
    · rfl
    · rfl
    · rw [htable]

variable (loc) in
/-- The holders the table runs over are the known workers that pass `hasBaseline`. -/
theorem baselineHolders_spec (hbaseline : request.baseline ≠ none) (views : List View) :
    (∃ holders, baselineHolders loc request views = .ok holders ∧
        ∀ worker, worker ∈ holders ↔ worker ∈ views ∧ isKnown worker = true ∧
          (hasBaseline loc).check worker request = none) ∨
      ((∃ rejection, baselineHolders loc request views = .error rejection) ∧
        ∀ worker ∈ views, isKnown worker = true →
          (hasBaseline loc).check worker request ≠ none) := by
  unfold baselineHolders
  dsimp only
  generalize hholders : (views.filter fun worker =>
      isKnown worker && (baselineEntry worker request).isSome).mergeSort
    (fun left right => loc.localeLe left.id right.id) = holders
  have hcheck : ∀ worker, (hasBaseline loc).check worker request = none ↔
      (baselineEntry worker request).isSome = true ∧
        (baselineMismatchOf loc worker request).isNone = true ∧
        ((baselineEntry worker request).bind (·.staleReason)).isNone = true := by
    intro worker
    simp only [hasBaseline, if_neg hbaseline]
    cases baselineEntry worker request with
    | none => simp
    | some entry =>
      cases baselineMismatchOf loc worker request with
      | none => cases hstale : entry.staleReason <;> simp [hstale]
      | some mismatch => simp
  have hmem : ∀ worker, worker ∈ holders ↔ worker ∈ views ∧ isKnown worker = true ∧
      (baselineEntry worker request).isSome = true := by
    intro worker
    rw [← hholders, List.mem_mergeSort, List.mem_filter, Bool.and_eq_true_iff]
  have hfresh : ∀ worker, worker ∈ ((holders.filter fun worker =>
        (baselineMismatchOf loc worker request).isNone).filter fun worker =>
          ((baselineEntry worker request).bind (·.staleReason)).isNone) ↔
      worker ∈ views ∧ isKnown worker = true ∧ (hasBaseline loc).check worker request = none := by
    intro worker
    rw [List.mem_filter, List.mem_filter, hmem, hcheck]
    tauto
  split
  · refine .inr ⟨⟨_, rfl⟩, fun worker hworker hknown hpasses => ?_⟩
    have hin := (hmem worker).mpr ⟨hworker, hknown, ((hcheck worker).mp hpasses).1⟩
    cases hin
  · rename_i first rest
    split
    · rename_i mismatch hfitting _
      refine .inr ⟨⟨_, rfl⟩, fun worker hworker hknown hpasses => ?_⟩
      have hin := (hfresh worker).mpr ⟨hworker, hknown, hpasses⟩
      rw [hfitting] at hin
      cases hin
    · split
      · rename_i hempty
        refine .inr ⟨⟨_, rfl⟩, fun worker hworker hknown hpasses => ?_⟩
        have hin := (hfresh worker).mpr ⟨hworker, hknown, hpasses⟩
        rw [List.isEmpty_iff.mp hempty] at hin
        cases hin
      · exact .inl ⟨_, rfl, hfresh⟩

theorem assess_route (hphysical : request.physical ≠ some true) {views : List View} :
    assess loc request views = .routeOrWait ↔
      (∃ worker ∈ views, Fits loc request worker ∧ (hasBaseline loc).check worker request = none ∧
        keepsExcept.check worker request = none) ∧
      ∃ worker ∈ views, Fits loc request worker ∧ (hasBaseline loc).check worker request = none ∧
        hasCapabilities.check worker request = none := by
  unfold assess
  split
  · rename_i hbaseline
    have hpasses : ∀ worker, (hasBaseline loc).check worker request = none := by
      intro worker
      simp [hasBaseline, hbaseline]
    rw [assessFleet_route hphysical]
    simp only [hpasses, true_and]
  · rename_i hbaseline
    rcases baselineHolders_spec loc hbaseline views with
      ⟨holders, hok, hmem⟩ | ⟨⟨rejection, herror⟩, hnone⟩
    · rw [hok]
      dsimp only
      rw [assessFleet_route hphysical]
      have hiff : ∀ p : View → Prop,
          (∃ worker ∈ holders, Fits loc request worker ∧ p worker) ↔
            ∃ worker ∈ views, Fits loc request worker ∧
              (hasBaseline loc).check worker request = none ∧ p worker := by
        intro p
        constructor
        · rintro ⟨worker, hworker, hfits, hp⟩
          obtain ⟨hin, -, hpasses⟩ := (hmem worker).mp hworker
          exact ⟨worker, hin, hfits, hpasses, hp⟩
        · rintro ⟨worker, hin, hfits, hpasses, hp⟩
          exact ⟨worker, (hmem worker).mpr ⟨hin, isKnown_of_takes hfits.1, hpasses⟩, hfits, hp⟩
      rw [hiff, hiff]
    · rw [herror]
      constructor
      · intro h
        cases h
      · rintro ⟨⟨worker, hin, hfits, hpasses, -⟩, -⟩
        exact absurd hpasses (hnone worker hin (isKnown_of_takes hfits.1))

/-- `canServe` takes a match whose model has a name. -/
theorem canServe_none (hphysical : request.physical ≠ some true) {worker : View} :
    (canServe loc).check worker request = none ↔
      (matchRequest loc worker request).any (· ≠ "") = true := by
  simp only [canServe, hphysical, if_false]
  constructor
  · intro h
    split at h
    · assumption
    · split at h
      · cases h
      · split at h <;> cases h
  · intro h
    rw [if_pos h]

theorem Serves.parts (hphysical : request.physical ≠ some true) {worker : View}
    (h : Serves loc request worker) :
    Fits loc request worker ∧ (hasBaseline loc).check worker request = none ∧
      keepsExcept.check worker request = none ∧ hasCapabilities.check worker request = none := by
  obtain ⟨htakes, hserve, hcapable, hbaseline, hkeeps⟩ := h
  refine ⟨⟨takes_iff.mpr htakes, ?_⟩, hbaseline, hkeeps, hcapable⟩
  have hmatch := (canServe_none hphysical).mp hserve
  cases hm : matchRequest loc worker request with
  | none =>
    rw [hm] at hmatch
    cases hmatch
  | some model => rfl

end Rows

/-- The filters every request passes, in the order of `warm-then-free`. -/
def requestFilters (loc : Locale) : List FilterStage :=
  [takesRequests, hasCapabilities, canServe loc, hasBaseline loc, keepsExcept]

/-- A request the pipeline picks a worker for is one the table lets through, whatever stages follow
    the filters. -/
theorem assess_of_pick {loc : Locale} {request : RoutableRequest} {views : List View}
    {stages : List RoutingStage} {pick : StagePick} (hphysical : request.physical ≠ some true)
    (h : runStages loc ((requestFilters loc).map RoutingStage.filter ++ stages) request views =
      some pick) : assess loc request views = .routeOrWait := by
  obtain ⟨worker, hmem, -, hpasses⟩ := runStages_passes hphysical h
  have hserves : Serves loc request worker := by
    refine ⟨.inl (hpasses _ ?_), hpasses _ ?_, hpasses _ ?_, hpasses _ ?_, hpasses _ ?_⟩ <;>
      simp [requestFilters]
  obtain ⟨hfits, hbaseline, hkeeps, hcapable⟩ := hserves.parts hphysical
  exact (assess_route hphysical).mpr
    ⟨⟨worker, hmem, hfits, hbaseline, hkeeps⟩, worker, hmem, hfits, hbaseline, hcapable⟩

/-- The rows combine to one worker: when one that takes requests, matches and holds the baseline
    keeps the list, and one that does so has the capabilities, some one worker serves. -/
def Combines (loc : Locale) (request : RoutableRequest) (views : List View) : Prop :=
  (∃ worker ∈ views, Fits loc request worker ∧ (hasBaseline loc).check worker request = none ∧
      keepsExcept.check worker request = none) →
    (∃ worker ∈ views, Fits loc request worker ∧ (hasBaseline loc).check worker request = none ∧
      hasCapabilities.check worker request = none) →
    ∃ worker ∈ views, Serves loc request worker

/-- The fast-fail table agrees with the stages exactly when its rows combine to one worker. -/
theorem assess_agrees_iff (loc : Locale) (request : RoutableRequest) (views : List View)
    (hphysical : request.physical ≠ some true) :
    (assess loc request views = .routeOrWait ↔ ∃ worker ∈ views, Serves loc request worker) ↔
      Combines loc request views := by
  rw [assess_route hphysical]
  constructor
  · intro h hkeeper hcapable
    exact h.mp ⟨hkeeper, hcapable⟩
  · intro hcombines
    constructor
    · rintro ⟨hkeeper, hcapable⟩
      exact hcombines hkeeper hcapable
    · rintro ⟨worker, hmem, hserves⟩
      obtain ⟨hfits, hbaseline, hkeeps, hcapable⟩ := hserves.parts hphysical
      exact ⟨⟨worker, hmem, hfits, hbaseline, hkeeps⟩, worker, hmem, hfits, hbaseline, hcapable⟩

/-! ### One worker keeps the list, another has the capability -/

def lowerCase : Locale := { toLowerCase := id, localeLe := fun left right => left ≤ right }

/-- A phone that keeps one slim category, on a worker with `agent-device`. -/
def keepStore : RoutableRequest :=
  { platform := .ios, model := none, osVersion := none, mode := none, imageTag := none
    baseline := none, except_ := some ⟨["store"], by decide, by decide⟩, class_ := none
    physical := none, requires := some ["agent-device"] }

def phoneWorker (id : String) (slimCategories : List String) (agentDevice : Bool) : View :=
  { id, disconnected := false, loadKey := "", leases := some (1, []), devices := []
    detail :=
      { incompatible := false, drained := false, update := false, health := some .running
        capacity := true, catalogReadAt := some 1
        catalog := some
          [{ platform := .ios, models := ["iphone 17"], runtimes := ["26.0"]
             modelRuntimes := [("iphone 17", ["26.0"])], modelAliases := []
             modelClasses := [("iphone 17", .phone)], images := none
             slimCategories := some slimCategories, defaultMode := some .slim }]
        capabilities := some [{ name := "agent-device", available := agentDevice }]
        baselines := some [], physicalDevices := [] } }

/-- `freeCapacity` where every worker has one free slot. -/
def oneSlotFree : RankStage := ⟨"free-capacity", false, false, fun _ _ => 1⟩

theorem assess_of_pick_oneWorker :
    assess lowerCase keepStore [phoneWorker "wrk_a" ["store"] true] = .routeOrWait := by
  have hpick : runStages lowerCase
      ((requestFilters lowerCase).map .filter ++ [.rank oneSlotFree]) keepStore
      [phoneWorker "wrk_a" ["store"] true] = some ⟨"wrk_a", "free-capacity"⟩ := by
    rw [runStages, List.mergeSort_singleton]
    decide +kernel
  exact assess_of_pick (by decide) hpick

theorem assess_agrees_iff_oneWorker :
    (assess lowerCase keepStore [phoneWorker "wrk_a" ["store"] true] = .routeOrWait ↔
        ∃ worker ∈ [phoneWorker "wrk_a" ["store"] true], Serves lowerCase keepStore worker) ↔
      Combines lowerCase keepStore [phoneWorker "wrk_a" ["store"] true] :=
  assess_agrees_iff lowerCase keepStore [phoneWorker "wrk_a" ["store"] true] (by decide)

/-- The request waits for a worker that no stage can pick. -/
theorem assess_disagrees_splitFleet :
    let views := [phoneWorker "wrk_a" ["store"] false, phoneWorker "wrk_b" [] true]
    assess lowerCase keepStore views = .routeOrWait ∧
      ¬ ∃ worker ∈ views, Serves lowerCase keepStore worker := by
  refine ⟨by decide +kernel, ?_⟩
  rintro ⟨worker, hmem, -, -, hcapable, -, hkeeps⟩
  have hneither : ∀ worker ∈ [phoneWorker "wrk_a" ["store"] false, phoneWorker "wrk_b" [] true],
      hasCapabilities.check worker keepStore = none →
        keepsExcept.check worker keepStore ≠ none := by decide +kernel
  exact hneither worker hmem hcapable hkeeps

end Simlock.Gateway
