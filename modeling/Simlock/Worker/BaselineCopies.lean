import Simlock.Worker.Baselines
import Mathlib.Data.Finset.Dedup
import Mathlib.Data.Finset.Max

/-! A copy of a baseline is what its record says.

    A device's record names the version its claim found current, and the claim reads only the number
    and the source of that version: the rest of the spec is that of the plan. So a copy is what it
    says when every claim finds the spec its plan had, and no version number is given again while
    something carries it (`KeepsVersions`). -/

namespace Simlock.Worker

open Simlock.Lib Simlock.Core

/-! ### The newest version -/

section Rows

variable {rows : List BaselineRow} {name : String} {row c : BaselineRow}

theorem currentBaseline_spec (h : currentBaseline rows name = some c) :
    c ∈ rows ∧ c.name = name ∧ ∀ x ∈ rows, x.name = name → x.version ≤ c.version := by
  have hfound := List.find?_some h
  simp only [Bool.and_eq_true, decide_eq_true_eq, List.all_eq_true, Bool.or_eq_true,
    ne_eq] at hfound
  refine ⟨List.mem_of_find?_eq_some h, hfound.1, fun x hx hname => ?_⟩
  exact (hfound.2 x hx).resolve_left fun hne => hne hname

/-- A name that has a row has a newest one. -/
theorem exists_newest (hrow : row ∈ rows) (hname : row.name = name) :
    ∃ c ∈ rows, c.name = name ∧ ∀ x ∈ rows, x.name = name → x.version ≤ c.version := by
  have hmem : row ∈ (rows.filter fun x => x.name = name).toFinset := by simp [hrow, hname]
  obtain ⟨c, hc, hmax⟩ := Finset.exists_max_image _ BaselineRow.version ⟨row, hmem⟩
  simp only [List.mem_toFinset, List.mem_filter, decide_eq_true_eq] at hc hmax
  exact ⟨c, hc.1, hc.2, fun x hx hn => hmax x ⟨hx, hn⟩⟩

theorem currentBaseline_of_mem (hrow : row ∈ rows) (hname : row.name = name) :
    ∃ c, currentBaseline rows name = some c := by
  obtain ⟨c, hc, hcname, hmax⟩ := exists_newest hrow hname
  refine Option.isSome_iff_exists.mp (List.find?_isSome.mpr ⟨c, hc, ?_⟩)
  simp only [hcname, decide_true, Bool.true_and, List.all_eq_true, Bool.or_eq_true,
    decide_eq_true_eq, ne_eq]
  intro x hx
  by_cases hx' : x.name = name
  · exact .inr (hmax x hx hx')
  · exact .inl hx'

/-- A save gives a number above every number of its name. -/
theorem lt_nextVersion (hrow : row ∈ rows) (hname : row.name = name) :
    row.version < nextVersion rows name := by
  obtain ⟨c, hc⟩ := currentBaseline_of_mem hrow hname
  have hle := (currentBaseline_spec hc).2.2 row hrow hname
  rw [nextVersion, hc]
  exact Int.lt_add_one_iff.mpr hle

end Rows

/-! ### What each part keeps -/

/-- Every id names one device, and what was registered under it. -/
structure DevicesKnown (r : Registry) (made : List Made) : Prop where
  ids : ∀ m ∈ made, ∀ m' ∈ made, m.id = m'.id → m = m'
  known : ∀ v : VirtualDevice, Device.virtual v ∈ r.devices → ∃ m : Made, m ∈ made ∧ m.id = v.id ∧ m.spec = v.spec
  phones : ∀ q : PhysicalDevice, Device.physical q ∈ r.devices → ∀ m ∈ made, m.id ≠ q.id

/-- A device is made as a copy of a version, whose number is that version's only. -/
structure CopyOf (rows : List BaselineRow) (x : Making) (row : BaselineRow) : Prop where
  named : x.requested.baseline.map BaselineRef.name = some row.name
  spec : x.spec = baselineSpec row
  only : ∀ row' ∈ rows, row'.ref = row.ref → row' = row

/-- What is copied from a version has its spec, and its number is that version's only. -/
structure VersionsOk (r : Registry) (rows : List BaselineRow) (makings : List Making)
    (made : List Made) : Prop where
  keys : ∀ row ∈ rows, ∀ row' ∈ rows, row.ref = row'.ref → row = row'
  plain : ∀ x ∈ makings, x.point.isClaimed = true → x.row = none → x.requested.baseline = none
  making : ∀ x ∈ makings, x.point.isClaimed = true → ∀ row, x.row = some row → CopyOf rows x row
  registered : ∀ m ∈ made, (m.row = none → m.spec.baseline = none) ∧
    ∀ row, m.row = some row → m.spec = baselineSpec row
  live : ∀ v : VirtualDevice, Device.virtual v ∈ r.devices → v.state ≠ .deleted → ∀ m ∈ made, m.id = v.id →
    ∀ row, m.row = some row → ∀ row' ∈ rows, row'.ref = row.ref → row' = row

/-- A request names its baseline at every point. -/
structure RequestOn (made : List Made) (q : BaselineRequest) : Prop where
  spec : q.spec.baseline.map BaselineRef.name = some q.name
  point : ∀ id spec, q.point = .booting id spec ∨ q.point = .handoff id spec →
    spec.baseline.map BaselineRef.name = some q.name ∧
      ∃ m : Made, m ∈ made ∧ m.id = id ∧ m.spec = spec

structure RequestsOn (requests : List BaselineRequest) (makings : List Making)
    (made : List Made) : Prop where
  each : ∀ q ∈ requests, RequestOn made q
  owners : ∀ x ∈ makings, ∀ k, x.owner = some k → ∃ q : BaselineRequest, requests[k]? = some q ∧
    x.requested.baseline.map BaselineRef.name = some q.name

/-- A lease that names a baseline has a device of the version current at the grant. -/
def BaselineGrant.Fits (g : BaselineGrant) : Prop :=
  ∃ row, g.current = some row ∧ g.spec = some (baselineSpec row)

/-! ### Commits of the rest of the daemon -/

/-- Every device was there, or is a phone with a new id. -/
def NoNewCopy (made : List Made) (r r' : Registry) : Prop :=
  ∀ d' ∈ r'.devices, (∃ d ∈ r.devices, Stays d d') ∨
    ∃ q : PhysicalDevice, d' = .physical q ∧ ∀ m ∈ made, m.id ≠ q.id

theorem NoNewCopy.refl (made : List Made) (r : Registry) : NoNewCopy made r r :=
  fun d hd => .inl ⟨d, hd, rfl, rfl, id⟩

/-- A commit that adds nothing. -/
theorem NoNewCopy.of_apply {r r' : Registry} {o : RegistryOptions} {now : Int} {c : Call}
    (made : List Made)
    (happly : r.apply o now c = some r') (hadds : ∀ d, ¬ Adds o now d c) : NoNewCopy made r r' :=
  fun _ hd => .inl ((apply_device_from happly hd).resolve_right fun ⟨d, had, _⟩ => hadds d had)

theorem DevicesKnown.later {made : List Made} {r r' : Registry} (h : DevicesKnown r made)
    (hnew : NoNewCopy made r r') : DevicesKnown r' made := by
  refine ⟨h.ids, fun v hv => ?_, fun q hq m hm => ?_⟩
  · rcases hnew _ hv with ⟨d, hd, hstays⟩ | ⟨q, he, -⟩
    · obtain ⟨w, rfl, hid, hspec, -⟩ := hstays.virtual
      rw [hid, hspec]
      exact h.known w hd
    · cases he
  · rcases hnew _ hq with ⟨d, hd, hstays⟩ | ⟨q', he, hfresh⟩
    · cases d with
      | virtual w => cases hstays.spec
      | physical q' =>
        have hid : q.id = q'.id := hstays.id
        rw [hid]
        exact h.phones q' hd m hm
    · cases he
      exact hfresh m hm

theorem VersionsOk.later {made : List Made} {makings : List Making} {r r' : Registry}
    {rows rows' : List BaselineRow} (h : VersionsOk r rows makings made)
    (hnew : NoNewCopy made r r') (hrows : rows' ⊆ rows) : VersionsOk r' rows' makings made := by
  refine ⟨fun row hrow row' hrow' => h.keys row (hrows hrow) row' (hrows hrow'), h.plain,
    fun x hx hpoint row hrow => ?_, h.registered, fun v hv hlive m hm hid row hrow row' hrow' => ?_⟩
  · have hcopy := h.making x hx hpoint row hrow
    exact ⟨hcopy.named, hcopy.spec, fun row' hrow' => hcopy.only row' (hrows hrow')⟩
  · rcases hnew _ hv with ⟨d, hd, hstays⟩ | ⟨q, he, -⟩
    · obtain ⟨w, rfl, hwid, -, hdeleted⟩ := hstays.virtual
      exact h.live w hd (fun hdel => hlive (hdeleted hdel)) m hm (hid.trans hwid) row hrow row'
        (hrows hrow')
    · cases he

/-! ### What is being made, and for whom -/

section Parts

variable {r : Registry} {rows : List BaselineRow} {makings : List Making} {made made' : List Made}
  {requests : List BaselineRequest} {j k : Nat} {x x' : Making} {q q' : BaselineRequest}

/-- One provision goes on: what it says of its row, if it still claims one. -/
theorem VersionsOk.setMaking (h : VersionsOk r rows makings made)
    (hplain : x'.point.isClaimed = true → x'.row = none → x'.requested.baseline = none)
    (hmaking : x'.point.isClaimed = true → ∀ row, x'.row = some row → CopyOf rows x' row) :
    VersionsOk r rows (makings.set j x') made := by
  refine ⟨h.keys, fun y hy => ?_, fun y hy => ?_, h.registered, h.live⟩
  · rcases List.mem_or_eq_of_mem_set hy with hy | rfl
    · exact h.plain y hy
    · exact hplain
  · rcases List.mem_or_eq_of_mem_set hy with hy | rfl
    · exact h.making y hy
    · exact hmaking

theorem VersionsOk.addMaking (h : VersionsOk r rows makings made)
    (hx : x.point.isClaimed = false) : VersionsOk r rows (makings ++ [x]) made := by
  have hnot : ∀ y ∈ makings ++ [x], y.point.isClaimed = true → y ∈ makings := by
    intro y hy hclaimed
    rcases List.mem_append.mp hy with hy | hy
    · exact hy
    · obtain rfl := List.mem_singleton.mp hy
      simp [hx] at hclaimed
  exact ⟨h.keys, fun y hy hclaimed => h.plain y (hnot y hy hclaimed) hclaimed,
    fun y hy hclaimed => h.making y (hnot y hy hclaimed) hclaimed, h.registered, h.live⟩

theorem RequestOn.mono (h : RequestOn made q) (hmade : made ⊆ made') : RequestOn made' q := by
  refine ⟨h.spec, fun id spec hpoint => ?_⟩
  obtain ⟨hname, m, hm, he⟩ := h.point id spec hpoint
  exact ⟨hname, m, hmade hm, he⟩

/-- A request that waits for no device yet. -/
theorem RequestOn.of_spec (hspec : q.spec.baseline.map BaselineRef.name = some q.name)
    (hpoint : ∀ id spec, q.point ≠ .booting id spec ∧ q.point ≠ .handoff id spec) :
    RequestOn made q :=
  ⟨hspec, fun id spec hp => absurd hp (not_or.mpr (hpoint id spec))⟩

theorem RequestsOn.setMaking (h : RequestsOn requests makings made) (hx : makings[j]? = some x)
    (howner : x'.owner = x.owner) (hrequested : x'.requested = x.requested) :
    RequestsOn requests (makings.set j x') made := by
  refine ⟨h.each, fun y hy k hk => ?_⟩
  rcases List.mem_or_eq_of_mem_set hy with hy | rfl
  · exact h.owners y hy k hk
  · rw [hrequested]
    exact h.owners x (List.mem_of_getElem? hx) k (howner ▸ hk)

/-- One request goes on, under the same name. -/
theorem RequestsOn.setRequest (h : RequestsOn requests makings made) (hq : requests[k]? = some q)
    (hname : q'.name = q.name) (hq' : RequestOn made q') :
    RequestsOn (requests.set k q') makings made := by
  refine ⟨fun y hy => ?_, fun x hx l hl => ?_⟩
  · rcases List.mem_or_eq_of_mem_set hy with hy | rfl
    · exact h.each y hy
    · exact hq'
  · obtain ⟨y, hy, hnames⟩ := h.owners x hx l hl
    rw [getElem?_set_if hq]
    by_cases hlk : l = k
    · subst hlk
      obtain rfl := Option.some.inj (hq.symm.trans hy)
      exact ⟨q', if_pos rfl, hname ▸ hnames⟩
    · exact ⟨y, (if_neg hlk).trans hy, hnames⟩

/-- A request is told something, under the same name. -/
theorem RequestsOn.modify (h : RequestsOn requests makings made)
    (f : BaselineRequest → BaselineRequest) (hname : ∀ q, (f q).name = q.name)
    (hf : ∀ q, requests[k]? = some q → RequestOn made (f q)) :
    RequestsOn (requests.modify k f) makings made := by
  cases hq : requests[k]? with
  | none =>
    have hsame : requests.modify k f = requests := by
      refine List.ext_getElem? fun l => ?_
      rw [List.getElem?_modify]
      by_cases hl : k = l
      · subst hl
        simp [hq]
      · simp [hl]
    rw [hsame]
    exact h
  | some q =>
    have hset : requests.modify k f = requests.set k (f q) := by
      refine List.ext_getElem? fun l => ?_
      rw [List.getElem?_modify, getElem?_set_if hq]
      by_cases hl : l = k
      · subst hl
        simp [hq]
      · simp [hl, Ne.symm hl]
    rw [hset]
    exact h.setRequest hq (hname q) (hf q hq)

end Parts

/-! ### The invariant -/

namespace Baselines

variable {o : RegistryOptions} {s s' : Baselines}

structure CopiesOk (s : Baselines) : Prop where
  devices : DevicesKnown s.registry s.made
  versions : VersionsOk s.registry s.rows s.makings s.made
  requests : RequestsOn s.requests s.makings s.made
  grants : ∀ g ∈ s.grants, g.Fits

/-- Something live is a copy of the version, or is being copied from it. -/
def carried (s : Baselines) (ref : BaselineRef) : Bool :=
  ((virtualDevices s.registry).any fun v => v.state ≠ .deleted && v.spec.baseline = some ref) ||
    s.makings.any fun x => x.point.isClaimed && x.row.map BaselineRow.ref = some ref

/-- The name a save is about to insert a version of. -/
def inserting (s : Baselines) : Option String :=
  match s.job with
  | some (.inserting name ..) => some name
  | _ => none

/-- A claim finds the spec that was planned, a save gives a number nothing carries, and a request
    whose baseline is gone is granted no ready copy. -/
def KeepsVersions (s : Baselines) : Action → Prop
  | .claim j _ => ∀ x ∈ s.makings[j]?, x.point = .claiming → ∀ b ∈ x.requested.baseline,
    ∀ current ∈ currentBaseline s.rows b.name,
      madeOf x.requested (some current) = baselineSpec current
  | .inserted => ∀ name ∈ s.inserting, s.carried ⟨name, nextVersion s.rows name⟩ = false
  | .plan k (.grantReady ..) .. => ∀ q ∈ s.requests[k]?, (currentBaseline s.rows q.name).isSome
  | _ => True

instance (s : Baselines) : ∀ a, Decidable (s.KeepsVersions a)
  | .claim j _ => inferInstanceAs (Decidable (∀ x ∈ s.makings[j]?, x.point = .claiming →
      ∀ b ∈ x.requested.baseline, ∀ current ∈ currentBaseline s.rows b.name,
        madeOf x.requested (some current) = baselineSpec current))
  | .inserted => inferInstanceAs (Decidable (∀ name ∈ s.inserting,
      s.carried ⟨name, nextVersion s.rows name⟩ = false))
  | .plan k (.grantReady ..) .. => inferInstanceAs (Decidable (∀ q ∈ s.requests[k]?,
      (currentBaseline s.rows q.name).isSome))
  | .plan _ .wait .. | .plan _ (.boot _) .. | .plan _ .provision .. => .isTrue trivial
  | .save .. | .saved _ | .retired .. | .cleaned _ | .drop | .remove _ | .claimedIdle _
  | .disposed _ | .destroyed _ | .removeAll | .request _ | .perform _ | .booted .. | .grantHandoff ..
  | .reject _ | .provision _ | .drove .. | .register .. | .other .. | .restart => .isTrue trivial

/-- A version that something carries has a carrier. -/
theorem carried_of_device {v : VirtualDevice} {ref : BaselineRef}
    (hv : Device.virtual v ∈ s.registry.devices) (hlive : v.state ≠ .deleted)
    (href : v.spec.baseline = some ref) : s.carried ref = true := by
  simp only [carried, Bool.or_eq_true, List.any_eq_true]
  exact .inl ⟨v, mem_virtualDevices.mpr hv, by simp [hlive, href]⟩

theorem carried_of_making {x : Making} {ref : BaselineRef} (hx : x ∈ s.makings)
    (hclaimed : x.point.isClaimed = true) (href : x.row.map BaselineRow.ref = some ref) :
    s.carried ref = true := by
  simp only [carried, Bool.or_eq_true, List.any_eq_true]
  exact .inr ⟨x, hx, by simp [hclaimed, href]⟩

/-! ### Steps -/

/-- Nothing is made, asked or granted; rows may go. -/
theorem CopiesOk.later (h : CopiesOk s) (hnew : NoNewCopy s.made s.registry s'.registry)
    (hrows : s'.rows ⊆ s.rows) (hmakings : s'.makings = s.makings)
    (hrequests : s'.requests = s.requests) (hmade : s'.made = s.made)
    (hgrants : s'.grants = s.grants) : CopiesOk s' := by
  refine ⟨?_, ?_, ?_, ?_⟩
  · rw [hmade]
    exact h.devices.later hnew
  · rw [hmade, hmakings]
    exact h.versions.later hnew hrows
  · rw [hmade, hmakings, hrequests]
    exact h.requests
  · rw [hgrants]
    exact h.grants

/-- Nothing but the job is different. -/
theorem CopiesOk.jobs (h : CopiesOk s) (job : Option BaselineJob) : CopiesOk { s with job := job } :=
  ⟨h.devices, h.versions, h.requests, h.grants⟩

/-- A commit of a save, or of the rest of the daemon. -/
theorem CopiesOk.commit (h : CopiesOk s) {now : Int} {c : Call} {r : Registry}
    (happly : s.registry.apply o now c = some r) (hadds : ∀ d, ¬ Adds o now d c)
    (job : Option BaselineJob) : CopiesOk { s with registry := r, job := job } :=
  h.later (.of_apply s.made happly hadds) (List.Subset.refl _) rfl rfl rfl rfl

theorem commits_eq_some {now : Int} {c : Call} {writable : Bool} {r : Registry}
    (h : s.commits o now c writable = some r) : s.registry.apply o now c = some r := by
  unfold commits at h
  split at h
  · exact h
  · cases h

theorem deleteRow_subset (rows : List BaselineRow) (ref : BaselineRef) :
    deleteRow rows ref ⊆ rows := fun _ h => (List.mem_filter.mp h).1

/-! ### Saves, removes and drops -/

theorem CopiesOk.save (h : CopiesOk s) (leaseId name : String) (deferReclaim : Bool) (now : Int)
    (writable : Bool) : CopiesOk (s.save o leaseId name deferReclaim now writable) := by
  unfold Baselines.save
  dsimp only
  split
  · rename_i hcommit
    exact h.commit (commits_eq_some hcommit) (fun _ hadds => hadds) _
  · rename_i hcommit
    exact h.commit (commits_eq_some hcommit) (fun _ hadds => hadds) s.job
  · exact h

theorem CopiesOk.retired (h : CopiesOk s) (now : Int) (writable : Bool) :
    CopiesOk (s.retired o now writable) := by
  unfold Baselines.retired
  split
  · split
    · rename_i hcommit
      exact h.commit (commits_eq_some hcommit) (fun _ hadds => hadds) _
    · exact h.jobs _
  · exact h

theorem CopiesOk.destroyed (h : CopiesOk s) (ok : Bool) : CopiesOk (s.destroyed ok) := by
  have hdelete : ∀ ref job, CopiesOk { s with rows := deleteRow s.rows ref, job := job } :=
    fun ref job => h.later (.refl _ _) (deleteRow_subset _ _) rfl rfl rfl rfl
  unfold Baselines.destroyed
  split
  · split
    · exact hdelete _ _
    · exact h.jobs _
  · split
    · exact hdelete _ _
    · exact h.jobs _
  · exact h

/-- A save's new version is carried by nothing. -/
theorem CopiesOk.inserted (h : CopiesOk s) (hok : s.KeepsVersions .inserted) :
    CopiesOk s.inserted := by
  unfold Baselines.inserted
  split
  · rename_i name v sourceId imageTag hjob
    have hfresh : s.carried ⟨name, nextVersion s.rows name⟩ = false :=
      hok name (by simp [inserting, hjob])
    have hnew : ∀ row ∈ s.rows, row.ref ≠ ⟨name, nextVersion s.rows name⟩ := by
      intro row hrow he
      have hlt := lt_nextVersion hrow (congrArg BaselineRef.name he)
      exact absurd (congrArg BaselineRef.version he) (ne_of_lt hlt)
    refine ⟨h.devices, ⟨?_, h.versions.plain, ?_, h.versions.registered, ?_⟩, h.requests, h.grants⟩
    · intro row hrow row' hrow' he
      rw [List.mem_append, List.mem_singleton] at hrow hrow'
      rcases hrow with hrow | rfl
      · rcases hrow' with hrow' | rfl
        · exact h.versions.keys row hrow row' hrow' he
        · exact absurd he (hnew row hrow)
      · rcases hrow' with hrow' | rfl
        · exact absurd he.symm (hnew row' hrow')
        · rfl
    · intro x hx hpoint row hrow
      have hcopy := h.versions.making x hx hpoint row hrow
      refine ⟨hcopy.named, hcopy.spec, fun row' hrow' he => ?_⟩
      rw [List.mem_append, List.mem_singleton] at hrow'
      rcases hrow' with hrow' | rfl
      · exact hcopy.only row' hrow' he
      · have href : x.row.map BaselineRow.ref = some row.ref := by rw [hrow]; rfl
        have hsame : (⟨name, nextVersion s.rows name⟩ : BaselineRef) = row.ref := he
        have hcarried : s.carried row.ref = true := carried_of_making hx hpoint href
        rw [hsame, hcarried] at hfresh
        cases hfresh
    · intro w hw hlive m hm hid row hrow row' hrow' he
      rw [List.mem_append, List.mem_singleton] at hrow'
      rcases hrow' with hrow' | rfl
      · exact h.versions.live w hw hlive m hm hid row hrow row' hrow' he
      · obtain ⟨m', hm', hid', hspec⟩ := h.devices.known w hw
        obtain rfl := h.devices.ids m hm m' hm' (hid.trans hid'.symm)
        have hcopy := (h.versions.registered m hm).2 row hrow
        have href : w.spec.baseline = some row.ref := by
          rw [← hspec, hcopy]
          rfl
        have hsame : (⟨name, nextVersion s.rows name⟩ : BaselineRef) = row.ref := he
        have hcarried : s.carried row.ref = true := carried_of_device hw hlive href
        rw [hsame, hcarried] at hfresh
        cases hfresh
  · exact h

/-! ### Copies -/

/-- The holds are no part of what a copy says. -/
theorem CopiesOk.hold (h : CopiesOk s) (x : Making) (add : Nat → Nat) :
    CopiesOk (s.hold x add) := by
  unfold Baselines.hold
  split
  · exact h
  · exact ⟨h.devices, h.versions, h.requests, h.grants⟩

theorem CopiesOk.tells (h : CopiesOk s) {x : Making} {point : RequestPoint}
    (hpoint : ∀ id spec, (point = .booting id spec ∨ point = .handoff id spec) →
      spec.baseline.map BaselineRef.name = x.requested.baseline.map BaselineRef.name ∧
      ∃ m : Made, m ∈ s.made ∧ m.id = id ∧ m.spec = spec)
    (hx : ∀ k, x.owner = some k → ∃ q : BaselineRequest, s.requests[k]? = some q ∧
      x.requested.baseline.map BaselineRef.name = some q.name) :
    CopiesOk (s.tellOwner x point) := by
  unfold tellOwner
  split
  · exact h
  · rename_i k hk
    refine ⟨h.devices, h.versions, h.requests.modify _ (fun q => ?_) fun q hq => ?_, h.grants⟩
    · split <;> rfl
    · have hold := h.requests.each q (List.mem_of_getElem? hq)
      split
      · obtain ⟨q', hq', hname⟩ := hx k hk
        obtain rfl := Option.some.inj (hq.symm.trans hq')
        refine ⟨hold.spec, fun id spec hp => ?_⟩
        obtain ⟨hspec, hmade⟩ := hpoint id spec hp
        exact ⟨hspec.trans hname, hmade⟩
      · exact hold

theorem CopiesOk.setMaking (h : CopiesOk s) {j : Nat} {x x' : Making}
    (hx : s.makings[j]? = some x) (howner : x'.owner = x.owner)
    (hrequested : x'.requested = x.requested)
    (hplain : x'.point.isClaimed = true → x'.row = none → x'.requested.baseline = none)
    (hmaking : x'.point.isClaimed = true → ∀ row, x'.row = some row → CopyOf s.rows x' row) :
    CopiesOk (s.setMaking j x') :=
  ⟨h.devices, h.versions.setMaking hplain hmaking, h.requests.setMaking hx howner hrequested,
    h.grants⟩

/-- A provision ends. -/
theorem CopiesOk.ends (h : CopiesOk s) {j : Nat} {x : Making} (hx : s.makings[j]? = some x)
    {x' : Making} (hx' : x' = { x with point := .over }) : CopiesOk (s.setMaking j x') := by
  subst hx'
  exact h.setMaking hx rfl rfl nofun nofun

/-- A claim takes the version current now, which has the spec that was planned. -/
theorem CopiesOk.claims (h : CopiesOk s) (j : Nat) (refused : Bool)
    (hok : s.KeepsVersions (.claim j refused)) : CopiesOk (s.claim j refused) := by
  unfold Baselines.claim
  split
  · rename_i x hx
    split
    · rename_i hpoint
      have howners := h.requests.owners x (List.mem_of_getElem? hx)
      have hfailed : CopiesOk ((s.setMaking j { x with point := .over }).tellOwner x .over) :=
        (h.ends hx rfl).tells nofun howners
      dsimp only
      split
      · exact hfailed
      · split
        · rename_i hnone
          exact h.setMaking hx rfl rfl (fun _ _ => hnone) nofun
        · rename_i b hb
          split
          · exact hfailed
          · rename_i current hcurrent
            refine CopiesOk.hold ?_ _ _
            refine h.setMaking hx rfl rfl nofun fun _ row hrow => ?_
            obtain rfl := Option.some.inj hrow
            obtain ⟨hin, hname, -⟩ := currentBaseline_spec hcurrent
            refine ⟨?_, hok x hx hpoint b hb current hcurrent,
              fun row' hrow' => h.versions.keys row' hrow' current hin⟩
            rw [hname]
            exact congrArg (Option.map BaselineRef.name) hb
    · exact h
  · exact h

@[simp] theorem hold_requests (x : Making) (add : Nat → Nat) :
    (s.hold x add).requests = s.requests := by
  unfold Baselines.hold
  split <;> rfl

@[simp] theorem hold_made (x : Making) (add : Nat → Nat) : (s.hold x add).made = s.made := by
  unfold Baselines.hold
  split <;> rfl

theorem CopiesOk.release (h : CopiesOk s) {j : Nat} {x : Making} {point : RequestPoint}
    (hx : s.makings[j]? = some x)
    (hpoint : ∀ id spec, (point = .booting id spec ∨ point = .handoff id spec) →
      spec.baseline.map BaselineRef.name = x.requested.baseline.map BaselineRef.name ∧
      ∃ m : Made, m ∈ s.made ∧ m.id = id ∧ m.spec = spec) : CopiesOk (s.release j x point) := by
  have howners := h.requests.owners x (List.mem_of_getElem? hx)
  have hends := (h.ends hx rfl).hold x (· - 1)
  refine hends.tells (fun id spec hp => ?_) fun k hk => ?_
  · rw [hold_made]
    exact hpoint id spec hp
  · rw [hold_requests]
    exact howners k hk

theorem CopiesOk.drove (h : CopiesOk s) (j : Nat) (ok : Bool) : CopiesOk (s.drove j ok) := by
  unfold Baselines.drove
  split
  · rename_i x hx
    split
    · rename_i hpoint
      have hclaimed : x.point.isClaimed = true := by rw [hpoint]; rfl
      have hmem := List.mem_of_getElem? hx
      split
      · exact h.setMaking hx rfl rfl (fun _ => h.versions.plain x hmem hclaimed)
          fun _ row hrow =>
            have hcopy := h.versions.making x hmem hclaimed row hrow
            ⟨hcopy.named, hcopy.spec, hcopy.only⟩
      · exact h.release hx nofun
    · exact h
  · exact h

theorem isFresh_spec {id : String} (h : s.isFresh id = true) :
    s.registry.device id = none ∧ ∀ m ∈ s.made, m.id ≠ id := by
  simp only [isFresh, Bool.and_eq_true, Option.isNone_iff_eq_none, List.all_eq_true,
    decide_eq_true_eq, ne_eq] at h
  exact h

/-- The device is registered with the spec and the row of its claim. -/
theorem CopiesOk.registers (h : CopiesOk s) (j : Nat) (id driverDeviceId : String)
    (data : DriverData) (now : Int) (writable : Bool) :
    CopiesOk (s.register o j id driverDeviceId data now writable) := by
  unfold Baselines.register
  split
  · rename_i x hx
    split
    · rename_i hcond
      have hclaimed : x.point.isClaimed = true := by rw [hcond.1]; rfl
      have hmem := List.mem_of_getElem? hx
      obtain ⟨hfree, hfresh⟩ := isFresh_spec hcond.2
      split
      · rename_i r hcommit
        have happly := commits_eq_some hcommit
        -- A device of the new registry is one of the old, under another id, or the new one.
        have hdevices : ∀ v, Device.virtual v ∈ r.devices →
            (∃ w, Device.virtual w ∈ s.registry.devices ∧ v.id = w.id ∧ v.spec = w.spec ∧
              (w.state = .deleted → v.state = .deleted) ∧ w.id ≠ id) ∨
            (v.id = id ∧ v.spec = x.spec) := by
          intro v hv
          rcases apply_device_from happly hv with ⟨d, hd, hstays⟩ | ⟨d, ⟨w, rfl, hw⟩, hstays⟩
          · obtain ⟨w, rfl, hid, hspec, hdeleted⟩ := hstays.virtual
            refine .inl ⟨w, hd, hid, hspec, hdeleted, fun he => ?_⟩
            exact Registry.device_none.mp hfree (List.mem_map.mpr ⟨_, hd, he⟩)
          · obtain ⟨w', hw', hid, hspec, -⟩ := hstays.virtual
            obtain rfl := Device.virtual.inj hw'
            exact .inr ⟨hid.trans hw.1, hspec.trans hw.2.2.1⟩
        have hadded : CopiesOk { s with
            registry := r
            made := s.made ++ [(⟨id, x.spec, x.row⟩ : Made)] } := by
          refine ⟨⟨fun m hm m' hm' he => ?_, fun v hv => ?_, fun q hq m hm => ?_⟩,
            ⟨h.versions.keys, h.versions.plain, h.versions.making, fun m hm => ?_,
              fun v hv hlive m hm hid row hrow => ?_⟩,
            ⟨fun q hq => (h.requests.each q hq).mono (List.subset_append_left _ _),
              h.requests.owners⟩, h.grants⟩
          · rw [List.mem_append, List.mem_singleton] at hm hm'
            rcases hm with hm | rfl
            · rcases hm' with hm' | rfl
              · exact h.devices.ids m hm m' hm' he
              · exact absurd he (hfresh m hm)
            · rcases hm' with hm' | rfl
              · exact absurd he.symm (hfresh m' hm')
              · rfl
          · rcases hdevices v hv with ⟨w, hw, hid, hspec, -, -⟩ | ⟨hid, hspec⟩
            · obtain ⟨m, hm, he⟩ := h.devices.known w hw
              rw [hid, hspec]
              exact ⟨m, List.mem_append_left _ hm, he⟩
            · exact ⟨⟨id, x.spec, x.row⟩, List.mem_append_right _ (List.mem_singleton_self _),
                hid.symm, hspec.symm⟩
          · rcases apply_device_from happly hq with ⟨d, hd, hstays⟩ | ⟨d, ⟨w, rfl, -⟩, hstays⟩
            · cases d with
              | virtual w => cases hstays.spec
              | physical q' =>
                have hid : q.id = q'.id := hstays.id
                rw [hid]
                rw [List.mem_append, List.mem_singleton] at hm
                rcases hm with hm | rfl
                · exact h.devices.phones q' hd m hm
                · exact fun he => Registry.device_none.mp hfree (List.mem_map.mpr ⟨_, hd, he.symm⟩)
            · cases hstays.spec
          · rw [List.mem_append, List.mem_singleton] at hm
            rcases hm with hm | rfl
            · exact h.versions.registered m hm
            · refine ⟨fun hnone => ?_, fun row hrow =>
                (h.versions.making x hmem hclaimed row hrow).spec⟩
              exact congrArg (Option.map BaselineRow.ref) hnone
          · rw [List.mem_append, List.mem_singleton] at hm
            rcases hdevices v hv with ⟨w, hw, hidw, -, hdeleted, hne⟩ | ⟨hidv, -⟩
            · rcases hm with hm | rfl
              · exact h.versions.live w hw (fun hdel => hlive (hdeleted hdel)) m hm
                  (hid.trans hidw) row hrow
              · exact absurd (hidw.symm.trans hid.symm) hne
            · rcases hm with hm | rfl
              · exact absurd (hid.trans hidv) (hfresh m hm)
              · exact (h.versions.making x hmem hclaimed row hrow).only
        refine hadded.release hx fun id' spec hp => ?_
        obtain ⟨rfl, rfl⟩ : id = id' ∧ x.spec = spec := by simpa using hp
        refine ⟨?_, ⟨id, x.spec, x.row⟩, List.mem_append_right _ (List.mem_singleton_self _), rfl,
          rfl⟩
        rw [Making.spec]
        cases hrow : x.row with
        | none => rw [h.versions.plain x hmem hclaimed hrow]; rfl
        | some row => exact (h.versions.making x hmem hclaimed row hrow).named.symm
      · exact h.release hx nofun
    · exact h
  · exact h

/-! ### Requests -/

theorem followBaseline_name (rows : List BaselineRow) {spec : VirtualSpec} {name : String}
    (hspec : spec.baseline.map BaselineRef.name = some name) :
    (followBaseline rows spec).baseline.map BaselineRef.name = some name := by
  obtain ⟨b, hb, rfl⟩ := Option.map_eq_some_iff.mp hspec
  simp only [followBaseline, hb]
  split
  · exact hspec
  · rename_i current hcurrent
    split
    · exact hspec
    · exact congrArg some (currentBaseline_spec hcurrent).2.1

/-- The spec a decision plans with is of the version current now, when there is one. -/
theorem followBaseline_current {rows : List BaselineRow} {spec : VirtualSpec} {name : String}
    {current : BaselineRow} (hspec : spec.baseline.map BaselineRef.name = some name)
    (hcurrent : currentBaseline rows name = some current) :
    (followBaseline rows spec).baseline = some current.ref := by
  obtain ⟨b, hb, rfl⟩ := Option.map_eq_some_iff.mp hspec
  have hname := (currentBaseline_spec hcurrent).2.1
  simp only [followBaseline, hb, hcurrent]
  split
  · rename_i hversion
    rw [hb, BaselineRow.ref, hname, hversion]
  · rfl

theorem isSuperseded_eq_false {rows : List BaselineRow} {spec : VirtualSpec} {name : String}
    (hspec : spec.baseline.map BaselineRef.name = some name)
    (h : isSuperseded rows spec = false) :
    ∃ current, currentBaseline rows name = some current ∧ spec.baseline = some current.ref := by
  obtain ⟨b, hb, rfl⟩ := Option.map_eq_some_iff.mp hspec
  simp only [isSuperseded, hb, ne_eq, decide_not, Bool.not_eq_false', decide_eq_true_eq,
    Option.map_eq_some_iff] at h
  obtain ⟨current, hcurrent, hversion⟩ := h
  have hname := (currentBaseline_spec hcurrent).2.1
  exact ⟨current, hcurrent, by rw [hb, BaselineRow.ref, hname, hversion]⟩

/-- A live device of the current version is what that version says. -/
theorem CopiesOk.spec_of_current (h : CopiesOk s) {v : VirtualDevice} {name : String}
    {current : BaselineRow} (hv : Device.virtual v ∈ s.registry.devices) (hlive : v.state ≠ .deleted)
    (hcurrent : currentBaseline s.rows name = some current)
    (hbaseline : v.spec.baseline = some current.ref) : v.spec = baselineSpec current := by
  obtain ⟨m, hm, hid, hspec⟩ := h.devices.known v hv
  cases hrow : m.row with
  | none =>
    have hnone := (h.versions.registered m hm).1 hrow
    rw [hspec, hbaseline] at hnone
    cases hnone
  | some row =>
    have hcopy := (h.versions.registered m hm).2 row hrow
    have href : row.ref = current.ref := by
      rw [hspec] at hcopy
      rw [hcopy] at hbaseline
      exact Option.some.inj hbaseline
    obtain rfl := h.versions.live v hv hlive m hm hid row hrow current
      (currentBaseline_spec hcurrent).1 href.symm
    exact hspec ▸ hcopy

/-- A lease is written on the device it names, which is free. -/
theorem createLease_device {now : Int} {generated : String} {input : Registry.CreateLeaseInput}
    {r r' : Registry} (happly : r.apply o now (.createLease generated input) = some r') :
    ∃ d, r.device input.deviceId = some d ∧ d.state = .ready := by
  have hyields := @createLease_yields r now generated input
  rcases apply_eq_some.mp happly with ⟨hcall, -⟩ | ⟨draft, hcall, -⟩
  · exact absurd hcall (createLease_commits generated input).ne_none
  · have hsome : r.createLease now generated input = .ok (some draft) := hcall
    rw [hsome] at hyields
    obtain ⟨d, d', requests, hd, -, hm, -, -, -⟩ := hyields draft rfl
    exact ⟨d, hd, Legal.ready_of_leased hm.legal⟩

/-- A grant on a device of the version current now. -/
theorem CopiesOk.grants_ (h : CopiesOk s) {k : Nat} {q : BaselineRequest}
    (hq : s.requests[k]? = some q) (q' : BaselineRequest) (hname : q'.name = q.name)
    (hspec : q'.spec.baseline.map BaselineRef.name = some q'.name) (generated : String)
    (input : Registry.CreateLeaseInput) (now : Int) (writable : Bool)
    (hdevice : ∀ d, s.registry.device input.deviceId = some d → d.state = .ready →
      ∃ v current, d = .virtual v ∧ currentBaseline s.rows q'.name = some current ∧
        v.spec.baseline = some current.ref) :
    CopiesOk (s.grant o k q' generated input now writable) := by
  unfold Baselines.grant
  split
  · rename_i r hcommit
    have happly := commits_eq_some hcommit
    have hr := h.commit happly (fun _ hadds => hadds) s.job
    refine ⟨hr.devices, hr.versions, ?_, fun g hg => ?_⟩
    · exact h.requests.setRequest hq hname (.of_spec hspec fun _ _ => ⟨by simp, by simp⟩)
    rcases List.mem_append.mp hg with hg | hg
    · exact h.grants g hg
    · obtain rfl := List.mem_singleton.mp hg
      obtain ⟨d, hd, hready⟩ := createLease_device happly
      obtain ⟨v, current, rfl, hcurrent, hbaseline⟩ := hdevice d hd hready
      refine ⟨current, hcurrent, ?_⟩
      have hlive : v.state ≠ .deleted := by
        intro hdel
        simp [Device.state, hdel, VirtualState.toState] at hready
      have hcopy := h.spec_of_current (Registry.device_mem hd).1 hlive hcurrent hbaseline
      simp [hd, virtualSpec, hcopy]
  · exact ⟨h.devices, h.versions, h.requests.setRequest hq hname
      (.of_spec hspec fun _ _ => ⟨by simp, by simp⟩), h.grants⟩

theorem serves_spec {deviceId : String} {spec : VirtualSpec} {v : VirtualDevice}
    (h : s.serves deviceId spec = some v) :
    s.registry.device deviceId = some (.virtual v) ∧ v.spec = spec := by
  unfold serves at h
  split at h
  · rename_i w hw
    split at h
    · rename_i hcond
      obtain rfl := Option.some.inj h
      exact ⟨hw, hcond.1⟩
    · cases h
  · cases h

/-- A plan follows the baseline, and grants a ready copy of the version it follows. -/
theorem CopiesOk.plans (h : CopiesOk s) (k : Nat) (outcome : PlanOutcome) (now : Int)
    (writable : Bool) (hok : s.KeepsVersions (.plan k outcome now writable)) :
    CopiesOk (s.plan o k outcome now writable) := by
  unfold Baselines.plan
  split
  · rename_i q hq
    have hold := h.requests.each q (List.mem_of_getElem? hq)
    have hfollow := followBaseline_name s.rows hold.spec
    split
    · rename_i hpoint
      have hset : ∀ point, (∀ id spec, point ≠ .booting id spec ∧ point ≠ .handoff id spec) →
          CopiesOk (s.setRequest k { q with
            spec := followBaseline s.rows q.spec
            point := point }) :=
        fun point hp => ⟨h.devices, h.versions,
          h.requests.setRequest hq rfl (.of_spec hfollow hp), h.grants⟩
      have hwait : CopiesOk (s.setRequest k { q with spec := followBaseline s.rows q.spec }) := by
        have hw := hset q.point (by rw [hpoint]; exact fun _ _ => ⟨nofun, nofun⟩)
        exact hw
      dsimp only
      split
      · exact hwait
      · exact hset .planned fun _ _ => ⟨nofun, nofun⟩
      · split
        · rename_i deviceId _ v hserves
          obtain ⟨hv, hspec⟩ := serves_spec hserves
          obtain ⟨hmem, hid⟩ := Registry.device_mem hv
          refine ⟨h.devices, h.versions, h.requests.setRequest hq rfl ⟨hfollow, ?_⟩, h.grants⟩
          intro id spec hp
          obtain ⟨rfl, rfl⟩ : deviceId = id ∧ v.spec = spec := by simpa using hp
          obtain ⟨m, hm, hmid, hmspec⟩ := h.devices.known v hmem
          exact ⟨hspec ▸ hfollow, m, hm, hmid.trans hid, hmspec⟩
        · exact hwait
      · rename_i generated input
        split
        · rename_i v hserves
          obtain ⟨hv, hspec⟩ := serves_spec hserves
          split
          · refine h.grants_ hq { q with spec := followBaseline s.rows q.spec } rfl hfollow generated
              input now writable fun d hd _ => ?_
            obtain ⟨current, hcurrent⟩ := Option.isSome_iff_exists.mp (hok q hq)
            rw [hv] at hd
            exact ⟨v, current, (Option.some.inj hd).symm, hcurrent,
              hspec ▸ followBaseline_current hold.spec hcurrent⟩
          · exact hwait
        · exact hwait
    · exact h
  · exact h

/-- A handoff is granted when its copy is of the version current now. -/
theorem CopiesOk.handoffs (h : CopiesOk s) (k : Nat) (generated : String)
    (input : Registry.CreateLeaseInput) (now : Int) (writable : Bool) :
    CopiesOk (s.grantHandoff o k generated input now writable) := by
  unfold Baselines.grantHandoff
  split
  · rename_i q hq
    have hold := h.requests.each q (List.mem_of_getElem? hq)
    split
    · rename_i id spec hpoint
      obtain ⟨hname, m, hm, hmid, hmspec⟩ := hold.point id spec (.inr hpoint)
      split
      · exact ⟨h.devices, h.versions, h.requests.setRequest hq rfl
          (.of_spec hold.spec fun _ _ => ⟨nofun, nofun⟩), h.grants⟩
      · rename_i hcurrent
        obtain ⟨current, hcurrent, hbaseline⟩ :=
          isSuperseded_eq_false hname (by simpa using hcurrent)
        split
        · rename_i hdevice
          refine h.grants_ hq q rfl hold.spec generated input now writable fun d hd _ => ?_
          obtain ⟨hmem, hid⟩ := Registry.device_mem hd
          have hdid : m.id = d.id := by rw [hmid, ← hdevice, hid]
          cases d with
          | virtual v =>
            obtain ⟨m', hm', hid', hspec'⟩ := h.devices.known v hmem
            obtain rfl := h.devices.ids m hm m' hm' (hdid.trans hid'.symm)
            exact ⟨v, current, rfl, hcurrent, by rw [← hspec', hmspec, hbaseline]⟩
          | physical p => exact absurd hdid (h.devices.phones p hmem m hm)
        · exact h
    · exact h
  · exact h

/-- The rest of the daemon registers phones only, under new ids. -/
theorem noNewCopy_other (c : Call) (now : Int) :
    NoNewCopy s.made s.registry (s.step o (.other c now)).registry := by
  have hquiet : (∀ d, ¬ Adds o now d c) →
      NoNewCopy s.made s.registry ((s.registry.apply o now c).getD s.registry) := by
    intro hadds
    cases happly : s.registry.apply o now c with
    | none => exact .refl _ _
    | some r => exact .of_apply s.made happly hadds
  cases c with
  | registerDevice id driverDeviceId spec data => exact .refl _ _
  | enrollPhysical id input =>
    simp only [Baselines.step]
    split
    · rename_i hfresh
      cases happly : s.registry.apply o now (.enrollPhysical id input) with
      | none => exact .refl _ _
      | some r =>
        intro d hd
        rcases apply_device_from happly hd with hfrom | ⟨d₀, ⟨q, rfl, hid⟩, hstays⟩
        · exact .inl hfrom
        · cases d with
          | virtual v => cases hstays.spec
          | physical q' =>
            refine .inr ⟨q', rfl, fun m hm he => (isFresh_spec hfresh).2 m hm ?_⟩
            rw [he, ← hid]
            exact hstays.id
    · exact .refl _ _
  | _ => exact hquiet fun _ hadds => hadds

/-- A commit of the rest of the daemon touches nothing but the registry. -/
theorem other_same (c : Call) (now : Int) :
    (s.step o (.other c now)) = { s with registry := (s.step o (.other c now)).registry } := by
  cases c with
  | enrollPhysical id input =>
    simp only [Baselines.step]
    split <;> rfl
  | _ => rfl

theorem CopiesOk.others (h : CopiesOk s) (c : Call) (now : Int) :
    CopiesOk (s.step o (.other c now)) := by
  rw [other_same]
  exact h.later (noNewCopy_other c now) (List.Subset.refl _) rfl rfl rfl rfl

theorem CopiesOk.step (h : CopiesOk s) (a : Action) (hok : s.KeepsVersions a) :
    CopiesOk (s.step o a) := by
  cases a with
  | save leaseId name deferReclaim now writable => exact h.save leaseId name deferReclaim now writable
  | saved answer =>
    simp only [Baselines.step, saved]
    split
    · exact h.jobs _
    · exact h.jobs _
    · exact h
  | retired now writable => exact h.retired now writable
  | inserted => exact h.inserted hok
  | cleaned ok =>
    simp only [Baselines.step, cleaned]
    split
    · split
      · exact h.jobs _
      · exact h.jobs _
    · exact h
  | drop =>
    simp only [Baselines.step, drop]
    split
    · exact h.jobs _
    · exact h
  | remove name =>
    simp only [Baselines.step, remove]
    split
    · exact h.jobs _
    · exact h
  | claimedIdle busy =>
    simp only [Baselines.step, claimedIdle]
    split
    · exact h.jobs _
    · exact h
  | disposed ok =>
    simp only [Baselines.step, disposed]
    split
    · exact h.jobs _
    · exact h
  | destroyed ok => exact h.destroyed ok
  | removeAll => exact h.later (.refl _ _) (List.nil_subset _) rfl rfl rfl rfl
  | request name =>
    simp only [Baselines.step, request]
    split
    · rename_i current hcurrent
      refine ⟨h.devices, h.versions, ⟨fun q hq => ?_, fun x hx k hk => ?_⟩, h.grants⟩
      · rcases List.mem_append.mp hq with hq | hq
        · exact h.requests.each q hq
        · obtain rfl := List.mem_singleton.mp hq
          exact .of_spec (congrArg some (currentBaseline_spec hcurrent).2.1)
            fun _ _ => ⟨nofun, nofun⟩
      · obtain ⟨q, hq, hname⟩ := h.requests.owners x hx k hk
        have hlt := (List.getElem?_eq_some_iff.mp hq).1
        exact ⟨q, (List.getElem?_append_left hlt).trans hq, hname⟩
    · exact h
  | plan k outcome now writable => exact h.plans k outcome now writable hok
  | perform k =>
    simp only [Baselines.step, perform]
    split
    · rename_i q hq
      have hold := h.requests.each q (List.mem_of_getElem? hq)
      split
      · have hset : RequestsOn (s.requests.set k { q with point := .making }) _ _ :=
          h.requests.setRequest hq rfl (.of_spec hold.spec fun _ _ => ⟨nofun, nofun⟩)
        refine ⟨h.devices, h.versions.addMaking rfl, ⟨hset.each, fun x hx l hl => ?_⟩, h.grants⟩
        rcases List.mem_append.mp hx with hx | hx
        · exact hset.owners x hx l hl
        · obtain rfl := List.mem_singleton.mp hx
          obtain rfl : k = l := Option.some.inj hl
          exact ⟨{ q with point := .making }, (getElem?_set_if hq _ k).trans (if_pos rfl), hold.spec⟩
      · exact h
    · exact h
  | booted k ok =>
    simp only [Baselines.step, booted]
    split
    · rename_i q hq
      have hold := h.requests.each q (List.mem_of_getElem? hq)
      split
      · rename_i id spec hpoint
        refine ⟨h.devices, h.versions, h.requests.setRequest hq rfl ⟨hold.spec, ?_⟩, h.grants⟩
        intro id' spec' hp
        split at hp
        · obtain ⟨rfl, rfl⟩ : id = id' ∧ spec = spec' := by simpa using hp
          exact hold.point id spec (.inl hpoint)
        · simp at hp
      · exact h
    · exact h
  | grantHandoff k generated input now writable => exact h.handoffs k generated input now writable
  | reject k =>
    refine ⟨h.devices, h.versions, h.requests.modify _ (fun _ => rfl) fun q hq => ?_, h.grants⟩
    exact .of_spec (h.requests.each q (List.mem_of_getElem? hq)).spec fun _ _ => ⟨nofun, nofun⟩
  | provision spec =>
    refine ⟨h.devices, h.versions.addMaking rfl, ⟨h.requests.each, fun x hx k hk => ?_⟩, h.grants⟩
    rcases List.mem_append.mp hx with hx | hx
    · exact h.requests.owners x hx k hk
    · obtain rfl := List.mem_singleton.mp hx
      cases hk
  | claim j refused => exact h.claims j refused hok
  | drove j ok => exact h.drove j ok
  | register j id driverDeviceId data now writable =>
    exact h.registers j id driverDeviceId data now writable
  | other c now => exact h.others c now
  | restart =>
    have hnone : ∀ {α : Type} {P : Prop} {x : α}, x ∈ [] → P := fun hx => absurd hx List.not_mem_nil
    exact ⟨h.devices, ⟨h.versions.keys, fun _ hx => hnone hx, fun _ hx => hnone hx,
      h.versions.registered, h.versions.live⟩, ⟨fun _ hq => hnone hq, fun _ hx => hnone hx⟩, h.grants⟩

theorem copiesOk_start : CopiesOk start := by
  have hnone : ∀ {α : Type} {P : Prop} {x : α}, x ∈ [] → P := fun hx => absurd hx List.not_mem_nil
  exact ⟨⟨fun _ hm => hnone hm, fun _ hv => hnone hv, fun _ hq => hnone hq⟩,
    ⟨fun _ hrow => hnone hrow, fun _ hx => hnone hx, fun _ hx => hnone hx, fun _ hm => hnone hm,
      fun _ hv => hnone hv⟩, ⟨fun _ hq => hnone hq, fun _ hx => hnone hx⟩, fun _ hg => hnone hg⟩

/-! ### Copies are what they say -/

/-- Every live copy has the spec and the source of the version its record names, as it was claimed
    and as it is stored; and every lease that names a baseline got the version current then. -/
structure CopiesSay (s : Baselines) : Prop where
  device : ∀ (v : VirtualDevice) (b : BaselineRef), Device.virtual v ∈ s.registry.devices →
    v.state ≠ .deleted → v.spec.baseline = some b →
    ∃ (m : Made) (row : BaselineRow), m ∈ s.made ∧ m.id = v.id ∧ m.row = some row ∧ row.ref = b ∧
      v.spec = baselineSpec row ∧ ∀ row' ∈ s.rows, row'.ref = b → row' = row
  grant : ∀ g ∈ s.grants, ∃ row : BaselineRow, g.current = some row ∧
    g.spec = some (baselineSpec row)

theorem CopiesOk.say (h : CopiesOk s) : CopiesSay s := by
  refine ⟨fun v b hv hlive hb => ?_, h.grants⟩
  obtain ⟨m, hm, hid, hspec⟩ := h.devices.known v hv
  obtain ⟨hplain, hcopy⟩ := h.versions.registered m hm
  cases hrow : m.row with
  | none =>
    have hnone := hplain hrow
    rw [hspec, hb] at hnone
    cases hnone
  | some row =>
    have hsame := hcopy row hrow
    have href : row.ref = b := by
      rw [hspec] at hsame
      rw [hsame] at hb
      exact Option.some.inj hb
    refine ⟨m, row, hm, hid, hrow, href, hspec ▸ hsame, fun row' hrow' he => ?_⟩
    exact h.versions.live v hv hlive m hm hid row hrow row' hrow' (he.trans href.symm)

/-- In every run whose claims find the spec that was planned, whose saves give no number that
    something carries, and whose plans grant no ready copy of a baseline that is gone, the copies of
    every baseline are what they say. -/
theorem copies_are_what_they_say (o : RegistryOptions) (acts : List Action)
    (hok : AllSteps (step o) KeepsVersions start acts) : CopiesSay (run (step o) start acts) := by
  have hrun : CopiesOk (run (step o) start acts) :=
    run_invariant_of_allSteps (I := CopiesOk) (fun _ a hok h => h.step a hok) acts start
      copiesOk_start hok
  exact hrun.say

/-! ### A copy of one version under the number of another -/

def simulator (model : String) : VirtualSpec := ⟨.ios, model, "17.0", false, none, none⟩

def simulatorData : DriverData := .ios ⟨"type", "name", "runtime", none, some "signature", "udid"⟩

/-- A provision claims, its driver returns, and the device is registered and booted. -/
def comesUp (j : Nat) (id : String) : List Action :=
  [.claim j false, .drove j true, .register j id ("udid_" ++ id) simulatorData 1 true,
    .other (.transitionDevice id .ready (some ⟨.ready, id⟩) { address := some "127.0.0.1" }) 2]

def leaseOf (id : String) : Registry.CreateLeaseInput :=
  ⟨id, "agent", "owner", 60, 100, none, none, none⟩

/-- The device is leased, and saved as the next version of the name. -/
def savesFrom (id name : String) : List Action :=
  [.other (.createLease ("lse_" ++ id) (leaseOf id)) 3, .save ("lse_" ++ id) name false 4 true,
    .saved (.ok ("src_" ++ id, none)), .retired 5 true, .inserted, .cleaned true]

/-- A baseline of one simulator, and a request for it that plans to make a copy. -/
def copyPlanned : List Action :=
  [.provision (simulator "iPhone 15")] ++ comesUp 0 "dev_1" ++ savesFrom "dev_1" "app" ++
    [.request "app", .plan 0 .provision 6 true, .perform 0]

/-- The copy is made and granted. -/
def copyGranted (j : Nat) (id : String) : List Action :=
  comesUp j id ++ [.booted 0 true, .grantHandoff 0 "lse_copy" (leaseOf id) 7 true]

theorem copies_are_what_they_say_granted :
    (run (step shortRetention) start (copyPlanned ++ copyGranted 1 "dev_2")).grants.length = 1 ∧
    CopiesSay (run (step shortRetention) start (copyPlanned ++ copyGranted 1 "dev_2")) :=
  ⟨by decide +kernel, copies_are_what_they_say shortRetention _ (by decide +kernel)⟩

/-- Before the copy is claimed, another simulator is saved under the name. -/
def savedBetween : List Action :=
  [.provision (simulator "iPhone 16")] ++ comesUp 2 "dev_2" ++ savesFrom "dev_2" "app" ++
    [.destroyed true]

/-- The copy is recorded as version 2 with the model of version 1, and granted as version 2. -/
theorem copy_mixes_two_versions :
    ¬ CopiesSay (run (step shortRetention) start
      (copyPlanned ++ savedBetween ++ copyGranted 1 "dev_3")) := by
  intro h
  have hgrants : (run (step shortRetention) start
      (copyPlanned ++ savedBetween ++ copyGranted 1 "dev_3")).grants =
        [⟨"app", some ⟨.ios, "iPhone 15", "17.0", false, none, some ⟨"app", 2⟩⟩,
          some ⟨"app", 2, .ios, "iPhone 16", "17.0", .full, none, "src_dev_2"⟩⟩] := by
    decide +kernel
  obtain ⟨row, hcurrent, hspec⟩ := h.grant _ (hgrants ▸ List.mem_singleton_self _)
  obtain rfl := Option.some.inj hcurrent
  exact absurd hspec (by decide)

end Baselines

end Simlock.Worker
