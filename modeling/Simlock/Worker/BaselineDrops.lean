import Simlock.Worker.BaselineCopies

/-! A replaced version's source outlives its users.

    A drop reads the replaced rows and the devices once, and destroys source by source. What holds a
    version is read at its turn; what is a copy of it is read from that first list. So a copy that is
    registered in between is missed by both, and only then (`KeepsListed`): a version that no copy is
    registered of while a drop still has to check it is destroyed under no user. -/

namespace Simlock.Worker

open Simlock.Lib Simlock.Core

/-- A live device is recorded as a copy of the version. -/
def LiveCopy (r : Registry) (ref : BaselineRef) : Prop :=
  ∃ v : VirtualDevice, Device.virtual v ∈ r.devices ∧ v.state ≠ .deleted ∧
    v.spec.baseline = some ref

theorem LiveCopy.before {made : List Made} {r r' : Registry} {ref : BaselineRef}
    (h : LiveCopy r' ref) (hnew : NoNewCopy made r r') : LiveCopy r ref := by
  obtain ⟨v, hv, hlive, href⟩ := h
  rcases hnew _ hv with ⟨d, hd, hstays⟩ | ⟨q, he, -⟩
  · obtain ⟨w, rfl, -, hspec, hdeleted⟩ := hstays.virtual
    exact ⟨w, hd, fun hdel => hlive (hdeleted hdel), hspec ▸ href⟩
  · cases he

/-- A newer version of the name is stored, or none is. -/
def Outdated (rows : List BaselineRow) (row : BaselineRow) : Prop :=
  (∃ c ∈ rows, c.name = row.name ∧ row.version < c.version) ∨ ∀ c ∈ rows, c.name ≠ row.name

theorem Outdated.not_current {rows : List BaselineRow} {row c : BaselineRow}
    (h : Outdated rows row) (hc : currentBaseline rows row.name = some c) :
    c.version ≠ row.version := by
  obtain ⟨hin, hname, hmax⟩ := currentBaseline_spec hc
  rcases h with ⟨c', hc', hname', hlt⟩ | hnone
  · exact ne_of_gt (lt_of_lt_of_le hlt (hmax c' hc' hname'))
  · exact absurd hname (hnone c hin)

theorem outdated_of_replaced {rows : List BaselineRow} {row : BaselineRow}
    (h : row ∈ replacedRows rows) : Outdated rows row := by
  obtain ⟨c, hc, hlt⟩ := (Option.any_eq_true _ _).mp (List.mem_filter.mp h).2
  obtain ⟨hin, hname, -⟩ := currentBaseline_spec hc
  exact .inl ⟨c, hin, hname, by simpa using hlt⟩

/-- A version that has a newer one can go without making another the newest. -/
theorem Outdated.delete {rows : List BaselineRow} {row gone : BaselineRow}
    (h : Outdated rows row) (hgone : Outdated rows gone) :
    Outdated (deleteRow rows gone.ref) row := by
  have hkept : ∀ {c : BaselineRow}, c ∈ rows → c.ref ≠ gone.ref → c ∈ deleteRow rows gone.ref :=
    fun hc hne => List.mem_filter.mpr ⟨hc, by simp [hne]⟩
  rcases h with ⟨c, hc, hname, hlt⟩ | hnone
  · by_cases href : c.ref = gone.ref
    · have hgname : c.name = gone.name := congrArg BaselineRef.name href
      have hgversion : c.version = gone.version := congrArg BaselineRef.version href
      rcases hgone with ⟨c', hc', hname', hlt'⟩ | hnone
      · refine .inl ⟨c', hkept hc' fun he => ?_, hname'.trans (hgname.symm.trans hname), by omega⟩
        have hversion : c'.version = gone.version := congrArg BaselineRef.version he
        omega
      · exact absurd hgname (hnone c hc)
    · exact .inl ⟨c, hkept hc href, hname, hlt⟩
  · exact .inr fun c hc => hnone c (List.mem_filter.mp hc).1

namespace Baselines

variable {o : RegistryOptions} {s s' : Baselines}

/-- A claimed provision holds the version. -/
def holdsOn (name : String) (version : Int) (x : Making) : Bool :=
  x.point.isClaimed && x.row.any fun row => row.name = name && row.version = version

/-- A drop whose call destroys the source of a row. -/
def Dropping (s : Baselines) (row : BaselineRow) (rest : List BaselineRow)
    (listed : List VirtualDevice) : Prop := s.job = some (.dropping row rest listed)

/-- The version has a copy among the listed devices. -/
def listedCopy (listed : List VirtualDevice) (ref : BaselineRef) : Bool :=
  listed.any fun v => v.state ≠ .deleted && v.spec.baseline = some ref

/-- What a drop in its course relies on. -/
structure DropOk (s : Baselines) : Prop where
  holds : ∀ name version, s.holds name version = s.makings.countP (holdsOn name version)
  outdated : ∀ row rest listed, s.Dropping row rest listed → ∀ x ∈ row :: rest, Outdated s.rows x
  unheld : ∀ row rest listed, s.Dropping row rest listed → s.holds row.name row.version = 0
  uncopied : ∀ row rest listed, s.Dropping row rest listed → ¬ LiveCopy s.registry row.ref
  listed : ∀ row rest listed, s.Dropping row rest listed → ∀ x ∈ rest,
    LiveCopy s.registry x.ref → listedCopy listed x.ref = true

/-- The versions a drop still has to check, and of which it listed no copy. -/
def toCheck (s : Baselines) : List BaselineRef :=
  match s.job with
  | some (.dropping _ rest listed) =>
    (rest.map BaselineRow.ref).filter fun ref => !listedCopy listed ref
  | _ => []

/-- No copy is registered of a version that a drop still has to check and listed no copy of. -/
def KeepsListed (s : Baselines) : Action → Prop
  | .register j .. => ∀ x ∈ s.makings[j]?, x.point = .registering →
    ∀ row ∈ x.row, row.ref ∉ s.toCheck
  | _ => True

instance (s : Baselines) : ∀ a, Decidable (s.KeepsListed a)
  | .register j .. => inferInstanceAs (Decidable (∀ x ∈ s.makings[j]?, x.point = .registering →
      ∀ row ∈ x.row, row.ref ∉ s.toCheck))
  | .save .. | .saved _ | .retired .. | .inserted | .cleaned _ | .drop | .remove _ | .claimedIdle _
  | .disposed _ | .destroyed _ | .removeAll | .request _ | .plan .. | .perform _ | .booted ..
  | .grantHandoff .. | .reject _ | .provision _ | .claim .. | .drove .. | .other .. | .restart =>
    .isTrue trivial

/-! ### What a drop sees of a step -/

/-- No drop is under way. -/
theorem DropOk.idle (hholds : ∀ name version, s.holds name version =
    s.makings.countP (holdsOn name version))
    (hjob : ∀ row rest listed, ¬ s.Dropping row rest listed) : DropOk s :=
  ⟨hholds, fun _ _ _ h => absurd h (hjob _ _ _), fun _ _ _ h => absurd h (hjob _ _ _),
    fun _ _ _ h => absurd h (hjob _ _ _), fun _ _ _ h => absurd h (hjob _ _ _)⟩

/-- The drop is where it was, or gone; its rows stay outdated, and no version gets a copy. -/
theorem DropOk.later (h : DropOk s)
    (hjob : ∀ row rest listed, s'.Dropping row rest listed → s.Dropping row rest listed)
    (hlive : ∀ ref, LiveCopy s'.registry ref → LiveCopy s.registry ref)
    (hrows : ∀ row, Outdated s.rows row → Outdated s'.rows row)
    (hholds : ∀ name version, s'.holds name version = s'.makings.countP (holdsOn name version))
    (hzero : ∀ row rest listed, s.Dropping row rest listed → s'.holds row.name row.version = 0) :
    DropOk s' := by
  refine ⟨hholds, fun row rest listed hd x hx => ?_, fun row rest listed hd => ?_,
    fun row rest listed hd hcopy => ?_, fun row rest listed hd x hx hcopy => ?_⟩
  · exact hrows x (h.outdated row rest listed (hjob _ _ _ hd) x hx)
  · exact hzero row rest listed (hjob _ _ _ hd)
  · exact h.uncopied row rest listed (hjob _ _ _ hd) (hlive _ hcopy)
  · exact h.listed row rest listed (hjob _ _ _ hd) x hx (hlive _ hcopy)

/-- Nothing a drop looks at is different, but for commits that make no copy. -/
theorem DropOk.same (h : DropOk s) (hjob : s'.job = s.job)
    (hnew : NoNewCopy s.made s.registry s'.registry) (hrows : s'.rows = s.rows)
    (hmakings : s'.makings = s.makings) (hholds : s'.holds = s.holds) : DropOk s' := by
  refine h.later (fun row rest listed hd => ?_) (fun _ hcopy => hcopy.before hnew) (hrows ▸ fun _ => id)
    (fun name version => ?_) fun row rest listed hd => ?_
  · rw [Dropping, ← hjob]
    exact hd
  · rw [hholds, hmakings]
    exact h.holds name version
  · rw [hholds]
    exact h.unheld row rest listed hd

/-- Another job starts, or the job ends. -/
theorem DropOk.jobs (h : DropOk s) {job : Option BaselineJob}
    (hjob : ∀ row rest listed, job ≠ some (.dropping row rest listed)) :
    DropOk { s with job := job } :=
  .idle h.holds hjob

/-! ### The walk of a drop -/

theorem inUse_eq_false {listed : List VirtualDevice} {row : BaselineRow}
    (h : s.inUse listed row = false) : s.holds row.name row.version = 0 ∧
      listedCopy listed row.ref = false := by
  simpa only [inUse, listedCopy, Bool.or_eq_false_iff, decide_eq_false_iff_not, ne_eq, not_not]
    using h

/-- The walk looks at the holds only. -/
theorem walk_of_holds (hholds : s'.holds = s.holds) (listed : List VirtualDevice)
    (rows : List BaselineRow) : s'.walk listed rows = s.walk listed rows := by
  have huse : ∀ row, s'.inUse listed row = s.inUse listed row := by
    intro row
    simp only [inUse, hholds]
  induction rows with
  | nil => rfl
  | cons row rows ih => rw [walk, walk, huse, ih]

/-- The walk stops at a row that nothing uses, and goes on with what is after it. -/
theorem walk_spec {listed : List VirtualDevice} {rows : List BaselineRow} {job : BaselineJob}
    (h : s.walk listed rows = some job) : ∃ row rest, job = .dropping row rest listed ∧
      s.inUse listed row = false ∧ row ∈ rows ∧ rest ⊆ rows := by
  induction rows with
  | nil => cases h
  | cons row rows ih =>
    unfold walk at h
    split at h
    · obtain ⟨row', rest, hjob, huse, hmem, hrest⟩ := ih h
      exact ⟨row', rest, hjob, huse, List.mem_cons_of_mem _ hmem,
        fun x hx => List.mem_cons_of_mem _ (hrest hx)⟩
    · rename_i huse
      exact ⟨row, rows, (Option.some.inj h).symm, by simpa using huse, List.mem_cons_self,
        fun x hx => List.mem_cons_of_mem _ hx⟩

/-- A drop goes on to the next row of its list that nothing uses. -/
theorem DropOk.walks (hholds : ∀ name version, s.holds name version =
    s.makings.countP (holdsOn name version)) {listed : List VirtualDevice}
    {rows : List BaselineRow} (houtdated : ∀ x ∈ rows, Outdated s.rows x)
    (hlisted : ∀ x ∈ rows, LiveCopy s.registry x.ref → listedCopy listed x.ref = true) :
    DropOk { s with job := s.walk listed rows } := by
  have hwalk : ∀ row rest listed', s.walk listed rows = some (.dropping row rest listed') →
      listed' = listed ∧ s.inUse listed row = false ∧ row ∈ rows ∧ rest ⊆ rows := by
    intro row rest listed' hd
    obtain ⟨row', rest', hjob, huse, hmem, hrest⟩ := walk_spec hd
    obtain ⟨rfl, rfl, rfl⟩ := by simpa using hjob
    exact ⟨rfl, huse, hmem, hrest⟩
  refine ⟨hholds, fun row rest listed' hd x hx => ?_, fun row rest listed' hd => ?_,
    fun row rest listed' hd hcopy => ?_, fun row rest listed' hd x hx hcopy => ?_⟩
  · obtain ⟨-, -, hmem, hrest⟩ := hwalk _ _ _ hd
    rcases List.mem_cons.mp hx with rfl | hx
    · exact houtdated x hmem
    · exact houtdated x (hrest hx)
  · exact (inUse_eq_false (hwalk _ _ _ hd).2.1).1
  · obtain ⟨-, huse, hmem, -⟩ := hwalk _ _ _ hd
    have hin := hlisted row hmem hcopy
    rw [(inUse_eq_false huse).2] at hin
    cases hin
  · obtain ⟨rfl, -, -, hrest⟩ := hwalk _ _ _ hd
    exact hlisted x (hrest hx) hcopy

/-- A drop starts with the rows and the devices of this moment. -/
theorem DropOk.drops (h : DropOk s) : DropOk s.dropReplaced := by
  refine DropOk.walks h.holds (fun _ => outdated_of_replaced) fun x _ hcopy => ?_
  obtain ⟨v, hv, hlive, href⟩ := hcopy
  exact List.any_eq_true.mpr ⟨v, mem_virtualDevices.mpr hv, by simp [hlive, href]⟩

/-- A source is gone and its row with it; the drop goes on. -/
theorem DropOk.destroyeds (h : DropOk s) (ok : Bool) : DropOk (s.destroyed ok) := by
  unfold Baselines.destroyed
  split
  · rename_i row rest _
    split
    · refine .idle h.holds fun row' rest' listed hd => ?_
      cases rest <;> cases hd
    · exact h.jobs nofun
  · rename_i row rest listed hjob
    split
    · have houtdated := h.outdated row rest listed hjob
      have hgone := houtdated row List.mem_cons_self
      have hwalks := DropOk.walks (s := { s with rows := deleteRow s.rows row.ref }) h.holds
        (fun x hx => (houtdated x (List.mem_cons_of_mem _ hx)).delete hgone)
        (h.listed row rest listed hjob)
      have hsame : ({ s with rows := deleteRow s.rows row.ref } : Baselines).walk listed rest =
          s.walk listed rest := walk_of_holds (by rfl) listed rest
      rw [hsame] at hwalks
      exact hwalks
    · exact h.jobs nofun
  · exact h

/-! ### Holds -/

theorem holdsOn_of {x : Making} {row : BaselineRow} (hclaimed : x.point.isClaimed = true)
    (hrow : x.row = some row) (name : String) (version : Int) :
    holdsOn name version x = true ↔ name = row.name ∧ version = row.version := by
  simp only [holdsOn, hclaimed, hrow, Option.any_some, Bool.true_and, Bool.and_eq_true,
    decide_eq_true_eq]
  exact and_congr eq_comm eq_comm

theorem holdsOn_not {x : Making} (h : x.point.isClaimed = false ∨ x.row = none) (name : String)
    (version : Int) : holdsOn name version x = false := by
  rcases h with h | h
  · simp [holdsOn, h]
  · simp [holdsOn, h]

theorem hold_holds (x : Making) (add : Nat → Nat) (name : String) (version : Int) :
    (s.hold x add).holds name version =
      if x.row.any fun row => row.name = name && row.version = version then
        add (s.holds name version) else s.holds name version := by
  unfold Baselines.hold
  split
  · rename_i hrow
    simp [hrow]
  · rename_i row hrow
    simp only [hrow, Option.any_some, Bool.and_eq_true, decide_eq_true_eq]
    by_cases hname : name = row.name
    · subst hname
      rw [Function.update_self]
      by_cases hversion : version = row.version
      · simp [hversion]
      · simp [hversion, Ne.symm hversion]
    · simp [hname, Ne.symm hname]

@[simp] theorem hold_makings (x : Making) (add : Nat → Nat) :
    (s.hold x add).makings = s.makings := by
  unfold Baselines.hold
  split <;> rfl

/-- One provision goes on, and the holds with it. -/
theorem DropOk.makes (h : DropOk s) {j : Nat} {x x' : Making} (hx : s.makings[j]? = some x)
    {holds : String → Int → Nat}
    (hholds : ∀ name version, holds name version = s.holds name version -
      (if holdsOn name version x then 1 else 0) + if holdsOn name version x' then 1 else 0) :
    ∀ name version, holds name version =
      (s.makings.set j x').countP (holdsOn name version) := by
  intro name version
  rw [hholds, h.holds, countP_set_of_getElem? _ hx]

/-- A drop goes on beside a provision that holds no version the drop destroys. -/
theorem DropOk.beside (h : DropOk s) (hjob : s'.job = s.job) (hregistry : s'.registry = s.registry)
    (hrows : s'.rows = s.rows)
    (hholds : ∀ name version, s'.holds name version = s'.makings.countP (holdsOn name version))
    (hzero : ∀ row rest listed, s.Dropping row rest listed → s'.holds row.name row.version = 0) :
    DropOk s' := by
  refine h.later (fun row rest listed hd => ?_) (fun _ hcopy => hregistry ▸ hcopy)
    (hrows ▸ fun _ => id) hholds hzero
  rw [Dropping, ← hjob]
  exact hd

theorem hold_same (x : Making) (add : Nat → Nat) : (s.hold x add).job = s.job ∧
    (s.hold x add).registry = s.registry ∧ (s.hold x add).rows = s.rows := by
  unfold Baselines.hold
  split <;> exact ⟨rfl, rfl, rfl⟩

theorem DropOk.tells (h : DropOk s) (x : Making) (point : RequestPoint) :
    DropOk (s.tellOwner x point) := by
  unfold tellOwner
  split
  · exact h
  · exact h.beside rfl rfl rfl h.holds h.unheld

/-- A version with a newer one is held by no new claim. -/
theorem DropOk.claims (h : DropOk s) (j : Nat) (refused : Bool) : DropOk (s.claim j refused) := by
  unfold Baselines.claim
  split
  · rename_i x hx
    split
    · rename_i hpoint
      have hnot := fun name version =>
        holdsOn_not (x := x) (.inl (by rw [hpoint]; rfl)) name version
      have hquiet : ∀ x' : Making, (∀ name version, holdsOn name version x' = false) →
          DropOk (s.setMaking j x') := by
        intro x' hx'
        refine h.beside rfl rfl rfl (h.makes hx fun name version => ?_) h.unheld
        simp [setMaking, hnot, hx']
      have hfailed : DropOk ((s.setMaking j { x with point := .over }).tellOwner x .over) := by
        have hover := hquiet { x with point := .over } fun _ _ => holdsOn_not (.inl rfl) _ _
        exact hover.tells x .over
      dsimp only
      split
      · exact hfailed
      · split
        · exact hquiet _ fun _ _ => holdsOn_not (.inr rfl) _ _
        · split
          · exact hfailed
          · rename_i b _ _ current hcurrent
            obtain ⟨-, hname, -⟩ := currentBaseline_spec hcurrent
            obtain ⟨hjob, hregistry, hrows⟩ := hold_same
              (s := s.setMaking j { x with row := some current, point := .provisioning })
              { x with row := some current, point := .provisioning } (· + 1)
            refine h.beside hjob hregistry hrows ?_ fun row rest listed hd => ?_
            · rw [hold_makings]
              refine h.makes hx fun name version => ?_
              have hnew : holdsOn name version
                  { x with row := some current, point := .provisioning } =
                  (current.name = name && current.version = version) := rfl
              rw [hold_holds, hnot, hnew]
              simp only [Option.any_some, setMaking]
              split <;> rfl
            · rw [hold_holds, if_neg]
              · exact h.unheld row rest listed hd
              · simp only [Option.any_some, Bool.and_eq_true, decide_eq_true_eq, not_and]
                intro hn
                have houtdated := h.outdated row rest listed hd row List.mem_cons_self
                exact houtdated.not_current (by rw [← hn, hname]; exact hcurrent)
    · exact h
  · exact h

theorem DropOk.releases (h : DropOk s) {j : Nat} {x : Making} (point : RequestPoint)
    (hx : s.makings[j]? = some x) (hclaimed : x.point.isClaimed = true) :
    DropOk (s.release j x point) := by
  unfold Baselines.release
  refine DropOk.tells ?_ x point
  obtain ⟨hjob, hregistry, hrows⟩ := hold_same (s := s.setMaking j { x with point := .over }) x
    (· - 1)
  have hholds : ∀ name version,
      ((s.setMaking j { x with point := .over }).hold x (· - 1)).holds name version =
        s.holds name version - if holdsOn name version x then 1 else 0 := by
    intro name version
    rw [hold_holds, holdsOn, hclaimed, Bool.true_and]
    simp only [setMaking]
    split <;> rfl
  refine h.beside hjob hregistry hrows ?_ fun row rest listed hd => ?_
  · rw [hold_makings]
    refine h.makes hx fun name version => ?_
    have hover := holdsOn_not (x := { x with point := .over }) (.inl rfl) name version
    rw [hholds, hover]
    rfl
  · rw [hholds, h.unheld row rest listed hd]
    exact Nat.zero_sub _

theorem DropOk.droves (h : DropOk s) (j : Nat) (ok : Bool) : DropOk (s.drove j ok) := by
  unfold Baselines.drove
  split
  · rename_i x hx
    split
    · rename_i hpoint
      have hclaimed : x.point.isClaimed = true := by rw [hpoint]; rfl
      split
      · refine h.beside rfl rfl rfl (h.makes hx fun name version => ?_) h.unheld
        have hsame : holdsOn name version { x with point := .registering } =
            holdsOn name version x := by
          rw [holdsOn, holdsOn, hclaimed]
          rfl
        have hle : (if holdsOn name version x then 1 else 0) ≤ s.holds name version := by
          rw [h.holds]
          split
          · rename_i hon
            exact countP_pos_of_getElem? hx hon
          · exact Nat.zero_le _
        rw [hsame, Nat.sub_add_cancel hle]
        rfl
      · exact h.releases _ hx hclaimed
    · exact h
  · exact h

/-- The copy is registered: it is of no version a drop still has to check, and of none that a drop
    destroys, since it holds it. -/
theorem DropOk.registers (h : DropOk s) (j : Nat) (id driverDeviceId : String) (data : DriverData)
    (now : Int) (writable : Bool)
    (hok : s.KeepsListed (.register j id driverDeviceId data now writable)) :
    DropOk (s.register o j id driverDeviceId data now writable) := by
  unfold Baselines.register
  split
  · rename_i x hx
    split
    · rename_i hcond
      have hclaimed : x.point.isClaimed = true := by rw [hcond.1]; rfl
      split
      · rename_i r hcommit
        have happly := commits_eq_some hcommit
        have hlive : ∀ ref, LiveCopy r ref → LiveCopy s.registry ref ∨ x.spec.baseline = some ref := by
          rintro ref ⟨v, hv, hlive, href⟩
          rcases apply_device_from happly hv with ⟨d, hd, hstays⟩ | ⟨d, ⟨w, rfl, hw⟩, hstays⟩
          · obtain ⟨w, rfl, -, hspec, hdeleted⟩ := hstays.virtual
            exact .inl ⟨w, hd, fun hdel => hlive (hdeleted hdel), hspec ▸ href⟩
          · obtain ⟨w', hw', -, hspec, -⟩ := hstays.virtual
            obtain rfl := Device.virtual.inj hw'
            exact .inr (by rw [← href, hspec, hw.2.2.1])
        have hadded : DropOk { s with
            registry := r
            made := s.made ++ [(⟨id, x.spec, x.row⟩ : Made)] } := by
          refine ⟨h.holds, h.outdated, h.unheld, fun row rest listed hd hcopy => ?_,
            fun row rest listed hd y hy hcopy => ?_⟩
          · rcases hlive _ hcopy with hcopy | href
            · exact h.uncopied row rest listed hd hcopy
            · obtain ⟨row', hrow', he⟩ := Option.map_eq_some_iff.mp href
              have hon : holdsOn row.name row.version x = true :=
                (holdsOn_of hclaimed hrow' _ _).mpr ⟨congrArg BaselineRef.name he.symm,
                  congrArg BaselineRef.version he.symm⟩
              have hzero := h.unheld row rest listed hd
              rw [h.holds] at hzero
              have hpos := countP_pos_of_getElem? hx hon
              omega
          · rcases hlive _ hcopy with hcopy | href
            · exact h.listed row rest listed hd y hy hcopy
            · obtain ⟨row', hrow', he⟩ := Option.map_eq_some_iff.mp href
              by_contra hunlisted
              refine hok x hx hcond.1 row' hrow' ?_
              have hd' : s.job = some (.dropping row rest listed) := hd
              simp only [toCheck, hd', he]
              exact List.mem_filter.mpr ⟨List.mem_map_of_mem hy, by simpa using hunlisted⟩
        exact hadded.releases _ hx hclaimed
      · exact h.releases _ hx hclaimed
    · exact h
  · exact h

/-- A making that claims nothing is added. -/
theorem holds_append (h : DropOk s) {x : Making} (hx : x.point.isClaimed = false)
    (name : String) (version : Int) : s.holds name version =
      (s.makings ++ [x]).countP (holdsOn name version) := by
  have hnot := holdsOn_not (.inl hx) name version
  simp [List.countP_append, hnot, h.holds]

theorem grant_same (k : Nat) (q : BaselineRequest) (generated : String)
    (input : Registry.CreateLeaseInput) (now : Int) (writable : Bool) :
    NoNewCopy s.made s.registry (s.grant o k q generated input now writable).registry ∧
      (s.grant o k q generated input now writable).job = s.job ∧
      (s.grant o k q generated input now writable).rows = s.rows ∧
      (s.grant o k q generated input now writable).makings = s.makings ∧
      (s.grant o k q generated input now writable).holds = s.holds := by
  unfold Baselines.grant
  split
  · rename_i hcommit
    exact ⟨.of_apply s.made (commits_eq_some hcommit) fun _ hadds => hadds, rfl, rfl, rfl, rfl⟩
  · exact ⟨.refl _ _, rfl, rfl, rfl, rfl⟩

theorem DropOk.grants (h : DropOk s) (k : Nat) (q : BaselineRequest) (generated : String)
    (input : Registry.CreateLeaseInput) (now : Int) (writable : Bool) :
    DropOk (s.grant o k q generated input now writable) := by
  obtain ⟨hnew, hjob, hrows, hmakings, hholds⟩ := grant_same (o := o) k q generated input now writable
  exact h.same hjob hnew hrows hmakings hholds

theorem DropOk.sets (h : DropOk s) (k : Nat) (q : BaselineRequest) : DropOk (s.setRequest k q) :=
  h.same rfl (.refl _ _) rfl rfl rfl

theorem DropOk.saves (h : DropOk s) (leaseId name : String) (deferReclaim : Bool) (now : Int)
    (writable : Bool) : DropOk (s.save o leaseId name deferReclaim now writable) := by
  unfold Baselines.save
  dsimp only
  split
  · exact .idle h.holds nofun
  · rename_i hcommit
    exact h.same rfl (.of_apply s.made (commits_eq_some hcommit) fun _ hadds => hadds) rfl rfl rfl
  · exact h

theorem DropOk.retires (h : DropOk s) (now : Int) (writable : Bool) :
    DropOk (s.retired o now writable) := by
  unfold Baselines.retired
  split
  · split
    · exact .idle h.holds nofun
    · exact h.jobs nofun
  · exact h

theorem DropOk.step (h : DropOk s) (a : Action) (hok : s.KeepsListed a) : DropOk (s.step o a) := by
  cases a with
  | save leaseId name deferReclaim now writable =>
    exact h.saves leaseId name deferReclaim now writable
  | saved answer =>
    simp only [Baselines.step, saved]
    split
    · exact h.jobs (by simp)
    · exact h.jobs (by simp)
    · exact h
  | retired now writable => exact h.retires now writable
  | inserted =>
    simp only [Baselines.step, inserted]
    split
    · exact .idle h.holds fun _ _ _ hd => by cases hd
    · exact h
  | cleaned ok =>
    simp only [Baselines.step, cleaned]
    split
    · split
      · exact h.drops
      · exact h.jobs (by simp)
    · exact h
  | drop =>
    simp only [Baselines.step, drop]
    split
    · exact h.drops
    · exact h
  | remove name =>
    simp only [Baselines.step, remove]
    split
    · exact h.jobs (by simp)
    · exact h
  | claimedIdle busy =>
    simp only [Baselines.step, claimedIdle]
    split
    · refine h.jobs fun _ _ _ hd => ?_
      split at hd <;> cases hd
    · exact h
  | disposed ok =>
    simp only [Baselines.step, disposed]
    split
    · refine h.jobs fun _ _ _ hd => ?_
      split at hd <;> cases hd
    · exact h
  | destroyed ok => exact h.destroyeds ok
  | removeAll =>
    exact h.later (fun _ _ _ hd => hd) (fun _ hcopy => hcopy)
      (fun _ _ => .inr fun _ hc => absurd hc List.not_mem_nil) h.holds h.unheld
  | request name =>
    simp only [Baselines.step, request]
    split
    · exact h.same rfl (.refl _ _) rfl rfl rfl
    · exact h
  | plan k outcome now writable =>
    simp only [Baselines.step, plan]
    split
    · split
      · split
        · exact h.sets _ _
        · exact h.sets _ _
        · split
          · exact h.sets _ _
          · exact h.sets _ _
        · split
          · split
            · exact h.grants ..
            · exact h.sets _ _
          · exact h.sets _ _
      · exact h
    · exact h
  | perform k =>
    simp only [Baselines.step, perform]
    split
    · split
      · exact h.beside rfl rfl rfl (holds_append h rfl) h.unheld
      · exact h
    · exact h
  | booted k ok =>
    simp only [Baselines.step, booted]
    split
    · split
      · exact h.sets _ _
      · exact h
    · exact h
  | grantHandoff k generated input now writable =>
    simp only [Baselines.step, grantHandoff]
    split
    · split
      · split
        · exact h.sets _ _
        · split
          · exact h.grants ..
          · exact h
      · exact h
    · exact h
  | reject k => exact h.same rfl (.refl _ _) rfl rfl rfl
  | provision spec => exact h.beside rfl rfl rfl (holds_append h rfl) h.unheld
  | claim j refused => exact h.claims j refused
  | drove j ok => exact h.droves j ok
  | register j id driverDeviceId data now writable =>
    exact h.registers j id driverDeviceId data now writable hok
  | other c now =>
    rw [other_same]
    exact h.same rfl (noNewCopy_other c now) rfl rfl rfl
  | restart => exact .idle (fun _ _ => rfl) fun _ _ _ hd => by cases hd

theorem dropOk_start : DropOk start := .idle (fun _ _ => rfl) nofun

/-! ### A drop destroys what nothing uses -/

/-- A version whose source is being destroyed by a drop is not the newest of its name, no device
    that is not deleted is a copy of it, and no provision that claimed it is under way. -/
structure DropsUnused (s : Baselines) : Prop where
  replaced : ∀ row rest listed, s.Dropping row rest listed → ∀ c : BaselineRow,
    currentBaseline s.rows row.name = some c → c.version ≠ row.version
  uncopied : ∀ row rest listed, s.Dropping row rest listed → ¬ LiveCopy s.registry row.ref
  unheld : ∀ row rest listed, s.Dropping row rest listed → s.holds row.name row.version = 0 ∧
    ∀ x ∈ s.makings, holdsOn row.name row.version x = false

theorem DropOk.unused (h : DropOk s) : DropsUnused s := by
  refine ⟨fun row rest listed hd c hc => ?_, h.uncopied, fun row rest listed hd => ?_⟩
  · exact (h.outdated row rest listed hd row List.mem_cons_self).not_current hc
  · have hzero := h.unheld row rest listed hd
    refine ⟨hzero, fun x hx => ?_⟩
    rw [h.holds, List.countP_eq_zero] at hzero
    simpa using hzero x hx

/-- In every run in which no copy is registered of a version that a drop under way listed no copy of
    and still has to check, the drops destroy unused sources only. -/
theorem drops_only_unused (o : RegistryOptions) (acts : List Action)
    (hok : AllSteps (step o) KeepsListed start acts) :
    DropsUnused (run (step o) start acts) := by
  have hrun : DropOk (run (step o) start acts) :=
    run_invariant_of_allSteps (I := DropOk) (fun _ a hok h => h.step a hok) acts start
      dropOk_start hok
  exact hrun.unused

/-- The version whose source a drop destroys. -/
def destroying (s : Baselines) : Option BaselineRef :=
  match s.job with
  | some (.dropping row ..) => some row.ref
  | _ => none

theorem destroying_spec {ref : BaselineRef} (h : s.destroying = some ref) :
    ∃ row rest listed, s.Dropping row rest listed ∧ row.ref = ref := by
  unfold destroying at h
  split at h
  · rename_i row rest listed hjob
    exact ⟨row, rest, listed, hjob, Option.some.inj h⟩
  · cases h

/-- Two simulators are saved under one name, so that the second save drops the first version. -/
def savedTwice : List Action :=
  [.provision (simulator "iPhone 15")] ++ comesUp 0 "dev_1" ++ savesFrom "dev_1" "app" ++
    [.provision (simulator "iPhone 16")] ++ comesUp 1 "dev_2" ++ savesFrom "dev_2" "app"

theorem drops_only_unused_savedTwice :
    (run (step shortRetention) start savedTwice).destroying = some ⟨"app", 1⟩ ∧
    DropsUnused (run (step shortRetention) start savedTwice) :=
  ⟨by decide +kernel, drops_only_unused shortRetention savedTwice (by decide +kernel)⟩

/-! ### A copy that is registered behind a drop's back -/

/-- The first version's source could not be destroyed. A copy of the second is being made when a
    third is saved, and is registered while the new drop destroys the first. -/
def copyBehindDrop : List Action :=
  savedTwice ++ [.destroyed false, .request "app", .plan 0 .provision 6 true, .perform 0,
    .claim 2 false, .provision (simulator "iPhone 17")] ++ comesUp 3 "dev_3" ++
    savesFrom "dev_3" "app" ++ [.drove 2 true, .register 2 "dev_4" "udid_4" simulatorData 8 true,
      .destroyed true]

/-- The drop destroys the source of version 2 under its live copy. -/
theorem drop_destroys_used_source :
    ¬ DropsUnused (run (step shortRetention) start copyBehindDrop) := by
  intro h
  have hjob : (run (step shortRetention) start copyBehindDrop).destroying = some ⟨"app", 2⟩ := by
    decide +kernel
  have hcopy : (virtualDevices (run (step shortRetention) start copyBehindDrop).registry).any
      (fun v => v.state ≠ .deleted && v.spec.baseline = some ⟨"app", 2⟩) = true := by
    decide +kernel
  obtain ⟨row, rest, listed, hd, href⟩ := destroying_spec hjob
  obtain ⟨v, hv, hlive⟩ := List.any_eq_true.mp hcopy
  simp only [ne_eq, decide_not, Bool.and_eq_true, Bool.not_eq_true', decide_eq_false_iff_not,
    decide_eq_true_eq] at hlive
  exact h.uncopied row rest listed hd ⟨v, mem_virtualDevices.mp hv, hlive.1, href ▸ hlive.2⟩

end Baselines

end Simlock.Worker
