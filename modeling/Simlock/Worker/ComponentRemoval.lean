import Simlock.Worker.InstallQueues

/-! A component that is being removed is used by nothing.

    A removal counts the devices and the claims on its component in one section, and marks it there;
    a provision claims in a section that finds the mark. So from the mark on

        devices on the component + claims on it = 0

    until the removal gives its turn back. A claim ends in the section that registers its device, so
    the sum never misses a device that is being made. -/

namespace Simlock.Worker

open Simlock.Lib Simlock.Core

/-- Whether a removal has its platform's turn. -/
def RemovalPoint.hasTurn : RemovalPoint → Bool
  | .counting | .removing | .deleting | .ending _ => true
  | .listing | .listed | .finished _ => false

/-- Where a removal has marked its component, and where it has not. -/
def RemovalPoint.Marks : RemovalPoint → Bool → Prop
  | .listing, marked | .listed, marked | .counting, marked => marked = false
  | .removing, marked | .deleting, marked => marked = true
  | .ending _, _ | .finished _, _ => True

/-- Whether a provision holds its claim. -/
def ProvisionPoint.isClaimed : ProvisionPoint → Bool
  | .provisioning | .registering => true
  | .claiming | .over => false

/-- No device of a registry is on a component. -/
def Unused (r : Registry) (platform : Platform) (version : String) : Prop :=
  ∀ v, Device.virtual v ∈ r.devices → v.spec.platform = platform → v.spec.osVersion = version →
    v.state = .deleted

/-- A commit that registers no device leaves an unused component unused. -/
theorem Unused.apply {r r' : Registry} {o : RegistryOptions} {now : Int} {c : Call}
    (happly : r.apply o now c = some r') {platform : Platform} {version : String}
    (hadds : ∀ v, Adds o now (.virtual v) c → v.spec.platform = platform →
      v.spec.osVersion ≠ version) (h : Unused r platform version) : Unused r' platform version := by
  intro v hv hplatform hversion
  rcases apply_device_from happly hv with ⟨d, hd, hstays⟩ | ⟨d, hd, hstays⟩
  · obtain ⟨w, rfl, -, hspec, hdeleted⟩ := hstays.virtual
    exact hdeleted (h w hd (hspec ▸ hplatform) (hspec ▸ hversion))
  · obtain ⟨w, rfl, -, hspec, -⟩ := hstays.virtual
    exact absurd (hspec ▸ hversion) (hadds w hd (hspec ▸ hplatform))

namespace ComponentInstaller

variable {o : RegistryOptions} {p : InstallerOptions} {s s' s'' : ComponentInstaller}

/-- A provision's claim on a component. -/
def claimsOn (platform : Platform) (version : String) (x : Provision) : Bool :=
  x.point.isClaimed && x.spec.platform = platform && x.spec.osVersion = version

/-- The removals, their turns and marks, and the claims that they count. -/
structure RemovalsOk (s : ComponentInstaller) : Prop where
  turn : ∀ platform m, s.turns platform = some m ↔
    ∃ x : Removal, s.removals[m]? = some x ∧ x.platform = platform ∧ x.point.hasTurn = true
  marks : ∀ (m : Nat) (x : Removal), s.removals[m]? = some x → x.point.Marks x.marked
  clear : ∀ (m : Nat) (x : Removal), s.removals[m]? = some x → x.marked = true →
    x.point.hasTurn = true → Unused s.registry x.platform x.version ∧
      s.provisioning x.platform x.version = 0
  claimed : ∀ platform version, s.provisioning platform version =
    s.provisions.countP (claimsOn platform version)

/-- The count a removal refuses on is zero when nothing uses the component. -/
theorem simlockDevices_eq_zero {platform : Platform} {version : String} :
    s.simlockDevices platform version = 0 ↔
      Unused s.registry platform version ∧ s.provisioning platform version = 0 := by
  rw [simlockDevices, Nat.add_eq_zero_iff, List.countP_eq_zero]
  refine and_congr_left fun _ => ?_
  simp only [mem_virtualDevices, Bool.and_eq_true, decide_eq_true_eq, ne_eq]
  constructor
  · intro h v hv hplatform hversion
    by_contra hstate
    exact h v hv ⟨⟨hstate, hplatform⟩, hversion⟩
  · rintro h v hv ⟨⟨hstate, hplatform⟩, hversion⟩
    exact hstate (h v hv hplatform hversion)

/-! ### What touches no removal and no provision -/

/-- What removals and provisions look at is the same, or is used no more. -/
structure SameUse (s s' : ComponentInstaller) : Prop where
  unused : ∀ platform version, Unused s.registry platform version →
    Unused s'.registry platform version
  removals : s'.removals = s.removals
  turns : s'.turns = s.turns
  provisions : s'.provisions = s.provisions
  provisioning : s'.provisioning = s.provisioning

theorem SameUse.refl (s : ComponentInstaller) : SameUse s s :=
  ⟨fun _ _ h => h, rfl, rfl, rfl, rfl⟩

theorem SameUse.trans (h : SameUse s s') (h' : SameUse s' s'') : SameUse s s'' :=
  ⟨fun p v hu => h'.unused p v (h.unused p v hu), h'.removals.trans h.removals,
    h'.turns.trans h.turns, h'.provisions.trans h.provisions,
    h'.provisioning.trans h.provisioning⟩

/-- A change of the installs, the calls and the queues. -/
theorem SameUse.of_same (hr : s'.registry = s.registry) (hm : s'.removals = s.removals)
    (ht : s'.turns = s.turns) (hk : s'.provisions = s.provisions)
    (hp : s'.provisioning = s.provisioning) : SameUse s s' :=
  ⟨fun _ _ h => hr ▸ h, hm, ht, hk, hp⟩

theorem RemovalsOk.same (h : RemovalsOk s) (e : SameUse s s') : RemovalsOk s' := by
  refine ⟨?_, ?_, ?_, ?_⟩
  · rw [e.turns, e.removals]
    exact h.turn
  · rw [e.removals]
    exact h.marks
  · rw [e.removals, e.provisioning]
    intro m x hx hmarked hturn
    obtain ⟨hunused, hclaims⟩ := h.clear m x hx hmarked hturn
    exact ⟨e.unused _ _ hunused, hclaims⟩
  · rw [e.provisioning, e.provisions]
    exact h.claimed

theorem sameUse_settle (n c : Nat) (result : InstallEnd) (settledBy : SettledBy) :
    SameUse s (s.settle n c result settledBy) := by
  unfold settle
  split
  · split
    · exact .of_same rfl rfl rfl rfl rfl
    · exact .refl s
  · exact .refl s

theorem sameUse_settleAll (n : Nat) (result : InstallEnd) (settledBy : SettledBy) :
    SameUse s (s.settleAll n result settledBy) := by
  have hfold : ∀ (calls : List Nat) (s : ComponentInstaller),
      SameUse s (calls.foldl (fun s c => s.settle n c result settledBy) s) := by
    intro calls
    induction calls with
    | nil => exact fun s => .refl s
    | cons c calls ih => exact fun s => (sameUse_settle n c result settledBy).trans (ih _)
  unfold settleAll
  split
  · exact hfold _ s
  · exact .refl s

theorem sameUse_close : SameUse s s.close := by
  have hfold : ∀ (ns : List Nat) (s : ComponentInstaller),
      SameUse s (ns.foldl (fun s n => s.settleAll n .closed .close) s) := by
    intro ns
    induction ns with
    | nil => exact fun s => .refl s
    | cons n ns ih => exact fun s => (sameUse_settleAll n _ _).trans (ih _)
  have hclosed : SameUse s { s with closed := true } := .of_same rfl rfl rfl rfl rfl
  exact hclosed.trans (hfold _ _)

theorem sameUse_checkStillNeeded (n : Nat) : SameUse s (s.checkStillNeeded n) := by
  unfold checkStillNeeded
  split
  · exact .of_same rfl rfl rfl rfl rfl
  · exact .refl s

theorem sameUse_pump (platform : Platform) : SameUse s (s.pump platform) := by
  unfold pump
  split
  · split
    · rename_i n _ _ i _
      split
      · have hset : SameUse s (s.setInstall n { i with state := .front }) :=
          .of_same rfl rfl rfl rfl rfl
        exact hset.trans (sameUse_checkStillNeeded n)
      · exact .refl s
    · exact .refl s
  · exact .refl s

theorem sameUse_finish (n : Nat) : SameUse s (s.finish n) := by
  unfold finish
  split
  · refine SameUse.trans ?_ (sameUse_pump _)
    exact .of_same rfl rfl rfl rfl rfl
  · exact .refl s

theorem sameUse_waitAt (n : Nat) (point : RunPoint) (state : InstallState → InstallState) :
    SameUse s (s.waitAt n point state) := by
  unfold waitAt
  split
  · exact .of_same rfl rfl rfl rfl rfl
  · exact .refl s

theorem sameUse_goOn (n : Nat) (point : RunPoint) (state : InstallState → InstallState) :
    SameUse s (s.goOn n point state) := by
  unfold goOn
  split
  · exact sameUse_finish n
  · exact sameUse_waitAt n point state

theorem sameUse_endRun (n : Nat) (result : InstallEnd) : SameUse s (s.endRun n result) :=
  (sameUse_settleAll n result _).trans (sameUse_finish n)

theorem sameUse_install (request : InstallRequest) (now : Int) :
    SameUse s (s.install p request now) := by
  unfold install
  split
  · exact .of_same rfl rfl rfl rfl rfl
  · split
    · split
      · refine SameUse.trans ?_ (sameUse_pump _)
        exact .of_same rfl rfl rfl rfl rfl
      · refine SameUse.trans ?_ (sameUse_pump _)
        exact .of_same rfl rfl rfl rfl rfl
    · exact .of_same rfl rfl rfl rfl rfl

theorem sameUse_expire (c : Nat) (now : Int) : SameUse s (s.expire c now) := by
  unfold expire
  split
  · split
    · split
      · split
        · rename_i n _ _ i _
          split
          · have hset : SameUse s (s.setInstall n { i with state := .ended }) :=
              .of_same rfl rfl rfl rfl rfl
            exact hset.trans (sameUse_settleAll n _ _)
          · exact sameUse_settle n c _ _
        · exact .refl s
      · exact .refl s
    · exact .refl s
  · exact .refl s

theorem sameUse_answered (n : Nat) (answer : Answer Bool) : SameUse s (s.answered n answer) := by
  unfold answered
  split
  · split
    · exact sameUse_checkStillNeeded n
    · exact (sameUse_settle n _ _ _).trans (sameUse_checkStillNeeded n)
    · exact (sameUse_settle n _ _ _).trans (sameUse_checkStillNeeded n)
  · exact .refl s

theorem sameUse_recorded (n : Nat) (now : Int) (receipt : Entries) (writable : Bool) :
    SameUse s (s.recorded o n now receipt writable) := by
  unfold recorded
  split
  · split
    · split
      · split
        · rename_i r happly
          split
          · have hr : SameUse s { s with registry := r } :=
              ⟨fun _ _ hu => hu.apply happly fun _ hadds => hadds.elim, rfl, rfl, rfl, rfl⟩
            exact hr.trans ((sameUse_settleAll n _ _).trans (sameUse_waitAt n _ _))
          · exact sameUse_endRun n _
        · exact sameUse_endRun n _
      · exact sameUse_endRun n _
    · exact .refl s
  · exact .refl s

/-! ### A removal goes on -/

/-- A removal stays as it is about its turn. -/
theorem RemovalsOk.stays (h : RemovalsOk s) {m : Nat} {x x' : Removal}
    (hx : s.removals[m]? = some x) (hplatform : x'.platform = x.platform)
    (hturn : x'.point.hasTurn = x.point.hasTurn) (hmarks : x'.point.Marks x'.marked)
    (hclear : x'.marked = true → x'.point.hasTurn = true →
      Unused s.registry x'.platform x'.version ∧ s.provisioning x'.platform x'.version = 0) :
    RemovalsOk (s.setRemoval m x') := by
  have hget := fun k => getElem?_set_if hx x' k
  refine ⟨fun platform k => ?_, fun k y hy => ?_, fun k y hy => ?_, h.claimed⟩
  · rw [show (s.setRemoval m x').turns = s.turns from rfl, h.turn]
    simp only [setRemoval, hget]
    by_cases hk : k = m
    · subst hk
      simp [hx, hplatform, hturn]
    · simp [hk]
  · rw [show (s.setRemoval m x').removals[k]? = _ from hget k] at hy
    split at hy
    · obtain rfl := Option.some.inj hy
      exact hmarks
    · exact h.marks k y hy
  · rw [show (s.setRemoval m x').removals[k]? = _ from hget k] at hy
    split at hy
    · obtain rfl := Option.some.inj hy
      exact hclear
    · exact h.clear k y hy

/-- A removal takes the turn of its platform, with its component not marked yet. -/
theorem RemovalsOk.takes (h : RemovalsOk s) {m : Nat} {x x' : Removal}
    (hx : s.removals[m]? = some x) (hplatform : x'.platform = x.platform)
    (hfree : s.turns x.platform = none) (hpoint : x'.point = .counting)
    (hmarked : x'.marked = false) :
    RemovalsOk { s.setRemoval m x' with
      turns := Function.update s.turns x.platform (some m) } := by
  have hget : ∀ k, (s.setRemoval m x').removals[k]? = if k = m then some x' else s.removals[k]? :=
    getElem?_set_if hx x'
  refine ⟨fun platform k => ?_, fun k y hy => ?_, fun k y hy => ?_, h.claimed⟩
  · dsimp only
    rw [hget]
    by_cases hp : platform = x.platform
    · subst hp
      rw [Function.update_self]
      by_cases hk : k = m
      · simp [hk, hplatform, hpoint, RemovalPoint.hasTurn]
      · have hnot : ¬ ∃ y, s.removals[k]? = some y ∧ y.platform = x.platform ∧
            y.point.hasTurn = true := by
          rw [← h.turn, hfree]
          nofun
        simp only [if_neg hk, hnot, iff_false, Option.some.injEq]
        exact fun he => hk he.symm
    · rw [Function.update_of_ne hp, h.turn]
      by_cases hk : k = m
      · simp [hk, hx, hplatform, Ne.symm hp]
      · simp [hk]
  · replace hy := (hget k).symm.trans hy
    split at hy
    · obtain rfl := Option.some.inj hy
      rw [hpoint]
      exact hmarked
    · exact h.marks k y hy
  · replace hy := (hget k).symm.trans hy
    split at hy
    · obtain rfl := Option.some.inj hy
      exact fun hm => by simp [hmarked] at hm
    · exact h.clear k y hy

/-- A removal gives its turn back. -/
theorem RemovalsOk.gives (h : RemovalsOk s) {m : Nat} {x : Removal} (how : RemovalEnd)
    (hx : s.removals[m]? = some x) (hhad : x.point.hasTurn = true) :
    RemovalsOk { s.setRemoval m { x with point := .finished how } with
      turns := Function.update s.turns x.platform none } := by
  have hget : ∀ k, (s.setRemoval m { x with point := .finished how }).removals[k]? =
      if k = m then some { x with point := .finished how } else s.removals[k]? := getElem?_set_if hx _
  have hown : s.turns x.platform = some m := (h.turn _ _).mpr ⟨x, hx, rfl, hhad⟩
  refine ⟨fun platform k => ?_, fun k y hy => ?_, fun k y hy => ?_, h.claimed⟩
  · dsimp only
    rw [hget]
    by_cases hp : platform = x.platform
    · subst hp
      rw [Function.update_self]
      by_cases hk : k = m
      · simp [hk, RemovalPoint.hasTurn]
      · have hnot : ¬ ∃ y, s.removals[k]? = some y ∧ y.platform = x.platform ∧
            y.point.hasTurn = true := by
          rw [← h.turn, hown]
          exact fun he => hk (Option.some.inj he).symm
        simp only [if_neg hk, hnot, iff_false]
        nofun
    · rw [Function.update_of_ne hp, h.turn]
      by_cases hk : k = m
      · simp [hk, hx, Ne.symm hp]
      · simp [hk]
  · replace hy := (hget k).symm.trans hy
    split at hy
    · obtain rfl := Option.some.inj hy
      trivial
    · exact h.marks k y hy
  · replace hy := (hget k).symm.trans hy
    split at hy
    · obtain rfl := Option.some.inj hy
      exact fun _ ht => by cases ht
    · exact h.clear k y hy

theorem RemovalsOk.listeds (h : RemovalsOk s) {m : Nat} {x : Removal}
    (hx : s.removals[m]? = some x) (hpoint : x.point = .listing)
    (answer : Answer (List DriverComponent)) : RemovalsOk (s.listed m x answer) := by
  have hmarks := h.marks m x hx
  rw [hpoint] at hmarks
  have hover : ∀ how, RemovalsOk (s.setRemoval m { x with point := .finished how }) :=
    fun how => h.stays hx rfl (by simp [hpoint, RemovalPoint.hasTurn]) trivial nofun
  unfold listed
  split
  · exact hover _
  · split
    · exact hover _
    · dsimp only
      split
      · exact hover _
      · exact h.stays hx rfl (by simp [hpoint, RemovalPoint.hasTurn]) hmarks nofun

theorem RemovalsOk.takeTurns (h : RemovalsOk s) {m : Nat} {x : Removal}
    (hx : s.removals[m]? = some x) (hpoint : x.point = .listed) :
    RemovalsOk (s.takeTurn m x) := by
  have hmarks := h.marks m x hx
  rw [hpoint] at hmarks
  have hover : ∀ how, RemovalsOk (s.setRemoval m { x with point := .finished how }) :=
    fun how => h.stays hx rfl (by simp [hpoint, RemovalPoint.hasTurn]) trivial nofun
  unfold takeTurn
  dsimp only
  split
  · exact hover _
  · split
    · exact hover _
    · rename_i hbusy
      split
      · exact hover _
      · exact h.takes hx rfl (by simpa using (not_or.mp hbusy).2) rfl hmarks

/-- The section that marks finds nothing on the component. -/
theorem RemovalsOk.counteds (h : RemovalsOk s) {m : Nat} {x : Removal}
    (hx : s.removals[m]? = some x) (hpoint : x.point = .counting) :
    RemovalsOk (s.counted m x) := by
  have hmarks := h.marks m x hx
  rw [hpoint] at hmarks
  have hunmarked : ¬ x.marked = true := by simpa using (show x.marked = false from hmarks)
  unfold counted
  dsimp only
  split
  · exact h.stays hx rfl (by simp [hpoint, RemovalPoint.hasTurn]) trivial
      fun hm => absurd hm hunmarked
  · rename_i hnone
    refine h.stays hx rfl (by simp [hpoint, RemovalPoint.hasTurn]) rfl fun _ _ => ?_
    exact simlockDevices_eq_zero.mp (Nat.eq_zero_of_not_pos hnone)

theorem RemovalsOk.removes (h : RemovalsOk s) (m : Nat) (listing : Answer (List DriverComponent))
    (driver : Answer Unit) (now : Int) (writable : Bool) :
    RemovalsOk (s.removes o m listing driver now writable) := by
  unfold ComponentInstaller.removes
  split
  · rename_i x hx
    have hkeeps : ∀ point : RemovalPoint, point.hasTurn = true → x.point.hasTurn = true →
        point.Marks x.marked → RemovalsOk (s.setRemoval m { x with point := point }) :=
      fun point hturn hhad hmarks =>
        h.stays hx rfl (hturn.trans hhad.symm) hmarks fun hm _ => h.clear m x hx hm hhad
    dsimp only
    split
    · exact h.listeds hx (by assumption) _
    · exact h.takeTurns hx (by assumption)
    · exact h.counteds hx (by assumption)
    · rename_i hpoint
      have hhad : x.point.hasTurn = true := by rw [hpoint]; rfl
      have hmarks := h.marks m x hx
      rw [hpoint] at hmarks
      split
      · exact hkeeps _ rfl hhad hmarks
      · exact hkeeps _ rfl hhad trivial
    · rename_i hpoint
      have hhad : x.point.hasTurn = true := by rw [hpoint]; rfl
      split
      · rename_i r happly
        have hr : SameUse s { s with registry := r } :=
          ⟨fun _ _ hu => hu.apply happly fun _ hadds => hadds.elim, rfl, rfl, rfl, rfl⟩
        exact (h.same hr).stays hx rfl (by rw [hhad]; rfl) trivial
          fun hm _ => (h.same hr).clear m x hx hm hhad
      · exact hkeeps _ rfl hhad trivial
    · rename_i hpoint
      have hhad : x.point.hasTurn = true := by rw [hpoint]; rfl
      exact (h.gives _ hx hhad).same (sameUse_pump _)
    · exact h
  · exact h

/-! ### A provision goes on -/

theorem claim_provisioning (spec : VirtualSpec) (add : Nat → Nat) (platform : Platform)
    (version : String) : (s.claim spec add).provisioning platform version =
      if platform = spec.platform ∧ version = spec.osVersion then
        add (s.provisioning platform version) else s.provisioning platform version := by
  simp only [claim]
  by_cases hp : platform = spec.platform
  · subst hp
    rw [Function.update_self]
    by_cases hv : version = spec.osVersion
    · simp [hv]
    · simp [hv]
  · simp [hp]

/-- The removals see the provisions through the claims only. -/
theorem RemovalsOk.provides (h : RemovalsOk s) (hm : s'.removals = s.removals)
    (ht : s'.turns = s.turns)
    (hclear : ∀ (m : Nat) (x : Removal), s.removals[m]? = some x → x.marked = true →
      x.point.hasTurn = true → Unused s'.registry x.platform x.version ∧
        s'.provisioning x.platform x.version = 0)
    (hclaimed : ∀ platform version, s'.provisioning platform version =
      s'.provisions.countP (claimsOn platform version)) : RemovalsOk s' := by
  refine ⟨?_, ?_, ?_, hclaimed⟩
  · rw [hm, ht]
    exact h.turn
  · rw [hm]
    exact h.marks
  · rw [hm]
    exact hclear

theorem claimsOn_of {x : Provision} (hx : x.point.isClaimed = true) (platform : Platform)
    (version : String) : claimsOn platform version x = true ↔
      platform = x.spec.platform ∧ version = x.spec.osVersion := by
  simp only [claimsOn, hx, Bool.true_and, Bool.and_eq_true, decide_eq_true_eq]
  exact and_congr eq_comm eq_comm

theorem claimsOn_not {x : Provision} (hx : x.point.isClaimed = false) (platform : Platform)
    (version : String) : claimsOn platform version x = false := by
  simp [claimsOn, hx]

/-- A provision that keeps or drops no claim. -/
theorem RemovalsOk.keepsClaim (h : RemovalsOk s) {k : Nat} {x : Provision}
    (hx : s.provisions[k]? = some x) {point : ProvisionPoint}
    (hpoint : point.isClaimed = x.point.isClaimed) :
    RemovalsOk (s.setProvision k { x with point := point }) := by
  refine h.provides rfl rfl h.clear fun platform version => ?_
  have hcount := countP_set_of_getElem? { x with point := point } hx
    (claimsOn platform version)
  have hsame : claimsOn platform version { x with point := point } =
      claimsOn platform version x := by simp [claimsOn, hpoint]
  rw [hsame] at hcount
  refine (h.claimed platform version).trans (Eq.trans ?_ hcount.symm)
  split
  · rename_i hq
    have := countP_pos_of_getElem? hx hq
    omega
  · rfl

/-- A claim is refused while its component is being removed. -/
theorem RemovalsOk.claims (h : RemovalsOk s) {k : Nat} {x : Provision}
    (hx : s.provisions[k]? = some x) (hpoint : x.point = .claiming)
    (hfree : s.beingRemoved x.spec.platform x.spec.osVersion = false) :
    RemovalsOk ((s.setProvision k { x with point := .provisioning }).claim x.spec (· + 1)) := by
  refine h.provides rfl rfl (fun m y hy hmarked hturn => ?_) fun platform version => ?_
  · obtain ⟨hunused, hclaims⟩ := h.clear m y hy hmarked hturn
    refine ⟨hunused, ?_⟩
    rw [claim_provisioning, if_neg]
    · exact hclaims
    · rintro ⟨hplatform, hversion⟩
      have htaken := (h.turn _ _).mpr ⟨y, hy, rfl, hturn⟩
      simp [beingRemoved, ← hplatform, htaken, hy, hmarked, hversion] at hfree
  · have hcount := countP_set_of_getElem? { x with point := .provisioning } hx
      (claimsOn platform version)
    have hold := claimsOn_not (x := x) (by rw [hpoint]; rfl) platform version
    have hnew := claimsOn_of (x := { x with point := .provisioning }) rfl platform version
    rw [claim_provisioning]
    refine Eq.trans ?_ hcount.symm
    simp only [hold, hnew, setProvision, h.claimed platform version]
    split <;> simp

/-- A claim ends, and a device of its component may be registered with it. -/
theorem RemovalsOk.releases (h : RemovalsOk s) {k : Nat} {x : Provision} {r : Registry}
    (hx : s.provisions[k]? = some x) (hpoint : x.point.isClaimed = true)
    (hr : ∀ platform version, ¬ (platform = x.spec.platform ∧ version = x.spec.osVersion) →
      Unused s.registry platform version → Unused r platform version) :
    RemovalsOk ({ s with registry := r }.release k x) := by
  have hone : ∀ platform version, platform = x.spec.platform ∧ version = x.spec.osVersion →
      0 < s.provisioning platform version := by
    intro platform version he
    rw [h.claimed]
    exact countP_pos_of_getElem? hx ((claimsOn_of hpoint platform version).mpr he)
  have hapart : ∀ (m : Nat) (y : Removal), s.removals[m]? = some y → y.marked = true →
      y.point.hasTurn = true →
      ¬ (y.platform = x.spec.platform ∧ y.version = x.spec.osVersion) := by
    intro m y hy hmarked hturn he
    have hzero := (h.clear m y hy hmarked hturn).2
    exact absurd hzero (Nat.pos_iff_ne_zero.mp (hone _ _ he))
  refine h.provides rfl rfl (fun m y hy hmarked hturn => ?_) fun platform version => ?_
  · obtain ⟨hunused, hclaims⟩ := h.clear m y hy hmarked hturn
    have hne := hapart m y hy hmarked hturn
    refine ⟨hr _ _ hne hunused, ?_⟩
    rw [release, claim_provisioning, if_neg hne]
    exact hclaims
  · have hcount := countP_set_of_getElem? { x with point := .over } hx
      (claimsOn platform version)
    have hold := claimsOn_of hpoint platform version
    have hnew := claimsOn_not (x := { x with point := .over }) rfl platform version
    rw [release, claim_provisioning]
    refine Eq.trans ?_ hcount.symm
    simp only [hold, hnew, setProvision, h.claimed platform version]
    split <;> simp

theorem RemovalsOk.provisions (h : RemovalsOk s) (k : Nat) (baselineKnown : Bool)
    (driver : Answer DriverData) (id driverDeviceId : String) (now : Int) (writable : Bool) :
    RemovalsOk (s.provisions_ o k baselineKnown driver id driverDeviceId now writable) := by
  unfold provisions_
  split
  · rename_i x hx
    have hrelease : x.point.isClaimed = true → RemovalsOk (s.release k x) := fun hpoint =>
      h.releases hx hpoint fun _ _ _ hu => hu
    split
    · rename_i hpoint
      split
      · exact h.keepsClaim hx (by rw [hpoint]; rfl)
      · rename_i hfree
        rw [Bool.or_eq_true, not_or] at hfree
        exact h.claims hx hpoint (by simpa using hfree.1)
    · rename_i hpoint
      split
      · exact h.keepsClaim hx (by rw [hpoint]; rfl)
      · exact hrelease (by rw [hpoint]; rfl)
    · rename_i hpoint
      split
      · split
        · rename_i r happly
          refine h.releases hx (by rw [hpoint]; rfl) fun platform version hne hu => ?_
          refine hu.apply happly ?_
          rintro v ⟨w, hw, -, -, hspec, -⟩ rfl rfl
          obtain rfl := Device.virtual.inj hw
          exact hne ⟨by rw [hspec], by rw [hspec]⟩
        · exact hrelease (by rw [hpoint]; rfl)
      · exact hrelease (by rw [hpoint]; rfl)
    · exact h
  · exact h

/-! ### Steps -/

theorem RemovalsOk.remove (h : RemovalsOk s) (platform : Platform) (version : String)
    (dryRun : Bool) : RemovalsOk (s.remove p platform version dryRun) := by
  have hadds : ∀ (x : Removal), x.point.hasTurn = false → x.marked = false →
      x.point.Marks x.marked → RemovalsOk { s with removals := s.removals ++ [x] } := by
    intro x hturn hmarked hmarks
    have hget := getElem?_append_one s.removals x
    refine ⟨fun platform k => ?_, fun k y hy => ?_, fun k y hy => ?_, h.claimed⟩
    · rw [h.turn]
      simp only [hget]
      by_cases hk : k = s.removals.length
      · simp [hk, hturn]
      · simp [hk]
    · replace hy := (hget k).symm.trans hy
      split at hy
      · obtain rfl := Option.some.inj hy
        exact hmarks
      · exact h.marks k y hy
    · replace hy := (hget k).symm.trans hy
      split at hy
      · obtain rfl := Option.some.inj hy
        exact fun hm => by simp [hmarked] at hm
      · exact h.clear k y hy
  unfold ComponentInstaller.remove
  dsimp only
  split
  · exact hadds _ rfl rfl trivial
  · split
    · split
      · exact hadds _ rfl rfl trivial
      · exact hadds _ rfl rfl rfl
    · exact hadds _ rfl rfl trivial

theorem RemovalsOk.provision (h : RemovalsOk s) (spec : VirtualSpec) :
    RemovalsOk { s with provisions := s.provisions ++ [⟨spec, .claiming⟩] } := by
  refine h.provides rfl rfl h.clear fun platform version => ?_
  have hnew := claimsOn_not (x := ⟨spec, .claiming⟩) rfl platform version
  simp [List.countP_append, hnew, h.claimed]

/-- A commit of the rest of the daemon adds no virtual device. -/
theorem sameUse_other (c : Call) (now : Int) : SameUse s (s.step o p (.other c now)) := by
  have hadds : (∀ id driverDeviceId spec driverData,
      c ≠ .registerDevice id driverDeviceId spec driverData) →
      SameUse s { s with registry := (s.registry.apply o now c).getD s.registry } := by
    intro hc
    cases happly : s.registry.apply o now c with
    | none => exact .of_same rfl rfl rfl rfl rfl
    | some r =>
      refine ⟨fun _ _ hu => hu.apply happly fun v hv => ?_, rfl, rfl, rfl, rfl⟩
      cases c with
      | registerDevice id driverDeviceId spec driverData => exact absurd rfl (hc _ _ _ _)
      | enrollPhysical id input =>
        obtain ⟨q, hq, -⟩ := hv
        cases hq
      | _ => exact hv.elim
  cases c with
  | registerDevice id driverDeviceId spec driverData => exact .refl s
  | _ => exact hadds fun _ _ _ _ he => by cases he

theorem RemovalsOk.step (h : RemovalsOk s) (a : Action) : RemovalsOk (s.step o p a) := by
  cases a with
  | install request now => exact h.same (sameUse_install request now)
  | answered n answer => exact h.same (sameUse_answered n answer)
  | checksDone n =>
    simp only [ComponentInstaller.step, checksDone]
    split
    · exact h.same (sameUse_goOn n _ _)
    · exact h
  | found n answer =>
    simp only [ComponentInstaller.step, found]
    split
    · split
      · exact h.same (sameUse_goOn n _ _)
      · exact h.same (sameUse_endRun n _)
      · exact h.same (sameUse_endRun n _)
    · exact h
  | reserved n answer =>
    simp only [ComponentInstaller.step, reserved]
    split
    · split
      · exact h.same (sameUse_goOn n _ _)
      · exact h.same (sameUse_endRun n _)
    · exact h
  | drove n answer =>
    simp only [ComponentInstaller.step, drove]
    split
    · split
      · exact h.same (sameUse_waitAt n _ _)
      · exact h.same ((sameUse_settleAll n _ _).trans (sameUse_waitAt n _ _))
      · exact h.same (sameUse_endRun n _)
    · exact h
  | recorded n now receipt writable => exact h.same (sameUse_recorded n now receipt writable)
  | driverDone n =>
    simp only [ComponentInstaller.step, driverDone]
    split
    · exact h.same (sameUse_finish n)
    · exact h
  | expire c now => exact h.same (sameUse_expire c now)
  | close => exact h.same sameUse_close
  | remove platform version dryRun => exact h.remove platform version dryRun
  | removes m listing driver now writable => exact h.removes m listing driver now writable
  | provision spec => exact h.provision spec
  | provisions k baselineKnown driver id driverDeviceId now writable =>
    exact h.provisions k baselineKnown driver id driverDeviceId now writable
  | other c now => exact h.same (sameUse_other c now)

theorem removalsOk_start (r : Registry) : RemovalsOk (start r) := by
  refine ⟨fun platform m => ?_, fun m x hx => ?_, fun m x hx => ?_, fun _ _ => rfl⟩
  · simp [start]
  · simp [start] at hx
  · simp [start] at hx

theorem removalsOk_run (o : RegistryOptions) (p : InstallerOptions) (r : Registry)
    (acts : List Action) : RemovalsOk (run (step o p) (start r) acts) :=
  run_invariant (I := RemovalsOk) (fun _ a h => h.step a) acts (start r) (removalsOk_start r)

/-! ### Removal excludes use -/

/-- The driver runs of a platform: its installs, and its removals. -/
def driverRuns (s : ComponentInstaller) (platform : Platform) : Nat :=
  s.installs.countP (fun i => i.point = .driving && i.platform = platform) +
    s.removals.countP fun x => x.point = .removing && x.platform = platform

/-- What a marked component and the driver's turns are, at any moment. -/
structure RemovalExcludesUse (s : ComponentInstaller) : Prop where
  unused : ∀ (m : Nat) (x : Removal), s.removals[m]? = some x → x.marked = true →
    (∀ how, x.point ≠ .finished how) →
    (∀ v, Device.virtual v ∈ s.registry.devices → v.spec.platform = x.platform →
      v.spec.osVersion = x.version → v.state = .deleted) ∧
    s.provisioning x.platform x.version = 0 ∧
    ∀ y ∈ s.provisions, y.point = .provisioning ∨ y.point = .registering →
      y.spec.platform = x.platform → y.spec.osVersion ≠ x.version
  /-- The driver removes nothing that is not marked. -/
  marked : ∀ (m : Nat) (x : Removal), s.removals[m]? = some x → x.point = .removing →
    x.marked = true
  one : ∀ platform, s.driverRuns platform ≤ 1

theorem RemovalsOk.hasTurn_of_marked (h : RemovalsOk s) {m : Nat} {x : Removal}
    (hx : s.removals[m]? = some x) (hmarked : x.marked = true)
    (hlive : ∀ how, x.point ≠ .finished how) : x.point.hasTurn = true := by
  have hmarks := h.marks m x hx
  rw [hmarked] at hmarks
  cases hpoint : x.point with
  | listing => simp [hpoint, RemovalPoint.Marks] at hmarks
  | listed => simp [hpoint, RemovalPoint.Marks] at hmarks
  | counting => rfl
  | removing => rfl
  | deleting => rfl
  | ending how => rfl
  | finished how => exact absurd hpoint (hlive how)

/-- The driver's turn of a platform is a removal's, or the head of the queue's. -/
theorem RemovalsOk.one (h : RemovalsOk s) (hq : QueuesOk none s) (platform : Platform) :
    s.driverRuns platform ≤ 1 := by
  have hinstall : ∀ (n : Nat) (i : Install), s.installs[n]? = some i →
      (i.point = .driving && i.platform = platform) = true →
      (s.queues platform).head? = some n ∧ s.turns platform = none := by
    intro n i hi hdriving
    simp only [Bool.and_eq_true, decide_eq_true_eq] at hdriving
    obtain ⟨hpoint, rfl⟩ := hdriving
    exact hq.head n i.platform i.state i.point (by simp [statusOf, hi]) (by rw [hpoint]; rfl)
  have hremoval : ∀ (m : Nat) (x : Removal), s.removals[m]? = some x →
      (x.point = .removing && x.platform = platform) = true → s.turns platform = some m := by
    intro m x hx hremoving
    simp only [Bool.and_eq_true, decide_eq_true_eq] at hremoving
    exact (h.turn platform m).mpr ⟨x, hx, hremoving.2, by rw [hremoving.1]; rfl⟩
  have hinstalls : s.installs.countP (fun i => i.point = .driving && i.platform = platform) ≤ 1 :=
    countP_le_one fun i j a b ha hb hqa hqb =>
      Option.some.inj ((hinstall i a ha hqa).1.symm.trans (hinstall j b hb hqb).1)
  have hremovals : s.removals.countP (fun x => x.point = .removing && x.platform = platform) ≤ 1 :=
    countP_le_one fun i j a b ha hb hqa hqb =>
      Option.some.inj ((hremoval i a ha hqa).symm.trans (hremoval j b hb hqb))
  rw [driverRuns]
  by_cases hnone : s.removals.countP (fun x => x.point = .removing && x.platform = platform) = 0
  · omega
  · obtain ⟨x, hx, hqx⟩ := List.countP_pos_iff.mp (Nat.pos_of_ne_zero hnone)
    obtain ⟨m, hm⟩ := List.mem_iff_getElem?.mp hx
    have hturn := hremoval m x hm hqx
    have hzero : s.installs.countP (fun i => i.point = .driving && i.platform = platform) = 0 := by
      refine List.countP_eq_zero.mpr fun i hi hqi => ?_
      obtain ⟨n, hn⟩ := List.mem_iff_getElem?.mp hi
      have hfree := (hinstall n i hn hqi).2
      rw [hturn] at hfree
      cases hfree
    omega

theorem RemovalsOk.excludesUse (h : RemovalsOk s) (hq : QueuesOk none s) :
    RemovalExcludesUse s := by
  refine ⟨fun m x hx hmarked hlive => ?_, fun m x hx hpoint => ?_, h.one hq⟩
  · obtain ⟨hunused, hclaims⟩ := h.clear m x hx hmarked (h.hasTurn_of_marked hx hmarked hlive)
    refine ⟨hunused, hclaims, fun y hy hpoint hplatform hversion => ?_⟩
    rw [h.claimed, List.countP_eq_zero] at hclaims
    have hclaimed : y.point.isClaimed = true := by
      rcases hpoint with hpoint | hpoint
      · rw [hpoint]
        rfl
      · rw [hpoint]
        rfl
    exact hclaims y hy ((claimsOn_of hclaimed _ _).mpr ⟨hplatform.symm, hversion.symm⟩)
  · have hmarks := h.marks m x hx
    rw [hpoint] at hmarks
    exact hmarks

/-- In any run of installs, removals, provisions and a close, from the mark of a removal to its end
    no device of its component is registered and no provision holds a claim on it, and no platform
    has two driver runs at once. -/
theorem removal_excludes_use (o : RegistryOptions) (p : InstallerOptions) (r : Registry)
    (acts : List Action) : RemovalExcludesUse (run (step o p) (start r) acts) :=
  (removalsOk_run o p r acts).excludesUse (queuesOk_run o p r acts)

end ComponentInstaller

end Simlock.Worker
