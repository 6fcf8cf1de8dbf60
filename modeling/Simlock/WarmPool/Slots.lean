import Simlock.WarmPool.Proposals
import Simlock.Lib.Keyed

/-! No prefix of a pass takes more running slots than there are.

    Carrying out a proposal gives back a slot or takes one, of a platform and of the machine. The
    pass keeps `room` beside the proposals it emits, and `room` never promises more than is free
    (`Accounted`): slots are held back for waiting requests, and a device shut down for its memory
    is not counted as a free slot. So a boot that finds room leaves no account over its limit, and
    one for a target leaves the reserve. -/

namespace Simlock.WarmPool
open Core

/-! ### Accounts -/

/-- The slots of a platform, or with `none` of the machine. -/
def Slots.get (room : Slots) : Option Platform → Int
  | none => room.global
  | some platform => room.platform platform

def RunningCapacity.entry (capacity : RunningCapacity) : Option Platform → RunningCapacityEntry
  | none => capacity.global
  | some .ios => capacity.ios
  | some .android => capacity.android

def limitOf (view : WarmPolicyView) (account : Option Platform) : Int :=
  (view.capacity.entry account).maxRunning

/-- What runs and what is reserved, before the pass. -/
def usedOf (view : WarmPolicyView) (account : Option Platform) : Int :=
  (view.capacity.entry account).running + (view.capacity.entry account).reserved

/-- The platform a proposal is about. -/
def WarmProposal.platform (view : WarmPolicyView) : WarmProposal → Option Platform
  | .shutdown deviceId _ | .boot deviceId _ _ =>
    (view.devices.find? fun device => device.id = deviceId).map (·.spec.platform)
  | .provision spec _ _ => some spec.platform

/-- The slots a proposal takes; a shutdown frees one. -/
def WarmProposal.slots : WarmProposal → Int
  | .shutdown _ _ => -1
  | .boot _ _ _ => 1
  | .provision _ _ _ => 1

/-- A proposal is one of the machine and of its platform. -/
def Concerns (view : WarmPolicyView) (account : Option Platform) (proposal : WarmProposal) : Prop :=
  account = none ∨ account = proposal.platform view

instance (view : WarmPolicyView) (account : Option Platform) (proposal : WarmProposal) :
    Decidable (Concerns view account proposal) :=
  inferInstanceAs (Decidable (_ ∨ _))

/-- What runs and what is reserved once the proposals `done` are carried out. -/
def usedAfter (view : WarmPolicyView) (done : List WarmProposal) (account : Option Platform) :
    Int :=
  usedOf view account +
    (done.map fun proposal => if Concerns view account proposal then proposal.slots else 0).sum

/-- A boot or creation for a target. -/
def WarmProposal.forTarget : WarmProposal → Bool
  | .shutdown _ _ => false
  | .boot _ reason _ => reason = .target
  | .provision _ reason _ => reason = .target

/-! ### Room -/

theorem get_add (room : Slots) (platform : Platform) (n : Int) (account : Option Platform) :
    (room.add platform n).get account =
      room.get account + if account = none ∨ account = some platform then n else 0 := by
  rcases account with _ | _ | _ <;> cases platform <;>
    simp [Slots.add, Slots.get, Slots.platform]

theorem usedAfter_nil (view : WarmPolicyView) (account : Option Platform) :
    usedAfter view [] account = usedOf view account := by simp [usedAfter]

theorem usedAfter_concat (view : WarmPolicyView) (done : List WarmProposal)
    (proposal : WarmProposal) (account : Option Platform) :
    usedAfter view (done ++ [proposal]) account = usedAfter view done account +
      if Concerns view account proposal then proposal.slots else 0 := by
  simp [usedAfter, Int.add_assoc]

theorem usedAfter_of_platform {view : WarmPolicyView} {proposal : WarmProposal}
    {platform : Platform} (h : proposal.platform view = some platform) (done : List WarmProposal)
    (account : Option Platform) :
    usedAfter view (done ++ [proposal]) account = usedAfter view done account +
      if account = none ∨ account = some platform then proposal.slots else 0 := by
  have hconcerns : Concerns view account proposal ↔ account = none ∨ account = some platform := by
    unfold Concerns
    rw [h]
  simp only [usedAfter_concat, hconcerns]

theorem get_roomOf (view : WarmPolicyView) (account : Option Platform) :
    (roomOf view.capacity).get account = limitOf view account - usedOf view account := by
  rcases account with _ | _ | _ <;>
    simp [roomOf, Slots.get, Slots.platform, limitOf, usedOf, RunningCapacity.entry] <;> omega

/-- At least one slot for the platform, over what `held` holds back. -/
def Free (room held : Slots) (platform : Platform) : Prop :=
  ∀ account, account = none ∨ account = some platform → held.get account + 1 ≤ room.get account

/-- Nothing held back. -/
def noSlots : Slots := ⟨0, 0, 0⟩

theorem get_noSlots (account : Option Platform) : noSlots.get account = 0 := by
  rcases account with _ | _ | _ <;> rfl

theorem free_of_room {room : Slots} {platform : Platform} (hglobal : 1 ≤ room.global)
    (hplatform : 1 ≤ room.platform platform) : Free room noSlots platform := by
  intro account haccount
  rw [get_noSlots]
  rcases haccount with rfl | rfl
  · simpa [Slots.get] using hglobal
  · simpa [Slots.get] using hplatform

theorem free_of_slotShort {room held : Slots} {platform : Platform}
    (h : slotShort room held platform = none) :
    Free room noSlots platform ∧ Free room held platform := by
  unfold slotShort at h
  split at h
  · cases h
  · rename_i hrunning
    split at h
    · cases h
    · rename_i hreserve
      simp only [Bool.or_eq_true, decide_eq_true_eq, not_or, Int.not_lt] at hrunning hreserve
      refine ⟨free_of_room hrunning.1 hrunning.2, fun account haccount => ?_⟩
      rcases haccount with rfl | rfl
      · have hglobal := hreserve.1
        simp only [Slots.get]
        omega
      · have hplatform := hreserve.2
        simp only [Slots.get]
        omega

/-! ### The account of a pass -/

/-- What `room` promises is free after the proposals so far, of which every prefix was safe. -/
structure Accounted (view : WarmPolicyView) (done : List WarmProposal) (room : Slots) : Prop where
  covered : ∀ account, room.get account ≤ limitOf view account - usedAfter view done account
  bounded : ∀ before, before <+: done → ∀ account,
    usedAfter view before account ≤ max (limitOf view account) (usedOf view account)
  reserved : ∀ before proposal, before ++ [proposal] <+: done → proposal.forTarget = true →
    ∀ account, Concerns view account proposal → (reservedOf view).get account ≤
      limitOf view account - usedAfter view (before ++ [proposal]) account

namespace Accounted

variable {view : WarmPolicyView} {done : List WarmProposal} {room : Slots} {platform : Platform}

theorem start (view : WarmPolicyView) : Accounted view [] (roomOf view.capacity) := by
  refine ⟨fun account => ?_, fun before hpre account => ?_, fun before proposal hpre => ?_⟩
  · rw [get_roomOf, usedAfter_nil]
  · rw [List.prefix_nil.mp hpre, usedAfter_nil]
    exact le_max_right _ _
  · simp at hpre

/-- A slot held back. -/
theorem hold (h : Accounted view done room) (platform : Platform) :
    Accounted view done (holdSlot room platform) := by
  refine ⟨fun account => ?_, h.bounded, h.reserved⟩
  have hcovered := h.covered account
  unfold holdSlot
  rw [get_add]
  split <;> omega

/-- A proposal more, with what its slots leave. -/
theorem concat {proposal : WarmProposal} {room' : Slots} (h : Accounted view done room)
    (hcovered : ∀ account, room'.get account ≤
      limitOf view account - usedAfter view (done ++ [proposal]) account)
    (hbounded : ∀ account, usedAfter view (done ++ [proposal]) account ≤
      max (limitOf view account) (usedOf view account))
    (hreserved : proposal.forTarget = true → ∀ account, Concerns view account proposal →
      (reservedOf view).get account ≤
        limitOf view account - usedAfter view (done ++ [proposal]) account) :
    Accounted view (done ++ [proposal]) room' := by
  refine ⟨hcovered, fun before hpre account => ?_, fun before last hpre htarget account ha => ?_⟩
  · rcases List.prefix_concat_iff.mp hpre with rfl | hpre
    · exact hbounded account
    · exact h.bounded before hpre account
  · rcases List.prefix_concat_iff.mp hpre with heq | hpre
    · obtain ⟨rfl, hlast⟩ := List.append_inj' heq rfl
      cases hlast
      exact hreserved htarget account ha
    · exact h.reserved before last hpre htarget account ha

/-- A shutdown that is not counted as a free slot. -/
theorem shutUncounted (h : Accounted view done room) (deviceId : String) (reason : WarmReason) :
    Accounted view (done ++ [.shutdown deviceId reason]) room := by
  have hless : ∀ account, usedAfter view (done ++ [.shutdown deviceId reason]) account ≤
      usedAfter view done account := by
    intro account
    rw [usedAfter_concat]
    split <;> simp [WarmProposal.slots]
  refine h.concat (fun account => ?_) (fun account => ?_) nofun
  · have hcovered := h.covered account
    have hless := hless account
    omega
  · exact (hless account).trans (h.bounded done (List.prefix_refl _) account)

/-- A shutdown whose slot is given back. -/
theorem shut (h : Accounted view done room) {deviceId : String} (reason : WarmReason)
    (hplatform : (WarmProposal.shutdown deviceId reason).platform view = some platform) :
    Accounted view (done ++ [.shutdown deviceId reason]) (room.add platform 1) := by
  have hshut := h.shutUncounted deviceId reason
  refine ⟨fun account => ?_, hshut.bounded, hshut.reserved⟩
  have hcovered := h.covered account
  rw [get_add, usedAfter_of_platform hplatform]
  simp only [WarmProposal.slots]
  split <;> omega

/-- A boot or creation where a slot is free; for a target, one over the reserve. -/
theorem takes {proposal : WarmProposal} (h : Accounted view done room)
    (hslots : proposal.slots = 1) (hplatform : proposal.platform view = some platform)
    (hfree : Free room noSlots platform)
    (htarget : proposal.forTarget = true → Free room (reservedOf view) platform) :
    Accounted view (done ++ [proposal]) (room.add platform (-1)) := by
  have hused : ∀ account, usedAfter view (done ++ [proposal]) account =
      usedAfter view done account +
        if account = none ∨ account = some platform then 1 else 0 := by
    intro account
    rw [usedAfter_of_platform hplatform, hslots]
  refine h.concat (fun account => ?_) (fun account => ?_) (fun hfor account ha => ?_)
  · have hcovered := h.covered account
    rw [get_add, hused]
    split <;> omega
  · have hcovered := h.covered account
    rw [hused]
    split
    · rename_i ha
      have hroom := hfree account ha
      rw [get_noSlots] at hroom
      exact le_max_of_le_left (by omega)
    · rw [Int.add_zero]
      exact h.bounded done (List.prefix_refl _) account
  · unfold Concerns at ha
    rw [hplatform] at ha
    have hcovered := h.covered account
    have hroom := htarget hfor account ha
    rw [hused, if_pos ha]
    omega

end Accounted

/-! ### The rules of a pass -/

section
variable {view : WarmPolicyView} {done : List WarmProposal}

theorem platform_of_mem {device : VirtualDevice} (h : device ∈ view.devices) :
    (view.devices.find? fun other => other.id = device.id).map (·.spec.platform) =
      some device.spec.platform := by
  rw [Lib.find_key_eq_some view.nodup h, Option.map_some]

theorem Accounted.overBudgetLoop {held : Slots} (rounds : Nat) {room : Slots}
    {candidates : List VirtualDevice} (hdevices : ∀ device ∈ candidates, device ∈ view.devices)
    (h : Accounted view done room) :
    Accounted view (done ++ (overBudgetLoop held rounds room candidates).1.map fun device =>
      .shutdown device.id .overBudget) (overBudgetLoop held rounds room candidates).2 := by
  induction rounds generalizing room candidates done with
  | zero => simpa [WarmPool.overBudgetLoop] using h
  | succ rounds ih =>
    unfold WarmPool.overBudgetLoop
    split
    · simpa using h
    · rename_i victim hvictim
      have hmem := hdevices victim (nextVictim_mem hvictim)
      have hleft : ∀ device ∈ candidates.eraseP fun device => device.id = victim.id,
          device ∈ view.devices := fun device hin => hdevices device (List.mem_of_mem_eraseP hin)
      rw [List.map_cons, List.append_cons]
      exact ih hleft (h.shut .overBudget (platform_of_mem hmem))

theorem accounted_budgeted (view : WarmPolicyView) :
    Accounted view ((budgeted view).1.map fun device => .shutdown device.id .overBudget)
      (budgeted view).2 := by
  have hstart := Accounted.start view
  unfold budgeted
  split
  · exact hstart
  · refine hstart.overBudgetLoop _ fun device hmem => ?_
    exact (mem_running.mp (List.mem_filter.mp hmem).1).1

theorem Accounted.turn {demand : WaitingDemand} {s s' : QueueState}
    (h : Served view demand s s') (hs : Accounted view (done ++ s.proposals) s.room) :
    Accounted view (done ++ s'.proposals) s'.room := by
  cases h with
  | nothing hroom hproposals =>
    rw [hproposals]
    rcases hroom with hsame | hheld
    · rwa [hsame]
    · rw [hheld]
      exact hs.hold demand.platform
  | booted device hmem _ hfits _ _ _ hroom hproposals =>
    simp only [hasRoom, Bool.and_eq_true, decide_eq_true_eq] at hfits
    rw [hproposals, hroom, ← List.append_assoc]
    exact hs.takes rfl (platform_of_mem (mem_bootable.mp hmem).1) (free_of_room hfits.1 hfits.2)
      nofun
  | created hfits _ _ _ hroom hproposals =>
    rw [hproposals, hroom, ← List.append_assoc, demand.platform_spec]
    rw [demand.platform_spec] at hfits
    exact hs.takes rfl rfl (free_of_room hfits.1 hfits.2) nofun

theorem Accounted.foldl_release (devices : List VirtualDevice) {room : Slots}
    (hdevices : ∀ device ∈ devices, device ∈ view.devices) (reason : WarmReason)
    (h : Accounted view done room) :
    Accounted view (done ++ devices.map fun device => .shutdown device.id reason)
      (devices.foldl release room) := by
  induction devices generalizing room done with
  | nil => simpa using h
  | cons device rest ih =>
    rw [List.map_cons, List.append_cons]
    exact ih (fun other hmem => hdevices other (.tail _ hmem))
      (h.shut reason (platform_of_mem (hdevices device (.head _))))

theorem accounted_beforeTargets (view : WarmPolicyView) :
    Accounted view (beforeTargets view) (planStart view).room := by
  have hqueue : Accounted view ((budgeted view).1.map (fun device =>
      .shutdown device.id .overBudget) ++ (queued view).proposals) (queued view).room := by
    refine queued_rule (fun started => ?_) (fun _ _ _ _ h => Accounted.turn h)
    rw [show (queueStart (budgeted view).2 started).proposals = [] from rfl, List.append_nil]
    exact accounted_budgeted view
  have hidle := hqueue.foldl_release (unneeded view)
    (fun device hmem => (unneeded_shuttable hmem).1.1.1) .neverLeasedIdle
  unfold beforeTargets
  cases shed view with
  | none => simpa [planStart] using hidle
  | some device => exact hidle.shutUncounted device.id .memoryPressure

theorem Accounted.addTo {plan : TargetPlan} {spec : VirtualSpec}
    (hrefused : refusal (planning view) plan spec = none)
    (h : Accounted view (done ++ plan.proposals) plan.room) :
    Accounted view (done ++ (addTo (planning view) plan spec).proposals)
      (addTo (planning view) plan spec).room := by
  have hslot : slotShort plan.room (reservedOf view) spec.platform = none := by
    unfold refusal at hrefused
    dsimp only at hrefused
    split at hrefused
    · rename_i hlimit
      rw [hlimit] at hrefused
      cases hrefused
    · exact (Option.or_eq_none_iff.mp hrefused).1
  obtain ⟨hroom, hheld⟩ := free_of_slotShort hslot
  rw [addTo_room]
  unfold WarmPool.addTo
  cases hcandidate : bootCandidate (planning view) plan spec with
  | none =>
    dsimp only
    rw [← List.append_assoc]
    exact h.takes rfl rfl hroom fun _ => hheld
  | some device =>
    obtain ⟨hmem, -, rfl⟩ := mem_of_bootCandidate hcandidate
    dsimp only
    rw [← List.append_assoc]
    exact h.takes rfl (platform_of_mem (mem_bootable.mp hmem).1) hroom fun _ => hheld

/-- What each event of the targets keeps. -/
structure PlanAccounted (view : WarmPolicyView) (plan : TargetPlan) : Prop where
  drawn : PlanDrawn view plan
  accounted : Accounted view (beforeTargets view ++ plan.proposals) plan.room

theorem PlanAccounted.apply {plan : TargetPlan} {event : PlanEvent}
    (hvalid : Valid (planning view) plan event) (h : PlanAccounted view plan) :
    PlanAccounted view (event.apply (planning view) plan) := by
  refine ⟨h.drawn.apply hvalid, ?_⟩
  unfold PlanEvent.apply
  cases hvictim : event.victim with
  | none => exact h.accounted.addTo (hvalid.added hvictim).1
  | some victim =>
    have hmem := h.drawn.victims victim (mem_of_displaceable (hvalid.displaced victim hvictim))
    have hdevice := (victims_shuttable hmem).1.1.1
    dsimp only [TargetPlan.displace]
    rw [← List.append_assoc]
    exact h.accounted.shut .displaced (platform_of_mem hdevice)

end

/-- The account of a whole pass. -/
theorem exists_accounted (view : WarmPolicyView) :
    ∃ room, Accounted view (evaluate view).proposals room := by
  cases hon : view.config.enabled with
  | false =>
    rw [evaluate_off hon]
    have hoff := (Accounted.start view).foldl_release (running view)
      (fun device hmem => (mem_running.mp hmem).1) .disabled
    rw [List.nil_append] at hoff
    exact ⟨_, hoff⟩
  | true =>
    have hstart : PlanAccounted view (planStart view) := by
      refine ⟨planStart_drawn view, ?_⟩
      rw [show (planStart view).proposals = [] from rfl, List.append_nil]
      exact accounted_beforeTargets view
    have hwanted : PlanAccounted view (wanted view).2 :=
      (planTargets_plays (planStart view)).rule (each_true _ _)
        (fun _ _ _ hvalid _ h => PlanAccounted.apply hvalid h) hstart
    rw [evaluate_on hon]
    exact ⟨_, hwanted.accounted⟩

/-- However far a pass is carried out, no account is over the larger of its limit and what it was
    at; and after a boot or creation for a target the reserve is still free. -/
theorem prefixes_within_limits (view : WarmPolicyView) :
    (∀ done, done <+: (evaluate view).proposals → ∀ account,
      usedAfter view done account ≤ max (limitOf view account) (usedOf view account)) ∧
    ∀ done proposal, done ++ [proposal] <+: (evaluate view).proposals →
      proposal.forTarget = true → ∀ account, account = none ∨ account = proposal.platform view →
        (reservedOf view).get account ≤
          limitOf view account - usedAfter view (done ++ [proposal]) account := by
  obtain ⟨room, haccounted⟩ := exists_accounted view
  exact ⟨haccounted.bounded, haccounted.reserved⟩

end Simlock.WarmPool
