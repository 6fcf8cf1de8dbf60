import Simlock.WarmPool.Policy

/-! What one pass of the pool does, move by move.

    The queue pass takes one turn for each waiter (`Served`). Filling the targets is a list of
    events: a boot or creation added for a kind, or an idle device displaced for one. `fillEvents`
    and its companions read that list off the loops of `planTargets`, and `Plays` says that the
    events, each valid in the plan it meets, lead from the first plan to the last. What holds of
    every plan is then shown event by event, never loop by loop. -/

namespace Simlock.WarmPool
open Core

/-! ### Devices of a view -/

/-- Ready, with no lease and no claim. -/
def IdleReady (view : WarmPolicyView) (device : VirtualDevice) : Prop :=
  device ∈ view.devices ∧ device.state = .ready ∧ idle view device = true

theorem mem_running {view : WarmPolicyView} {device : VirtualDevice} :
    device ∈ running view ↔ IdleReady view device := by
  simp [running, List.mem_insertionSort, IdleReady]

theorem mem_bootable {view : WarmPolicyView} {device : VirtualDevice} :
    device ∈ bootable view ↔ device ∈ view.devices ∧ device.state = .shutdown ∧
      grantable device = true ∧ idle view device = true := by
  simp [bootable, and_assoc]

/-- One id names one device. -/
theorem eq_of_id {view : WarmPolicyView} {a b : VirtualDevice} (ha : a ∈ view.devices)
    (hb : b ∈ view.devices) (hid : a.id = b.id) : a = b :=
  List.inj_on_of_nodup_map view.nodup ha hb hid

theorem nodup_running (view : WarmPolicyView) : ((running view).map (·.id)).Nodup := by
  have hperm : (running view).Perm (view.devices.filter fun device =>
      device.state = .ready && idle view device) := List.perm_insertionSort _ _
  refine ((hperm.map (·.id)).nodup_iff).mpr ?_
  exact view.nodup.sublist (List.filter_sublist.map _)

theorem readyOfKind_length (devices : List VirtualDevice) (isIdle : VirtualDevice → Bool)
    (spec : VirtualSpec) : (readyOfKind devices isIdle spec).length =
      devices.countP fun device => device.state = .ready && isIdle device && grantable device &&
        sameSpec device.spec spec := by
  simp [readyOfKind, List.length_insertionSort, List.countP_eq_length_filter]

theorem mem_eraseP_id {devices : List VirtualDevice} {victim device : VirtualDevice}
    (hnodup : (devices.map (·.id)).Nodup)
    (h : device ∈ devices.eraseP fun d => d.id = victim.id) :
    device ∈ devices ∧ device.id ≠ victim.id := by
  refine ⟨List.mem_of_mem_eraseP h, fun hid => ?_⟩
  have hmap : (devices.eraseP fun d => d.id = victim.id).map (·.id) =
      (devices.map (·.id)).eraseP (· = victim.id) := by
    rw [List.eraseP_map]
    rfl
  have hgone : victim.id ∉ (devices.map (·.id)).eraseP (· = victim.id) := by
    have := hnodup.not_mem_erase (a := victim.id)
    rwa [List.erase_eq_eraseP'] at this
  rw [← hmap] at hgone
  have hin : device.id ∈ (devices.eraseP fun d => d.id = victim.id).map (·.id) :=
    List.mem_map_of_mem h
  rw [hid] at hin
  exact hgone hin

/-! ### The queue pass -/

theorem awaited_of_serves {waiting : List WaitingDemand} {device : VirtualDevice}
    {demand : WaitingDemand} (hmem : demand ∈ waiting) (hfree : demand.inFlight = false)
    (hserves : serves device demand = true) : awaited waiting device = true := by
  simp only [awaited, List.any_eq_true, Bool.and_eq_true, Bool.not_eq_true']
  exact ⟨demand, hmem, hfree, hserves⟩

/-- What one turn of the queue pass does: propose nothing, boot a device, or create one. -/
inductive Served (view : WarmPolicyView) (demand : WaitingDemand) (s s' : QueueState) : Prop
  | nothing (hroom : s'.room = s.room ∨ s'.room = holdSlot s.room demand.platform)
      (hproposals : s'.proposals = s.proposals) (htaken : s'.taken = s.taken)
      (hstarted : s'.started = s.started ∨ s.atHead = true ∧ s'.started = s.started + 1)
      (hhead : s'.atHead = true → s.atHead = true)
  | booted (device : VirtualDevice) (hmem : device ∈ bootable view) (hnew : device.id ∉ s.taken)
      (hfits : hasRoom s.room device = true) (hfree : demand.inFlight = false)
      (hserves : serves device demand = true)
      (hopen : s.started < view.config.maxConcurrentBoots)
      (hroom : s'.room = claim s.room device)
      (hproposals : s'.proposals = s.proposals ++ [.boot device.id .waitingRequest none])
      (htaken : s'.taken = device.id :: s.taken) (hstarted : s'.started = s.started + 1)
      (hhead : s'.atHead = false)
  | created (hfits : 1 ≤ s.room.global ∧ 1 ≤ s.room.platform demand.platform)
      (hfree : demand.inFlight = false) (hopen : s.started < view.config.maxConcurrentBoots)
      (hbehind : s.atHead = false) (hroom : s'.room = holdSlot s.room demand.platform)
      (hproposals : s'.proposals = s.proposals ++
        [.provision demand.spec .waitingRequest demand.spec])
      (htaken : s'.taken = s.taken) (hstarted : s'.started = s.started + 1)
      (hhead : s'.atHead = false)

/-- `bootForWaiter` boots a device that is free for it, within the cap. -/
theorem bootForWaiter_some {view : WarmPolicyView} {s s' : QueueState} {demand : WaitingDemand}
    (h : bootForWaiter view s demand = some s') :
    ∃ device, device ∈ bootable view ∧ device.id ∉ s.taken ∧ hasRoom s.room device = true ∧
      serves device demand = true ∧ s.started < view.config.maxConcurrentBoots ∧
      s' = { s with
        taken := device.id :: s.taken
        room := claim s.room device
        started := s.started + 1
        proposals := s.proposals ++ [.boot device.id .waitingRequest none] } := by
  unfold bootForWaiter at h
  split at h
  · cases h
  · rename_i hopen
    obtain ⟨device, hfind, rfl⟩ := Option.map_eq_some_iff.mp h
    have hmem := List.mem_of_find?_eq_some hfind
    have htest := List.find?_some hfind
    simp only [bootsOpen, Bool.not_eq_true', decide_eq_false_iff_not, not_not] at hopen
    simp only [Bool.and_eq_true, Bool.not_eq_true', List.contains_eq_mem,
      decide_eq_false_iff_not] at htest
    obtain ⟨⟨⟨⟨hnew, hfits⟩, hserves⟩, -⟩, -⟩ := htest
    exact ⟨device, hmem, hnew, hfits, hserves, hopen, rfl⟩

theorem serveWaiter_served (view : WarmPolicyView) (s : QueueState) (demand : WaitingDemand) :
    Served view demand s (serveWaiter view s demand) := by
  unfold serveWaiter
  dsimp only
  split
  · exact .nothing (.inr rfl) rfl rfl (.inl rfl) nofun
  · rename_i hfree
    have hfree : demand.inFlight = false := by simpa using hfree
    split
    · exact .nothing (.inl rfl) rfl rfl (.inl rfl) id
    · split
      · exact .nothing (.inl rfl) rfl rfl (.inl rfl) nofun
      · split
        · rename_i booted hboot
          obtain ⟨device, hmem, hnew, hfits, hserves, hopen, rfl⟩ := bootForWaiter_some hboot
          exact .booted device hmem hnew hfits hfree hserves hopen rfl rfl rfl rfl rfl
        · unfold createForWaiter
          split
          · rename_i hhead
            simp only [Bool.and_eq_true] at hhead
            exact .nothing (.inr rfl) rfl rfl (.inr ⟨hhead.1, rfl⟩) nofun
          · split
            · rename_i hcreate
              simp only [Bool.and_eq_true, Bool.not_eq_true', creatable, bootsOpen,
                decide_eq_true_eq] at hcreate
              obtain ⟨⟨⟨hbehind, ⟨⟨-, hglobal⟩, hplatform⟩⟩, hopen⟩, -⟩ := hcreate
              rw [← demand.platform_spec] at hplatform
              exact .created ⟨hglobal, hplatform⟩ hfree hopen hbehind rfl rfl rfl rfl rfl
            · exact .nothing (.inr rfl) rfl rfl (.inl rfl) nofun

/-- What every turn keeps, the whole queue pass keeps. -/
theorem boots_rule {view : WarmPolicyView} {room : Slots} {I : QueueState → Prop}
    (hstart : I (queueStart room (alreadyStarted view)))
    (hturn : ∀ demand ∈ view.waiting, ∀ s s', Served view demand s s' → I s → I s') :
    I (boots view room) := by
  refine List.foldlRecOn view.waiting _ hstart ?_
  intro s hs demand hmem
  exact hturn demand hmem s _ (serveWaiter_served view s demand) hs

theorem queued_rule {view : WarmPolicyView} {I : QueueState → Prop}
    (hstart : ∀ started, I (queueStart (budgeted view).2 started))
    (hturn : ∀ demand ∈ view.waiting, ∀ s s', Served view demand s s' → I s → I s') :
    I (queued view) := by
  unfold queued queuePass
  split
  · exact boots_rule (hstart _) hturn
  · exact hstart 0

/-! ### The events of a plan -/

/-- One move of `planTargets`, for a count of a kind: an idle device displaced, or one added. -/
structure PlanEvent where
  spec : VirtualSpec
  count : FillCount
  victim : Option VirtualDevice

def PlanEvent.apply (p : Planning) (plan : TargetPlan) (event : PlanEvent) : TargetPlan :=
  match event.victim with
  | none => addTo p plan event.spec
  | some victim => plan.displace victim

def addEvents (p : Planning) (spec : VirtualSpec) (count : FillCount) (plan : TargetPlan) :
    List PlanEvent :=
  if (refusal p plan spec).isNone then [⟨spec, count, none⟩] else []

def displaceEvents (p : Planning) (spec : VirtualSpec) (count : FillCount) :
    Nat → Option TargetShort → TargetPlan → List PlanEvent
  | 0, _, _ => []
  | rounds + 1, refused, plan =>
    if slotLacks count refused then
      match displaceable p plan spec count with
      | none => []
      | some victim =>
        let added := addOne p spec (plan.displace victim)
        ⟨spec, count, some victim⟩ :: (addEvents p spec count (plan.displace victim) ++
          displaceEvents p spec count rounds added.1 added.2)
    else []

def addDisplacingEvents (p : Planning) (spec : VirtualSpec) (count : FillCount)
    (plan : TargetPlan) : List PlanEvent :=
  let added := addOne p spec plan
  addEvents p spec count plan ++
    displaceEvents p spec count added.2.victims.length added.1 added.2

def fillLoopEvents (p : Planning) (spec : VirtualSpec) (count : FillCount) :
    Nat → TargetPlan → List PlanEvent
  | 0, _ => []
  | left + 1, plan =>
    if plan.started < p.view.config.maxConcurrentBoots then
      addDisplacingEvents p spec count plan ++
        match addDisplacing p spec count plan with
        | (some _, _) => []
        | (none, plan') => fillLoopEvents p spec count left plan'
    else []

def fillEvents (p : Planning) (spec : VirtualSpec) (missing : Int) (filling : Bool)
    (count : FillCount) (plan : TargetPlan) : List PlanEvent :=
  match holdFill p spec filling with
  | some _ => []
  | none => fillLoopEvents p spec count missing.toNat plan

def fillConfiguredEvents (p : Planning) (queued : List WarmProposal) (kind : PlannedKind)
    (plan : TargetPlan) : List PlanEvent :=
  let filling := pending p.view queued kind.spec
  let missing : Int := kind.configuredCount - plan.ready p kind.spec - filling
  if 0 < missing then fillEvents p kind.spec missing (0 < filling) .configured plan else []

def fillLearnedEvents (p : Planning) (queued : List WarmProposal) (kind : PlannedKind)
    (configured : Filled) (plan : TargetPlan) : List PlanEvent :=
  let ready := plan.ready p kind.spec
  let filling := pending p.view queued kind.spec
  let peak : Int := max (kind.learnedCount - leasedOfKind p.view kind.spec) 1
  let missing : Int := max ((kind.configuredCount : Int) - ready) (peak - ready) - filling -
    configured.added
  if configured.short.isNone && 0 < missing then
    fillEvents p kind.spec missing (0 < filling + configured.added) .learned plan
  else []

def configuredEvents (p : Planning) (queued : List WarmProposal) :
    List PlannedKind → TargetPlan → List PlanEvent
  | [], _ => []
  | kind :: rest, plan =>
    fillConfiguredEvents p queued kind plan ++
      configuredEvents p queued rest (fillConfigured p queued kind plan).2

def learnedEvents (p : Planning) (queued : List WarmProposal) :
    List (PlannedKind × Filled) → TargetPlan → List PlanEvent
  | [], _ => []
  | (kind, configured) :: rest, plan =>
    fillLearnedEvents p queued kind configured plan ++
      learnedEvents p queued rest (fillLearned p queued kind configured plan).2

def planEvents (p : Planning) (queued : List WarmProposal) (plan : TargetPlan) :
    List PlanEvent :=
  let first := configuredPass p queued p.kinds plan
  configuredEvents p queued p.kinds plan ++ learnedEvents p queued (p.kinds.zip first.1) first.2

/-- What a plan's event needs of the plan it meets. -/
structure Valid (p : Planning) (plan : TargetPlan) (event : PlanEvent) : Prop where
  calm : p.view.pressure.step = .none
  added : event.victim = none → refusal p plan event.spec = none ∧
    plan.started < p.view.config.maxConcurrentBoots
  displaced : ∀ victim, event.victim = some victim →
    displaceable p plan event.spec event.count = some victim

/-- The events lead from one plan to the other, each valid in the plan it meets. -/
inductive Plays (p : Planning) : TargetPlan → List PlanEvent → TargetPlan → Prop
  | nil (plan) : Plays p plan [] plan
  | cons {plan event events final} (h : Valid p plan event)
      (rest : Plays p (event.apply p plan) events final) : Plays p plan (event :: events) final

/-- A condition on each event and the plan it meets. -/
def Each (p : Planning) (Q : TargetPlan → PlanEvent → Prop) : TargetPlan → List PlanEvent → Prop
  | _, [] => True
  | plan, event :: rest => Q plan event ∧ Each p Q (event.apply p plan) rest

/-! ### The events are what the loops do -/

section
variable {p : Planning} {spec : VirtualSpec} {count : FillCount}

theorem Plays.append {a b c : TargetPlan} {front back : List PlanEvent} (hfront : Plays p a front b)
    (hback : Plays p b back c) : Plays p a (front ++ back) c := by
  induction hfront with
  | nil => exact hback
  | cons h _ ih => exact .cons h (ih hback)

theorem Plays.single {plan : TargetPlan} {event : PlanEvent} (h : Valid p plan event) :
    Plays p plan [event] (event.apply p plan) := .cons h (.nil _)

theorem addOne_plays (hcalm : p.view.pressure.step = .none) {plan : TargetPlan}
    (hopen : plan.started < p.view.config.maxConcurrentBoots) :
    Plays p plan (addEvents p spec count plan) (addOne p spec plan).2 := by
  unfold addEvents addOne
  cases hrefused : refusal p plan spec with
  | some refused => exact .nil plan
  | none =>
    refine .single ⟨hcalm, fun _ => ⟨hrefused, hopen⟩, fun victim h => ?_⟩
    cases h

/-- What refuses leaves the plan as it was. -/
theorem addOne_open {plan : TargetPlan} (hopen : plan.started < p.view.config.maxConcurrentBoots)
    (hrefused : (addOne p spec plan).1 ≠ none) :
    (addOne p spec plan).2.started < p.view.config.maxConcurrentBoots := by
  unfold addOne at hrefused ⊢
  cases h : refusal p plan spec with
  | some refused => exact hopen
  | none =>
    rw [h] at hrefused
    exact absurd rfl hrefused

theorem displaceLoop_plays (hcalm : p.view.pressure.step = .none) (rounds : Nat)
    {refused : Option TargetShort} {plan : TargetPlan}
    (hopen : refused ≠ none → plan.started < p.view.config.maxConcurrentBoots) :
    Plays p plan (displaceEvents p spec count rounds refused plan)
      (displaceLoop p spec count rounds refused plan).2 := by
  induction rounds generalizing refused plan with
  | zero => exact .nil plan
  | succ rounds ih =>
    unfold displaceEvents displaceLoop
    split
    · rename_i hlacks
      have hopen := hopen (by rintro rfl; simp [slotLacks] at hlacks)
      cases hvictim : displaceable p plan spec count with
      | none => exact .nil plan
      | some victim =>
        have hdown : (plan.displace victim).started < p.view.config.maxConcurrentBoots := hopen
        refine .cons ⟨hcalm, fun h => ?_, fun v hv => ?_⟩ ?_
        · cases h
        · cases hv
          exact hvictim
        · exact (addOne_plays hcalm hdown).append (ih (addOne_open hdown))
    · exact .nil plan

variable (spec) (count) in
theorem addDisplacing_plays (hcalm : p.view.pressure.step = .none) {plan : TargetPlan}
    (hopen : plan.started < p.view.config.maxConcurrentBoots) :
    Plays p plan (addDisplacingEvents p spec count plan) (addDisplacing p spec count plan).2 :=
  (addOne_plays hcalm hopen).append (displaceLoop_plays hcalm _ (addOne_open hopen))

theorem fillLoop_plays (hcalm : p.view.pressure.step = .none) (filling : Bool) (left added : Nat)
    (plan : TargetPlan) : Plays p plan (fillLoopEvents p spec count left plan)
      (fillLoop p spec filling count left added plan).2 := by
  induction left generalizing added plan with
  | zero => exact .nil plan
  | succ left ih =>
    unfold fillLoopEvents fillLoop
    split
    · rename_i hopen
      have hadd := addDisplacing_plays spec count hcalm hopen
      rcases haddition : addDisplacing p spec count plan with ⟨_ | refused, plan'⟩
      · rw [haddition] at hadd
        exact hadd.append (ih (added + 1) plan')
      · rw [haddition] at hadd
        exact hadd.append (.nil plan')
    · exact .nil plan

theorem holdFill_calm {filling : Bool} (h : holdFill p spec filling = none) :
    p.view.pressure.step = .none := by
  unfold holdFill at h
  split at h
  · cases h
  · rename_i hstep
    simpa using hstep

theorem fillTarget_plays (missing : Int) (filling : Bool) (plan : TargetPlan) :
    Plays p plan (fillEvents p spec missing filling count plan)
      (fillTarget p spec missing filling count plan).2 := by
  unfold fillEvents fillTarget
  cases hheld : holdFill p spec filling with
  | some held => exact .nil plan
  | none => exact fillLoop_plays (holdFill_calm hheld) filling _ 0 plan

/-! ### Every event of a fill is for its kind -/

/-- The event is for one count of one kind. -/
def PlanEvent.For (event : PlanEvent) (spec : VirtualSpec) (count : FillCount) : Prop :=
  event.spec = spec ∧ event.count = count

theorem for_addEvents {plan : TargetPlan} {event : PlanEvent}
    (h : event ∈ addEvents p spec count plan) : event.For spec count := by
  unfold addEvents at h
  split at h
  · cases List.mem_singleton.mp h
    exact ⟨rfl, rfl⟩
  · cases h

theorem for_displaceEvents (rounds : Nat) {refused : Option TargetShort} {plan : TargetPlan}
    {event : PlanEvent} (h : event ∈ displaceEvents p spec count rounds refused plan) :
    event.For spec count := by
  induction rounds generalizing refused plan with
  | zero => cases h
  | succ rounds ih =>
    unfold displaceEvents at h
    split at h
    · split at h
      · cases h
      · rcases List.mem_cons.mp h with rfl | hrest
        · exact ⟨rfl, rfl⟩
        · rcases List.mem_append.mp hrest with hadd | hloop
          · exact for_addEvents hadd
          · exact ih hloop
    · cases h

theorem for_fillLoopEvents (left : Nat) {plan : TargetPlan} {event : PlanEvent}
    (h : event ∈ fillLoopEvents p spec count left plan) : event.For spec count := by
  induction left generalizing plan with
  | zero => cases h
  | succ left ih =>
    unfold fillLoopEvents at h
    split at h
    · rcases List.mem_append.mp h with hone | hrest
      · rcases List.mem_append.mp hone with hadd | hloop
        · exact for_addEvents hadd
        · exact for_displaceEvents _ hloop
      · split at hrest
        · cases hrest
        · exact ih hrest
    · cases h

theorem for_fillEvents {missing : Int} {filling : Bool} {plan : TargetPlan} {event : PlanEvent}
    (h : event ∈ fillEvents p spec missing filling count plan) : event.For spec count := by
  unfold fillEvents at h
  split at h
  · cases h
  · exact for_fillLoopEvents _ h

end

/-! ### The two passes -/

section
variable {p : Planning} {queued : List WarmProposal}

variable (queued) in
theorem fillConfigured_plays (kind : PlannedKind) (plan : TargetPlan) :
    Plays p plan (fillConfiguredEvents p queued kind plan)
      (fillConfigured p queued kind plan).2 := by
  unfold fillConfiguredEvents fillConfigured
  dsimp only
  split
  · exact fillTarget_plays _ _ plan
  · exact .nil plan

variable (queued) in
theorem fillLearned_plays (kind : PlannedKind) (configured : Filled) (plan : TargetPlan) :
    Plays p plan (fillLearnedEvents p queued kind configured plan)
      (fillLearned p queued kind configured plan).2 := by
  unfold fillLearnedEvents fillLearned
  dsimp only
  split
  · exact fillTarget_plays _ _ plan
  · exact .nil plan

theorem configuredPass_plays (kinds : List PlannedKind) (plan : TargetPlan) :
    Plays p plan (configuredEvents p queued kinds plan) (configuredPass p queued kinds plan).2 := by
  induction kinds generalizing plan with
  | nil => exact .nil plan
  | cons kind rest ih => exact (fillConfigured_plays _ kind plan).append (ih _)

theorem learnedPass_plays (kinds : List (PlannedKind × Filled)) (plan : TargetPlan) :
    Plays p plan (learnedEvents p queued kinds plan) (learnedPass p queued kinds plan).2 := by
  induction kinds generalizing plan with
  | nil => exact .nil plan
  | cons entry rest ih => exact (fillLearned_plays _ entry.1 entry.2 plan).append (ih _)

theorem planTargets_plays (plan : TargetPlan) :
    Plays p plan (planEvents p queued plan) (planTargets p queued plan).2 :=
  (configuredPass_plays p.kinds plan).append (learnedPass_plays _ _)

/-- A configured count is filled only while fewer than it are ready. -/
theorem fillConfiguredEvents_short {kind : PlannedKind} {plan : TargetPlan}
    (h : fillConfiguredEvents p queued kind plan ≠ []) :
    plan.ready p kind.spec < kind.configuredCount := by
  unfold fillConfiguredEvents at h
  dsimp only at h
  split at h
  · omega
  · exact absurd rfl h

theorem for_fillConfiguredEvents {kind : PlannedKind} {plan : TargetPlan} {event : PlanEvent}
    (h : event ∈ fillConfiguredEvents p queued kind plan) : event.For kind.spec .configured := by
  unfold fillConfiguredEvents at h
  dsimp only at h
  split at h
  · exact for_fillEvents h
  · cases h

theorem for_fillLearnedEvents {kind : PlannedKind} {configured : Filled} {plan : TargetPlan}
    {event : PlanEvent} (h : event ∈ fillLearnedEvents p queued kind configured plan) :
    event.For kind.spec .learned := by
  unfold fillLearnedEvents at h
  dsimp only at h
  split at h
  · exact for_fillEvents h
  · cases h

end

/-! ### Rules -/

section
variable {p : Planning} {queued : List WarmProposal} {Q : TargetPlan → PlanEvent → Prop}

@[simp] theorem addTo_displaced (plan : TargetPlan) (spec : VirtualSpec) :
    (addTo p plan spec).displaced = plan.displaced := by
  unfold addTo
  split <;> rfl

@[simp] theorem addTo_started (plan : TargetPlan) (spec : VirtualSpec) :
    (addTo p plan spec).started = plan.started + 1 := by
  unfold addTo
  split <;> rfl

@[simp] theorem addTo_room (plan : TargetPlan) (spec : VirtualSpec) :
    (addTo p plan spec).room = plan.room.add spec.platform (-1) := by
  unfold addTo
  split <;> rfl

theorem mem_of_bootCandidate {plan : TargetPlan} {spec : VirtualSpec} {device : VirtualDevice}
    (h : bootCandidate p plan spec = some device) :
    device ∈ p.bootable ∧ device.id ∉ plan.taken ∧ device.spec = spec := by
  have htest := List.find?_some h
  simp only [Bool.and_eq_true, Bool.not_eq_true', List.contains_eq_mem,
    decide_eq_false_iff_not, sameSpec_iff] at htest
  exact ⟨List.mem_of_find?_eq_some h, htest.1.1, htest.2⟩

theorem victimFor_of_displaceable {plan : TargetPlan} {spec : VirtualSpec} {count : FillCount}
    {victim : VirtualDevice} (h : displaceable p plan spec count = some victim) :
    victimFor p plan spec count = some victim := by
  unfold displaceable at h
  exact (Option.filter_eq_some_iff.mp h).1

theorem mem_of_displaceable {plan : TargetPlan} {spec : VirtualSpec} {count : FillCount}
    {victim : VirtualDevice} (h : displaceable p plan spec count = some victim) :
    victim ∈ plan.victims := by
  have hvictim := victimFor_of_displaceable h
  cases count with
  | configured => exact List.mem_of_find?_eq_some hvictim
  | learned =>
    simp only [victimFor, learnedVictim] at hvictim
    split at hvictim
    · cases hvictim
    · exact List.mem_of_find?_eq_some hvictim

/-- No event displaces less. -/
theorem displaced_apply_subset (plan : TargetPlan) (event : PlanEvent) :
    plan.displaced ⊆ (event.apply p plan).displaced := by
  unfold PlanEvent.apply
  split
  · rw [addTo_displaced]
    exact List.Subset.refl _
  · exact List.subset_cons_self _ _

/-- A kind's ready devices only become fewer. -/
theorem ready_apply_le (plan : TargetPlan) (event : PlanEvent) (spec : VirtualSpec) :
    (event.apply p plan).ready p spec ≤ plan.ready p spec := by
  unfold TargetPlan.ready
  rw [readyOfKind_length, readyOfKind_length]
  refine List.countP_mono_left fun device _ h => ?_
  simp only [TargetPlan.isIdle, Bool.and_eq_true, Bool.not_eq_true', List.contains_eq_mem,
    decide_eq_false_iff_not] at h ⊢
  obtain ⟨⟨⟨hready, hidle, hdown⟩, hgrantable⟩, hspec⟩ := h
  exact ⟨⟨⟨hready, hidle, fun hmem => hdown (displaced_apply_subset plan event hmem)⟩,
    hgrantable⟩, hspec⟩

/-- What each valid event keeps, a list of them keeps. -/
theorem Plays.rule {I : TargetPlan → Prop} {a b : TargetPlan} {events : List PlanEvent}
    (h : Plays p a events b) (hall : Each p Q a events)
    (hstep : ∀ plan, ∀ event ∈ events, Valid p plan event → Q plan event → I plan →
      I (event.apply p plan)) (ha : I a) : I b := by
  induction h with
  | nil => exact ha
  | cons hvalid _ ih =>
    refine ih hall.2 (fun plan event hmem => ?_) (hstep _ _ (.head _) hvalid hall.1 ha)
    exact hstep plan event (.tail _ hmem)

theorem each_true (plan : TargetPlan) (events : List PlanEvent) :
    Each p (fun _ _ => True) plan events := by
  induction events generalizing plan with
  | nil => exact trivial
  | cons event rest ih => exact ⟨trivial, ih _⟩

theorem Each.append {a b : TargetPlan} {front back : List PlanEvent} (hplays : Plays p a front b) :
    Each p Q a (front ++ back) ↔ Each p Q a front ∧ Each p Q b back := by
  induction hplays with
  | nil => simp [Each]
  | cons _ _ ih => exact (and_congr_right fun _ => ih).trans and_assoc.symm

/-- What each event of the configured pass keeps, the pass keeps: the event is for a kind that has
    fewer ready than its configured count. -/
theorem configuredPass_rule {I : TargetPlan → Prop} {kinds : List PlannedKind} {start : TargetPlan}
    (hall : Each p Q start (configuredEvents p queued kinds start))
    (hstep : ∀ kind ∈ kinds, ∀ plan event, event.For kind.spec .configured →
      plan.ready p kind.spec < kind.configuredCount → Valid p plan event → Q plan event → I plan →
      I (event.apply p plan)) (hstart : I start) : I (configuredPass p queued kinds start).2 := by
  induction kinds generalizing start with
  | nil => exact hstart
  | cons kind rest ih =>
    have hfill := fillConfigured_plays queued (p := p) kind start
    obtain ⟨hfirst, hrest⟩ := (Each.append hfill).mp hall
    refine ih hrest (fun other hmem => hstep other (.tail _ hmem)) ?_
    by_cases hnone : fillConfiguredEvents p queued kind start = []
    · rw [hnone] at hfill
      generalize (fillConfigured p queued kind start).2 = after at hfill ⊢
      cases hfill
      exact hstart
    · have hshort := fillConfiguredEvents_short hnone
      refine (hfill.rule (I := fun plan => I plan ∧ plan.ready p kind.spec < kind.configuredCount)
        hfirst (fun plan event hmem hvalid hq hi => ⟨?_, ?_⟩) ⟨hstart, hshort⟩).1
      · exact hstep kind (.head _) plan event (for_fillConfiguredEvents hmem) hi.2 hvalid hq hi.1
      · exact lt_of_le_of_lt (ready_apply_le plan event kind.spec) hi.2

/-- The learned pass goes through the kinds in order; `done` are those it has begun. -/
theorem learnedPass_rule {I : List PlannedKind → TargetPlan → Prop}
    {kinds : List (PlannedKind × Filled)} {start : TargetPlan} {done : List PlannedKind}
    (hall : Each p Q start (learnedEvents p queued kinds start))
    (hnext : ∀ done kind plan, I done plan → I (done ++ [kind]) plan)
    (hstep : ∀ before kind after, before ++ kind :: after = done ++ kinds.map (·.1) →
      ∀ plan event, event.For kind.spec .learned → Valid p plan event → Q plan event →
      I (before ++ [kind]) plan → I (before ++ [kind]) (event.apply p plan))
    (hstart : I done start) :
    I (done ++ kinds.map (·.1)) (learnedPass p queued kinds start).2 := by
  induction kinds generalizing start done with
  | nil => rwa [List.map_nil, List.append_nil]
  | cons entry rest ih =>
    obtain ⟨kind, configured⟩ := entry
    have hfill := fillLearned_plays queued (p := p) kind configured start
    obtain ⟨hfirst, hrest⟩ := (Each.append hfill).mp hall
    have hlist : done ++ kind :: rest.map (·.1) = (done ++ [kind]) ++ rest.map (·.1) := by simp
    rw [List.map_cons, hlist] at hstep ⊢
    refine ih hrest hstep ?_
    refine hfill.rule hfirst (fun plan event hmem hvalid hq hi => ?_) (hnext done kind start hstart)
    exact hstep done kind (rest.map (·.1)) hlist plan event (for_fillLearnedEvents hmem) hvalid hq hi

end

end Simlock.WarmPool
