import Simlock.WarmPool.Moves

/-! Every proposal of a pass is safe, and no two name one device.

    Five rules shut devices down (the budget, the never-leased rule, memory pressure, displacement,
    and the pool being off) and two boot them (the queue and the targets). Each draws from the idle
    ready devices or the idle shut-down ones, and leaves out what the rules before it took. The
    shutdowns are distinct as the rules' lists are, the boots as `taken` is, and a shutdown and a
    boot differ in their device's state. -/

namespace Simlock.WarmPool
open Core

/-- The device a proposal names. -/
def WarmProposal.deviceId : WarmProposal → Option String
  | .shutdown deviceId _ => some deviceId
  | .boot deviceId _ _ => some deviceId
  | .provision _ _ _ => none

def shutdownId : WarmProposal → Option String
  | .shutdown deviceId _ => some deviceId
  | _ => none

/-- What is promised of a list of proposals. -/
structure SafeProposals (view : WarmPolicyView) (proposals : List WarmProposal) : Prop where
  shutdowns : ∀ deviceId reason, .shutdown deviceId reason ∈ proposals →
    ∃ device ∈ view.devices, device.id = deviceId ∧ device.state = .ready ∧
      idle view device = true
  boots : ∀ deviceId reason target, .boot deviceId reason target ∈ proposals →
    ∃ device ∈ view.devices, device.id = deviceId ∧ device.state = .shutdown ∧
      grantable device = true ∧ idle view device = true
  distinct : (proposals.filterMap WarmProposal.deviceId).Nodup
  awaitedSpared : view.config.enabled = true →
    ∀ deviceId reason, .shutdown deviceId reason ∈ proposals →
      ∀ device ∈ view.devices, device.id = deviceId →
        ∀ demand ∈ view.waiting, demand.inFlight = false → serves device demand = false

/-! ### What each rule draws from -/

/-- An idle ready device that no waiting request is about to be granted. -/
def Shuttable (view : WarmPolicyView) (device : VirtualDevice) : Prop :=
  IdleReady view device ∧ awaited view.waiting device = false

theorem nextVictim_mem {held room : Slots} {candidates : List VirtualDevice}
    {victim : VirtualDevice} (h : nextVictim held room candidates = some victim) :
    victim ∈ candidates := by
  unfold nextVictim at h
  split at h
  · rename_i hfind
    cases h
    exact List.mem_of_find?_eq_some hfind
  · split at h
    · exact List.mem_of_head? h
    · cases h

theorem overBudgetLoop_mem {held : Slots} (rounds : Nat) {room : Slots}
    {candidates : List VirtualDevice} {device : VirtualDevice}
    (h : device ∈ (overBudgetLoop held rounds room candidates).1) : device ∈ candidates := by
  induction rounds generalizing room candidates with
  | zero => cases h
  | succ rounds ih =>
    unfold overBudgetLoop at h
    split at h
    · cases h
    · rename_i victim hvictim
      rcases List.mem_cons.mp h with rfl | hrest
      · exact nextVictim_mem hvictim
      · exact List.mem_of_mem_eraseP (ih hrest)

theorem overBudgetLoop_nodup {held : Slots} (rounds : Nat) {room : Slots}
    {candidates : List VirtualDevice} (hnodup : (candidates.map (·.id)).Nodup) :
    ((overBudgetLoop held rounds room candidates).1.map (·.id)).Nodup := by
  induction rounds generalizing room candidates with
  | zero => exact List.nodup_nil
  | succ rounds ih =>
    unfold overBudgetLoop
    split
    · exact List.nodup_nil
    · rename_i victim hvictim
      refine List.nodup_cons.mpr ⟨fun hmem => ?_, ih (hnodup.sublist (List.eraseP_sublist.map _))⟩
      obtain ⟨device, hdevice, hid⟩ := List.mem_map.mp hmem
      exact (mem_eraseP_id hnodup (overBudgetLoop_mem rounds hdevice)).2 hid

theorem budgeted_shuttable {view : WarmPolicyView} {device : VirtualDevice}
    (h : device ∈ (budgeted view).1) : Shuttable view device := by
  unfold budgeted at h
  split at h
  · cases h
  · have hcandidate := overBudgetLoop_mem _ h
    simp only [List.mem_filter, Bool.not_eq_true'] at hcandidate
    exact ⟨mem_running.mp hcandidate.1, hcandidate.2⟩

theorem budgeted_nodup (view : WarmPolicyView) : ((budgeted view).1.map (·.id)).Nodup := by
  unfold budgeted
  split
  · exact List.nodup_nil
  · exact overBudgetLoop_nodup _ ((nodup_running view).sublist (List.filter_sublist.map _))

/-- An idle ready device that a waiting request awaits is among those kept. -/
theorem mem_targetedDevices {view : WarmPolicyView} {targets : List ResolvedTarget}
    {learned : List LearnedKind} {waiting : List WaitingDemand} {device : VirtualDevice}
    (hidle : IdleReady view device) (h : awaited waiting device = true) :
    device.id ∈ targetedDevices view targets learned waiting := by
  refine List.mem_append_right _ (List.mem_map_of_mem ?_)
  simp [hidle.1, hidle.2.1, hidle.2.2, h]

theorem unneeded_shuttable {view : WarmPolicyView} {device : VirtualDevice}
    (h : device ∈ unneeded view) :
    Shuttable view device ∧ device.id ∉ (budgeted view).1.map (·.id) := by
  simp only [unneeded, neverLeasedIdle, List.mem_filter, Bool.and_eq_true, Bool.not_eq_true',
    List.contains_eq_mem, decide_eq_false_iff_not] at h
  obtain ⟨hrunning, ⟨⟨-, hkept⟩, halready⟩, -⟩ := h
  have hidle := mem_running.mp hrunning
  refine ⟨⟨hidle, ?_⟩, halready⟩
  by_contra hawaited
  exact hkept (mem_targetedDevices hidle (by simpa using hawaited))

theorem unneeded_nodup (view : WarmPolicyView) : ((unneeded view).map (·.id)).Nodup :=
  (nodup_running view).sublist (List.filter_sublist.map _)

theorem shed_shuttable {view : WarmPolicyView} {device : VirtualDevice}
    (h : shed view = some device) : Shuttable view device ∧ device.id ∉ idleShut view := by
  unfold shed shedForPressure at h
  split at h
  · cases h
  · have hmem : device ∈ (running view).filter fun device =>
        !(idleShut view).contains device.id && !view.pressure.shedFailed.contains device.id &&
          !awaited view.waiting device := by
      rcases Option.or_eq_some_iff.mp h with hfind | ⟨-, hhead⟩
      · exact List.mem_of_find?_eq_some hfind
      · exact List.mem_of_head? hhead
    simp only [List.mem_filter, Bool.and_eq_true, Bool.not_eq_true', List.contains_eq_mem,
      decide_eq_false_iff_not] at hmem
    obtain ⟨hrunning, ⟨hproposed, -⟩, hawaited⟩ := hmem
    exact ⟨⟨mem_running.mp hrunning, hawaited⟩, hproposed⟩

theorem victims_shuttable {view : WarmPolicyView} {device : VirtualDevice}
    (h : device ∈ (planStart view).victims) :
    Shuttable view device ∧ device.id ∉ proposed view := by
  dsimp only [planStart] at h
  split at h
  · cases h
  · simp only [List.mem_filter, Bool.and_eq_true, Bool.not_eq_true', List.contains_eq_mem,
      decide_eq_false_iff_not] at h
    obtain ⟨hrunning, hproposed, hspared⟩ := h
    have hidle := mem_running.mp hrunning
    refine ⟨⟨hidle, ?_⟩, hproposed⟩
    by_contra hawaited
    exact hspared (mem_targetedDevices hidle (by simpa using hawaited))

theorem victims_nodup (view : WarmPolicyView) : ((planStart view).victims.map (·.id)).Nodup := by
  dsimp only [planStart]
  split
  · exact List.nodup_nil
  · exact (nodup_running view).sublist (List.filter_sublist.map _)

/-! ### The queue's boots -/

/-- `taken` is what the queue booted so far, the latest first. -/
structure QueueDrawn (view : WarmPolicyView) (s : QueueState) : Prop where
  shutdowns : s.proposals.filterMap shutdownId = []
  boots : s.proposals.filterMap bootedId = s.taken.reverse
  nodup : s.taken.Nodup
  bootable : ∀ deviceId ∈ s.taken, ∃ device ∈ bootable view, device.id = deviceId

theorem QueueDrawn.turn {view : WarmPolicyView} {demand : WaitingDemand} {s s' : QueueState}
    (h : Served view demand s s') (hs : QueueDrawn view s) : QueueDrawn view s' := by
  obtain ⟨hshutdowns, hboots, hnodup, hbootable⟩ := hs
  cases h with
  | nothing _ hproposals htaken => exact ⟨by rwa [hproposals], by rwa [hproposals, htaken],
      by rwa [htaken], by rwa [htaken]⟩
  | booted device hmem hnew _ _ _ _ _ hproposals htaken =>
    refine ⟨?_, ?_, ?_, ?_⟩
    · simp [hproposals, hshutdowns, shutdownId]
    · simp [hproposals, htaken, hboots, bootedId]
    · rw [htaken]
      exact List.nodup_cons.mpr ⟨hnew, hnodup⟩
    · rw [htaken]
      intro deviceId hid
      rcases List.mem_cons.mp hid with rfl | hid
      · exact ⟨device, hmem, rfl⟩
      · exact hbootable deviceId hid
  | created _ _ _ _ _ hproposals htaken =>
    refine ⟨?_, ?_, by rwa [htaken], by rwa [htaken]⟩
    · simp [hproposals, hshutdowns, shutdownId]
    · simp [hproposals, htaken, hboots, bootedId]

theorem queued_drawn (view : WarmPolicyView) : QueueDrawn view (queued view) := by
  refine queued_rule (fun started => ?_) (fun _ _ _ _ h => QueueDrawn.turn h)
  exact ⟨rfl, rfl, List.nodup_nil, nofun⟩

/-! ### The targets' moves -/

/-- What the targets have displaced and booted so far. -/
structure PlanDrawn (view : WarmPolicyView) (plan : TargetPlan) : Prop where
  nodup : (plan.displaced ++ plan.victims.map (·.id)).Nodup
  victims : ∀ device ∈ plan.victims, device ∈ (planStart view).victims
  displaced : ∀ deviceId ∈ plan.displaced, ∃ device ∈ (planStart view).victims,
    device.id = deviceId
  shutdowns : plan.proposals.filterMap shutdownId = plan.displaced.reverse
  boots : plan.taken = (plan.proposals.filterMap bootedId).reverse ++ (planStart view).taken
  takenNodup : plan.taken.Nodup
  bootable : ∀ deviceId ∈ plan.taken, ∃ device ∈ bootable view, device.id = deviceId

theorem PlanDrawn.addTo {view : WarmPolicyView} {plan : TargetPlan} (spec : VirtualSpec)
    (h : PlanDrawn view plan) : PlanDrawn view (addTo (planning view) plan spec) := by
  obtain ⟨hnodup, hvictims, hdisplaced, hshutdowns, hboots, htaken, hbootable⟩ := h
  unfold WarmPool.addTo
  cases hcandidate : bootCandidate (planning view) plan spec with
  | none =>
    refine ⟨hnodup, hvictims, hdisplaced, ?_, ?_, htaken, hbootable⟩
    · simp [hshutdowns, shutdownId]
    · simp [hboots, bootedId]
  | some device =>
    obtain ⟨hmem, hnew, -⟩ := mem_of_bootCandidate hcandidate
    refine ⟨hnodup, hvictims, hdisplaced, ?_, ?_, List.nodup_cons.mpr ⟨hnew, htaken⟩, ?_⟩
    · simp [hshutdowns, shutdownId]
    · simp [hboots, bootedId]
    · intro deviceId hid
      rcases List.mem_cons.mp hid with rfl | hid
      · exact ⟨device, hmem, rfl⟩
      · exact hbootable deviceId hid

theorem PlanDrawn.displace {view : WarmPolicyView} {plan : TargetPlan} {victim : VirtualDevice}
    (hvictim : victim ∈ plan.victims) (h : PlanDrawn view plan) :
    PlanDrawn view (plan.displace victim) := by
  obtain ⟨hnodup, hvictims, hdisplaced, hshutdowns, hboots, htaken, hbootable⟩ := h
  have hparts := List.nodup_append.mp hnodup
  refine ⟨?_, fun device hmem => hvictims device (List.mem_of_mem_eraseP hmem), ?_, ?_, ?_, htaken,
    hbootable⟩
  · refine List.nodup_cons.mpr ⟨fun hmem => ?_, ?_⟩
    · rcases List.mem_append.mp hmem with hdown | hleft
      · exact hparts.2.2 _ hdown _ (List.mem_map_of_mem hvictim) rfl
      · obtain ⟨device, hdevice, hid⟩ := List.mem_map.mp hleft
        exact (mem_eraseP_id hparts.2.1 hdevice).2 hid
    · refine hnodup.sublist (List.Sublist.append_left ?_ _)
      exact List.eraseP_sublist.map _
  · intro deviceId hid
    rcases List.mem_cons.mp hid with rfl | hid
    · exact ⟨victim, hvictims victim hvictim, rfl⟩
    · exact hdisplaced deviceId hid
  · simp [TargetPlan.displace, hshutdowns, shutdownId]
  · simp [TargetPlan.displace, hboots, bootedId]

theorem PlanDrawn.apply {view : WarmPolicyView} {plan : TargetPlan} {event : PlanEvent}
    (hvalid : Valid (planning view) plan event) (h : PlanDrawn view plan) :
    PlanDrawn view (event.apply (planning view) plan) := by
  unfold PlanEvent.apply
  cases hvictim : event.victim with
  | none => exact h.addTo event.spec
  | some victim => exact h.displace (mem_of_displaceable (hvalid.displaced victim hvictim))

theorem planStart_drawn (view : WarmPolicyView) : PlanDrawn view (planStart view) := by
  have hqueue := queued_drawn view
  have htaken : (planStart view).taken = (queued view).taken.reverse := hqueue.boots
  refine ⟨?_, fun device h => h, nofun, rfl, by simp [planStart], ?_, ?_⟩
  · simpa [planStart] using victims_nodup view
  · rw [htaken]
    exact List.nodup_reverse.mpr hqueue.nodup
  · rw [htaken]
    intro deviceId hid
    exact hqueue.bootable deviceId (List.mem_reverse.mp hid)

theorem wanted_drawn (view : WarmPolicyView) : PlanDrawn view (wanted view).2 :=
  (planTargets_plays (planStart view)).rule (each_true _ _)
    (fun _ _ _ hvalid _ h => h.apply hvalid) (planStart_drawn view)

/-! ### The whole pass -/

/-- What a pass emits before the targets. -/
def beforeTargets (view : WarmPolicyView) : List WarmProposal :=
  (budgeted view).1.map (fun device => .shutdown device.id .overBudget) ++
    (queued view).proposals ++
    (unneeded view).map (fun device => .shutdown device.id .neverLeasedIdle) ++
    (shed view).toList.map (fun device => .shutdown device.id .memoryPressure)

theorem evaluate_on {view : WarmPolicyView} (hon : view.config.enabled = true) :
    (evaluate view).proposals = beforeTargets view ++ (wanted view).2.proposals := by
  simp [evaluate, hon, beforeTargets]

theorem filterMap_shutdown (devices : List VirtualDevice) (reason : WarmReason) :
    (devices.map fun device => WarmProposal.shutdown device.id reason).filterMap shutdownId =
      devices.map (·.id) := by
  simp [List.filterMap_map, Function.comp_def, shutdownId]

theorem filterMap_booted_shutdown (devices : List VirtualDevice) (reason : WarmReason) :
    (devices.map fun device => WarmProposal.shutdown device.id reason).filterMap bootedId = [] := by
  simp [List.filterMap_map, Function.comp_def, bootedId]

/-- The devices a list of proposals names are those it shuts down and those it boots. -/
theorem deviceIds_perm (proposals : List WarmProposal) :
    (proposals.filterMap WarmProposal.deviceId).Perm
      (proposals.filterMap shutdownId ++ proposals.filterMap bootedId) := by
  induction proposals with
  | nil => exact .refl _
  | cons proposal rest ih =>
    cases proposal <;>
      simp only [List.filterMap_cons, WarmProposal.deviceId, shutdownId, bootedId]
    case shutdown deviceId reason => exact ih.cons deviceId
    case boot deviceId reason target => exact (ih.cons deviceId).trans List.perm_middle.symm
    case provision => exact ih

theorem mem_shutdownIds {proposals : List WarmProposal} {deviceId : String} {reason : WarmReason}
    (h : .shutdown deviceId reason ∈ proposals) : deviceId ∈ proposals.filterMap shutdownId :=
  List.mem_filterMap.mpr ⟨_, h, rfl⟩

theorem mem_bootIds {proposals : List WarmProposal} {deviceId : String} {reason : WarmReason}
    {target : Option VirtualSpec} (h : .boot deviceId reason target ∈ proposals) :
    deviceId ∈ proposals.filterMap bootedId :=
  List.mem_filterMap.mpr ⟨_, h, rfl⟩

/-- What an enabled pass shuts down, rule by rule. -/
theorem shutdownIds_evaluate {view : WarmPolicyView} (hon : view.config.enabled = true) :
    (evaluate view).proposals.filterMap shutdownId =
      proposed view ++ (wanted view).2.displaced.reverse := by
  simp only [evaluate, hon, Bool.not_true, Bool.false_eq_true, if_false, List.filterMap_append,
    filterMap_shutdown, (queued_drawn view).shutdowns, (wanted_drawn view).shutdowns, proposed,
    idleShut, List.map_append, List.append_nil]

theorem bootIds_evaluate {view : WarmPolicyView} (hon : view.config.enabled = true) :
    (evaluate view).proposals.filterMap bootedId =
      (queued view).proposals.filterMap bootedId ++
        (wanted view).2.proposals.filterMap bootedId := by
  simp only [evaluate, hon, Bool.not_true, Bool.false_eq_true, if_false, List.filterMap_append,
    filterMap_booted_shutdown, List.nil_append, List.append_nil]

/-- What the rules before the targets shut down was idle and not awaited, each device once. -/
theorem proposed_shuttable {view : WarmPolicyView} {deviceId : String}
    (h : deviceId ∈ proposed view) : ∃ device, Shuttable view device ∧ device.id = deviceId := by
  simp only [proposed, idleShut, List.map_append, List.mem_append, List.mem_map,
    Option.mem_toList] at h
  rcases h with (⟨device, hmem, rfl⟩ | ⟨device, hmem, rfl⟩) | ⟨device, hmem, rfl⟩
  · exact ⟨device, budgeted_shuttable hmem, rfl⟩
  · exact ⟨device, (unneeded_shuttable hmem).1, rfl⟩
  · exact ⟨device, (shed_shuttable hmem).1, rfl⟩

theorem proposed_nodup (view : WarmPolicyView) : (proposed view).Nodup := by
  refine List.nodup_append.mpr ⟨?_, ?_, ?_⟩
  · unfold idleShut
    rw [List.map_append]
    refine List.nodup_append.mpr ⟨budgeted_nodup view, unneeded_nodup view, ?_⟩
    rintro deviceId hbudget _ hunneeded rfl
    obtain ⟨device, hmem, rfl⟩ := List.mem_map.mp hunneeded
    exact (unneeded_shuttable hmem).2 hbudget
  · cases shed view <;> simp
  · rintro deviceId hidle _ hshed rfl
    obtain ⟨device, hmem, rfl⟩ := List.mem_map.mp hshed
    exact (shed_shuttable (Option.mem_toList.mp hmem)).2 hidle

theorem shutdownIds_shuttable {view : WarmPolicyView} (hon : view.config.enabled = true)
    {deviceId : String} (h : deviceId ∈ (evaluate view).proposals.filterMap shutdownId) :
    ∃ device, Shuttable view device ∧ device.id = deviceId := by
  rw [shutdownIds_evaluate hon] at h
  rcases List.mem_append.mp h with hproposed | hdisplaced
  · exact proposed_shuttable hproposed
  · obtain ⟨device, hmem, hid⟩ :=
      (wanted_drawn view).displaced deviceId (List.mem_reverse.mp hdisplaced)
    exact ⟨device, (victims_shuttable hmem).1, hid⟩

theorem shutdownIds_nodup {view : WarmPolicyView} (hon : view.config.enabled = true) :
    ((evaluate view).proposals.filterMap shutdownId).Nodup := by
  have hdrawn := wanted_drawn view
  rw [shutdownIds_evaluate hon]
  refine List.nodup_append.mpr ⟨proposed_nodup view, ?_, ?_⟩
  · exact List.nodup_reverse.mpr (List.nodup_append.mp hdrawn.nodup).1
  · rintro deviceId hproposed _ hdisplaced rfl
    obtain ⟨device, hmem, rfl⟩ := hdrawn.displaced deviceId (List.mem_reverse.mp hdisplaced)
    exact (victims_shuttable hmem).2 hproposed

theorem bootIds_perm_taken {view : WarmPolicyView} (hon : view.config.enabled = true) :
    ((evaluate view).proposals.filterMap bootedId).Perm (wanted view).2.taken := by
  rw [bootIds_evaluate hon, (wanted_drawn view).boots]
  exact List.perm_append_comm.trans ((List.reverse_perm _).symm.append_right _)

/-- A device that the targets displaced, as their proposals tell it. -/
theorem displaced_wanted (view : WarmPolicyView) {deviceId : String} :
    .shutdown deviceId .displaced ∈ (wanted view).2.proposals ↔
      deviceId ∈ (wanted view).2.displaced := by
  have hreason : ∀ reason, .shutdown deviceId reason ∈ (wanted view).2.proposals →
      reason = .displaced := by
    refine (planTargets_plays (planStart view)).rule (I := fun plan => ∀ reason,
      .shutdown deviceId reason ∈ plan.proposals → reason = .displaced) (each_true _ _) ?_ nofun
    intro plan event _ _ _ h reason hmem
    unfold PlanEvent.apply at hmem
    split at hmem
    · unfold addTo at hmem
      split at hmem <;> simp at hmem <;> exact h reason hmem
    · simp only [TargetPlan.displace, List.mem_append, List.mem_singleton,
        WarmProposal.shutdown.injEq] at hmem
      exact hmem.elim (h reason) (·.2)
  have hids : deviceId ∈ (wanted view).2.displaced ↔
      deviceId ∈ (wanted view).2.proposals.filterMap shutdownId := by
    rw [(wanted_drawn view).shutdowns, List.mem_reverse]
  rw [hids]
  refine ⟨mem_shutdownIds, fun h => ?_⟩
  obtain ⟨proposal, hmem, hid⟩ := List.mem_filterMap.mp h
  cases proposal with
  | shutdown other reason =>
    cases hid
    rw [← hreason reason hmem]
    exact hmem
  | boot => cases hid
  | provision => cases hid

/-- No rule before the targets calls a shutdown a displacement. -/
theorem displaced_iff {view : WarmPolicyView} (hon : view.config.enabled = true)
    {deviceId : String} : .shutdown deviceId .displaced ∈ (evaluate view).proposals ↔
      deviceId ∈ (wanted view).2.displaced := by
  rw [evaluate_on hon, List.mem_append, displaced_wanted, or_iff_right]
  unfold beforeTargets
  have hqueue : .shutdown deviceId .displaced ∉ (queued view).proposals := fun h => by
    have hin := mem_shutdownIds h
    rw [(queued_drawn view).shutdowns] at hin
    cases hin
  simp [hqueue]

theorem evaluate_off {view : WarmPolicyView} (hoff : view.config.enabled = false) :
    (evaluate view).proposals =
      (running view).map fun device => .shutdown device.id .disabled := by
  simp [evaluate, hoff]

/-- Every pass is safe, whatever the targets, the waiting requests and the memory pressure. -/
theorem evaluate_safeProposals (view : WarmPolicyView) :
    SafeProposals view (evaluate view).proposals := by
  cases hon : view.config.enabled with
  | false =>
    have hperm := deviceIds_perm (evaluate view).proposals
    rw [evaluate_off hon] at hperm ⊢
    rw [filterMap_shutdown, filterMap_booted_shutdown, List.append_nil] at hperm
    refine ⟨fun deviceId reason h => ?_, fun _ _ _ h => ?_, ?_, fun h => ?_⟩
    · obtain ⟨device, hmem, heq⟩ := List.mem_map.mp h
      cases heq
      obtain ⟨hdevice, hready, hidle⟩ := mem_running.mp hmem
      exact ⟨device, hdevice, rfl, hready, hidle⟩
    · obtain ⟨device, -, heq⟩ := List.mem_map.mp h
      cases heq
    · exact hperm.nodup_iff.mpr (nodup_running view)
    · cases hon.symm.trans h
  | true =>
    have hshutdowns : ∀ deviceId ∈ (evaluate view).proposals.filterMap shutdownId,
        ∃ device, Shuttable view device ∧ device.id = deviceId := fun _ h =>
      shutdownIds_shuttable hon h
    have hboots : ∀ deviceId ∈ (evaluate view).proposals.filterMap bootedId,
        ∃ device ∈ bootable view, device.id = deviceId := fun deviceId h =>
      (wanted_drawn view).bootable deviceId ((bootIds_perm_taken hon).mem_iff.mp h)
    refine ⟨fun deviceId reason h => ?_, fun deviceId reason target h => ?_, ?_, ?_⟩
    · obtain ⟨device, ⟨⟨hdevice, hready, hidle⟩, -⟩, hid⟩ :=
        hshutdowns deviceId (mem_shutdownIds h)
      exact ⟨device, hdevice, hid, hready, hidle⟩
    · obtain ⟨device, hmem, hid⟩ := hboots deviceId (mem_bootIds h)
      obtain ⟨hdevice, hshutdown, hgrantable, hidle⟩ := mem_bootable.mp hmem
      exact ⟨device, hdevice, hid, hshutdown, hgrantable, hidle⟩
    · refine (deviceIds_perm _).nodup_iff.mpr (List.nodup_append.mpr ⟨shutdownIds_nodup hon, ?_, ?_⟩)
      · exact (bootIds_perm_taken hon).nodup_iff.mpr (wanted_drawn view).takenNodup
      · rintro deviceId hdown _ hbooted rfl
        obtain ⟨device, ⟨⟨hdevice, hready, -⟩, -⟩, rfl⟩ := hshutdowns _ hdown
        obtain ⟨other, hmem, hid⟩ := hboots _ hbooted
        obtain ⟨hother, hshutdown, -⟩ := mem_bootable.mp hmem
        cases eq_of_id hother hdevice hid
        cases hready.symm.trans hshutdown
    · intro _ deviceId reason h device hdevice hid demand hdemand hfree
      obtain ⟨other, ⟨⟨hother, -⟩, hunawaited⟩, hid'⟩ :=
        hshutdowns deviceId (mem_shutdownIds h)
      cases eq_of_id hother hdevice (hid'.trans hid.symm)
      by_contra hserves
      have hawaited := awaited_of_serves hdemand hfree (by simpa using hserves)
      exact Bool.false_ne_true (hunawaited.symm.trans hawaited)

end Simlock.WarmPool
