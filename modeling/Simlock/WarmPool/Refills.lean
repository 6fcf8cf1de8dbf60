import Simlock.WarmPool.Displacement

/-! A kind that lost a device to a displacement is filled again only for its learned count.

    In the configured pass a kind that is short (fewer ready than its configured count) is filled,
    and one that has more than that count may lose a device. Ready devices only become fewer, so no
    kind is both. In the learned pass the kinds are filled in order and a kind takes only from those
    after it: what it takes from has no configured count and has not been begun. Its turn comes
    later, and then its learned count may be filled again, which is how the newest kinds end up with
    the slots. -/

namespace Simlock.WarmPool
open Core

/-- The proposal boots or creates a device of the kind. -/
def WarmProposal.Adds (view : WarmPolicyView) (spec : VirtualSpec) : WarmProposal → Prop
  | .shutdown _ _ => False
  | .boot deviceId _ _ => ∃ device ∈ view.devices, device.id = deviceId ∧ device.spec = spec
  | .provision created _ _ => created = spec

/-- What the configured counts propose. -/
def configuredProposals (view : WarmPolicyView) : List WarmProposal :=
  (configuredPass (planning view) (queued view).proposals (planning view).kinds
    (planStart view)).2.proposals

/-- What a pass may still start of a kind that it displaces a device of. -/
structure RefillsOnlyLearned (view : WarmPolicyView) : Prop where
  /-- For a target: only after the displacement, and after every configured count. -/
  targets : ∀ device ∈ view.devices, .shutdown device.id .displaced ∈ (evaluate view).proposals →
    ∀ front proposal back, (wanted view).2.proposals = front ++ proposal :: back →
      proposal.Adds view device.spec →
        .shutdown device.id .displaced ∈ front ∧ configuredProposals view <+: front
  /-- For a waiting request that the kind serves: nothing, while the device may be granted. -/
  waiting : ∀ device ∈ view.devices, .shutdown device.id .displaced ∈ (evaluate view).proposals →
    grantable device = true → ∀ proposal ∈ (queued view).proposals,
      proposal.Adds view device.spec → ∃ demand ∈ view.waiting, demand.inFlight = false ∧
        proposal = .provision demand.spec .waitingRequest demand.spec ∧
        servesSpec demand.spec demand = false

section
variable {view : WarmPolicyView}

theorem ready_eq (plan : TargetPlan) (spec : VirtualSpec) :
    plan.ready (planning view) spec = spareDevices view plan.displaced spec := by
  unfold TargetPlan.ready
  rw [readyOfKind_length]
  refine List.countP_congr fun device _ => ?_
  simp only [TargetPlan.isIdle, planning, Bool.and_eq_true]
  tauto

variable (view) in
/-- What `addTo` proposes is of its kind alone. -/
theorem addTo_proposals (plan : TargetPlan) (spec : VirtualSpec) :
    ∃ proposal, (addTo (planning view) plan spec).proposals = plan.proposals ++ [proposal] ∧
      (∀ deviceId, proposal ≠ .shutdown deviceId .displaced) ∧
      ∀ other, proposal.Adds view other → other = spec := by
  unfold addTo
  cases hcandidate : bootCandidate (planning view) plan spec with
  | none =>
    refine ⟨_, rfl, fun _ h => ?_, fun other h => h.symm⟩
    cases h
  | some booted =>
    obtain ⟨hmem, -, rfl⟩ := mem_of_bootCandidate hcandidate
    refine ⟨_, rfl, fun _ h => ?_, ?_⟩
    · cases h
    · rintro other ⟨device, hdevice, hid, rfl⟩
      rw [eq_of_id hdevice (mem_bootable.mp hmem).1 hid]

/-- Nothing before a displacement starts a device of the kind that is displaced. -/
def Ordered (view : WarmPolicyView) (proposals : List WarmProposal) : Prop :=
  ∀ front back, ∀ device ∈ view.devices,
    proposals = front ++ .shutdown device.id .displaced :: back →
      ∀ proposal ∈ front, ¬ proposal.Adds view device.spec

theorem Ordered.concat {proposals : List WarmProposal} {proposal : WarmProposal}
    (h : Ordered view proposals)
    (hlast : ∀ device ∈ view.devices, proposal = .shutdown device.id .displaced →
      ∀ other ∈ proposals, ¬ other.Adds view device.spec) :
    Ordered view (proposals ++ [proposal]) := by
  intro front back device hdevice heq other hmem
  rcases List.eq_nil_or_concat back with rfl | ⟨back, last, rfl⟩
  · obtain ⟨rfl, hsame⟩ := List.append_inj' heq rfl
    exact hlast device hdevice (List.singleton_inj.mp hsame) other hmem
  · rw [List.concat_eq_append, ← List.cons_append, ← List.append_assoc] at heq
    obtain ⟨hfront, -⟩ := List.append_inj' heq rfl
    exact h front back device hdevice hfront other hmem

/-! ### The configured pass -/

/-- A kind that lost a device has its configured count left; one that a device was added for has
    fewer than it. -/
structure ConfiguredKept (view : WarmPolicyView) (plan : TargetPlan) : Prop where
  drawn : PlanDrawn view plan
  lost : ∀ device ∈ view.devices, device.id ∈ plan.displaced →
    configuredCount view.targets device.spec ≤ plan.ready (planning view) device.spec
  short : ∀ proposal ∈ plan.proposals, ∀ spec, proposal.Adds view spec →
    plan.ready (planning view) spec < configuredCount view.targets spec
  ordered : Ordered view plan.proposals

theorem ConfiguredKept.addTo {plan : TargetPlan} {kind : PlannedKind}
    (hmem : kind ∈ (planning view).kinds)
    (hshort : plan.ready (planning view) kind.spec < kind.configuredCount)
    (h : ConfiguredKept view plan) :
    ConfiguredKept view (WarmPool.addTo (planning view) plan kind.spec) := by
  obtain ⟨proposal, hproposals, hadded, hadds⟩ := addTo_proposals view plan kind.spec
  have hready : ∀ spec, (WarmPool.addTo (planning view) plan kind.spec).ready (planning view) spec =
      plan.ready (planning view) spec := by
    intro spec
    rw [ready_eq, ready_eq, addTo_displaced]
  refine ⟨h.drawn.addTo kind.spec, ?_, ?_, ?_⟩
  · intro device hdevice hid
    rw [addTo_displaced] at hid
    rw [hready]
    exact h.lost device hdevice hid
  · intro other hother spec hspec
    rw [hproposals] at hother
    rw [hready]
    rcases List.mem_append.mp hother with hold | hnew
    · exact h.short other hold spec hspec
    · rw [List.mem_singleton.mp hnew] at hspec
      rw [hadds spec hspec, ← configuredCount_of_mem (planning_ordered view) hmem]
      exact hshort
  · rw [hproposals]
    exact h.ordered.concat fun device _ heq => absurd heq (hadded device.id)

/-- What a displacement for a configured count needs of the victim's kind. -/
theorem ready_of_configuredVictim {plan : TargetPlan} {spec : VirtualSpec} {victim : VirtualDevice}
    (h : displaceable (planning view) plan spec .configured = some victim) :
    configuredCount view.targets victim.spec < plan.ready (planning view) victim.spec := by
  have htest := List.find?_some (victimFor_of_displaceable h)
  simp only [Bool.and_eq_true, decide_eq_true_eq] at htest
  have hcode := htest.2
  rwa [configuredCount_kindEntry (planning_ordered view)] at hcode

theorem ConfiguredKept.displace {plan : TargetPlan} {spec : VirtualSpec} {victim : VirtualDevice}
    (hvictim : displaceable (planning view) plan spec .configured = some victim)
    (h : ConfiguredKept view plan) : ConfiguredKept view (plan.displace victim) := by
  have hin := mem_of_displaceable hvictim
  have hdevice := (victims_shuttable (h.drawn.victims victim hin)).1.1.1
  have hcount := ready_of_configuredVictim hvictim
  refine ⟨h.drawn.displace hin, ?_, ?_, ?_⟩
  · intro device hmem hid
    rw [ready_eq]
    by_cases hspec : device.spec = victim.spec
    · have hone : spareDevices view plan.displaced victim.spec ≤
          spareDevices view (victim.id :: plan.displaced) victim.spec + 1 := spareDevices_cons
      rw [ready_eq] at hcount
      rw [hspec]
      exact Nat.le_of_lt_succ (hcount.trans_le hone)
    · have hold : device.id ∈ plan.displaced := by
        refine (List.mem_cons.mp hid).resolve_left fun heq => hspec ?_
        rw [eq_of_id hmem hdevice heq]
      have hlost := h.lost device hmem hold
      rw [ready_eq] at hlost
      exact hlost.trans (spareDevices_other hdevice (Ne.symm hspec)).ge
  · intro proposal hmem other hadds
    rcases List.mem_append.mp hmem with hold | hnew
    · have hshort := h.short proposal hold other hadds
      rw [ready_eq] at hshort ⊢
      exact (spareDevices_anti (List.subset_cons_self _ _)).trans_lt hshort
    · rw [List.mem_singleton.mp hnew] at hadds
      exact hadds.elim
  · refine h.ordered.concat fun device hmem heq proposal hproposal hadds => ?_
    have hid : victim.id = device.id := (WarmProposal.shutdown.inj heq).1
    rw [← eq_of_id hdevice hmem hid] at hadds
    exact absurd hcount (Nat.lt_asymm (h.short proposal hproposal victim.spec hadds))

theorem configuredPass_kept (view : WarmPolicyView) :
    ConfiguredKept view (configuredPass (planning view) (queued view).proposals
      (planning view).kinds (planStart view)).2 := by
  refine configuredPass_rule (each_true _ _) ?_ ?_
  · intro kind hmem plan event hfor hshort hvalid _ h
    unfold PlanEvent.apply
    cases hvictim : event.victim with
    | none =>
      rw [hfor.1]
      exact h.addTo hmem hshort
    | some victim =>
      have hdisplaced := hvalid.displaced victim hvictim
      rw [hfor.2] at hdisplaced
      exact h.displace hdisplaced
  · refine ⟨planStart_drawn view, fun _ _ hmem => ?_, fun _ hmem => ?_, ?_⟩
    · exact absurd hmem List.not_mem_nil
    · exact absurd hmem List.not_mem_nil
    · intro front back device _ heq
      exact absurd heq (by simp [planStart])

/-! ### The learned pass -/

/-- Once the kinds `done` are begun: devices were added for a configured count or for one of these,
    and no configured count was filled for a kind that lost a device. -/
structure LearnedKept (view : WarmPolicyView) (done : List PlannedKind) (plan : TargetPlan) :
    Prop where
  drawn : PlanDrawn view plan
  continues : configuredProposals view <+: plan.proposals
  configured : ∀ proposal ∈ configuredProposals view, ∀ device ∈ view.devices,
    device.id ∈ plan.displaced → ¬ proposal.Adds view device.spec
  begun : ∀ proposal ∈ plan.proposals, ∀ spec, proposal.Adds view spec →
    0 < configuredCount view.targets spec ∨ spec ∈ done.map (·.spec)
  ordered : Ordered view plan.proposals

theorem LearnedKept.start (view : WarmPolicyView) :
    LearnedKept view [] (configuredPass (planning view) (queued view).proposals
      (planning view).kinds (planStart view)).2 := by
  have h := configuredPass_kept view
  refine ⟨h.drawn, List.prefix_refl _, ?_, ?_, h.ordered⟩
  · intro proposal hproposal device hdevice hid hadds
    exact absurd (h.short proposal hproposal device.spec hadds)
      (Nat.not_lt.mpr (h.lost device hdevice hid))
  · intro proposal hproposal spec hadds
    exact .inl ((Nat.zero_le _).trans_lt (h.short proposal hproposal spec hadds))

theorem LearnedKept.next {done : List PlannedKind} {plan : TargetPlan} (kind : PlannedKind)
    (h : LearnedKept view done plan) : LearnedKept view (done ++ [kind]) plan := by
  refine ⟨h.drawn, h.continues, h.configured, fun proposal hmem spec hadds => ?_, h.ordered⟩
  refine (h.begun proposal hmem spec hadds).imp_right fun hin => ?_
  rw [List.map_append]
  exact List.mem_append_left _ hin

theorem LearnedKept.addTo {before : List PlannedKind} {kind : PlannedKind} {plan : TargetPlan}
    (h : LearnedKept view (before ++ [kind]) plan) :
    LearnedKept view (before ++ [kind]) (WarmPool.addTo (planning view) plan kind.spec) := by
  obtain ⟨proposal, hproposals, hadded, hadds⟩ := addTo_proposals view plan kind.spec
  refine ⟨h.drawn.addTo kind.spec, ?_, ?_, ?_, ?_⟩
  · rw [hproposals]
    exact h.continues.trans (List.prefix_append _ _)
  · rw [addTo_displaced]
    exact h.configured
  · intro other hother spec hspec
    rw [hproposals] at hother
    rcases List.mem_append.mp hother with hold | hnew
    · exact h.begun other hold spec hspec
    · rw [List.mem_singleton.mp hnew] at hspec
      rw [hadds spec hspec]
      exact .inr (by simp)
  · rw [hproposals]
    exact h.ordered.concat fun device _ heq => absurd heq (hadded device.id)

/-- A learned kind after the current one has not been begun. -/
theorem not_begun {before after : List PlannedKind} {kind : PlannedKind} {later : VirtualSpec}
    (hkinds : before ++ kind :: after = (planning view).kinds)
    (hafter : LearnedAfter (planning view) kind.spec later) :
    later ∉ (before ++ [kind]).map (·.spec) := by
  obtain ⟨i, j, current, other, hij, hi, hj, hspec, rfl, -, -⟩ := hafter
  have hnodup := (planning_ordered view).nodup
  have hplaces : ∀ {m n : Nat} {a b : PlannedKind}, (planning view).kinds[m]? = some a →
      (planning view).kinds[n]? = some b → a.spec = b.spec → m = n := by
    intro m n a b hm hn hab
    have hlt := (List.getElem?_eq_some_iff.mp hm).1
    refine (List.getElem?_inj (by simpa using hlt) hnodup).mp ?_
    rw [List.getElem?_map, List.getElem?_map, hm, hn, Option.map_some, Option.map_some, hab]
  have hkind : (planning view).kinds[before.length]? = some kind := by
    rw [← hkinds]
    simp
  have hplace : i = before.length := hplaces hi hkind hspec
  intro hmem
  obtain ⟨found, hfound, heq⟩ := List.mem_map.mp hmem
  obtain ⟨n, hn⟩ := List.getElem?_of_mem hfound
  have hlt : n < (before ++ [kind]).length := (List.getElem?_eq_some_iff.mp hn).1
  have hn' : (planning view).kinds[n]? = some found := by
    rw [← hkinds, List.append_cons, List.getElem?_append_left hlt]
    exact hn
  have hsame : n = j := hplaces hn' hj heq
  rw [List.length_append, List.length_singleton] at hlt
  omega

theorem LearnedKept.displace {before after : List PlannedKind} {kind : PlannedKind}
    {plan : TargetPlan} {victim : VirtualDevice}
    (hkinds : before ++ kind :: after = (planning view).kinds)
    (hvictim : displaceable (planning view) plan kind.spec .learned = some victim)
    (h : LearnedKept view (before ++ [kind]) plan) :
    LearnedKept view (before ++ [kind]) (plan.displace victim) := by
  have hin := mem_of_displaceable hvictim
  have hdevice := (victims_shuttable (h.drawn.victims victim hin)).1.1.1
  have hafter := learnedAfter_of_victim (planning_ordered view) (victimFor_of_displaceable hvictim)
  have hunstarted : ∀ proposal ∈ plan.proposals, ¬ proposal.Adds view victim.spec := by
    intro proposal hproposal hadds
    rcases h.begun proposal hproposal victim.spec hadds with hcount | hbegun
    · rw [hafter.configuredCount (planning_ordered view)] at hcount
      exact absurd hcount (Nat.lt_irrefl 0)
    · exact not_begun hkinds hafter hbegun
  refine ⟨h.drawn.displace hin, h.continues.trans (List.prefix_append _ _), ?_, ?_, ?_⟩
  · intro proposal hproposal device hmem hid
    rcases List.mem_cons.mp hid with heq | hold
    · rw [eq_of_id hmem hdevice heq]
      exact hunstarted proposal (h.continues.subset hproposal)
    · exact h.configured proposal hproposal device hmem hold
  · intro proposal hproposal spec hadds
    rcases List.mem_append.mp hproposal with hold | hnew
    · exact h.begun proposal hold spec hadds
    · rw [List.mem_singleton.mp hnew] at hadds
      exact hadds.elim
  · refine h.ordered.concat fun device hmem heq => ?_
    have hid : victim.id = device.id := (WarmProposal.shutdown.inj heq).1
    rw [← eq_of_id hdevice hmem hid]
    exact hunstarted

theorem length_configuredPass {p : Planning} {queued : List WarmProposal}
    (kinds : List PlannedKind) (plan : TargetPlan) :
    (configuredPass p queued kinds plan).1.length = kinds.length := by
  induction kinds generalizing plan with
  | nil => rfl
  | cons kind rest ih => simp [configuredPass, ih]

theorem wanted_kept (view : WarmPolicyView) :
    LearnedKept view (planning view).kinds (wanted view).2 := by
  have hkinds : (((planning view).kinds.zip (configuredPass (planning view)
      (queued view).proposals (planning view).kinds (planStart view)).1).map (·.1)) =
      (planning view).kinds :=
    List.map_fst_zip (length_configuredPass _ _).ge
  suffices hrun : LearnedKept view ([] ++ ((planning view).kinds.zip (configuredPass
      (planning view) (queued view).proposals (planning view).kinds (planStart view)).1).map (·.1))
      (wanted view).2 by
    rwa [List.nil_append, hkinds] at hrun
  refine learnedPass_rule (each_true _ _) (fun _ kind _ h => h.next kind) ?_
    (LearnedKept.start view)
  intro before kind after hlist plan event hfor hvalid _ h
  rw [List.nil_append, hkinds] at hlist
  unfold PlanEvent.apply
  cases hvictim : event.victim with
  | none =>
    rw [hfor.1]
    exact h.addTo
  | some victim =>
    have hdisplaced := hvalid.displaced victim hvictim
    rw [hfor.1, hfor.2] at hdisplaced
    exact h.displace hlist hdisplaced

/-! ### The queue -/

/-- Each proposal of the queue pass is for a waiting request, not in flight, that the device booted
    serves or that the created device's spec is of. -/
theorem queued_for (view : WarmPolicyView) : ∀ proposal ∈ (queued view).proposals,
    ∃ demand ∈ view.waiting, demand.inFlight = false ∧
      ((∃ device ∈ bootable view, serves device demand = true ∧
        proposal = .boot device.id .waitingRequest none) ∨
      proposal = .provision demand.spec .waitingRequest demand.spec) := by
  refine queued_rule (I := fun s => ∀ proposal ∈ s.proposals, ∃ demand ∈ view.waiting,
    demand.inFlight = false ∧ ((∃ device ∈ bootable view, serves device demand = true ∧
      proposal = .boot device.id .waitingRequest none) ∨
    proposal = .provision demand.spec .waitingRequest demand.spec)) (fun _ _ hmem => ?_) ?_
  · exact absurd hmem List.not_mem_nil
  · intro demand hdemand s s' hturn h proposal hmem
    cases hturn with
    | nothing _ hproposals =>
      rw [hproposals] at hmem
      exact h proposal hmem
    | booted device hdevice _ _ hfree hserves _ _ hproposals =>
      rw [hproposals] at hmem
      rcases List.mem_append.mp hmem with hold | hnew
      · exact h proposal hold
      · exact ⟨demand, hdemand, hfree,
          .inl ⟨device, hdevice, hserves, List.mem_singleton.mp hnew⟩⟩
    | created _ hfree _ _ _ hproposals =>
      rw [hproposals] at hmem
      rcases List.mem_append.mp hmem with hold | hnew
      · exact h proposal hold
      · exact ⟨demand, hdemand, hfree, .inr (List.mem_singleton.mp hnew)⟩

/-- A displaced device that may be granted serves no waiting request. -/
theorem displaced_unserving (hon : view.config.enabled = true) {device : VirtualDevice}
    (hdevice : device ∈ view.devices)
    (hdown : .shutdown device.id .displaced ∈ (evaluate view).proposals)
    (hgrantable : grantable device = true) {demand : WaitingDemand}
    (hdemand : demand ∈ view.waiting) (hfree : demand.inFlight = false) :
    servesSpec device.spec demand = false := by
  have hspared := (evaluate_safeProposals view).awaitedSpared hon device.id .displaced hdown device
    hdevice rfl demand hdemand hfree
  simpa [serves, hgrantable] using hspared

end

/-- What a pass displaces a device of, it fills again only for a learned count, after every
    configured count was filled. -/
theorem evaluate_refillsOnlyLearned (view : WarmPolicyView) : RefillsOnlyLearned view := by
  refine ⟨fun device hdevice hdown front proposal back hsplit hadds => ?_,
    fun device hdevice hdown hgrantable proposal hproposal hadds => ?_⟩
  all_goals
    have hon : view.config.enabled = true := by
      by_contra hoff
      rw [evaluate_off (by simpa using hoff)] at hdown
      simp at hdown
  · have hkept := wanted_kept view
    have hlost := (displaced_iff hon).mp hdown
    have hin := (displaced_wanted view).mpr hlost
    refine ⟨?_, ?_⟩
    · rw [hsplit] at hin
      rcases List.mem_append.mp hin with hfront | hrest
      · exact hfront
      · rcases List.mem_cons.mp hrest with rfl | hback
        · exact hadds.elim
        · obtain ⟨middle, last, rfl⟩ := List.append_of_mem hback
          rw [← List.cons_append, ← List.append_assoc] at hsplit
          refine absurd hadds (hkept.ordered _ _ device hdevice hsplit proposal ?_)
          exact List.mem_append_right _ (.head _)
    · have hpre : configuredProposals view <+: front ++ proposal :: back := by
        rw [← hsplit]
        exact hkept.continues
      have hthis : front ++ [proposal] <+: front ++ proposal :: back := ⟨back, by simp⟩
      have hnot : proposal ∉ configuredProposals view := fun hmem =>
        hkept.configured proposal hmem device hdevice hlost hadds
      rcases List.prefix_or_prefix_of_prefix hpre hthis with hless | hmore
      · rcases List.prefix_concat_iff.mp hless with heq | hfront
        · exact absurd (heq ▸ List.mem_append_right _ (.head _)) hnot
        · exact hfront
      · exact absurd (hmore.subset (List.mem_append_right _ (.head _))) hnot
  · obtain ⟨demand, hdemand, hfree, hcase⟩ := queued_for view proposal hproposal
    rcases hcase with ⟨booted, hbooted, hserves, rfl⟩ | rfl
    · obtain ⟨other, hother, hid, hspec⟩ := hadds
      have hsame := eq_of_id hother (mem_bootable.mp hbooted).1 hid
      have hserved := displaced_unserving hon hdevice hdown hgrantable hdemand hfree
      rw [← hspec, hsame] at hserved
      simp [serves, hserved] at hserves
    · refine ⟨demand, hdemand, hfree, rfl, ?_⟩
      have hserved := displaced_unserving hon hdevice hdown hgrantable hdemand hfree
      rwa [← show demand.spec = device.spec from hadds] at hserved

/-! ### Three learned kinds for two slots -/

/-- The newest of three learned kinds has no device, and there is no free slot for it. -/
def chasingView : WarmPolicyView :=
  calmView [warmDevice "m" "iPhone 16" 1, warmDevice "n" "iPad mini" 2] (by decide) 2 []
    [⟨iosKind "iPhone 17", 1⟩, ⟨iosKind "iPhone 16", 1⟩, ⟨iosKind "iPad mini", 1⟩]

theorem chasing_displacedAndCreated :
    (evaluate chasingView).proposals = [.shutdown "m" .displaced,
      .provision (iosKind "iPhone 17") .target (iosKind "iPhone 17"), .shutdown "n" .displaced,
      .provision (iosKind "iPhone 16") .target (iosKind "iPhone 16")] ∧
    ¬ ∀ device ∈ chasingView.devices,
      .shutdown device.id .displaced ∈ (evaluate chasingView).proposals →
        ∀ proposal ∈ (evaluate chasingView).proposals,
          ¬ proposal.Adds chasingView device.spec := by
  have hproposals : (evaluate chasingView).proposals = [.shutdown "m" .displaced,
      .provision (iosKind "iPhone 17") .target (iosKind "iPhone 17"), .shutdown "n" .displaced,
      .provision (iosKind "iPhone 16") .target (iosKind "iPhone 16")] := by decide +kernel
  refine ⟨hproposals, fun hnone => ?_⟩
  rw [hproposals] at hnone
  exact hnone (warmDevice "m" "iPhone 16" 1) (.head _) (.head _) _
    (.tail _ (.tail _ (.tail _ (.head _)))) rfl

end Simlock.WarmPool
