import Simlock.WarmPool.Kinds

/-! What a displacement leaves of the kind it takes a device from.

    A configured count may take the slot of a ready device that no configured count keeps. The code
    counts the victim's kind without the devices displaced before, but with those that the budget
    and the never-leased rule have already shut down in the same pass; so a kind may end below its
    configured count. It does not exactly when every victim's kind, counted without any device shut
    down so far, has its configured count beside the victim. A learned count only ever takes a device
    of a learned kind that comes after its own. -/

namespace Simlock.WarmPool
open Core

/-! ### What is left of a kind -/

/-- The ready, idle, grantable devices of a kind, without those in `shut`. -/
def spareDevices (view : WarmPolicyView) (shut : List String) (spec : VirtualSpec) : Nat :=
  view.devices.countP fun device => device.state = .ready && idle view device &&
    grantable device && sameSpec device.spec spec && !shut.contains device.id

/-- Every kind a device is displaced from keeps its configured count. -/
def KeepsConfigured (view : WarmPolicyView) : Prop :=
  ∀ device ∈ view.devices, .shutdown device.id .displaced ∈ (evaluate view).proposals →
    configuredCount view.targets device.spec ≤
      spareDevices view ((evaluate view).proposals.filterMap shutdownId) device.spec

/-- The moves of the pass for its targets. -/
def targetEvents (view : WarmPolicyView) : List PlanEvent :=
  planEvents (planning view) (queued view).proposals (planStart view)

/-- A learned kind takes a device only of a learned kind that comes after it. -/
def LearnedTakesLater (view : WarmPolicyView) : Prop :=
  Each (planning view) (fun _ event => ∀ victim, event.victim = some victim →
    event.count = .learned → LearnedAfter (planning view) event.spec victim.spec)
    (planStart view) (targetEvents view)

/-- Before a displacement for a configured count: beside the victim, its kind has its own configured
    count of devices that nothing in the pass has shut down so far. -/
def SparesKept (view : WarmPolicyView) (plan : TargetPlan) (event : PlanEvent) : Prop :=
  ∀ victim, event.victim = some victim → event.count = .configured →
    configuredCount view.targets victim.spec ≤
      spareDevices view (victim.id :: (proposed view ++ plan.displaced)) victim.spec

section
variable {view : WarmPolicyView} {shut : List String} {spec : VirtualSpec}

theorem spareDevices_anti {more : List String} (h : shut ⊆ more) :
    spareDevices view more spec ≤ spareDevices view shut spec := by
  refine List.countP_mono_left fun device _ hspare => ?_
  simp only [Bool.and_eq_true, Bool.not_eq_true', List.contains_eq_mem,
    decide_eq_false_iff_not] at hspare ⊢
  exact ⟨hspare.1, fun hmem => hspare.2 (h hmem)⟩

/-- Shutting a device of another kind down leaves a kind as it is. -/
theorem spareDevices_other {victim : VirtualDevice} (hvictim : victim ∈ view.devices)
    (hspec : victim.spec ≠ spec) :
    spareDevices view (victim.id :: shut) spec = spareDevices view shut spec := by
  refine List.countP_congr fun device hdevice => ?_
  by_cases hid : device.id = victim.id
  · cases eq_of_id hdevice hvictim hid
    simp [sameSpec, hspec]
  · simp [hid]

theorem countP_le_add {α : Type} {q r s : α → Bool} (h : ∀ a, q a = true → r a = true ∨ s a = true)
    (l : List α) : l.countP q ≤ l.countP r + l.countP s := by
  induction l with
  | nil => exact Nat.le_refl 0
  | cons a rest ih =>
    have ha := h a
    simp only [List.countP_cons]
    split_ifs <;> simp_all <;> omega

/-- One device more that is shut down is at most one less. -/
theorem spareDevices_cons {deviceId : String} :
    spareDevices view shut spec ≤ spareDevices view (deviceId :: shut) spec + 1 := by
  have hone : view.devices.countP (fun device => device.id = deviceId) ≤ 1 := by
    have hcount := List.nodup_iff_count_le_one.mp view.nodup deviceId
    rw [List.count, List.countP_map] at hcount
    refine le_trans (le_of_eq (List.countP_congr fun device _ => ?_)) hcount
    simp
  have hsplit : spareDevices view shut spec ≤ spareDevices view (deviceId :: shut) spec +
      view.devices.countP (fun device => device.id = deviceId) := by
    refine countP_le_add (fun device hspare => ?_) view.devices
    by_cases hid : device.id = deviceId
    · exact .inr (by simpa using hid)
    · left
      simpa [hid] using hspare
  omega

/-! ### The displacements of a plan -/

/-- A displaced device is one of the view's that no rule shut down before the targets. -/
theorem victim_mem {plan : TargetPlan} {event : PlanEvent} {victim : VirtualDevice}
    (hdrawn : PlanDrawn view plan) (hvalid : Valid (planning view) plan event)
    (hvictim : event.victim = some victim) : victim ∈ view.devices := by
  have hmem := hdrawn.victims victim (mem_of_displaceable (hvalid.displaced victim hvictim))
  exact (victims_shuttable hmem).1.1.1

/-- A learned count displaces a device of a later learned kind. -/
theorem learnedAfter_of_valid {plan : TargetPlan} {event : PlanEvent} {victim : VirtualDevice}
    (hvalid : Valid (planning view) plan event) (hvictim : event.victim = some victim)
    (hcount : event.count = .learned) : LearnedAfter (planning view) event.spec victim.spec := by
  have htaken := victimFor_of_displaceable (hvalid.displaced victim hvictim)
  rw [hcount] at htaken
  exact learnedAfter_of_victim (planning_ordered view) htaken

/-- So far, every kind that lost a device to a displacement has its configured count left. -/
structure CountsKept (view : WarmPolicyView) (plan : TargetPlan) : Prop where
  drawn : PlanDrawn view plan
  kept : ∀ device ∈ view.devices, device.id ∈ plan.displaced →
    configuredCount view.targets device.spec ≤
      spareDevices view (proposed view ++ plan.displaced) device.spec

theorem spareDevices_displace (plan : TargetPlan) (victim : VirtualDevice) :
    spareDevices view (proposed view ++ (plan.displace victim).displaced) spec =
      spareDevices view (victim.id :: (proposed view ++ plan.displaced)) spec := by
  refine List.countP_congr fun device _ => ?_
  simp [TargetPlan.displace, or_left_comm]

theorem CountsKept.apply {plan : TargetPlan} {event : PlanEvent}
    (hvalid : Valid (planning view) plan event) (hspares : SparesKept view plan event)
    (h : CountsKept view plan) : CountsKept view (event.apply (planning view) plan) := by
  refine ⟨h.drawn.apply hvalid, ?_⟩
  unfold PlanEvent.apply
  cases hvictim : event.victim with
  | none => simpa using h.kept
  | some victim =>
    have hmem := victim_mem h.drawn hvalid hvictim
    have hown : configuredCount view.targets victim.spec ≤
        spareDevices view (victim.id :: (proposed view ++ plan.displaced)) victim.spec := by
      cases hcount : event.count with
      | configured => exact hspares victim hvictim hcount
      | learned =>
        rw [(learnedAfter_of_valid hvalid hvictim hcount).configuredCount (planning_ordered view)]
        exact Nat.zero_le _
    intro device hdevice hid
    rw [spareDevices_displace]
    by_cases hspec : device.spec = victim.spec
    · rw [hspec]
      exact hown
    · rw [spareDevices_other hmem (Ne.symm hspec)]
      refine h.kept device hdevice ((List.mem_cons.mp hid).resolve_left fun heq => hspec ?_)
      rw [eq_of_id hdevice hmem heq]

theorem Plays.displaced_subset {p : Planning} {a b : TargetPlan} {events : List PlanEvent}
    (h : Plays p a events b) : a.displaced ⊆ b.displaced := by
  induction h with
  | nil => exact List.Subset.refl _
  | cons _ _ ih => exact List.Subset.trans (displaced_apply_subset _ _) ih

/-- A condition on each event and the plan it meets, from what the last plan has displaced. -/
theorem Plays.each_of_final {a b : TargetPlan} {events : List PlanEvent}
    {Q : TargetPlan → PlanEvent → Prop} (h : Plays (planning view) a events b)
    (hdrawn : PlanDrawn view a)
    (hall : ∀ plan event, PlanDrawn view plan → Valid (planning view) plan event →
      (event.apply (planning view) plan).displaced ⊆ b.displaced → Q plan event) :
    Each (planning view) Q a events := by
  induction h with
  | nil => exact trivial
  | cons hvalid hrest ih =>
    exact ⟨hall _ _ hdrawn hvalid hrest.displaced_subset, ih (hdrawn.apply hvalid) hall⟩

theorem learnedTakesLater (view : WarmPolicyView) : LearnedTakesLater view :=
  (planTargets_plays (planStart view)).each_of_final (planStart_drawn view)
    fun _ _ _ hvalid _ _ hvictim hcount => learnedAfter_of_valid hvalid hvictim hcount

end

/-- A pass keeps every configured count where it displaces, and takes for a learned count only from
    later learned kinds, exactly when every device it displaces for a configured count leaves its own
    kind its configured count, as the pass stands at that moment. -/
theorem keepsConfigured_iff (view : WarmPolicyView) :
    (KeepsConfigured view ∧ LearnedTakesLater view) ↔
      (view.config.enabled = true →
        Each (planning view) (SparesKept view) (planStart view) (targetEvents view)) := by
  have hplays : Plays (planning view) (planStart view) (targetEvents view) (wanted view).2 :=
    planTargets_plays (planStart view)
  refine ⟨fun ⟨hkeeps, _⟩ hon => ?_, fun hspares => ⟨fun device hdevice hdown => ?_,
    learnedTakesLater view⟩⟩
  · refine hplays.each_of_final (planStart_drawn view) ?_
    intro plan event hdrawn hvalid hsubset victim hvictim _
    have hmem := victim_mem hdrawn hvalid hvictim
    have happly : event.apply (planning view) plan = plan.displace victim := by
      simp [PlanEvent.apply, hvictim]
    rw [happly] at hsubset
    refine (hkeeps victim hmem ((displaced_iff hon).mpr (hsubset (.head _)))).trans ?_
    rw [shutdownIds_evaluate hon]
    refine spareDevices_anti fun deviceId hid => ?_
    rcases List.mem_cons.mp hid with rfl | hid
    · exact List.mem_append_right _ (List.mem_reverse.mpr (hsubset (.head _)))
    · rcases List.mem_append.mp hid with hproposed | hdisplaced
      · exact List.mem_append_left _ hproposed
      · exact List.mem_append_right _ (List.mem_reverse.mpr (hsubset (.tail _ hdisplaced)))
  · cases hon : view.config.enabled with
    | false =>
      rw [evaluate_off hon] at hdown
      obtain ⟨other, -, heq⟩ := List.mem_map.mp hdown
      simp at heq
    | true =>
      have hstart : CountsKept view (planStart view) :=
        ⟨planStart_drawn view, fun _ _ hmem => absurd hmem List.not_mem_nil⟩
      have hkept := hplays.rule (hspares hon)
        (fun _ _ _ hvalid hq h => CountsKept.apply hvalid hq h) hstart
      have hleft := hkept.kept device hdevice ((displaced_iff hon).mp hdown)
      refine hleft.trans (le_of_eq ?_)
      rw [shutdownIds_evaluate hon]
      refine List.countP_congr fun other _ => ?_
      simp

/-! ### A kind below its count -/

def iosKind (model : String) : VirtualSpec := ⟨.ios, model, "18.4", false, none, none⟩

/-- A ready device that never served a lease. -/
def warmDevice (id model : String) (createdAt : Int) : VirtualDevice where
  id
  driverDeviceId := id
  createdAt
  lastLeaseEndedAt := none
  readyAt := none
  shutdownAt := none
  deletedAt := none
  foreignStateDetectedAt := none
  foreignProvenanceDetectedAt := none
  recoveringSince := none
  recoveryAttempts := none
  deferredReclaimLeaseId := none
  quarantinedAt := none
  quarantineAttempts := none
  quarantineNextRetryAt := none
  quarantineCause := none
  address := none
  spec := iosKind model
  state := .ready
  mode := .full
  except_ := none
  leaseIdentity := none
  driverData := .ios ⟨"iPhone", "set", "runtime", none, none, id⟩

/-- A worker with these devices running, no leases and no requests, and two boots at once. -/
def calmView (devices : List VirtualDevice) (nodup : (devices.map (·.id)).Nodup) (limit : Nat)
    (targets : List ResolvedTarget) (learned : List LearnedKind) : WarmPolicyView where
  devices
  leases := []
  waiting := []
  capacity := ⟨⟨devices.length, 0, limit⟩, ⟨devices.length, 0, limit⟩, ⟨0, 0, 0⟩⟩
  isClaimed _ := false
  config := ⟨true, ⟨0, 0⟩, 600000, 2⟩
  now := 1000
  targets
  spared := []
  learned
  unplanned := []
  inFlight := []
  onItsWay := []
  mayAttempt _ _ := true
  admission := ⟨fun _ _ => none, fun _ _ => none⟩
  handoffInFlight := false
  resetDevices := []
  pressure := ⟨.none, false, []⟩
  localeLe left right := left ≤ right
  nodup

/-- Two devices of a kind that is to keep one, a running limit of one, and another kind that is to
    have one: the budget shuts the first device down and the other kind displaces the second. -/
def crowdedView : WarmPolicyView :=
  calmView [warmDevice "a" "iPhone 16" 1, warmDevice "b" "iPhone 16" 2] (by decide) 1
    [⟨iosKind "iPhone 16", 1⟩, ⟨iosKind "iPad mini", 1⟩] []

theorem crowded_belowCount :
    (evaluate crowdedView).proposals = [.shutdown "a" .overBudget, .shutdown "b" .displaced,
      .provision (iosKind "iPad mini") .target (iosKind "iPad mini")] ∧
    configuredCount crowdedView.targets (iosKind "iPhone 16") = 1 ∧
    ¬ (KeepsConfigured crowdedView ∧ LearnedTakesLater crowdedView) := by
  have hproposals : (evaluate crowdedView).proposals =
      [.shutdown "a" .overBudget, .shutdown "b" .displaced,
        .provision (iosKind "iPad mini") .target (iosKind "iPad mini")] := by decide +kernel
  refine ⟨hproposals, by decide +kernel, fun ⟨hkeeps, _⟩ => ?_⟩
  have hkept := hkeeps (warmDevice "b" "iPhone 16" 2) (.tail _ (.head _))
    (by rw [hproposals]; decide +kernel)
  rw [hproposals] at hkept
  exact absurd hkept (by decide +kernel)

end Simlock.WarmPool
