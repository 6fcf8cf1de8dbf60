import Simlock.WarmPool.Proposals

/-! One pass starts no more boots than its cap leaves.

    `started` counts what is in flight, the waiters being processed, what the pass proposes, and the
    creation that leasing begins for the head of the queue, which is counted without a look at the
    cap. That creation comes before anything is proposed, and everything proposed after it looks at
    the counter, so the cap is broken only by a pass that proposes no boot at all. -/

namespace Simlock.WarmPool
open Core

/-- A boot or a creation. -/
def WarmProposal.starts : WarmProposal → Bool
  | .shutdown _ _ => false
  | .boot _ _ _ => true
  | .provision _ _ _ => true

/-- The boots and creations a list of proposals begins. -/
def startedBy (proposals : List WarmProposal) : Nat := proposals.countP WarmProposal.starts

@[simp] theorem startedBy_append (a b : List WarmProposal) :
    startedBy (a ++ b) = startedBy a + startedBy b := List.countP_append

@[simp] theorem startedBy_shutdown (deviceId : String) (reason : WarmReason) :
    startedBy [.shutdown deviceId reason] = 0 := rfl

@[simp] theorem startedBy_boot (deviceId : String) (reason : WarmReason)
    (target : Option VirtualSpec) : startedBy [.boot deviceId reason target] = 1 := rfl

@[simp] theorem startedBy_provision (spec : VirtualSpec) (reason : WarmReason)
    (target : VirtualSpec) : startedBy [.provision spec reason target] = 1 := rfl

@[simp] theorem startedBy_shutdowns (devices : List VirtualDevice) (reason : WarmReason) :
    startedBy (devices.map fun device => .shutdown device.id reason) = 0 := by
  simp [startedBy, List.countP_map, Function.comp_def, WarmProposal.starts]

/-- The counter covers what runs and what is proposed, and stands within the cap as soon as
    anything is proposed. -/
structure Capped (view : WarmPolicyView) (proposed started : Nat) : Prop where
  counted : alreadyStarted view + proposed ≤ started
  within : proposed = 0 ∨ started ≤ view.config.maxConcurrentBoots

theorem Capped.start {view : WarmPolicyView} {proposed started : Nat}
    (h : Capped view proposed started) (hopen : started < view.config.maxConcurrentBoots) :
    Capped view (proposed + 1) (started + 1) :=
  ⟨by have := h.counted; omega, .inr hopen⟩

/-- While the queue is at its head, nothing has been proposed. -/
structure QueueCapped (view : WarmPolicyView) (s : QueueState) : Prop where
  capped : Capped view (startedBy s.proposals) s.started
  atHead : s.atHead = true → startedBy s.proposals = 0

theorem QueueCapped.turn {view : WarmPolicyView} {demand : WaitingDemand} {s s' : QueueState}
    (h : Served view demand s s') (hs : QueueCapped view s) : QueueCapped view s' := by
  obtain ⟨hcapped, hatHead⟩ := hs
  cases h with
  | nothing _ hproposals _ hstarted hhead =>
    rw [← hproposals] at hcapped hatHead
    refine ⟨?_, fun h => hatHead (hhead h)⟩
    rcases hstarted with hsame | ⟨hhead, hmore⟩
    · rwa [hsame]
    · rw [hmore]
      exact ⟨Nat.le_succ_of_le hcapped.counted, .inl (hatHead hhead)⟩
  | booted _ _ _ _ _ _ hopen _ hproposals _ hstarted hhead =>
    refine ⟨?_, fun h => ?_⟩
    · rw [hproposals, hstarted, startedBy_append, startedBy_boot]
      exact hcapped.start hopen
    · cases hhead.symm.trans h
  | created _ _ hopen _ _ hproposals _ hstarted hhead =>
    refine ⟨?_, fun h => ?_⟩
    · rw [hproposals, hstarted, startedBy_append, startedBy_provision]
      exact hcapped.start hopen
    · cases hhead.symm.trans h

theorem queued_capped {view : WarmPolicyView} (hcalm : view.pressure.step = .none) :
    Capped view (startedBy (queued view).proposals) (queued view).started := by
  have hboots : QueueCapped view (boots view (budgeted view).2) :=
    boots_rule ⟨⟨Nat.le_refl _, .inl rfl⟩, fun _ => rfl⟩ fun _ _ _ _ h => QueueCapped.turn h
  unfold queued queuePass
  rw [if_pos hcalm]
  exact hboots.capped

/-- The cap with the queue's boots and the targets' together. -/
def PlanCapped (view : WarmPolicyView) (plan : TargetPlan) : Prop :=
  Capped view (startedBy (queued view).proposals + startedBy plan.proposals) plan.started

theorem startedBy_addTo (p : Planning) (plan : TargetPlan) (spec : VirtualSpec) :
    startedBy (addTo p plan spec).proposals = startedBy plan.proposals + 1 := by
  unfold addTo
  split <;> simp

theorem PlanCapped.apply {view : WarmPolicyView} {plan : TargetPlan} {event : PlanEvent}
    (hvalid : Valid (planning view) plan event) (h : PlanCapped view plan) :
    PlanCapped view (event.apply (planning view) plan) := by
  unfold PlanEvent.apply
  cases hvictim : event.victim with
  | none =>
    obtain ⟨-, hopen⟩ := hvalid.added hvictim
    unfold PlanCapped
    rw [startedBy_addTo, addTo_started]
    exact h.start hopen
  | some victim =>
    unfold PlanCapped TargetPlan.displace
    rw [startedBy_append, startedBy_shutdown]
    exact h

theorem wanted_capped {view : WarmPolicyView} (hcalm : view.pressure.step = .none) :
    PlanCapped view (wanted view).2 :=
  (planTargets_plays (planStart view)).rule (each_true _ _)
    (fun _ _ _ hvalid _ h => PlanCapped.apply hvalid h) (queued_capped hcalm)

/-! ### Under memory pressure -/

theorem queued_pressed {view : WarmPolicyView} (hstep : view.pressure.step ≠ .none) :
    (queued view).proposals = [] := by
  unfold queued queuePass
  rw [if_neg hstep]
  rfl

theorem wanted_pressed {view : WarmPolicyView} (hstep : view.pressure.step ≠ .none) :
    (wanted view).2.proposals = [] :=
  (planTargets_plays (planStart view)).rule (I := fun plan => plan.proposals = []) (each_true _ _)
    (fun _ _ _ hvalid _ _ => absurd hvalid.calm hstep) rfl

theorem startedBy_evaluate {view : WarmPolicyView} (hon : view.config.enabled = true) :
    startedBy (evaluate view).proposals =
      startedBy (queued view).proposals + startedBy (wanted view).2.proposals := by
  simp [evaluate, hon]

/-- A pass that starts anything stays within the cap, with what is in flight and the waiters being
    processed; while memory is short it starts nothing. -/
theorem boots_within_cap (view : WarmPolicyView) :
    ((∃ proposal ∈ (evaluate view).proposals, proposal.starts = true) →
      startedBy (evaluate view).proposals + view.inFlight.length +
        (view.waiting.countP fun demand => demand.inFlight) ≤ view.config.maxConcurrentBoots) ∧
    (view.pressure.step ≠ .none →
      ∀ proposal ∈ (evaluate view).proposals, proposal.starts = false) := by
  cases hon : view.config.enabled with
  | false =>
    have hnone : ∀ proposal ∈ (evaluate view).proposals, proposal.starts = false := by
      rw [evaluate_off hon]
      intro proposal h
      obtain ⟨device, -, rfl⟩ := List.mem_map.mp h
      rfl
    refine ⟨fun ⟨proposal, hmem, hstarts⟩ => ?_, fun _ => hnone⟩
    rw [hnone proposal hmem] at hstarts
    cases hstarts
  | true =>
    have hcount := startedBy_evaluate hon
    have hpressed : view.pressure.step ≠ .none → startedBy (evaluate view).proposals = 0 := by
      intro hstep
      rw [hcount, queued_pressed hstep, wanted_pressed hstep]
      rfl
    refine ⟨fun hsome => ?_, fun hstep proposal hmem => ?_⟩
    · have hpos : 0 < startedBy (evaluate view).proposals := List.countP_pos_iff.mpr hsome
      have hcalm : view.pressure.step = .none := by
        by_contra hstep
        exact hpos.ne' (hpressed hstep)
      obtain ⟨hcounted, hwithin⟩ := wanted_capped hcalm
      rw [← hcount] at hcounted hwithin
      unfold alreadyStarted at hcounted
      omega
    · have hzero := List.countP_eq_zero.mp (hpressed hstep) proposal hmem
      simpa using hzero

end Simlock.WarmPool
