import Simlock.Worker.RunningLimit

/-! What a plan takes is given back when its operation ends.

    Every entry of the coordinator, and every claim that is not another workflow's, is held by one
    operation in flight, so that nothing is left of a request when its drive is over. What one step
    does with the claims is said once (`Passes`): the flow goes on with what it held, less what it
    gives back, and with what it takes.

    One path breaks it: `bootForLease`, `rebootForLease` and `readyProvisionedForLease` answer
    `undefined`, with the claim still in the table, when the device changed under the plan, and their
    callers take that for a boot that failed and gave it back. -/

namespace Simlock.Worker

open Simlock.Lib Simlock.Core

/-- The claims of a flow. -/
def Flow.holds (f : Flow) : List Nat := f.claim.toList ++ f.own.toList

/-- The claim another workflow takes with this action. -/
def Host.othersClaim (s : Host) : HostAction → List Nat
  | .claim deviceId operation => if operation.isPlanned || s.isClaimed deviceId then [] else [s.next]
  | _ => []

/-- The claims the other workflows took in a run. -/
def othersClaims (o : RegistryOptions) (strategy : CapacityStrategy) (s : Host) :
    List HostAction → List Nat
  | [] => []
  | a :: acts => s.othersClaim a ++ othersClaims o strategy (s.step o strategy a) acts

/-- The claims of a table that are not another workflow's. -/
def Host.planClaims (s : Host) (others : List Nat) : List Nat :=
  (s.claims.map Claim.token).filter fun t => t ∉ others

/-- Each reservation and each claim is held by one flow, and when no drive of a request is in flight
    what is held is the warm pool's. -/
structure Conserved (others : List Nat) (s : Host) : Prop where
  reservations : (s.capacity.provisioningReservations.map Reserved.token ++
    s.capacity.runningReservations.map Reserved.token).Perm (s.flows.filterMap Flow.reservation)
  boots : ∀ r ∈ s.capacity.bootReservations, some r.token ∈ s.flows.map Flow.reservation
  claims : (s.planClaims others).Perm (s.flows.flatMap Flow.holds)
  once : (s.flows.filterMap Flow.reservation).Nodup ∧ (s.flows.flatMap Flow.holds).Nodup
  quiescent : (∀ f ∈ s.flows, f.owner = none) →
    (∀ t ∈ s.capacity.provisioningReservations.map Reserved.token ++
      s.capacity.runningReservations.map Reserved.token,
        ∃ f ∈ s.flows, f.owner = none ∧ f.reservation = some t) ∧
    ∀ c ∈ s.claims, c.token ∈ others ∨ ∃ f ∈ s.flows, f.owner = none ∧ c.token ∈ f.holds

/-- A request's boot finds its device as the plan left it. -/
def KeepsTarget (s : Host) : HostAction → Prop
  | .advance f .go _ _ => f.point = .planned → f.claim.isSome → f.callerReleases = false →
    s.finds f.target f.expected = true
  | _ => True

/-! ### What a step does with the claims -/

/-- Where a flow holds no claim of its plan. -/
def Point.isUnclaimed : Point → Bool
  | .creating | .failed | .destroying | .undestroyed | .superseded | .disposing => true
  | _ => false

/-- Where a flow holds which claim. -/
structure HoldsOk (f : Flow) : Prop where
  own : f.own.isSome → f.point = .destroying ∨ f.point = .disposing
  claim : f.point.isUnclaimed = true → f.claim = none

/-- What a step of a flow makes of its claims; `next` names what it takes. -/
structure Passes (next : Nat) (f : Flow) (n : Next) : Prop where
  frees : ∀ t ∈ n.frees, t ∈ f.holds
  holds : (n.flow.toList.flatMap Flow.holds) =
    f.holds.filter (fun t => t ∉ n.frees) ++ (n.takes.map fun _ => next).toList
  ok : ∀ f', n.flow = some f' → HoldsOk f'

section Flows

variable {o : RegistryOptions} {s : Host} {f : Flow} {now : Int} {writable : Bool} {next : Nat}

theorem holds_of_none (h : f.own = none) : f.holds = f.claim.toList := by
  rw [Flow.holds, h, Option.toList_none, List.append_nil]

theorem HoldsOk.of_none (hown : f.own = none) (hclaim : f.point.isUnclaimed = true → f.claim = none) :
    HoldsOk f := by
  refine ⟨fun h => ?_, hclaim⟩
  rw [hown] at h
  cases h

/-- A step that takes nothing and gives nothing back. -/
theorem Passes.keeps {n : Next} {f' : Flow} (hflow : n.flow = some f') (hfrees : n.frees = [])
    (htakes : n.takes = none) (hclaim : f'.claim = f.claim) (hown : f'.own = f.own)
    (hok : HoldsOk f') : Passes next f n := by
  refine ⟨?_, ?_, ?_⟩
  · rw [hfrees]
    rintro t ⟨⟩
  · rw [hflow, hfrees, htakes]
    simp [Flow.holds, hclaim, hown]
  · intro g hg
    cases hflow.symm.trans hg
    exact hok

/-- The claim of the plan is given back. -/
theorem Passes.freesClaim {n : Next} (hnone : f.own = none) (hfrees : n.frees = f.claim.toList)
    (htakes : n.takes = none) (hflow : ∀ f', n.flow = some f' → f'.claim = none ∧ f'.own = none) :
    Passes next f n := by
  refine ⟨?_, ?_, ?_⟩
  · rw [hfrees, holds_of_none hnone]
    exact fun t ht => ht
  · have hnil : n.flow.toList.flatMap Flow.holds = [] := by
      cases hn : n.flow with
      | none => rfl
      | some f' =>
        obtain ⟨hc, ho⟩ := hflow f' hn
        simp [Flow.holds, hc, ho]
    rw [hnil, hfrees, htakes, holds_of_none hnone]
    cases f.claim <;> simp
  · intro g hg
    obtain ⟨hc, ho⟩ := hflow g hg
    exact .of_none ho fun _ => hc

/-- The claim of a destroy is given back. -/
theorem Passes.freesOwn {n : Next} {f' : Flow} (hflow : n.flow = some f') (hnone : f.claim = none)
    (hfrees : n.frees = f.own.toList) (htakes : n.takes = none) (hclaim : f'.claim = none)
    (hown : f'.own = none) : Passes next f n := by
  have hholds : f.holds = f.own.toList := by rw [Flow.holds, hnone, Option.toList_none, List.nil_append]
  refine ⟨?_, ?_, ?_⟩
  · rw [hfrees, hholds]
    exact fun t ht => ht
  · rw [hflow, hfrees, htakes, hholds]
    cases f.own <;> simp [Flow.holds, hclaim, hown]
  · intro g hg
    cases hflow.symm.trans hg
    exact .of_none hown fun _ => hclaim

/-- A claim is taken by a flow that had none. -/
theorem Passes.takesOne {n : Next} {f' : Flow} {taken : String × DeviceOperation × Option String}
    (hflow : n.flow = some f') (hclaim : f.claim = none) (hown : f.own = none) (hfrees : n.frees = [])
    (htakes : n.takes = some taken) (hholds : f'.holds = [next]) (hok : HoldsOk f') :
    Passes next f n := by
  refine ⟨?_, ?_, ?_⟩
  · rw [hfrees]
    rintro t ⟨⟩
  · rw [hflow, hfrees, htakes]
    simp [Flow.holds, hclaim, hown] at hholds ⊢
    exact hholds
  · intro g hg
    cases hflow.symm.trans hg
    exact hok

theorem Passes.waits (hok : HoldsOk f) {point : Point}
    (hpoint : point = f.point ∨ (f.own = none ∧ (point.isUnclaimed = true → f.claim = none))) :
    Passes next f (f.waits point) := by
  refine Passes.keeps rfl rfl rfl rfl rfl ?_
  rcases hpoint with rfl | ⟨hown, hclaim⟩
  · exact ⟨hok.own, hok.claim⟩
  · exact .of_none hown hclaim

theorem HoldsOk.own_none (hok : HoldsOk f) (hdestroying : f.point ≠ .destroying)
    (hdisposing : f.point ≠ .disposing) : f.own = none := by
  cases h : f.own with
  | none => rfl
  | some t =>
    rcases hok.own (by rw [h]; rfl) with hp | hp
    · exact absurd hp hdestroying
    · exact absurd hp hdisposing

theorem fromCreating_passes (hok : HoldsOk f) (hpoint : f.point = .creating) (m : Move) :
    Passes s.next f (f.fromCreating o s now writable m) := by
  have hclaim : f.claim = none := hok.claim (by rw [hpoint]; rfl)
  have hown := hok.own_none (by simp [hpoint]) (by simp [hpoint])
  have hstays : Passes s.next f (f.waits f.point) := .waits hok (.inl rfl)
  have hends : ∀ {n : Next}, n.flow = none → n.frees = [] → n.takes = none → Passes s.next f n := by
    intro n hflow hfrees htakes
    refine .freesClaim hown (by rw [hfrees, hclaim]; rfl) htakes ?_
    intro f' hf'
    rw [hflow] at hf'
    cases hf'
  cases m with
  | register id driverDeviceId version driverData =>
    simp only [Flow.fromCreating]
    split
    · split
      · split
        · exact .keeps rfl rfl rfl rfl rfl (.of_none hown fun _ => hclaim)
        · refine .takesOne rfl hclaim hown rfl rfl ?_ (.of_none hown ?_)
          · simp [Flow.holds, hown]
          · rintro ⟨⟩
      · exact hends rfl rfl rfl
    · exact hstays
  | fail => exact hends rfl rfl rfl
  | _ => exact hstays

/-- The one step that may lose the claim is the one whose target has changed. -/
theorem fromPlanned_passes (hok : HoldsOk f) (hpoint : f.point = .planned) (m : Move)
    (hactive : ∀ t, f.claim = some t → s.isActive t = true)
    (htarget : m = .go → f.claim.isSome → f.callerReleases = false →
      s.finds f.target f.expected = true) : Passes s.next f (f.fromPlanned s m) := by
  have hown := hok.own_none (by simp [hpoint]) (by simp [hpoint])
  have hstays : Passes s.next f (f.waits f.point) := .waits hok (.inl rfl)
  cases m with
  | go =>
    simp only [Flow.fromPlanned]
    split
    · rename_i token hclaim
      split
      · exact .waits hok (.inr ⟨hown, fun h => by cases h⟩)
      · rename_i hfinds
        split
        · exact .waits hok (.inr ⟨hown, fun h => by cases h⟩)
        · rename_i hcaller
          refine absurd ?_ hfinds
          rw [htarget rfl (by rw [hclaim]; rfl) (by simpa using hcaller), hactive token hclaim]
          rfl
    · rename_i hclaim
      split
      · split
        · refine .takesOne rfl hclaim hown rfl rfl ?_ (.of_none hown ?_)
          · simp [Flow.holds, hown]
          · rintro ⟨⟩
        · exact .waits hok (.inr ⟨hown, fun _ => hclaim⟩)
      · exact .waits hok (.inr ⟨hown, fun _ => hclaim⟩)
  | _ => exact hstays

theorem afterReady_isUnclaimed : f.afterReady.isUnclaimed = false := by
  rw [Flow.afterReady]
  split
  · rfl
  · split <;> rfl
  · rfl

theorem fromWorking_passes (hok : HoldsOk f) (hpoint : f.point = .working) (m : Move) :
    Passes next f (f.fromWorking o s now writable m) := by
  have hown := hok.own_none (by simp [hpoint]) (by simp [hpoint])
  have hstays : Passes next f (f.waits f.point) := .waits hok (.inl rfl)
  -- on to a point where the claim is still held
  have hon : ∀ {n : Next} {f' : Flow}, n.flow = some f' → n.frees = [] → n.takes = none →
      f'.claim = f.claim → f'.own = f.own → f'.point.isUnclaimed = false → Passes next f n := by
    intro n f' hflow hfrees htakes hc ho hp
    refine .keeps hflow hfrees htakes hc ho (.of_none (ho.trans hown) fun h => ?_)
    rw [hp] at h
    cases h
  cases m with
  | fail =>
    refine hon rfl rfl rfl rfl rfl ?_
    dsimp only
    split <;> rfl
  | ready ready =>
    simp only [Flow.fromWorking]
    have hready : ∀ t, Passes next f
        { section_ := some (f.commitReady t ready)
          flow := some { f with
            point := if (f.commitReady t ready).ran o s.registry now writable = .done then f.afterReady
              else .releasing } } := by
      intro t
      refine hon rfl rfl rfl rfl rfl ?_
      dsimp only
      split
      · exact afterReady_isUnclaimed
      · rfl
    split
    · exact hready _
    · exact hready _
    · exact hready _
    · exact hstays
  | stopped =>
    simp only [Flow.fromWorking]
    split
    · refine hon rfl rfl rfl rfl rfl ?_
      dsimp only
      split <;> rfl
    · exact hstays
  | done =>
    simp only [Flow.fromWorking]
    split
    · refine .freesClaim hown rfl rfl ?_
      rintro f' ⟨⟩
      exact ⟨rfl, hown⟩
    · refine .freesClaim hown rfl rfl ?_
      rintro f' ⟨⟩
      exact ⟨rfl, hown⟩
    · exact hstays
  | _ => exact hstays

theorem fromFailure_passes (hok : HoldsOk f) (m : Move) :
    Passes s.next f (f.fromFailure o s now writable m) := by
  have hstays : Passes s.next f (f.waits f.point) := .waits hok (.inl rfl)
  cases m with
  | go =>
    simp only [Flow.fromFailure]
    split
    · rename_i hpoint
      have hown := hok.own_none (by simp [hpoint]) (by simp [hpoint])
      refine .keeps rfl rfl rfl rfl rfl (.of_none hown ?_)
      rintro ⟨⟩
    · rename_i hpoint
      have hown := hok.own_none (by simp [hpoint]) (by simp [hpoint])
      refine .freesClaim hown rfl rfl ?_
      rintro f' ⟨⟩
      exact ⟨rfl, hown⟩
    · rename_i hpoint
      have hown := hok.own_none (by simp [hpoint]) (by simp [hpoint])
      have hclaim : f.claim = none := hok.claim (by rw [hpoint]; rfl)
      split
      · split
        · refine .takesOne rfl hclaim hown rfl rfl ?_ ⟨fun _ => .inl rfl, fun _ => hclaim⟩
          simp [Flow.holds, hclaim]
        · exact .waits hok (.inr ⟨hown, fun _ => hclaim⟩)
      · exact .waits hok (.inr ⟨hown, fun _ => hclaim⟩)
    · exact hstays
  | fail =>
    simp only [Flow.fromFailure]
    split
    · rename_i hpoint
      have hclaim : f.claim = none := hok.claim (by rw [hpoint]; rfl)
      exact .freesOwn rfl hclaim rfl rfl hclaim rfl
    · exact hstays
  | done =>
    simp only [Flow.fromFailure]
    split
    · rename_i hpoint _
      have hclaim : f.claim = none := hok.claim (by rw [hpoint]; rfl)
      exact .freesOwn rfl hclaim rfl rfl hclaim rfl
    · exact hstays
  | quarantine nextRetryAt cause =>
    simp only [Flow.fromFailure]
    split
    · rename_i hpoint _
      have hown := hok.own_none (by simp [hpoint]) (by simp [hpoint])
      have hclaim : f.claim = none := hok.claim (by rw [hpoint]; rfl)
      split
      · exact .waits hok (.inr ⟨hown, fun _ => hclaim⟩)
      · split
        · exact .waits hok (.inr ⟨hown, fun _ => hclaim⟩)
        · exact .keeps rfl rfl rfl rfl rfl (.of_none hown fun _ => hclaim)
    · exact hstays
  | _ => exact hstays

theorem fromHandoff_passes (hok : HoldsOk f) (hpoint : f.point = .handoff) (m : Move) :
    Passes next f (f.fromHandoff m) := by
  have hown := hok.own_none (by simp [hpoint]) (by simp [hpoint])
  cases m with
  | grant generated input =>
    refine .freesClaim hown rfl rfl ?_
    rintro f' ⟨⟩
  | go =>
    refine .freesClaim hown rfl rfl ?_
    rintro f' ⟨⟩
  | supersede =>
    refine .freesClaim hown rfl rfl ?_
    rintro f' ⟨⟩
    exact ⟨rfl, hown⟩
  | _ => exact .waits hok (.inl rfl)

theorem fromSuperseded_passes (hok : HoldsOk f) (m : Move) :
    Passes s.next f (f.fromSuperseded o s now writable m) := by
  have hstays : Passes s.next f (f.waits f.point) := .waits hok (.inl rfl)
  cases m with
  | go =>
    simp only [Flow.fromSuperseded]
    split
    · rename_i hpoint _
      have hown := hok.own_none (by simp [hpoint]) (by simp [hpoint])
      have hclaim : f.claim = none := hok.claim (by rw [hpoint]; rfl)
      split
      · refine .takesOne rfl hclaim hown rfl rfl ?_ ⟨fun _ => .inr rfl, fun _ => hclaim⟩
        simp [Flow.holds, hclaim]
      · exact .waits hok (.inr ⟨hown, fun _ => hclaim⟩)
    · exact hstays
  | stopped =>
    simp only [Flow.fromSuperseded]
    split
    · rename_i hpoint _
      have hclaim : f.claim = none := hok.claim (by rw [hpoint]; rfl)
      split
      · exact .keeps rfl rfl rfl rfl rfl hok
      · exact .freesOwn rfl hclaim rfl rfl hclaim rfl
    · exact hstays
  | done =>
    simp only [Flow.fromSuperseded]
    split
    · rename_i hpoint _
      have hclaim : f.claim = none := hok.claim (by rw [hpoint]; rfl)
      exact .freesOwn rfl hclaim rfl rfl hclaim rfl
    · exact hstays
  | fail =>
    simp only [Flow.fromSuperseded]
    split
    · rename_i hpoint
      have hclaim : f.claim = none := hok.claim (by rw [hpoint]; rfl)
      exact .freesOwn rfl hclaim rfl rfl hclaim rfl
    · exact hstays
  | _ => exact hstays

/-- Every step of every flow that keeps its target passes its claims on. -/
theorem next_passes (o : RegistryOptions) (hok : HoldsOk f) (now : Int) (writable : Bool) (m : Move)
    (hactive : ∀ t, f.claim = some t → s.isActive t = true)
    (htarget : KeepsTarget s (.advance f m now writable)) :
    Passes s.next f (f.next o s now writable m) := by
  simp only [Flow.next]
  split
  · exact fromCreating_passes hok ‹_› m
  · rename_i hpoint
    refine fromPlanned_passes hok hpoint m hactive ?_
    rintro rfl
    exact htarget hpoint
  · exact fromWorking_passes hok ‹_› m
  · exact fromFailure_passes hok m
  · exact fromFailure_passes hok m
  · exact fromFailure_passes hok m
  · exact fromFailure_passes hok m
  · exact fromFailure_passes hok m
  · rename_i hpoint
    have hown := hok.own_none (by simp [hpoint]) (by simp [hpoint])
    split
    · refine .keeps rfl rfl rfl rfl rfl (.of_none hown ?_)
      rintro ⟨⟩
    · exact .waits hok (.inl rfl)
  · exact fromHandoff_passes hok ‹_› m
  · exact fromSuperseded_passes hok m
  · exact fromSuperseded_passes hok m
  · rename_i hpoint
    have hown := hok.own_none (by simp [hpoint]) (by simp [hpoint])
    split
    · refine .freesClaim hown rfl rfl ?_
      rintro f' ⟨⟩
    · exact .waits hok (.inl rfl)

end Flows

/-! ### The table of claims -/

/-- The claims that are not `others` are those of the flows. -/
structure ClaimsInv (others : List Nat) (s : Host) : Prop where
  flows : ∀ f ∈ s.flows, HoldsOk f
  held : (s.planClaims others).Perm (s.flows.flatMap Flow.holds)
  nodup : (s.claims.map Claim.token).Nodup
  fresh : ∀ t ∈ s.claims.map Claim.token, t < s.next
  others : ∀ t ∈ others, t < s.next

section Steps

variable {o : RegistryOptions} {strategy : CapacityStrategy} {s : Host} {others : List Nat}

theorem ClaimsInv.holds_nodup (h : ClaimsInv others s) : (s.flows.flatMap Flow.holds).Nodup :=
  h.held.nodup_iff.mp (h.nodup.filter _)

theorem ClaimsInv.isActive (h : ClaimsInv others s) {f : Flow} (hf : f ∈ s.flows) {t : Nat}
    (ht : f.claim = some t) : s.isActive t = true := by
  have hmem : t ∈ s.flows.flatMap Flow.holds :=
    List.mem_flatMap.mpr ⟨f, hf, List.mem_append_left _ (by simp [ht])⟩
  obtain ⟨hclaim, -⟩ := List.mem_filter.mp (h.held.mem_iff.mpr hmem)
  obtain ⟨c, hc, hct⟩ := List.mem_map.mp hclaim
  exact List.any_eq_true.mpr ⟨c, hc, by simpa using hct⟩

theorem ClaimsInv.next_not_others (h : ClaimsInv others s) : s.next ∉ others :=
  fun hmem => Nat.lt_irrefl _ (h.others _ hmem)

theorem ClaimsInv.next_not_claimed (h : ClaimsInv others s) : s.next ∉ s.claims.map Claim.token :=
  fun hmem => Nat.lt_irrefl _ (h.fresh _ hmem)

theorem flatMap_perm_cons_erase {flows : List Flow} {f : Flow} (hf : f ∈ flows) :
    (flows.flatMap Flow.holds).Perm (f.holds ++ (flows.erase f).flatMap Flow.holds) := by
  have hperm := (List.perm_cons_erase hf).flatMap_right Flow.holds
  rwa [List.flatMap_cons] at hperm

/-- A step of a flow gives back and takes in the table what the flow does. -/
theorem ClaimsInv.take (h : ClaimsInv others s) {f : Flow} (hf : f ∈ s.flows) {n : Next}
    (hpasses : Passes s.next f n) (now : Int) (writable : Bool) :
    ClaimsInv others (s.take o f n now writable) := by
  have hclaims : (s.take o f n now writable).claims.map Claim.token =
      (s.claims.map Claim.token).filter (fun t => t ∉ n.frees) ++
        (n.takes.map fun _ => s.next).toList := by
    simp only [Host.take, List.map_append, List.filter_map]
    congr 1
    cases n.takes <;> rfl
  have hnodup := h.holds_nodup
  have hperm := flatMap_perm_cons_erase hf
  -- what another flow holds is not given back
  have hrest : ((s.flows.erase f).flatMap Flow.holds).filter (fun t => t ∉ n.frees) =
      (s.flows.erase f).flatMap Flow.holds := by
    rw [List.filter_eq_self]
    intro t ht
    refine decide_eq_true fun hfreed => ?_
    have hdisjoint := (List.nodup_append.mp (hperm.nodup_iff.mp hnodup)).2.2
    exact hdisjoint t (hpasses.frees t hfreed) t ht rfl
  have hothers : ∀ t ∈ (n.takes.map fun _ => s.next).toList, t = s.next := by
    intro t ht
    obtain ⟨_, -, rfl⟩ := Option.map_eq_some_iff.mp (Option.mem_toList.mp ht)
    rfl
  refine ⟨?_, ?_, ?_, ?_, ?_⟩
  · intro g hg
    rcases List.mem_append.mp hg with hg | hg
    · exact hpasses.ok g (Option.mem_toList.mp hg)
    · exact h.flows g (List.mem_of_mem_erase hg)
  · have hplan : (s.take o f n now writable).planClaims others =
        (s.planClaims others).filter (fun t => t ∉ n.frees) ++
          (n.takes.map fun _ => s.next).toList := by
      rw [Host.planClaims, hclaims, List.filter_append, List.filter_filter, Host.planClaims,
        List.filter_filter]
      congr 1
      · refine List.filter_congr fun t _ => ?_
        rw [Bool.and_comm]
      · rw [List.filter_eq_self]
        intro t ht
        rw [hothers t ht]
        exact decide_eq_true h.next_not_others
    have hflows : ((s.take o f n now writable).flows.flatMap Flow.holds) =
        n.flow.toList.flatMap Flow.holds ++ (s.flows.erase f).flatMap Flow.holds :=
      List.flatMap_append
    rw [hplan, hflows, hpasses.holds]
    refine (((h.held.trans hperm).filter _).append_right _).trans ?_
    rw [List.filter_append, hrest, List.append_assoc, List.append_assoc]
    exact List.perm_append_comm.append_left _
  · rw [hclaims]
    refine List.nodup_append.mpr ⟨h.nodup.filter _, by cases n.takes <;> simp, ?_⟩
    rintro a ha b hb rfl
    rw [hothers _ hb] at ha
    exact h.next_not_claimed (List.mem_filter.mp ha).1
  · intro t ht
    rw [hclaims] at ht
    rcases List.mem_append.mp ht with ht | ht
    · exact Nat.lt_succ_of_lt (h.fresh t (List.mem_filter.mp ht).1)
    · rw [hothers t ht]
      exact Nat.lt_succ_self _
  · exact fun t ht => Nat.lt_succ_of_lt (h.others t ht)

/-- A plan claims a device for its flow. -/
theorem ClaimsInv.claimFor (h : ClaimsInv others s) {f : Flow} (hok : HoldsOk f)
    (hholds : f.holds = [s.next]) {s' : Host} {operation : DeviceOperation} {owner : Option String}
    {deviceId : String} (hclaims : s'.claims = s.claims ++ [⟨s.next, deviceId, operation, owner⟩])
    (hflows : s'.flows = f :: s.flows) (hnext : s'.next = s.next + 1) : ClaimsInv others s' := by
  have htokens : s'.claims.map Claim.token = s.claims.map Claim.token ++ [s.next] := by
    rw [hclaims, List.map_append]
    rfl
  refine ⟨?_, ?_, ?_, ?_, ?_⟩
  · intro g hg
    rw [hflows] at hg
    rcases List.mem_cons.mp hg with rfl | hg
    · exact hok
    · exact h.flows g hg
  · rw [Host.planClaims, htokens, List.filter_append, hflows, List.flatMap_cons, hholds]
    have hkept : [s.next].filter (fun t => t ∉ others) = [s.next] := by
      simp [h.next_not_others]
    rw [hkept]
    exact List.perm_append_comm.trans (h.held.append_left [s.next])
  · rw [htokens]
    refine List.nodup_append.mpr ⟨h.nodup, List.nodup_singleton _, ?_⟩
    rintro a ha b hb rfl
    rw [List.mem_singleton.mp hb] at ha
    exact h.next_not_claimed ha
  · intro t ht
    rw [htokens] at ht
    rw [hnext]
    rcases List.mem_append.mp ht with ht | ht
    · exact Nat.lt_succ_of_lt (h.fresh t ht)
    · rw [List.mem_singleton.mp ht]
      exact Nat.lt_succ_self _
  · intro t ht
    rw [hnext]
    exact Nat.lt_succ_of_lt (h.others t ht)

/-- A plan of a device in the registry holds the claim it took. -/
theorem flowOf_holds (job : Job) (owner : Option String) (d : Device) (reservation : Option Nat) :
    (flowOf job owner d reservation (some s.next)).holds = [s.next] ∧
      HoldsOk (flowOf job owner d reservation (some s.next)) := by
  refine ⟨rfl, .of_none rfl ?_⟩
  simp only [flowOf]
  split <;> rintro ⟨⟩

/-- What is no claim of another workflow leaves their claims. -/
theorem ClaimsInv.stepped (h : ClaimsInv others s) {s' : Host} {a : HostAction}
    (hstep : Stepped o strategy s a s') (hnone : s.othersClaim a = []) (htarget : KeepsTarget s a) :
    ClaimsInv others s' := by
  cases hstep with
  | idle => exact h
  | @provision spec owner paused capacity hok =>
    refine ⟨?_, h.held, h.nodup, fun t ht => Nat.lt_succ_of_lt (h.fresh t ht),
      fun t ht => Nat.lt_succ_of_lt (h.others t ht)⟩
    intro g hg
    rcases List.mem_cons.mp hg with rfl | hg
    · exact .of_none rfl fun _ => rfl
    · exact h.flows g hg
  | @boot deviceId owner paused v capacity hd hshutdown hfree hok =>
    obtain ⟨hholds, hflow⟩ := flowOf_holds (s := s) .boot owner (.virtual v) (some s.next)
    exact h.claimFor hflow hholds rfl rfl rfl
  | @claimed a deviceId operation claimOwner job owner d hd hfree hoperation hjob =>
    obtain ⟨hholds, hflow⟩ := flowOf_holds (s := s) job (some owner) d none
    exact h.claimFor hflow hholds rfl rfl rfl
  | @advanced f m now writable hf =>
    exact h.take hf (next_passes o (h.flows f hf) now writable m (fun _ ht => h.isActive hf ht) htarget)
      now writable
  | other hw => exact ⟨h.flows, h.held, h.nodup, h.fresh, h.others⟩
  | takes hplanned hfree =>
    rw [Host.othersClaim, hplanned, hfree] at hnone
    cases hnone
  | @gives token hown =>
    have hsub : ((s.claims.filter fun c => c.token ≠ token || c.operation.isPlanned).map
        Claim.token).Sublist (s.claims.map Claim.token) := List.filter_sublist.map _
    refine ⟨h.flows, ?_, hsub.nodup h.nodup, fun t ht => h.fresh t (hsub.subset ht), h.others⟩
    -- the token is not a flow's
    have hfree : token ∉ s.planClaims others := by
      intro hmem
      obtain ⟨f, hf, ht⟩ := List.mem_flatMap.mp (h.held.mem_iff.mp hmem)
      obtain ⟨hclaim, hown⟩ := hown f hf
      rcases List.mem_append.mp ht with ht | ht
      · exact hclaim (Option.mem_toList.mp ht)
      · exact hown (Option.mem_toList.mp ht)
    refine List.Perm.trans (List.Perm.of_eq ?_) h.held
    rw [Host.planClaims, Host.planClaims, List.filter_map, List.filter_map, List.filter_filter]
    congr 1
    refine List.filter_congr fun c hc => ?_
    by_cases hplan : c.token ∈ others
    · simp [hplan]
    · have hne : c.token ≠ token := by
        rintro rfl
        exact hfree (List.mem_filter.mpr ⟨List.mem_map_of_mem hc, decide_eq_true hplan⟩)
      simp [hne]

/-- A claim of another workflow. -/
theorem ClaimsInv.othersClaimed (h : ClaimsInv others s) (deviceId : String)
    (operation : DeviceOperation) :
    ClaimsInv (others ++ s.othersClaim (.claim deviceId operation))
      (s.step o strategy (.claim deviceId operation)) := by
  simp only [Host.othersClaim, Host.step]
  split
  · rw [List.append_nil]
    exact h
  · have htokens : (s.claims ++ [(⟨s.next, deviceId, operation, none⟩ : Claim)]).map Claim.token =
        s.claims.map Claim.token ++ [s.next] := by
      rw [List.map_append]
      rfl
    refine ⟨h.flows, ?_, ?_, ?_, ?_⟩
    · refine List.Perm.trans (List.Perm.of_eq ?_) h.held
      rw [Host.planClaims, Host.planClaims, htokens, List.filter_append]
      have hown : [s.next].filter (fun t => t ∉ others ++ [s.next]) = [] := by simp
      rw [hown, List.append_nil]
      refine List.filter_congr fun t ht => ?_
      have hne : t ≠ s.next := fun he => h.next_not_claimed (he ▸ ht)
      simp [hne]
    · rw [htokens]
      refine List.nodup_append.mpr ⟨h.nodup, List.nodup_singleton _, ?_⟩
      rintro a ha b hb rfl
      rw [List.mem_singleton.mp hb] at ha
      exact h.next_not_claimed ha
    · intro t ht
      rw [htokens] at ht
      rcases List.mem_append.mp ht with ht | ht
      · exact Nat.lt_succ_of_lt (h.fresh t ht)
      · rw [List.mem_singleton.mp ht]
        exact Nat.lt_succ_self _
    · intro t ht
      rcases List.mem_append.mp ht with ht | ht
      · exact Nat.lt_succ_of_lt (h.others t ht)
      · rw [List.mem_singleton.mp ht]
        exact Nat.lt_succ_self _

theorem ClaimsInv.step (h : ClaimsInv others s) (a : HostAction) (htarget : KeepsTarget s a) :
    ClaimsInv (others ++ s.othersClaim a) (s.step o strategy a) := by
  cases a with
  | claim deviceId operation => exact h.othersClaimed deviceId operation
  | _ =>
    simp only [Host.othersClaim, List.append_nil]
    exact h.stepped (step_stepped o strategy s _) rfl htarget

/-- Over a run, with the claims the others have taken so far. -/
theorem ClaimsInv.run (hstart : ClaimsInv others s) : ∀ (acts : List HostAction),
    AllSteps (Host.step o strategy) KeepsTarget s acts →
      ClaimsInv (others ++ othersClaims o strategy s acts) (run (Host.step o strategy) s acts) := by
  intro acts
  induction acts generalizing s others with
  | nil =>
    intro _
    rw [othersClaims, List.append_nil]
    exact hstart
  | cons a acts ih =>
    rintro ⟨htarget, hrest⟩
    rw [othersClaims, ← List.append_assoc, run_cons]
    exact ih (hstart.step a htarget) hrest

/-- The tokens of the coordinator are those of the flows. -/
theorem Ledger.tokens_perm (h : Ledger s) :
    (s.capacity.provisioningReservations.map Reserved.token ++
      s.capacity.runningReservations.map Reserved.token).Perm
        (s.flows.filterMap Flow.reservation) := by
  refine List.perm_iff_count.mpr fun t => ?_
  have hcount := entries_count h none fun u => u == t
  rw [List.count_append, List.count_eq_countP, List.count_eq_countP, List.count_eq_countP,
    List.countP_map, List.countP_map, List.countP_filterMap]
  simp only [covers, Option.all_none, Bool.true_and] at hcount
  refine hcount.trans (List.countP_congr fun f _ => ?_)
  cases hr : f.reservation <;> simp [Flow.reservesIn, covers, hr]

theorem ClaimsInv.conserved (h : ClaimsInv others s) (hledger : Ledger s) : Conserved others s := by
  have htokens := hledger.tokens_perm
  refine ⟨htokens, ?_, h.held, ⟨hledger.tokens, h.holds_nodup⟩, fun hidle => ⟨?_, ?_⟩⟩
  · intro r hr
    obtain ⟨f, hf, hentry⟩ := List.mem_filterMap.mp (hledger.boot.mem_iff.mp hr)
    exact List.mem_map.mpr ⟨f, hf, bootEntry_token f r hentry⟩
  · intro t ht
    obtain ⟨f, hf, hft⟩ := List.mem_filterMap.mp (htokens.mem_iff.mp ht)
    exact ⟨f, hf, hidle f hf, hft⟩
  · intro c hc
    by_cases hother : c.token ∈ others
    · exact .inl hother
    · have hplan : c.token ∈ s.planClaims others :=
        List.mem_filter.mpr ⟨List.mem_map_of_mem hc, decide_eq_true hother⟩
      obtain ⟨f, hf, ht⟩ := List.mem_flatMap.mp (h.held.mem_iff.mp hplan)
      exact .inr ⟨f, hf, hidle f hf, ht⟩

end Steps

/-- In every run whose boots find their device as the plan left it, each reservation and each claim of
    a plan is held by one operation in flight, from the section that takes it to the one that ends the
    operation. -/
theorem plan_resources_conserved (o : RegistryOptions) (strategy : CapacityStrategy) (r : Registry)
    (acts : List HostAction) (hrun : AllSteps (Host.step o strategy) KeepsTarget (Host.start r) acts) :
    Conserved (othersClaims o strategy (Host.start r) acts)
      (run (Host.step o strategy) (Host.start r) acts) := by
  have hstart : ClaimsInv [] (Host.start r) := by
    refine ⟨?_, List.Perm.nil, List.nodup_nil, ?_, ?_⟩
    · rintro f ⟨⟩
    · rintro t ⟨⟩
    · rintro t ⟨⟩
  have hledger : Ledger (run (Host.step o strategy) (Host.start r) acts) :=
    run_invariant (fun s a h => h.step (step_stepped o strategy s a)) acts _ (Ledger.start r)
  have hclaims := hstart.run acts hrun
  rw [List.nil_append] at hclaims
  exact hclaims.conserved hledger

/-! ### A claim that is lost -/

/-- The boot of a request that found a shut-down device. -/
def booting (claim : Option Nat) (point : Point) : Flow :=
  ⟨.boot, some "req_2", .ios, some ⟨"dev_1", "udid_1"⟩, some 6, claim, none, point⟩

/-- A device is made for a request that goes away, and stopped by hand; the next request plans to
    boot it. -/
def planToBoot : List HostAction :=
  [.planProvision iphoneSpec (some "req_1") false true,
    .advance creating (.register "dev_1" "udid_1" 0 iphoneData) 1 true,
    .advance (provisioned .planned) .go 1 true,
    .advance (provisioned .working) (.ready ⟨"udid_1", iphoneData, .full⟩) 2 true,
    .advance (provisioned .made) .go 2 true,
    .advance handedOff .go 3 true,
    .other (.fixStopped "dev_1") 4 true,
    .planBoot "dev_1" (some "req_2") false true]

/-- Doctor finds the device gone before the boot starts. -/
def missingAtBoot : List HostAction :=
  planToBoot ++
  [.other (.fixMissingDevice "dev_1") 5 true,
    .advance (booting (some 6) .planned) .go 5 true,
    .advance (booting none .failed) .go 5 true,
    .advance (booting none .leaving) .go 5 true]

theorem planToBoot_keepsTarget :
    AllSteps (Host.step shortRetention oneSlot) KeepsTarget (Host.start Registry.empty)
      planToBoot := by
  refine ⟨trivial, trivial, ?_, trivial, ?_, ?_, trivial, trivial, trivial⟩
  · intro _ _ _
    decide +kernel
  · rintro ⟨⟩
  · rintro ⟨⟩

theorem plan_resources_conserved_planToBoot :
    (run (Host.step shortRetention oneSlot) (Host.start Registry.empty) planToBoot).flows =
      [booting (some 6) .planned] ∧
    Conserved (othersClaims shortRetention oneSlot (Host.start Registry.empty) planToBoot)
      (run (Host.step shortRetention oneSlot) (Host.start Registry.empty) planToBoot) :=
  ⟨by decide +kernel,
    plan_resources_conserved shortRetention oneSlot Registry.empty planToBoot planToBoot_keepsTarget⟩

/-- The drive is over, and the claim on the device is still there. -/
theorem lost_boot_claim_remains :
    (run (Host.step shortRetention oneSlot) (Host.start Registry.empty) missingAtBoot).flows = [] ∧
    (run (Host.step shortRetention oneSlot) (Host.start Registry.empty) missingAtBoot).claims =
      [⟨6, "dev_1", .boot, some "req_2"⟩] ∧
    ¬ Conserved (othersClaims shortRetention oneSlot (Host.start Registry.empty) missingAtBoot)
      (run (Host.step shortRetention oneSlot) (Host.start Registry.empty) missingAtBoot) := by
  have hflows : (run (Host.step shortRetention oneSlot) (Host.start Registry.empty)
      missingAtBoot).flows = [] := by decide +kernel
  refine ⟨hflows, by decide +kernel, fun h => ?_⟩
  have hlength := h.claims.length_eq
  rw [hflows] at hlength
  revert hlength
  decide +kernel

end Simlock.Worker
