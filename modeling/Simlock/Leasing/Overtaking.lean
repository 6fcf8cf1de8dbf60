import Simlock.Leasing.Deadlines

/-! Who may be taken up before whom.

    A virtual request is taken up with no other at the head of its line, and a position is kept until
    its waiter is settled; so a request without a position ahead of another's gets none later, and
    no plan of its own while that other one waits. A physical request chooses a device that no older
    one in the queue fits, and its drive grants that device or none; but an older one that was taken
    up itself when the device was chosen is not asked, and may be back in the queue by the grant. -/

namespace Simlock.Leasing

open Simlock.Lib Simlock.Core

variable {γ : Type}

/-! ### Positions over a run -/

namespace QueueRun

open WaitQueue

theorem enqueued_prefix_step (s : QueueRun γ) (a : QueueAction γ) :
    s.enqueued <+: (s.step a).enqueued := by
  cases a with
  | enqueue id now =>
    simp only [step]
    split
    · exact List.prefix_append _ _
    · exact List.prefix_rfl
  | create id request options =>
    simp only [step]
    split <;> exact List.prefix_rfl
  | _ => exact List.prefix_rfl

theorem enqueued_prefix_run (calls : List (QueueAction γ)) :
    ∀ s : QueueRun γ, s.enqueued <+: (run step s calls).enqueued := by
  induction calls with
  | nil => exact fun _ => List.prefix_rfl
  | cons a calls ih => exact fun s => (enqueued_prefix_step s a).trans (ih (s.step a))

end QueueRun

namespace WaitQueue

variable {q q' : WaitQueue γ} {x y : String}

/-- A position is held until its waiter is settled, and nothing comes ahead of it. -/
theorem order_of_reaches {enqueued : List String} (h : QueueRun.Accounts ⟨q, enqueued⟩)
    (hr : Reaches q q') (hy : y ∈ q.waiters) :
    (q'.Open y → y ∈ q'.waiters) ∧ ([x, y].Sublist q'.waiters → [x, y].Sublist q.waiters) := by
  have hkeeps := keepsAll_of_reaches h hr
  obtain ⟨calls, rfl⟩ := hr enqueued
  have h' := run_invariant QueueRun.step_accounts calls _ h
  have hfront := QueueRun.enqueued_prefix_run calls ⟨q, enqueued⟩
  have hpositions : q.waiters = enqueued.filter fun i => q.Open i := h.positions
  have hyin : y ∈ enqueued := (List.mem_filter.mp (hpositions ▸ hy)).1
  refine ⟨fun hopen => ?_, fun hsub => ?_⟩
  · rw [h'.positions]
    exact List.mem_filter.mpr ⟨hfront.subset hyin, decide_eq_true hopen⟩
  · rw [h'.positions] at hsub
    have hold := pair_sublist_of_prefix hfront h'.enqueued_nodup hyin
      (hsub.trans List.filter_sublist)
    have hopen : ∀ i ∈ [x, y], q.Open i := by
      intro i hi
      have hin := List.mem_filter.mp (hsub.subset hi)
      obtain ⟨w, hw⟩ := Option.isSome_iff_exists.mp (h.enqueued_owned i (hold.subset hi))
      refine ⟨w, hw, Bool.eq_false_iff.mpr fun ht => ?_⟩
      obtain ⟨w', hw', hk⟩ := hkeeps i w hw
      obtain ⟨v, hv, hvt⟩ := of_decide_eq_true hin.2
      obtain rfl := Option.some.inj (hw'.symm.trans hv)
      rw [hk.settled ht, ht] at hvt
      cases hvt
    have hpair := hold.filter fun i => decide (q.Open i)
    rw [List.filter_eq_self.mpr fun i hi => decide_eq_true (hopen i hi)] at hpair
    exact hpositions ▸ hpair

end WaitQueue

/-- The device whose presence is read for the waiter. -/
def DrivePoint.readDevice : DrivePoint → Option String
  | .reading deviceId _ | .read deviceId _ _ => some deviceId
  | _ => none

/-- Its waiter's device is made, or waits to be granted. -/
def DrivePoint.works : DrivePoint → Bool
  | .working _ | .handoff _ => true
  | _ => false

/-- The line that a drive at this point belongs to. -/
def DrivePoint.line : DrivePoint → Option QueueLine
  | .choosing _ | .reading .. | .read .. => some .physical
  | .resolving | .unresolved _ | .awaiting _ | .granting _ | .ending | .over => none
  | _ => some .virtual

namespace Coordinator

open WaitQueue

variable {o : CoordinatorOptions} {s s' : Coordinator} {i : Nat} {id : String}

/-! ### The virtual line -/

/-- A decision takes the waiter up, for a device or for device work. -/
def Plans (s s' : Coordinator) (id : String) : Prop :=
  ∃ (i : Nat) (x y : DrivePoint), s.drives[i]? = some ⟨id, x⟩ ∧ s'.drives[i]? = some ⟨id, y⟩ ∧
    (x = .deciding ∨ x = .evicted) ∧ ((∃ work, y = .working work) ∨ ∃ grant, y = .granting grant)

theorem Next.plans {x y : DrivePoint} (h : Next s id x y) (hx : x = .deciding ∨ x = .evicted)
    (hy : (∃ work, y = .working work) ∨ ∃ grant, y = .granting grant) : NoneAhead s id := by
  cases h with
  | takes htaken =>
    cases htaken with
    | works work hhead => exact hhead
    | worksAgain work hhead => exact hhead
    | _ => rcases hx with hx | hx <;> cases hx
  | commits grant hgranting =>
    rcases hgranting with hgranting | rfl
    · cases hgranting with
      | ready hhead hoffers => exact hhead
      | readyAgain hhead hoffers => exact hhead
      | present absent hready => rcases hx with hx | hx <;> cases hx
    · rcases hx with hx | hx <;> cases hx
  | goes hgoes => rcases hx with rfl | rfl <;> cases hgoes
  | ends => rcases hy with ⟨work, hy⟩ | ⟨grant, hy⟩ <;> cases hy
  | closes => rcases hy with ⟨work, hy⟩ | ⟨grant, hy⟩ <;> cases hy
  | _ => rcases hx with hx | hx <;> cases hx

/-- A request is planned with no other virtual one at the head of the line. -/
theorem step_plans (h : Known s) {a : Action} (hplans : Plans s (s.step o a) id) : NoneAhead s id := by
  obtain ⟨i, x, y, hd, hd', hx, hy⟩ := hplans
  rcases step_point h.drives hd hd' with hsame | ⟨-, hstep⟩
  · obtain ⟨-, rfl⟩ := Drive.mk.inj hsame
    rcases hx with rfl | rfl <;> rcases hy with ⟨work, hy⟩ | ⟨grant, hy⟩ <;> cases hy
  · exact (hstep.next hd hd').plans hx hy

theorem waiters_of_open {q : WaitQueue LeaseGrant} {enqueued : List String}
    (h : QueueRun.Accounts ⟨q, enqueued⟩) (hid : id ∈ q.waiters) : q.Open id := by
  have hin := List.mem_filter.mp (h.positions ▸ hid)
  exact of_decide_eq_true hin.2

/-- While a waiter holds its position, none comes ahead of it. -/
theorem run_order {x y : String} (h : Known s) (hy : y ∈ s.queue.waiters) (acts : List Action) :
    let s' := run (step o) s acts
    y ∈ s'.queue.waiters → [x, y].Sublist s'.queue.waiters → [x, y].Sublist s.queue.waiters := by
  intro s'
  have hminted : y ∈ s.minted := by
    obtain ⟨enqueued, haccounts⟩ := h.accounts
    obtain ⟨w, hw, -⟩ := waiters_of_open haccounts hy
    exact h.minted y (by simp [stateOf, hw])
  have hinv : Known s' ∧ y ∈ s'.minted ∧ (¬ s'.queue.Open y ∨ y ∈ s'.queue.waiters ∧
      ([x, y].Sublist s'.queue.waiters → [x, y].Sublist s.queue.waiters)) := by
    refine run_invariant (I := fun s' : Coordinator => Known s' ∧ y ∈ s'.minted ∧
      (¬ s'.queue.Open y ∨ y ∈ s'.queue.waiters ∧
        ([x, y].Sublist s'.queue.waiters → [x, y].Sublist s.queue.waiters))) ?_ acts s
      ⟨h, hminted, .inr ⟨hy, fun hsub => hsub⟩⟩
    rintro s₁ a ⟨hknown, hin, hcase⟩
    have hfollows := hknown.step_follows (o := o) a
    refine ⟨hknown.step a, hfollows.minted y hin, ?_⟩
    rcases hcase with hclosed | ⟨hwaits, hsub⟩
    · refine .inl ?_
      rintro ⟨w', hw', ht⟩
      obtain ⟨w, hw, hk⟩ := hfollows.keeps y w' hw' hin
      by_cases hterminal : w.state.isTerminal = true
      · rw [hk.settled hterminal, hterminal] at ht
        cases ht
      · exact hclosed ⟨w, hw, Bool.eq_false_iff.mpr hterminal⟩
    · rcases hknown.step_reaches (o := o) a with hreaches | hempty
      · obtain ⟨enqueued, haccounts⟩ := hknown.accounts
        have horder := order_of_reaches (x := x) haccounts hreaches hwaits
        by_cases hopen : (s₁.step o a).queue.Open y
        · exact .inr ⟨horder.1 hopen, fun h => hsub (horder.2 h)⟩
        · exact .inl hopen
      · refine .inl ?_
        rw [hempty]
        rintro ⟨w, hw, -⟩
        cases hw
  intro hwaits
  rcases hinv with ⟨hknown, -, hclosed | ⟨-, hsub⟩⟩
  · obtain ⟨enqueued, haccounts⟩ := hknown.accounts
    exact absurd (waiters_of_open haccounts hwaits) hclosed
  · exact hsub

/-- With a member of the line that is not the request's own, the head precedes that member. -/
theorem ahead_of_noneAhead {q : WaitQueue LeaseGrant} {x y : String} (hy : y ∈ q.line .virtual) (hxy : x ≠ y)
    (hhead : ∀ other, q.head = some other → other = x) : [x, y].Sublist q.waiters := by
  have hline : (q.line .virtual).Sublist q.waiters := List.filter_sublist
  refine List.Sublist.trans ?_ hline
  cases heq : q.line .virtual with
  | nil =>
    rw [heq] at hy
    cases hy
  | cons first rest =>
    obtain rfl := hhead first (by rw [head, heq]; rfl)
    rw [heq] at hy
    rcases List.mem_cons.mp hy with rfl | hin
    · exact absurd rfl hxy
    · exact (List.singleton_sublist.mpr hin).cons_cons _

/-! ### Drives and lines -/

/-- A drive runs the course of its waiter's line. -/
def LinesOk (s : Coordinator) : Prop :=
  ∀ (i : Nat) (d : Drive) (l : QueueLine), s.drives[i]? = some d → d.point.line = some l →
    (s.isPhysical d.waiter = true ↔ l = .physical)

theorem isPhysical_of_follows (h : Follows s s') (hid : id ∈ s.minted)
    (hne : s'.queue.stateOf id ≠ none) : s'.isPhysical id = s.isPhysical id := by
  obtain ⟨w', hw'⟩ := owned_of_ne_none hne
  obtain ⟨w, hw, hk⟩ := h.keeps id w' hw' hid
  simp only [isPhysical, hw, hw', Option.any_some, hk.request]

theorem first_line {l : QueueLine}
    (h : (if s.isPhysical id then DrivePoint.choosing [] else .deciding).line = some l) :
    s.isPhysical id = true ↔ l = .physical := by
  split at h
  · rename_i hphysical
    obtain rfl := Option.some.inj h
    simpa using hphysical
  · rename_i hvirtual
    obtain rfl := Option.some.inj h
    simpa using hvirtual

theorem goes_line {x y : DrivePoint} {l : QueueLine} (h : Goes x y) (hy : y.line = some l) :
    x.line = some l := by
  cases h <;> first | exact hy | cases hy

theorem taken_line {x y : DrivePoint} {l : QueueLine} (h : Taken s id x y) (hy : y.line = some l) :
    x.line = some l := by
  cases h <;> exact hy

/-- A drive stays on its line. -/
theorem Next.line {x y : DrivePoint} {l : QueueLine} (h : Next s id x y) (hy : y.line = some l)
    (hx : x.line = some l → (s.isPhysical id = true ↔ l = .physical)) :
    s.isPhysical id = true ↔ l = .physical := by
  cases h with
  | goes hgoes => exact hx (goes_line hgoes hy)
  | begins => exact first_line hy
  | takes htaken => exact hx (taken_line htaken hy)
  | marks message => exact hx hy
  | _ => cases hy

/-- A drive that a step adds is at its start. -/
theorem step_adds (h : DrivesKnown s) {a : Action} {d : Drive} (hnone : s.drives[i]? = none)
    (hd : (s.step o a).drives[i]? = some d) :
    d.point = .resolving ∨ s.queue.stateOf d.waiter ≠ none ∧
      d.point = if s.isPhysical d.waiter then .choosing [] else .deciding := by
  rcases step_cases h a with ⟨j, -, hstep⟩ | ⟨-, hstep⟩
  · rcases hstep with heq | ⟨id, x, hdj, hstep⟩
    · rw [heq, hnone] at hd
      cases hd
    · have hji : i ≠ j := by
        rintro rfl
        rw [hnone] at hdj
        cases hdj
      rcases hstep.sets hdj with ⟨y, -, hset⟩ | ⟨rfl, heq⟩
      · rw [hset, if_neg hji, hnone] at hd
        cases hd
      · rw [heq, retry_eq hdj] at hd
        have hd'' := (getElem?_append_one _ _ _).symm.trans hd
        split at hd''
        · obtain rfl := Option.some.inj hd''
          exact .inr ⟨h j id _ hdj, rfl⟩
        · rw [setPoint_drives hdj, if_neg hji, hnone] at hd''
          cases hd''
  · generalize s.step o a = s' at hd hstep
    cases hstep with
    | admits hholder hnew hlimit hreturns =>
      have hd'' := (getElem?_append_one _ _ _).symm.trans hd
      split at hd''
      · obtain rfl := Option.some.inj hd''
        exact .inl rfl
      · rw [hnone] at hd''
        cases hd''
    | wakes hholder =>
      rcases wake_drives hd with hold | ⟨id, hwoken, rfl⟩
      · rw [hnone] at hold
        cases hold
      · exact .inr ⟨woken_known hwoken, rfl⟩
    | restarts => cases hd
    | _ =>
      have hcontra : none = some d := hnone.symm.trans hd
      cases hcontra

theorem linesOk_step (hknown : Known s) (h : LinesOk s) (a : Action) : LinesOk (s.step o a) := by
  rintro i ⟨id, y⟩ l hd hl
  have hsame : id ∈ s.minted → (s.step o a).isPhysical id = s.isPhysical id := fun hid =>
    isPhysical_of_follows (hknown.step_follows a) hid ((hknown.step a).drives i id y hd)
  cases hold : s.drives[i]? with
  | some d =>
    obtain ⟨jd, x⟩ := d
    have hminted := hknown.minted jd (hknown.drives i jd x hold)
    rcases step_point hknown.drives hold hd with heq | ⟨hid, hstep⟩
    · obtain ⟨rfl, rfl⟩ := Drive.mk.inj heq
      rw [hsame hminted]
      exact h i _ l hold hl
    · obtain rfl : id = jd := hid
      rw [hsame hminted]
      exact (hstep.next hold hd).line hl fun hx => h i _ l hold hx
  | none =>
    rcases step_adds hknown.drives hold hd with hresolving | ⟨hne, hfirst⟩
    · rw [show y = .resolving from hresolving] at hl
      cases hl
    · rw [hsame (hknown.minted id hne)]
      rw [show y = _ from hfirst] at hl
      exact first_line hl

theorem linesOk_run (o : CoordinatorOptions) (now : Int) (acts : List Action) :
    Known (run (step o) (create now) acts) ∧ LinesOk (run (step o) (create now) acts) :=
  run_invariant (I := fun s => Known s ∧ LinesOk s)
    (fun _ a h => ⟨h.1.step a, linesOk_step h.1 h.2 a⟩) acts _
    ⟨known_create now, fun i d l hd => (by cases hd)⟩

/-! ### Choices of physical devices -/

/-- The drive `i` of the waiter is at a point of these. -/
def DrivesAt (s : Coordinator) (i : Nat) (id : String) (P : DrivePoint → Prop) : Prop :=
  ∃ x : DrivePoint, s.drives[i]? = some ⟨id, x⟩ ∧ P x

/-- The drive reads the presence of this device for the waiter, or has read it. -/
def Reads (s : Coordinator) (i : Nat) (id deviceId : String) : Prop :=
  DrivesAt s i id fun x => x.readDevice = some deviceId

/-- The drive works on a device for the waiter, or has one to grant. -/
def Works (s : Coordinator) (i : Nat) (id : String) : Prop :=
  DrivesAt s i id fun x => x.works = true

/-- The device is ready and fits the request, and no older physical request in the queue. -/
def Choosable (s : Coordinator) (id deviceId : String) : Prop :=
  ∃ (w : Waiter LeaseGrant) (d : PhysicalDevice), s.queue.owned id = some w ∧
    Device.physical d ∈ s.store.registry.devices ∧ d.id = deviceId ∧ d.state = .ready ∧
    fitsPhysical d w.request = true ∧
    ∀ older ∈ s.queue.pendingWaiters.takeWhile fun other => other ≠ id, ∀ w',
      s.queue.owned older = some w' → lineOf w'.request = .physical → w'.state = .queued →
        fitsPhysical d w'.request = false

theorem choosable_of_planPhysical {w : Waiter LeaseGrant} {d : PhysicalDevice}
    {absent claimed : List String} (hw : s.queue.owned id = some w)
    (hplan : s.planPhysical id w absent claimed = some d) : Choosable s id d.id := by
  obtain ⟨device, hin, hsome⟩ := List.exists_of_findSome?_eq_some hplan
  cases device with
  | virtual v => cases hsome
  | physical p =>
    dsimp only at hsome
    split at hsome
    · rename_i hfree
      obtain rfl := Option.some.inj hsome
      obtain ⟨hready, -, hfits, hheld, -⟩ := hfree
      refine ⟨w, p, hw, hin, rfl, hready, hfits, fun older hold w' hw' hline hqueued => ?_⟩
      refine Bool.eq_false_iff.mpr fun hfit => ?_
      refine Bool.eq_false_iff.mp hheld (List.any_eq_true.mpr ⟨older, hold, ?_⟩)
      rw [hw', Option.any_some, hline, hqueued, hfit]
      rfl
    · cases hsome

theorem Next.reads {x y : DrivePoint} {deviceId : String} (h : Next s id x y)
    (hy : y.readDevice = some deviceId) :
    x.readDevice = some deviceId ∨ Choosable s id deviceId := by
  cases h with
  | goes hgoes =>
    cases hgoes with
    | read => exact .inl hy
    | _ => cases hy
  | takes htaken =>
    cases htaken with
    | chooses claimed hw hplan =>
      obtain rfl := Option.some.inj hy
      exact .inr (choosable_of_planPhysical hw hplan)
    | _ => cases hy
  | begins => split at hy <;> cases hy
  | _ => cases hy

theorem Next.works {x y : DrivePoint} (h : Next s id x y) (hy : y.works = true) :
    x.works = true ∨ NoneAhead s id := by
  cases h with
  | goes hgoes =>
    cases hgoes with
    | made => exact .inl rfl
    | _ => cases hy
  | takes htaken =>
    cases htaken with
    | works work hhead => exact .inr hhead
    | worksAgain work hhead => exact .inr hhead
    | _ => cases hy
  | begins => split at hy <;> cases hy
  | _ => cases hy

section Since

variable {P : DrivePoint → Prop} {Q : Coordinator → Prop}

/-- A drive is at a point of these since the step that found `Q`, or was there before. -/
theorem step_since (hnext : ∀ s x y, Next s id x y → P y → P x ∨ Q s) (hresolving : ¬ P .resolving)
    (hdeciding : ¬ P .deciding) (hchoosing : ¬ P (.choosing [])) (h : Known s) {a : Action}
    (hat : DrivesAt (s.step o a) i id P) : DrivesAt s i id P ∨ Q s := by
  obtain ⟨y, hd, hy⟩ := hat
  cases hold : s.drives[i]? with
  | some d =>
    obtain ⟨jd, x⟩ := d
    rcases step_point h.drives hold hd with heq | ⟨hid, hstep⟩
    · obtain ⟨rfl, rfl⟩ := Drive.mk.inj heq
      exact .inl ⟨y, hold, hy⟩
    · obtain rfl : id = jd := hid
      exact (hnext s x y (hstep.next hold hd) hy).imp_left fun hx => ⟨x, hold, hx⟩
  | none =>
    rcases step_adds h.drives hold hd with hfirst | ⟨-, hfirst⟩
    · exact absurd (show P .resolving from hfirst ▸ hy) hresolving
    · have hy' : P (if s.isPhysical id then .choosing [] else .deciding) := hfirst ▸ hy
      split at hy'
      · exact absurd hy' hchoosing
      · exact absurd hy' hdeciding

/-- In a run a drive is at a point of these since a step that found `Q`. -/
theorem run_since (hnext : ∀ s x y, Next s id x y → P y → P x ∨ Q s) (hresolving : ¬ P .resolving)
    (hdeciding : ¬ P .deciding) (hchoosing : ¬ P (.choosing [])) (o : CoordinatorOptions) (now : Int)
    (acts : List Action) : DrivesAt (run (step o) (create now) acts) i id P →
      ∃ before a after, acts = before ++ a :: after ∧ Q (run (step o) (create now) before) ∧
        ∀ upTo, upTo <+: after →
          DrivesAt (run (step o) (create now) (before ++ a :: upTo)) i id P := by
  induction acts using List.reverseRecOn with
  | nil =>
    rintro ⟨x, hd, -⟩
    cases hd
  | append_singleton acts a ih =>
    intro hat
    have hknown := known_run o now acts
    have hstep : run (step o) (create now) (acts ++ [a]) =
        (run (step o) (create now) acts).step o a := by rw [run_append]; rfl
    rcases step_since hnext hresolving hdeciding hchoosing hknown (hstep ▸ hat) with hold | hfound
    · obtain ⟨before, c, after, rfl, hfound, hsince⟩ := ih hold
      refine ⟨before, c, after ++ [a], by simp, hfound, fun upTo hupTo => ?_⟩
      rcases List.prefix_concat_iff.mp hupTo with rfl | hfront
      · simpa using hat
      · exact hsince upTo hfront
    · refine ⟨acts, a, [], rfl, hfound, fun upTo hupTo => ?_⟩
      rw [List.prefix_nil.mp hupTo]
      exact hat

end Since

/-! ### Grants -/

/-- A lease is committed by a drive that found its device ready, read it, or made it. -/
theorem step_grants (h : Known s) {a : Action} {g : Granted}
    (hgrants : (s.step o a).grants = s.grants ++ [g]) :
    ∃ (i : Nat) (x : DrivePoint), s.drives[i]? = some ⟨g.request, x⟩ ∧
      (Granting s g.request g.grant.lease.deviceId x ∨ x = .handoff g.grant.lease.deviceId) := by
  have hnone : ∀ {s₁ : Coordinator}, s₁.grants = s.grants → s₁.grants ≠ s.grants ++ [g] :=
    fun hsame hadds => by simpa using hsame.symm.trans hadds
  rcases step_cases h.drives a with ⟨i, -, hd⟩ | ⟨-, hd⟩
  · rcases hd with heq | ⟨id, x, hd, hstep⟩
    · exact absurd hgrants (hnone (congrArg _ heq))
    · generalize s.step o a = s' at hgrants hstep
      cases hstep with
      | commits g' now writable hholder hq hw hreturns hdevice =>
        obtain rfl := List.singleton_inj.mp (List.append_cancel_left hgrants)
        exact ⟨i, x, hd, hq.imp (fun h => h.2) fun h => h.1⟩
      | retries =>
        rw [retry_eq hd] at hgrants
        exact absurd hgrants (hnone rfl)
      | resolves =>
        simp only [resolve, hd] at hgrants
        exact absurd hgrants (hnone rfl)
      | finishes =>
        simp only [finish, hd] at hgrants
        exact absurd hgrants (hnone rfl)
      | _ => exact absurd hgrants (hnone rfl)
  · generalize s.step o a = s' at hgrants hd
    cases hd with
    | wakes hholder =>
      obtain ⟨driving, drives, heq, -⟩ := wake_eq s
      rw [heq] at hgrants
      exact absurd hgrants (hnone rfl)
    | _ => exact absurd hgrants (hnone rfl)

/-! ### No overtaking -/

/-- In every run a request is planned with no other virtual one at the head of the line, and not
    while one waits there that it has no position ahead of; a lease of a virtual request goes to a
    plan of that kind. A physical request is granted a device that it reads since it chose it,
    when no older physical request in the queue fitted the device. -/
theorem none_overtakes (o : CoordinatorOptions) (now : Int) (acts later : List Action) :
    let s := run (step o) (create now) acts
    let s' := run (step o) s later
    (∀ a id, Plans s (s.step o a) id → NoneAhead s id) ∧
    (∀ x y, x ≠ y → y ∈ s.queue.waiters → ¬ [x, y].Sublist s.queue.waiters →
      y ∈ s'.queue.line .virtual → ∀ a, ¬ Plans s' (s'.step o a) x) ∧
    (∀ a g, (s.step o a).grants = s.grants ++ [g] → s.isPhysical g.request = false →
      NoneAhead s g.request ∨ ∃ i before c after, acts = before ++ c :: after ∧
        NoneAhead (run (step o) (create now) before) g.request ∧ ∀ upTo, upTo <+: after →
          Works (run (step o) (create now) (before ++ c :: upTo)) i g.request) ∧
    (∀ a g, (s.step o a).grants = s.grants ++ [g] → s.isPhysical g.request = true →
      ∃ i before c after, acts = before ++ c :: after ∧
        Choosable (run (step o) (create now) before) g.request g.grant.lease.deviceId ∧
        ∀ upTo, upTo <+: after → Reads (run (step o) (create now) (before ++ c :: upTo)) i g.request
          g.grant.lease.deviceId) := by
  intro s s'
  obtain ⟨hknown, hlines⟩ := linesOk_run o now acts
  have hknown' : Known s' := run_invariant (fun _ a h => h.step a) later s hknown
  refine ⟨fun a id => step_plans hknown, fun x y hxy hy hnot hline a hplans => ?_,
    fun a g hgrants hvirtual => ?_, fun a g hgrants hphysical => ?_⟩
  · have hahead := ahead_of_noneAhead hline hxy (step_plans hknown' hplans)
    have hwaits : y ∈ s'.queue.waiters := (List.mem_filter.mp hline).1
    exact hnot (run_order hknown hy later hwaits hahead)
  · obtain ⟨i, x, hd, hgranting | rfl⟩ := step_grants hknown hgrants
    · cases hgranting with
      | ready hhead hoffers => exact .inl hhead
      | readyAgain hhead hoffers => exact .inl hhead
      | present absent hready =>
        have hline := (hlines i _ .physical hd rfl).mpr rfl
        rw [show s.isPhysical g.request = true from hline] at hvirtual
        cases hvirtual
    · obtain ⟨before, c, after, hacts, hfound, hsince⟩ :=
        run_since (Q := fun s => NoneAhead s g.request) (fun s x y => Next.works) nofun nofun nofun o
          now acts ⟨_, hd, rfl⟩
      exact .inr ⟨i, before, c, after, hacts, hfound, hsince⟩
  · obtain ⟨i, x, hd, hgranting | rfl⟩ := step_grants hknown hgrants
    · cases hgranting with
      | ready hhead hoffers => cases (hlines i _ .virtual hd rfl).mp hphysical
      | readyAgain hhead hoffers => cases (hlines i _ .virtual hd rfl).mp hphysical
      | present absent hready =>
        obtain ⟨before, c, after, hacts, hfound, hsince⟩ :=
          run_since (Q := fun s => Choosable s g.request g.grant.lease.deviceId)
            (fun s x y => Next.reads) nofun nofun nofun o now acts ⟨_, hd, rfl⟩
        exact ⟨i, before, c, after, hacts, hfound, hsince⟩
    · cases (hlines i _ .virtual hd rfl).mp hphysical

/-! ### A phone that an older request would have fitted -/

def anyPhone : DeviceRequest := ⟨.ios, none, none, none, none, none, none, none, some true⟩

def enrolledPhone (driverDeviceId : String) : Registry.PhysicalEnrollmentInput :=
  ⟨.ios, driverDeviceId, "iPhone 16", "18.4", .phone, []⟩

def leaseOf (leaseId deviceId : String) : RequestHost.GrantInput :=
  ⟨leaseId, deviceId, 60, none, Entries.ofPairs [], ⟨0, 0, 0, 0⟩⟩

/-- Two phones; the older request reads the first one, the younger the second. The first phone is
    absent and the second claimed, so the older request is queued before the younger one's grant. -/
def readsTwoPhones : List Action :=
  [.serve 0 true, .other (.enrollPhysical "dev_1" (enrolledPhone "udid_1")) 0 true,
    .other (.enrollPhysical "dev_2" (enrolledPhone "udid_2")) 0 true,
    .request anyPhone briefly "req_1" false 1 true, .resolved 0 none, .choose 0 [] 1,
    .request anyPhone { briefly with requesterId := "other" } "req_2" false 2 true, .resolved 1 none,
    .choose 1 ["dev_1"] 2, .presence 0 false, .grantPhysical 0 true (leaseOf "lease_1" "dev_1") 3 true,
    .choose 0 ["dev_2"] 3, .presence 1 true]

/-- The younger request is granted a phone that the older one, then queued, would fit. -/
theorem younger_granted_over_older :
    let s := run (step shortOptions) (create 0) readsTwoPhones
    let s' := s.step shortOptions (.grantPhysical 1 true (leaseOf "lease_2" "dev_2") 4 true)
    s.queue.pendingWaiters = ["req_1", "req_2"] ∧ s.isWaiting "req_1" = true ∧
      (s.store.registry.devices.all fun
        | .physical d => fitsPhysical d anyPhone
        | .virtual _ => false) = true ∧
      s'.grants.map (fun g => (g.request, g.grant.lease.deviceId)) = [("req_2", "dev_2")] := by
  decide +kernel

end Coordinator

end Simlock.Leasing
