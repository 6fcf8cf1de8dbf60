import Simlock.Lib.Indexed
import Simlock.Worker.ComponentInstaller

/-! The queues of the installer, and whose turn it is.

    An install is in its platform's queue until its run is over. Only the head of a queue runs, and
    none does while a removal has the turn; a head whose platform has no removal was started
    (`QueuesOk`). Between the end of a run, or of a removal, and the start of the next head this holds
    of the other platforms only, which is what the exception is for. -/

namespace Simlock.Worker

open Simlock.Lib Simlock.Core

/-- The run of an install is started, and not over. -/
def RunPoint.isRun (point : RunPoint) : Bool := point ≠ .unstarted && point ≠ .over

theorem RunPoint.isRun_iff {point : RunPoint} :
    point.isRun = true ↔ point ≠ .unstarted ∧ point ≠ .over := by simp [isRun]

namespace ComponentInstaller

variable {o : RegistryOptions} {p : InstallerOptions} {s s' s'' : ComponentInstaller}
  {e : Option Platform}

/-- An install as the queues see it. -/
def statusOf (s : ComponentInstaller) (n : Nat) : Option (Platform × InstallState × RunPoint) :=
  s.installs[n]?.map fun i => (i.platform, i.state, i.point)

/-- The queues and the turns, but for the head of the platform `e`. -/
structure QueuesOk (e : Option Platform) (s : ComponentInstaller) : Prop where
  nodup : ∀ platform, (s.queues platform).Nodup
  mem : ∀ platform n, n ∈ s.queues platform ↔
    ∃ state point, s.statusOf n = some (platform, state, point) ∧ point ≠ .over
  unstarted : ∀ n platform state point, s.statusOf n = some (platform, state, point) →
    (state = .waiting ↔ point = .unstarted)
  done : ∀ n platform state, s.statusOf n = some (platform, state, .over) → state = .ended
  head : ∀ n platform state point, s.statusOf n = some (platform, state, point) →
    point.isRun = true → (s.queues platform).head? = some n ∧ s.turns platform = none
  starts : ∀ platform n, e ≠ some platform → (s.queues platform).head? = some n →
    s.turns platform = none → ∃ state point, s.statusOf n = some (platform, state, point) ∧
      point ≠ .unstarted

/-! ### What touches no queue -/

structure SameQueues (s s' : ComponentInstaller) : Prop where
  statusOf : ∀ n, s'.statusOf n = s.statusOf n
  queues : s'.queues = s.queues
  turns : s'.turns = s.turns

theorem SameQueues.refl (s : ComponentInstaller) : SameQueues s s := ⟨fun _ => rfl, rfl, rfl⟩

theorem SameQueues.trans (h : SameQueues s s') (h' : SameQueues s' s'') : SameQueues s s'' :=
  ⟨fun n => (h'.statusOf n).trans (h.statusOf n), h'.queues.trans h.queues, h'.turns.trans h.turns⟩

theorem SameQueues.of_same (hi : s'.installs = s.installs) (hq : s'.queues = s.queues)
    (ht : s'.turns = s.turns) : SameQueues s s' :=
  ⟨fun n => by rw [ComponentInstaller.statusOf, hi]; rfl, hq, ht⟩

theorem QueuesOk.same (h : QueuesOk e s) (x : SameQueues s s') : QueuesOk e s' := by
  refine ⟨x.queues ▸ h.nodup, fun platform n => ?_, fun n platform state point hn => ?_,
    fun n platform state hn => ?_, fun n platform state point hn hrun => ?_,
    fun platform n he hn ht => ?_⟩
  · rw [x.queues, x.statusOf]
    exact h.mem platform n
  · rw [x.statusOf] at hn
    exact h.unstarted n platform state point hn
  · rw [x.statusOf] at hn
    exact h.done n platform state hn
  · rw [x.statusOf] at hn
    rw [x.queues, x.turns]
    exact h.head n platform state point hn hrun
  · rw [x.queues] at hn
    rw [x.turns] at ht
    rw [x.statusOf]
    exact h.starts platform n he hn ht

theorem QueuesOk.except (h : QueuesOk none s) (e : Option Platform) : QueuesOk e s :=
  ⟨h.nodup, h.mem, h.unstarted, h.done, h.head,
    fun platform n _ hn ht => h.starts platform n nofun hn ht⟩

theorem sameQueues_settle (n c : Nat) (result : InstallEnd) (settledBy : SettledBy) :
    SameQueues s (s.settle n c result settledBy) := by
  unfold settle
  split
  · rename_i i hi
    split
    · exact ⟨map_getElem?_set_same _ hi rfl, rfl, rfl⟩
    · exact .refl s
  · exact .refl s

theorem sameQueues_settleAll (n : Nat) (result : InstallEnd) (settledBy : SettledBy) :
    SameQueues s (s.settleAll n result settledBy) := by
  have hfold : ∀ (calls : List Nat) (s : ComponentInstaller),
      SameQueues s (calls.foldl (fun s c => s.settle n c result settledBy) s) := by
    intro calls
    induction calls with
    | nil => exact fun s => .refl s
    | cons c calls ih => exact fun s => (sameQueues_settle n c result settledBy).trans (ih _)
  unfold settleAll
  split
  · exact hfold _ s
  · exact .refl s

theorem sameQueues_close : SameQueues s s.close := by
  have hfold : ∀ (ns : List Nat) (s : ComponentInstaller),
      SameQueues s (ns.foldl (fun s n => s.settleAll n .closed .close) s) := by
    intro ns
    induction ns with
    | nil => exact fun s => .refl s
    | cons n ns ih => exact fun s => (sameQueues_settleAll n _ _).trans (ih _)
  have hclosed : SameQueues s { s with closed := true } := .of_same rfl rfl rfl
  exact hclosed.trans (hfold _ _)

theorem sameQueues_admitRequest (request : InstallRequest) (now : Int) (n : Nat) :
    SameQueues s (s.admitRequest p request now n) := by
  refine ⟨fun m => ?_, rfl, rfl⟩
  simp only [statusOf, admitRequest, List.getElem?_modify]
  cases s.installs[m]? with
  | none => rfl
  | some i =>
    simp only [Option.map_some, Option.map_eq_map]
    split <;> rfl

/-! ### A run moves on -/

/-- An install of the queue moves from one point of its run to another. -/
theorem QueuesOk.moves (h : QueuesOk e s) {n : Nat} {platform : Platform}
    {state state' : InstallState} {point point' : RunPoint}
    (hn : s.statusOf n = some (platform, state, point))
    (hhead : (s.queues platform).head? = some n ∧ s.turns platform = none)
    (hover : point ≠ .over) (hrun : point'.isRun = true) (hstate : state' ≠ .waiting)
    (hstatus : ∀ m, s'.statusOf m =
      if m = n then some (platform, state', point') else s.statusOf m)
    (hq : s'.queues = s.queues) (ht : s'.turns = s.turns) : QueuesOk e s' := by
  have hpoint := RunPoint.isRun_iff.mp hrun
  have hold : ∀ {m q x y}, s'.statusOf m = some (q, x, y) →
      m = n ∧ q = platform ∧ x = state' ∧ y = point' ∨ m ≠ n ∧ s.statusOf m = some (q, x, y) := by
    intro m q x y hm
    rw [hstatus] at hm
    split at hm
    · simp only [Option.some.injEq, Prod.mk.injEq] at hm
      exact .inl ⟨by assumption, hm.1.symm, hm.2.1.symm, hm.2.2.symm⟩
    · exact .inr ⟨by assumption, hm⟩
  refine ⟨hq ▸ h.nodup, fun q m => ?_, fun m q x y hm => ?_, fun m q x hm => ?_,
    fun m q x y hm hy => ?_, fun q m he hm hturn => ?_⟩
  · rw [hq, hstatus, h.mem q m]
    by_cases hmn : m = n
    · subst hmn
      simp [hn, hover, hpoint.2]
    · simp [hmn]
  · rcases hold hm with ⟨-, -, rfl, rfl⟩ | ⟨-, hm⟩
    · simp [hstate, hpoint.1]
    · exact h.unstarted m q x y hm
  · rcases hold hm with ⟨-, -, -, hy⟩ | ⟨-, hm⟩
    · exact absurd hy.symm hpoint.2
    · exact h.done m q x hm
  · rw [hq, ht]
    rcases hold hm with ⟨rfl, rfl, -, -⟩ | ⟨-, hm⟩
    · exact hhead
    · exact h.head m q x y hm hy
  · rw [hq] at hm
    rw [ht] at hturn
    rw [hstatus]
    split
    · rename_i hmn
      subst hmn
      obtain ⟨x, y, hx, -⟩ := (h.mem q m).mp (List.mem_of_mem_head? hm)
      simp only [hn, Option.some.injEq, Prod.mk.injEq] at hx
      exact ⟨state', point', by rw [hx.1], hpoint.1⟩
    · exact h.starts q m he hm hturn

theorem statusOf_setInstall {n : Nat} {i : Install} (hi : s.installs[n]? = some i) (i' : Install)
    (m : Nat) : (s.setInstall n i').statusOf m =
      if m = n then some (i'.platform, i'.state, i'.point) else s.statusOf m :=
  map_getElem?_set hi _ m

/-- A started run waits for something else. -/
theorem QueuesOk.waits (h : QueuesOk e s) {n : Nat} {point : RunPoint}
    {state : InstallState → InstallState} (hn : (s.pointOf n).any RunPoint.isRun = true)
    (hrun : point.isRun = true) (hstate : ∀ x, x ≠ .waiting → state x ≠ .waiting) :
    QueuesOk e (s.waitAt n point state) := by
  unfold waitAt
  split
  · rename_i i hi
    have hpoint : i.point.isRun = true := by simpa [pointOf, hi] using hn
    have hstatus : s.statusOf n = some (i.platform, i.state, i.point) := by simp [statusOf, hi]
    have hnot := RunPoint.isRun_iff.mp hpoint
    have hwait : i.state ≠ .waiting := fun hw => hnot.1 ((h.unstarted n _ _ _ hstatus).mp hw)
    exact h.moves hstatus (h.head n _ _ _ hstatus hpoint) hnot.2 hrun (hstate _ hwait)
      (statusOf_setInstall hi _) rfl rfl
  · exact h

theorem QueuesOk.checks (h : QueuesOk e s) {n : Nat}
    (hn : (s.pointOf n).any RunPoint.isRun = true) : QueuesOk e (s.checkStillNeeded n) := by
  unfold checkStillNeeded
  split
  · rename_i i hi
    have hpoint : i.point.isRun = true := by simpa [pointOf, hi] using hn
    have hstatus : s.statusOf n = some (i.platform, i.state, i.point) := by simp [statusOf, hi]
    have hnot := RunPoint.isRun_iff.mp hpoint
    have hwait : i.state ≠ .waiting := fun hw => hnot.1 ((h.unstarted n _ _ _ hstatus).mp hw)
    have hrun : (((checkNext s.calls i.calls).1.map RunPoint.checking).getD .checked).isRun = true := by
      cases (checkNext s.calls i.calls).1 <;> rfl
    exact h.moves hstatus (h.head n _ _ _ hstatus hpoint) hnot.2 hrun hwait
      (statusOf_setInstall hi _) rfl rfl
  · exact h

/-- Pumping a platform starts its head, when it can be. -/
theorem QueuesOk.pump {platform : Platform} (h : QueuesOk (some platform) s) :
    QueuesOk none (s.pump platform) := by
  have hweak : (∀ n, (s.queues platform).head? = some n → s.turns platform = none →
      ∃ state point, s.statusOf n = some (platform, state, point) ∧ point ≠ .unstarted) →
      QueuesOk none s := by
    intro hstart
    refine ⟨h.nodup, h.mem, h.unstarted, h.done, h.head, fun q n _ hn ht => ?_⟩
    by_cases hq : q = platform
    · subst hq
      exact hstart n hn ht
    · exact h.starts q n (fun he => hq (Option.some.inj he).symm) hn ht
  unfold ComponentInstaller.pump
  split
  · rename_i n hhead
    obtain ⟨x, y, hstatus, hover⟩ := (h.mem platform n).mp (List.mem_of_mem_head? hhead)
    split
    · rename_i i hi
      simp only [statusOf, hi, Option.map_some, Option.some.injEq, Prod.mk.injEq] at hstatus
      obtain ⟨hplatform, rfl, rfl⟩ := hstatus
      have hstatus : s.statusOf n = some (platform, i.state, i.point) := by
        simp [statusOf, hi, hplatform]
      split
      · rename_i hcond
        have hi' : (s.setInstall n { i with state := .front }).installs[n]? =
            some { i with state := .front } := by
          have hn : n < s.installs.length := (List.getElem?_eq_some_iff.mp hi).1
          simp [setInstall, hn]
        have hmoved : ∀ m, ((s.setInstall n { i with state := .front }).checkStillNeeded n).statusOf m
            = if m = n then some (platform, .front,
              ((checkNext s.calls i.calls).1.map RunPoint.checking).getD .checked)
              else s.statusOf m := by
          intro m
          simp only [checkStillNeeded, hi']
          refine (statusOf_setInstall hi' _ m).trans ?_
          rw [statusOf_setInstall hi]
          split
          · rw [← hplatform]
            rfl
          · rfl
        have hrun : (((checkNext s.calls i.calls).1.map RunPoint.checking).getD
            .checked).isRun = true := by
          cases (checkNext s.calls i.calls).1 <;> rfl
        have hq : ((s.setInstall n { i with state := .front }).checkStillNeeded n).queues = s.queues ∧
            ((s.setInstall n { i with state := .front }).checkStillNeeded n).turns = s.turns := by
          simp only [checkStillNeeded, hi']
          exact ⟨rfl, rfl⟩
        have hfront : InstallState.front ≠ .waiting := nofun
        have hmid : QueuesOk (some platform)
            ((s.setInstall n { i with state := .front }).checkStillNeeded n) :=
          h.moves hstatus ⟨hhead, hcond.2⟩ hover hrun hfront hmoved hq.1 hq.2
        refine ⟨hmid.nodup, hmid.mem, hmid.unstarted, hmid.done, hmid.head,
          fun q m _ hm ht => ?_⟩
        by_cases hqp : q = platform
        · subst hqp
          rw [hq.1, hhead] at hm
          obtain rfl := Option.some.inj hm
          exact ⟨_, _, (hmoved n).trans (if_pos rfl), (RunPoint.isRun_iff.mp hrun).1⟩
        · exact hmid.starts q m (fun he => hqp (Option.some.inj he).symm) hm ht
      · rename_i hcond
        refine hweak fun m hm ht => ?_
        rw [hhead] at hm
        obtain rfl := Option.some.inj hm
        refine ⟨_, _, hstatus, fun hpoint => hcond ⟨?_, ht⟩⟩
        exact (h.unstarted n _ _ _ hstatus).mpr hpoint
    · rename_i hi
      simp [statusOf, hi] at hstatus
  · rename_i hnone
    exact hweak fun n hn _ => by simp [hnone] at hn

/-- A run that is over leaves the queue, and the next head starts. -/
theorem QueuesOk.finishes (h : QueuesOk none s) {n : Nat}
    (hn : (s.pointOf n).any RunPoint.isRun = true) : QueuesOk none (s.finish n) := by
  unfold finish
  split
  · rename_i i hi
    refine QueuesOk.pump ?_
    have hpoint : i.point.isRun = true := by simpa [pointOf, hi] using hn
    have hstatus : s.statusOf n = some (i.platform, i.state, i.point) := by simp [statusOf, hi]
    obtain ⟨hhead, hturn⟩ := h.head n _ _ _ hstatus hpoint
    have hset := statusOf_setInstall hi { i with state := .ended, point := .over }
    have hother : ∀ {m q x y}, s.statusOf m = some (q, x, y) → y.isRun = true → m ≠ n →
        q ≠ i.platform := by
      rintro m q x y hm hy hmn rfl
      obtain ⟨hhead', -⟩ := h.head m _ _ _ hm hy
      exact hmn (Option.some.inj (hhead'.symm.trans hhead))
    refine ⟨fun q => ?_, fun q m => ?_, fun m q x y hm => ?_, fun m q x hm => ?_,
      fun m q x y hm hy => ?_, fun q m he hm ht => ?_⟩
    · by_cases hq : q = i.platform
      · subst hq
        simpa using (h.nodup i.platform).erase n
      · simpa [hq] using h.nodup q
    · refine Iff.trans ?_ (iff_of_eq (congrArg (fun v => ∃ state point, v = some (q, state, point) ∧
        point ≠ .over) (hset m).symm))
      by_cases hmn : m = n
      · subst hmn
        by_cases hq : q = i.platform
        · subst hq
          simp [(h.nodup i.platform).mem_erase_iff]
        · have hnot : m ∉ s.queues q := by
            rw [h.mem, hstatus]
            rintro ⟨x, y, hxy, -⟩
            simp only [Option.some.injEq, Prod.mk.injEq] at hxy
            exact hq hxy.1.symm
          simp [hq, hnot]
      · by_cases hq : q = i.platform
        · subst hq
          simp [List.mem_erase_of_ne hmn, hmn, h.mem]
        · simp [hq, hmn, h.mem]
    · replace hm := (hset m).symm.trans hm
      split at hm
      · simp only [Option.some.injEq, Prod.mk.injEq] at hm
        obtain ⟨-, rfl, rfl⟩ := hm
        simp
      · exact h.unstarted m q x y hm
    · replace hm := (hset m).symm.trans hm
      split at hm
      · simp only [Option.some.injEq, Prod.mk.injEq] at hm
        exact hm.2.1.symm
      · exact h.done m q x hm
    · replace hm := (hset m).symm.trans hm
      split at hm
      · simp only [Option.some.injEq, Prod.mk.injEq] at hm
        obtain ⟨-, -, rfl⟩ := hm
        cases hy
      · rename_i hmn
        have hq := hother hm hy hmn
        obtain ⟨hhead', hturn'⟩ := h.head m q x y hm hy
        exact ⟨by simpa [hq] using hhead', hturn'⟩
    · have hq : q ≠ i.platform := fun hq => he (congrArg some hq.symm)
      have hm' : (s.queues q).head? = some m := by simpa [hq] using hm
      obtain ⟨x, y, hxy, hy⟩ := h.starts q m nofun hm' ht
      refine ⟨x, y, (hset m).trans ((if_neg ?_).trans hxy), hy⟩
      rintro rfl
      simp only [hstatus, Option.some.injEq, Prod.mk.injEq] at hxy
      exact hq hxy.1.symm
  · exact h

theorem QueuesOk.goesOn (h : QueuesOk none s) {n : Nat} {point : RunPoint}
    {state : InstallState → InstallState} (hn : (s.pointOf n).any RunPoint.isRun = true)
    (hrun : point.isRun = true) (hstate : ∀ x, x ≠ .waiting → state x ≠ .waiting) :
    QueuesOk none (s.goOn n point state) := by
  unfold goOn
  split
  · exact h.finishes hn
  · exact h.waits hn hrun hstate

theorem pointOf_settleAll (n m : Nat) (result : InstallEnd) (settledBy : SettledBy) :
    (s.settleAll n result settledBy).pointOf m = s.pointOf m := by
  have hstatus := (sameQueues_settleAll (s := s) n result settledBy).statusOf m
  have hpoint : ∀ t : ComponentInstaller, t.pointOf m = (t.statusOf m).map fun x => x.2.2 := by
    intro t
    simp only [pointOf, statusOf]
    cases t.installs[m]? <;> rfl
  rw [hpoint, hpoint, hstatus]

theorem QueuesOk.endsRun (h : QueuesOk none s) {n : Nat} (result : InstallEnd)
    (hn : (s.pointOf n).any RunPoint.isRun = true) : QueuesOk none (s.endRun n result) :=
  (h.same (sameQueues_settleAll n result _)).finishes (by rw [pointOf_settleAll]; exact hn)

/-! ### Calls from outside -/

/-- A new install waits at the end of its queue, or is the head to start. -/
theorem QueuesOk.enqueues (h : QueuesOk none s) (request : InstallRequest) (now : Int) :
    QueuesOk (some request.platform) (s.enqueue request now) := by
  have hstatus : ∀ m, (s.enqueue request now).statusOf m = if m = s.installs.length then
      some (request.platform, .waiting, .unstarted) else s.statusOf m :=
    map_getElem?_append_one s.installs _ _
  have hnone : s.statusOf s.installs.length = none := by simp [statusOf]
  have hfresh : ∀ platform, s.installs.length ∉ s.queues platform := by
    intro platform
    rw [h.mem, hnone]
    rintro ⟨_, _, he, -⟩
    cases he
  have hold : ∀ {m v}, s.statusOf m = some v → m ≠ s.installs.length := by
    rintro m v hm rfl
    simp [hnone] at hm
  refine ⟨fun q => ?_, fun q m => ?_, fun m q x y hm => ?_, fun m q x hm => ?_,
    fun m q x y hm hy => ?_, fun q m he hm ht => ?_⟩
  · by_cases hq : q = request.platform
    · subst hq
      simp only [enqueue, Function.update_self]
      refine List.nodup_append.mpr ⟨h.nodup _, List.nodup_singleton _, ?_⟩
      rintro a ha b hb rfl
      exact hfresh _ (List.mem_singleton.mp hb ▸ ha)
    · simpa [enqueue, hq] using h.nodup q
  · rw [hstatus]
    by_cases hm : m = s.installs.length
    · subst hm
      by_cases hq : q = request.platform
      · subst hq
        simp [enqueue]
      · simp [enqueue, hq, hfresh, Ne.symm hq]
    · by_cases hq : q = request.platform
      · subst hq
        simp [enqueue, hm, h.mem]
      · simp [enqueue, hq, hm, h.mem]
  · rw [hstatus] at hm
    split at hm
    · simp only [Option.some.injEq, Prod.mk.injEq] at hm
      obtain ⟨-, rfl, rfl⟩ := hm
      simp
    · exact h.unstarted m q x y hm
  · rw [hstatus] at hm
    split at hm
    · simp at hm
    · exact h.done m q x hm
  · rw [hstatus] at hm
    split at hm
    · simp only [Option.some.injEq, Prod.mk.injEq] at hm
      obtain ⟨-, -, rfl⟩ := hm
      cases hy
    · obtain ⟨hhead, hturn⟩ := h.head m q x y hm hy
      refine ⟨?_, hturn⟩
      by_cases hq : q = request.platform
      · subst hq
        simp [enqueue, List.head?_append, hhead]
      · simpa [enqueue, hq] using hhead
  · have hq : q ≠ request.platform := fun hq => he (congrArg some hq.symm)
    have hm' : (s.queues q).head? = some m := by simpa [enqueue, hq] using hm
    obtain ⟨x, y, hxy, hy⟩ := h.starts q m nofun hm' ht
    exact ⟨x, y, (hstatus m).trans ((if_neg (hold hxy)).trans hxy), hy⟩

theorem QueuesOk.installs (h : QueuesOk none s) (request : InstallRequest) (now : Int) :
    QueuesOk none (s.install p request now) := by
  unfold ComponentInstaller.install
  split
  · exact h.same (.of_same rfl rfl rfl)
  · split
    · split
      · exact ((h.same (sameQueues_admitRequest request now _)).except _).pump
      · exact ((h.enqueues request now).same (sameQueues_admitRequest request now _)).pump
    · exact h.same (.of_same rfl rfl rfl)

/-- A running install that its first deadline ends keeps its place until its driver returns. -/
theorem QueuesOk.expires (h : QueuesOk none s) (c : Nat) (now : Int) :
    QueuesOk none (s.expire c now) := by
  unfold ComponentInstaller.expire
  split
  · split
    · split
      · split
        · rename_i n _ _ i hi
          have hstatus : s.statusOf n = some (i.platform, i.state, i.point) := by simp [statusOf, hi]
          split
          · rename_i hrunning
            refine QueuesOk.same ?_ (sameQueues_settleAll _ _ _)
            have hpoint : i.point.isRun = true := by
              refine RunPoint.isRun_iff.mpr ⟨fun hun => ?_, fun hov => ?_⟩
              · have hw := (h.unstarted n _ _ _ hstatus).mpr hun
                simp [hrunning] at hw
              · have he := h.done n _ _ (hov ▸ hstatus)
                simp [hrunning] at he
            have hended : InstallState.ended ≠ .waiting := nofun
            exact h.moves hstatus (h.head n _ _ _ hstatus hpoint) (RunPoint.isRun_iff.mp hpoint).2
              hpoint hended (statusOf_setInstall hi _) rfl rfl
          · exact h.same (sameQueues_settle _ _ _ _)
        · exact h
      · exact h
    · exact h
  · exact h

/-! ### Removals -/

/-- A removal takes a turn that nothing uses. -/
theorem QueuesOk.takes (h : QueuesOk none s) {platform : Platform} {m : Nat} (x : Removal)
    (hempty : s.queues platform = []) :
    QueuesOk none { s.setRemoval m x with turns := Function.update s.turns platform (some m) } := by
  refine ⟨h.nodup, h.mem, h.unstarted, h.done, fun n q y z hn hz => ?_, fun q n he hn ht => ?_⟩
  · obtain ⟨hhead, hturn⟩ := h.head n q y z hn hz
    have hq : q ≠ platform := by
      rintro rfl
      simp [hempty] at hhead
    exact ⟨hhead, by simpa [hq] using hturn⟩
  · have hq : q ≠ platform := by
      rintro rfl
      have hn' : (s.queues q).head? = some n := hn
      simp [hempty] at hn'
    exact h.starts q n he hn (by simpa [hq] using ht)

/-- The turn is back, and the head of the queue starts. -/
theorem QueuesOk.gives (h : QueuesOk none s) (m : Nat) (x : Removal) (how : RemovalEnd) :
    QueuesOk none (s.endRemoval m x how) := by
  refine QueuesOk.pump ⟨h.nodup, h.mem, h.unstarted, h.done, fun n q y z hn hz => ?_,
    fun q n he hn ht => ?_⟩
  · obtain ⟨hhead, hturn⟩ := h.head n q y z hn hz
    refine ⟨hhead, ?_⟩
    by_cases hq : q = x.platform
    · simp [hq]
    · simpa [hq] using hturn
  · have hq : q ≠ x.platform := fun hq => he (congrArg some hq.symm)
    exact h.starts q n nofun hn (by simpa [hq] using ht)

theorem QueuesOk.removes (h : QueuesOk none s) (m : Nat) (listing : Answer (List DriverComponent))
    (driver : Answer Unit) (now : Int) (writable : Bool) :
    QueuesOk none (s.removes o m listing driver now writable) := by
  have hset : ∀ x, QueuesOk none (s.setRemoval m x) := fun _ => h.same (.of_same rfl rfl rfl)
  unfold ComponentInstaller.removes
  split
  · dsimp only
    split
    · unfold listed
      split
      · exact hset _
      · split
        · exact hset _
        · dsimp only
          split
          · exact hset _
          · exact hset _
    · unfold takeTurn
      dsimp only
      split
      · exact hset _
      · split
        · exact hset _
        · rename_i hbusy
          split
          · exact hset _
          · exact h.takes _ (by simpa using (not_or.mp hbusy).1)
    · unfold counted
      dsimp only
      split
      · exact hset _
      · exact hset _
    · split
      · exact hset _
      · exact hset _
    · split
      · exact h.same (.of_same rfl rfl rfl)
      · exact hset _
    · exact h.gives _ _ _
    · exact h
  · exact h

/-! ### Steps -/

theorem isRun_of {n : Nat} {point : RunPoint} (hn : s.pointOf n = some point)
    (hrun : point.isRun = true) : (s.pointOf n).any RunPoint.isRun = true := by
  rw [hn]
  exact hrun

theorem QueuesOk.answers (h : QueuesOk none s) (n : Nat) (answer : Answer Bool) :
    QueuesOk none (s.answered n answer) := by
  unfold answered
  split
  · rename_i c hn
    have hrun := isRun_of hn rfl
    have hsettled : ∀ result, QueuesOk none
        ((s.settle n c result .stillNeeded).checkStillNeeded n) := by
      intro result
      have hsame := sameQueues_settle (s := s) n c result .stillNeeded
      refine (h.same hsame).checks ?_
      have hpoint : ∀ t : ComponentInstaller, t.pointOf n = (t.statusOf n).map fun x => x.2.2 := by
        intro t
        simp only [pointOf, statusOf]
        cases t.installs[n]? <;> rfl
      rw [hpoint, hsame.statusOf, ← hpoint]
      exact hrun
    split
    · exact h.checks hrun
    · exact hsettled _
    · exact hsettled _
  · exact h

theorem QueuesOk.recordeds (h : QueuesOk none s) (n : Nat) (now : Int) (receipt : Entries)
    (writable : Bool) : QueuesOk none (s.recorded o n now receipt writable) := by
  unfold recorded
  split
  · rename_i i hi
    split
    · rename_i version hpoint
      have hn : s.pointOf n = some (.recording version) := by simp [pointOf, hi, hpoint]
      have hrun := isRun_of hn rfl
      split
      · split
        · rename_i r _
          split
          · have hr : QueuesOk none { s with registry := r } := h.same (.of_same rfl rfl rfl)
            refine (hr.same (sameQueues_settleAll n _ _)).waits ?_ rfl fun _ hx => hx
            rw [pointOf_settleAll]
            exact hrun
          · exact h.endsRun _ hrun
        · exact h.endsRun _ hrun
      · exact h.endsRun _ hrun
    · exact h
  · exact h

theorem QueuesOk.step (h : QueuesOk none s) (a : Action) : QueuesOk none (s.step o p a) := by
  cases a with
  | install request now => exact h.installs request now
  | answered n answer => exact h.answers n answer
  | checksDone n =>
    simp only [ComponentInstaller.step, checksDone]
    split
    · rename_i hn
      exact h.goesOn (isRun_of hn rfl) rfl fun _ hx => hx
    · exact h
  | found n answer =>
    simp only [ComponentInstaller.step, found]
    split
    · rename_i hn
      have hrun := isRun_of hn rfl
      split
      · exact h.goesOn hrun rfl fun _ hx => hx
      · exact h.endsRun _ hrun
      · exact h.endsRun _ hrun
    · exact h
  | reserved n answer =>
    simp only [ComponentInstaller.step, reserved]
    split
    · rename_i hn
      have hrun := isRun_of hn rfl
      split
      · exact h.goesOn hrun rfl fun _ _ => nofun
      · exact h.endsRun _ hrun
    · exact h
  | drove n answer =>
    simp only [ComponentInstaller.step, drove]
    split
    · rename_i hn
      have hrun := isRun_of hn rfl
      split
      · refine h.waits hrun rfl fun x hx => ?_
        split
        · nofun
        · exact hx
      · refine (h.same (sameQueues_settleAll n _ _)).waits ?_ rfl fun _ hx => hx
        rw [pointOf_settleAll]
        exact hrun
      · exact h.endsRun _ hrun
    · exact h
  | recorded n now receipt writable => exact h.recordeds n now receipt writable
  | driverDone n =>
    simp only [ComponentInstaller.step, driverDone]
    split
    · rename_i hn
      exact h.finishes (isRun_of hn rfl)
    · exact h
  | expire c now => exact h.expires c now
  | close => exact h.same sameQueues_close
  | remove platform version dryRun =>
    simp only [ComponentInstaller.step, remove]
    split
    · exact h.same (.of_same rfl rfl rfl)
    · split
      · split
        · exact h.same (.of_same rfl rfl rfl)
        · exact h.same (.of_same rfl rfl rfl)
      · exact h.same (.of_same rfl rfl rfl)
  | removes m listing driver now writable => exact h.removes m listing driver now writable
  | provision spec => exact h.same (.of_same rfl rfl rfl)
  | provisions k baselineKnown driver id driverDeviceId now writable =>
    have hsame : SameQueues s (s.provisions_ o k baselineKnown driver id driverDeviceId now
        writable) := by
      unfold provisions_
      split
      · split
        · split
          · exact .of_same rfl rfl rfl
          · exact .of_same rfl rfl rfl
        · split
          · exact .of_same rfl rfl rfl
          · exact .of_same rfl rfl rfl
        · split
          · split
            · exact .of_same rfl rfl rfl
            · exact .of_same rfl rfl rfl
          · exact .of_same rfl rfl rfl
        · exact .refl s
      · exact .refl s
    exact h.same hsame
  | other c now =>
    cases c <;> exact h.same (.of_same rfl rfl rfl)

theorem queuesOk_start (r : Registry) : QueuesOk none (start r) := by
  have hnone : ∀ n, (start r).statusOf n = none := fun n => by simp [statusOf, start]
  refine ⟨fun _ => .nil, fun platform n => ?_, fun n _ _ _ h => ?_, fun n _ _ h => ?_,
    fun n _ _ _ h => ?_, fun _ _ _ h => by cases h⟩
  · rw [hnone]
    simp [start]
  · simp [hnone] at h
  · simp [hnone] at h
  · simp [hnone] at h

theorem queuesOk_run (o : RegistryOptions) (p : InstallerOptions) (r : Registry)
    (acts : List Action) : QueuesOk none (run (step o p) (start r) acts) :=
  run_invariant (I := QueuesOk none) (fun _ a h => h.step a) acts (start r) (queuesOk_start r)

end ComponentInstaller

end Simlock.Worker
